import PoolControl.Proofs.Pool.Conservation
import PoolControl.Proofs.Pool.Staffing

/-! # Shutdown is final

A pool that was shut down turns every task away, but its workers go on: those that were started for
a task still begin it, and after a graceful shutdown they work the queue off. Settings may even
start more of them. `WindsDown` is what can become of a stopped pool, whatever happens to it. It is
reflexive and transitive, so one lemma for each kind of event gives it for every continuation.

In the end no worker is left, and then none is started any more (`shutdown_final`). -/

namespace PoolControl

/-- The task that a worker in this phase was started for and has not begun. -/
def Phase.assigned? : Phase → Option Task
  | assigned t => some t
  | _ => none

namespace Pool

/-- The tasks that workers were started for and have not begun. -/
def assigned (p : Pool) : List Task := p.workers.filterMap (·.phase.assigned?)

variable {p q : Pool} {s t u : InUse}

/-! ### What a step begins -/

theorem Sound.assigned_setPhase (h : p.Sound) {w : Worker} (hw : w ∈ p.workers) (phase : Phase)
    (ha : w.phase.assigned? = none) (ha' : phase.assigned? = none) :
    (p.setPhase w.id phase).assigned = p.assigned := by
  obtain ⟨before, after, heq, -, hphase⟩ := h.exists_split hw
  simp only [assigned, hphase, heq, List.filterMap_append, List.filterMap_cons, ha, ha']

theorem Sound.assigned_removeWorker (h : p.Sound) {w : Worker} (hw : w ∈ p.workers)
    (ha : w.phase.assigned? = none) : (p.removeWorker w.id).assigned = p.assigned := by
  obtain ⟨before, after, heq, hrest, -⟩ := h.exists_split hw
  simp only [assigned, hrest, heq, List.filterMap_append, List.filterMap_cons, ha]

theorem Sound.assigned_launch (h : p.Sound) {id : Nat} {x : Task}
    (hw : ⟨id, .assigned x⟩ ∈ p.workers) :
    p.assigned.Perm (x :: (p.setPhase id (.running x)).assigned) := by
  rw [List.perm_iff_count]
  intro y
  have hy := h.count_filterMap_setPhase hw (.running x) Phase.assigned? y
  simp only [Phase.assigned?, Option.toList, List.count_nil, List.count_singleton,
    Nat.add_zero] at hy
  simp only [assigned, Phase.assigned?, List.count_cons]
  omega

/-- **What a worker begins in a step** is the task that it was started for, or the first of the
queue, or none. -/
theorem Sound.runs?_stepped (h : p.Sound) {clock : Clock} {w : Worker} (hw : w ∈ p.workers)
    (hs : Stepped p clock w q) :
    (∃ x, q.runs? w.id = some x ∧ q.queue.items = p.queue.items ∧
      p.assigned.Perm (x :: q.assigned)) ∨
    (∃ x, q.runs? w.id = some x ∧ p.queue.items = x :: q.queue.items ∧
      q.assigned = p.assigned) ∨
    (q.runs? w.id = none ∧ q.queue.items = p.queue.items ∧ q.assigned = p.assigned) := by
  have hruns : ∀ {phase : Phase}, q.workers = (p.setPhase w.id phase).workers →
      q.runs? w.id = phase.running? := (h.stepped hw hs).runs?_setPhase hw
  cases hs with
  | begins id x => exact Or.inl ⟨x, hruns rfl, rfl, h.assigned_launch hw⟩
  | arrives id => exact Or.inr (Or.inr ⟨hruns rfl, rfl, h.assigned_setPhase hw _ rfl rfl⟩)
  | reports id x => exact Or.inr (Or.inr ⟨hruns rfl, rfl, h.assigned_setPhase hw _ rfl rfl⟩)
  | fetches id since x items hi =>
    exact Or.inr (Or.inl ⟨x, hruns rfl, hi, h.assigned_setPhase hw _ rfl rfl⟩)
  | leaves id since hi why =>
    refine Or.inr (Or.inr ⟨?_, rfl, h.assigned_removeWorker hw rfl⟩)
    rw [runs?, worker?_removeWorker]
    rfl
  | looksAgain id since hi hp =>
    exact Or.inr (Or.inr ⟨hruns rfl, rfl, h.assigned_setPhase hw _ rfl rfl⟩)
  | parks id since deadline hi hp hr hm he =>
    exact Or.inr (Or.inr ⟨hruns rfl, rfl, h.assigned_setPhase hw _ rfl rfl⟩)
  | obtains id since x items hi hd =>
    refine Or.inr (Or.inl ⟨x, hruns rfl, ?_, h.assigned_setPhase hw _ rfl rfl⟩)
    show _ = x :: (p.queue.resume id).2.items
    rw [TaskQueue.items_resume, hi]
    rfl
  | wakes id since hi hd =>
    refine Or.inr (Or.inr ⟨hruns rfl, ?_, h.assigned_setPhase hw _ rfl rfl⟩)
    show (p.queue.resume id).2.items = _
    rw [TaskQueue.items_resume, hi]
    rfl

theorem Stepped.running_eq {clock : Clock} {w : Worker} (h : Stepped p clock w q) :
    q.running = p.running := by
  cases h <;> rfl

/-! ### Winding down -/

/-- **What becomes of a pool that is shut down**: workers take tasks off the front of the queue, in
order, and begin these and tasks that they were started for (`handed`), and no others. No task
enters, and none is dropped. -/
structure Unwinds (taken handed since : List Task) (s t : InUse) : Prop where
  running_eq : t.pool.running = false
  items_eq : s.pool.queue.items = taken ++ t.pool.queue.items
  assigned_perm : s.pool.assigned.Perm (handed ++ t.pool.assigned)
  started_eq : t.ledger.started = s.ledger.started ++ since
  in_order : taken.Sublist since
  since_perm : since.Perm (taken ++ handed)
  entered_eq : t.ledger.entered = s.ledger.entered
  dropped_eq : t.ledger.dropped = s.ledger.dropped

/-- The one state unwinds to the other, by some tasks. -/
def WindsDown (s t : InUse) : Prop := ∃ taken handed since, Unwinds taken handed since s t

theorem WindsDown.of_eq (hr : t.pool.running = false)
    (hi : t.pool.queue.items = s.pool.queue.items) (ha : t.pool.assigned = s.pool.assigned)
    (hs : t.ledger.started = s.ledger.started) (he : t.ledger.entered = s.ledger.entered)
    (hd : t.ledger.dropped = s.ledger.dropped) : WindsDown s t := by
  refine ⟨[], [], [], hr, hi.symm, ?_, ?_, .refl _, .refl _, he, hd⟩
  · rw [ha]
    exact .refl _
  · rw [hs, List.append_nil]

theorem WindsDown.running_eq (h : WindsDown s t) : t.pool.running = false := by
  obtain ⟨taken, handed, since, h⟩ := h
  exact h.running_eq

theorem WindsDown.items_suffix (h : WindsDown s t) :
    t.pool.queue.items <:+ s.pool.queue.items := by
  obtain ⟨taken, handed, since, h⟩ := h
  exact ⟨taken, h.items_eq.symm⟩

theorem WindsDown.refl (hr : s.pool.running = false) : WindsDown s s :=
  .of_eq hr rfl rfl rfl rfl rfl

theorem WindsDown.trans (h : WindsDown s t) (h' : WindsDown t u) : WindsDown s u := by
  obtain ⟨taken, handed, since, h⟩ := h
  obtain ⟨taken', handed', since', h'⟩ := h'
  refine ⟨taken ++ taken', handed ++ handed', since ++ since', h'.running_eq, ?_, ?_, ?_,
    h.in_order.append h'.in_order, ?_, h'.entered_eq.trans h.entered_eq,
    h'.dropped_eq.trans h.dropped_eq⟩
  · rw [h.items_eq, h'.items_eq, List.append_assoc]
  · rw [List.append_assoc]
    exact h.assigned_perm.trans (h'.assigned_perm.append_left handed)
  · rw [h'.started_eq, h.started_eq, List.append_assoc]
  · have hp := h.since_perm
    have hp' := h'.since_perm
    simp only [List.perm_iff_count, List.count_append] at hp hp' ⊢
    intro x
    have hx := hp x
    have hx' := hp' x
    omega

theorem InUse.windsDown_work (hp : s.pool.Sound) (hr : s.pool.running = false) {w : Worker}
    (hw : w ∈ s.pool.workers) (hs : Stepped s.pool s.clock w (s.work w).pool) :
    WindsDown s (s.work w) := by
  have hr' : (s.work w).pool.running = false := hs.running_eq.trans hr
  have hstarted : (s.work w).ledger.started =
      s.ledger.started ++ ((s.work w).pool.runs? w.id).toList := rfl
  rcases hp.runs?_stepped hw hs with ⟨x, hx, hi, ha⟩ | ⟨x, hx, hi, ha⟩ | ⟨hx, hi, ha⟩
  · rw [hx] at hstarted
    exact ⟨[], [x], [x], hr', hi.symm, ha, hstarted, List.nil_sublist _, .refl _, rfl, rfl⟩
  · rw [hx] at hstarted
    refine ⟨[x], [], [x], hr', hi, ?_, hstarted, .refl _, .refl _, rfl, rfl⟩
    rw [ha]
    exact .refl _
  · rw [hx] at hstarted
    exact .of_eq hr' hi ha (hstarted.trans (List.append_nil _)) rfl rfl

theorem Retuned.assigned_eq (h : Retuned p q) : q.assigned = p.assigned := by
  obtain ⟨fresh, hw, hphase⟩ := h.workers_eq
  have hnone : fresh.filterMap (·.phase.assigned?) = [] := by
    rw [List.filterMap_eq_nil_iff]
    intro w hm
    rw [hphase w hm]
    rfl
  rw [assigned, hw, List.filterMap_append, hnone, List.append_nil]
  rfl

theorem submit_of_stopped (hr : p.running = false) (x : Task) : p.submit x = (.stopped, p) := by
  simp [Pool.submit, hr]

/-- **Every event leaves a stopped pool winding down.** -/
theorem Happens.windsDown (h : Happens s t) (hp : s.pool.Sound) (hr : s.pool.running = false) :
    WindsDown s t := by
  cases h with
  | submit x =>
    rw [InUse.submit, submit_of_stopped hr]
    refine .of_eq hr rfl rfl rfl ?_ rfl
    rw [Ledger.entered_answer, if_pos rfl, List.append_nil]
  | work w hw hs => exact InUse.windsDown_work hp hr hw hs
  | finish id =>
    rcases s.pool.finish_cases id with he | ⟨x, hw, he⟩
    · rw [he]
      exact .refl hr
    · rw [he]
      exact .of_eq hr rfl (hp.assigned_setPhase hw (.finished x) rfl rfl) rfl rfl rfl
  | retune p h =>
    exact .of_eq (h.running_eq.trans hr) h.sameTasks.items h.assigned_eq rfl rfl rfl
  | stop hrun =>
    rw [hr] at hrun
    cases hrun
  | advance timer wall => exact .of_eq hr rfl rfl rfl rfl rfl

theorem Reach.windsDown : ∀ {es : List Event} {s t : InUse}, Reach s → s.pool.running = false →
    s.follow? es = some t → WindsDown s t
  | [], s, t, h, hr, he => by
    cases he
    exact .refl hr
  | e :: es, s, t, h, hr, he => by
    unfold InUse.follow? at he
    split_ifs at he with ok
    have hstep := (InUse.happens h.sound ok).windsDown h.sound hr
    exact hstep.trans ((h.next e ok).windsDown hstep.running_eq he)

/-! ### The end -/

theorem Adjusted.size_eq_zero (h : Adjusted p q) (hs : p.size = 0) (hi : p.queue.items = []) :
    q.size = 0 := by
  cases h with
  | coreSize n =>
    rw [wakeIf_eq, show p.queue.size = 0 by simp [TaskQueue.size, hi], Nat.zero_min]
    exact hs
  | maxSize n => rw [wakeIf_eq]; exact hs
  | keepAlive span wake => rw [wakeIf_eq]; exact hs
  | coreTimeout allow wake => rw [wakeIf_eq]; exact hs
  | _ => exact hs

theorem Retuned.size_eq_zero (h : Retuned p q) (hs : p.size = 0) (hi : p.queue.items = []) :
    q.size = 0 := by
  have hboth : q.size = 0 ∧ q.queue.items = [] := by
    induction h with
    | refl => exact ⟨hs, hi⟩
    | tail _ hq ih =>
      have hadj := hq.adjusted
      exact ⟨hadj.size_eq_zero ih.1 ih.2, hadj.sameTasks.items.trans ih.2⟩
  exact hboth.1

theorem isTerminated_iff : p.isTerminated = true ↔ p.running = false ∧ p.size = 0 := by
  simp [isTerminated]

theorem Staffed.items_eq_nil (h : p.Staffed) (hs : p.size = 0) : p.queue.items = [] := by
  by_contra hi
  have hpos := h.manned hi
  omega

theorem Happens.isTerminated (h : Happens s t) (hp : s.pool.Sound) (hst : s.pool.Staffed)
    (hs : s.pool.isTerminated = true) : t.pool.isTerminated = true := by
  rw [isTerminated_iff] at hs ⊢
  obtain ⟨hr, hz⟩ := hs
  refine ⟨(h.windsDown hp hr).running_eq, ?_⟩
  cases h with
  | submit x =>
    rw [InUse.submit, submit_of_stopped hr]
    exact hz
  | work w hw hs =>
    have hlen := hp.size_eq
    rw [hz] at hlen
    exact absurd hw (List.eq_nil_of_length_eq_zero hlen.symm ▸ List.not_mem_nil)
  | finish id =>
    rcases s.pool.finish_cases id with he | ⟨x, -, he⟩
    · rw [he]
      exact hz
    · rw [he]
      exact hz
  | retune p h => exact h.size_eq_zero hz (hst.items_eq_nil hz)
  | stop hrun =>
    rw [hr] at hrun
    cases hrun
  | advance timer wall => exact hz

theorem Reach.isTerminated : ∀ {es : List Event} {s t : InUse}, Reach s →
    s.pool.isTerminated = true → s.follow? es = some t → t.pool.isTerminated = true
  | [], s, t, h, hs, he => by
    cases he
    exact hs
  | e :: es, s, t, h, hs, he => by
    unfold InUse.follow? at he
    split_ifs at he with ok
    have hnext := (InUse.happens h.sound ok).isTerminated h.sound h.staffed hs
    exact (h.next e ok).isTerminated hnext he

/-- In a settled state of a stopped pool nobody waits, so without a running task all is done. -/
theorem InUse.Settled.of_stopped (h : s.Settled) (hp : s.pool.Sound) (hst : s.pool.Staffed)
    (hr : s.pool.running = false) :
    (∀ w ∈ s.pool.workers, w.phase.isParked = false) ∧
      ((∀ w ∈ s.pool.workers, w.phase.running? = none) →
        s.pool.queue.items = [] ∧ s.pool.isTerminated = true) := by
  have hnone : ∀ w ∈ s.pool.workers, w.phase.isParked = false := by
    intro w hw
    rw [Bool.eq_false_iff]
    intro hpark
    have hrun := (hst.vigilant (h.idle hp hw hpark).2).1
    rw [hr] at hrun
    cases hrun
  refine ⟨hnone, fun hidle => ?_⟩
  have hz : s.pool.size = 0 := by
    rw [hp.size_eq, List.length_eq_zero_iff, List.eq_nil_iff_forall_not_mem]
    intro w hw
    rcases phase_of_canStep_eq_false (h w hw) with ⟨x, hx⟩ | ⟨hpark, -⟩
    · have hno := hidle w hw
      rw [hx] at hno
      cases hno
    · rw [hnone w hw] at hpark
      cases hpark
  exact ⟨hst.items_eq_nil hz, isTerminated_iff.mpr ⟨hr, hz⟩⟩

/-! ### A shutdown -/

theorem InUse.after_stop (hr : s.pool.running = true) :
    (s.after .stop).pool.running = false ∧ (s.after .stop).pool.assigned = s.pool.assigned ∧
      (s.after .stop).ledger.started = s.ledger.started ∧
      (s.after .stop).ledger.entered = s.ledger.entered ∧
      (s.pool.waitOnShutdown = true →
        (s.after .stop).pool.queue.items = s.pool.queue.items) ∧
      (s.pool.waitOnShutdown = false → (s.after .stop).pool.queue.items = [] ∧
        (s.after .stop).ledger.dropped = s.ledger.dropped ++ s.pool.queue.items) := by
  have hafter : s.after .stop = s.stop := by simp [InUse.after, hr]
  rw [hafter, InUse.stop, Pool.stop]
  cases s.pool.waitOnShutdown with
  | true => simp [assigned, Ledger.entered]
  | false => simp [assigned, Ledger.entered]

theorem InUse.Conserved.not_started (h : s.Conserved) {x : Task}
    (hone : s.ledger.entered.count x = 1) (hx : x ∈ s.ledger.dropped) :
    x ∉ s.ledger.started := by
  have he := h.entered x
  have hs := h.started x
  have hb := s.pool.count_begun_le x
  have hd := List.count_pos_iff.mpr hx
  rw [← List.count_eq_zero]
  omega

/-- **A shutdown is final and leaves nothing behind**, whatever happens after it. Every submission
is turned away, no event puts a task into the queue, and another shutdown changes nothing. If the
shutdown was not graceful, the queue is empty, and what is started then are tasks that a worker had
been started for, none of the drained ones. If it was graceful, the queued tasks are started in
order, all of them before the last worker has left. In a settled state no worker waits, so that
without a running task nothing is queued and the pool is terminated; and it stays so. -/
theorem shutdown_final {es : List Event} (h : Reach s) (hr : s.pool.running = true)
    (ht : (s.after .stop).follow? es = some t) :
    ((∀ x, (t.pool.submit x).1.error? t.pool.name = some (.stopped t.pool.name) ∧
        (t.after (.submit x)).pool = t.pool) ∧
      (∀ e, t.Allows e → (t.after e).pool.queue.items <:+ t.pool.queue.items) ∧
      t.after .stop = t) ∧
    (∃ since, t.ledger.started = s.ledger.started ++ since ∧
      (s.pool.waitOnShutdown = false →
        t.pool.queue.items = [] ∧ since.Subperm s.pool.assigned ∧
          ∀ x ∈ s.pool.queue.items, s.ledger.entered.count x = 1 → x ∉ t.ledger.started) ∧
      (s.pool.waitOnShutdown = true →
        (∃ taken handed, s.pool.queue.items = taken ++ t.pool.queue.items ∧
          taken.Sublist since ∧ since.Perm (taken ++ handed) ∧ handed.Subperm s.pool.assigned) ∧
        (t.pool.size = 0 → s.pool.queue.items.Sublist since))) ∧
    (t.Settled →
      (∀ w ∈ t.pool.workers, w.phase.isParked = false) ∧
        ((∀ w ∈ t.pool.workers, w.phase.running? = none) →
          t.pool.queue.items = [] ∧ t.pool.isTerminated = true)) ∧
    (t.pool.isTerminated = true →
      ∀ es' u, t.follow? es' = some u → u.pool.isTerminated = true) := by
  obtain ⟨hstopped, hassigned, hstarted, hentered, hkept, hdrained⟩ := InUse.after_stop hr
  have hs : Reach (s.after .stop) := h.next .stop trivial
  have hreach : Reach t := hs.follow ht
  obtain ⟨taken, handed, since, hd⟩ := hs.windsDown hstopped ht
  have hoff : t.pool.running = false := hd.running_eq
  have hitems := hd.items_eq
  have hhanded : handed.Subperm s.pool.assigned := by
    rw [← hassigned]
    exact (List.sublist_append_left _ _).subperm.trans hd.assigned_perm.symm.subperm
  refine ⟨⟨fun x => ?_, fun e ok => ?_, ?_⟩, ⟨since, ?_, fun hw => ?_, fun hw => ?_⟩,
    fun hset => hset.of_stopped hreach.sound hreach.staffed hoff,
    fun hterm es' u hu => hreach.isTerminated hterm hu⟩
  · rw [InUse.after, InUse.submit, submit_of_stopped hoff]
    exact ⟨rfl, rfl⟩
  · exact ((InUse.happens hreach.sound ok).windsDown hreach.sound hoff).items_suffix
  · simp only [InUse.after, hoff, Bool.false_eq_true, if_false]
  · rw [hd.started_eq, hstarted]
  · obtain ⟨hempty, hdropped⟩ := hdrained hw
    rw [hempty] at hitems
    obtain ⟨rfl, hnil⟩ := List.append_eq_nil_iff.mp hitems.symm
    refine ⟨hnil, hd.since_perm.subperm.trans hhanded, fun x hx hone => ?_⟩
    refine hreach.conserved.not_started ?_ ?_
    · rw [hd.entered_eq, hentered]
      exact hone
    · rw [hd.dropped_eq, hdropped]
      exact List.mem_append_right _ hx
  · rw [hkept hw] at hitems
    refine ⟨⟨taken, handed, hitems, hd.in_order, hd.since_perm, hhanded⟩, fun hz => ?_⟩
    rw [hitems, hreach.staffed.items_eq_nil hz, List.append_nil]
    exact hd.in_order

/-- Events of a pool with one core worker: it is started for the first task, and two more wait. -/
def filling : List Event :=
  [.submit ⟨"a", .gate⟩, .submit ⟨"b", .noop⟩, .submit ⟨"c", .noop⟩]

/-- After a graceful shutdown the worker begins its task, a raised core size starts another one for
the queue, and each of them leaves once nothing is queued. -/
def draining : List Event :=
  [.submit ⟨"d", .noop⟩, .work 0, .set (.coreSize 2), .work 1, .work 1, .finish 0, .work 0, .work 0,
    .finish 1, .work 1, .work 1, .stop, .finish 0, .work 0, .work 0]

theorem shutdown_final_draining :
    ∃ (p q : Pool) (s t s' t' : InUse),
      ofRecord { name := "pool", maxSize := 2, waitOnShutdown := true } = .ok p ∧
      ({ pool := p } : InUse).follow? filling = some s ∧ s.pool.running = true ∧
      s.pool.queue.items = [⟨"b", .noop⟩, ⟨"c", .noop⟩] ∧
      (s.after .stop).follow? draining = some t ∧
      t.ledger.started = [⟨"a", .gate⟩, ⟨"b", .noop⟩, ⟨"c", .noop⟩] ∧
      (∃ since, t.ledger.started = s.ledger.started ++ since ∧
        s.pool.queue.items.Sublist since) ∧
      t.pool.isTerminated = true ∧ (t.after (.set (.coreSize 1))).pool.isTerminated = true ∧
      ofRecord { name := "pool", maxSize := 1 } = .ok q ∧
      ({ pool := q } : InUse).follow? filling = some s' ∧
      (s'.after .stop).follow? draining = some t' ∧ t'.pool.queue.items = [] ∧
      t'.ledger.started = [⟨"a", .gate⟩] ∧ ⟨"b", .noop⟩ ∉ t'.ledger.started := by
  have hp : ofRecord { name := "pool", maxSize := 2, waitOnShutdown := true } = .ok _ := rfl
  have hq : ofRecord { name := "pool", maxSize := 1 } = .ok _ := rfl
  have hs := (Reach.start {} hp).follow (rfl : InUse.follow? _ filling = some _)
  have hs' := (Reach.start {} hq).follow (rfl : InUse.follow? _ filling = some _)
  obtain ⟨-, ⟨since, hsince, -, hkept⟩, -, hend⟩ :=
    shutdown_final hs rfl (rfl : InUse.follow? _ draining = some _)
  obtain ⟨-, ⟨since', -, hdrained, -⟩, -, -⟩ :=
    shutdown_final hs' rfl (rfl : InUse.follow? _ draining = some _)
  obtain ⟨hempty, -, hnever⟩ := hdrained rfl
  exact ⟨_, _, _, _, _, _, hp, rfl, rfl, rfl, rfl, rfl, ⟨since, hsince, (hkept rfl).2 rfl⟩, rfl,
    hend rfl [.set (.coreSize 1)] _ rfl, hq, rfl, rfl, hempty, rfl,
    hnever _ (by decide) (by decide)⟩

end Pool
end PoolControl
