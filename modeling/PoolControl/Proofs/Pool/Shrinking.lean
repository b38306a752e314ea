import PoolControl.Proofs.Pool.Rest
import PoolControl.Proofs.Pool.Slots

/-! # Idle workers leave

A worker that waits at the queue looks at the pool again after a second at the latest
(`Reach.rechecks`), and it goes by the tunables of that moment. So whatever the tunables were when
it began to wait, a keep-alive and a second later it has left, unless it is needed for the core size
(`idle_workers_leave`). Workers look one after the other, and each leaves one worker less for the
next to find. -/

namespace PoolControl.Pool

variable {p q : Pool} {clock : Clock} {w : Worker} {time : Nat} {s t u : InUse}

/-! ### Every waiting worker looks again -/

/-- Every worker at the queue waits until that time at most. -/
def RechecksBy (p : Pool) (time : Nat) : Prop :=
  ∀ t ∈ p.queue.takers, ∃ deadline ≤ time, t.deadline = some deadline

theorem RechecksBy.mono (h : p.RechecksBy time) {later : Nat} (hle : time ≤ later) :
    p.RechecksBy later := by
  intro t ht
  obtain ⟨deadline, hd, heq⟩ := h t ht
  exact ⟨deadline, Nat.le_trans hd hle, heq⟩

/-- Whatever leaves the deadlines alone keeps what is known of them. -/
theorem RechecksBy.of_deadlines (h : p.RechecksBy time)
    (hq : q.queue.takers.map (·.deadline) = p.queue.takers.map (·.deadline)) :
    q.RechecksBy time := by
  intro t ht
  have hm : t.deadline ∈ p.queue.takers.map (·.deadline) := hq ▸ List.mem_map_of_mem ht
  obtain ⟨u, hu, heq⟩ := List.mem_map.mp hm
  obtain ⟨deadline, hd, hdl⟩ := h u hu
  exact ⟨deadline, hd, by rw [← heq, hdl]⟩

theorem deadlines_wakeAll (queue : TaskQueue Task) :
    queue.wakeAll.takers.map (·.deadline) = queue.takers.map (·.deadline) := by
  simp [TaskQueue.wakeAll, Function.comp_def]

theorem deadlines_wakeOne (queue : TaskQueue Task) :
    queue.wakeOne.takers.map (·.deadline) = queue.takers.map (·.deadline) := by
  rcases queue.wakeOne_cases with ⟨-, h⟩ | ⟨_, _, _, hq, -, -, h⟩
  · rw [h]
  · rw [h, hq]
    simp

theorem deadlines_offer? {queue r : TaskQueue Task} {t : Task} (h : queue.offer? t = some r) :
    r.takers.map (·.deadline) = queue.takers.map (·.deadline) := by
  obtain ⟨-, rfl⟩ := TaskQueue.offer?_eq_some_iff.mp h
  exact deadlines_wakeOne _

theorem deadlines_startWorker? {limit : Nat} {phase : Phase}
    (h : p.startWorker? limit phase = some q) :
    q.queue.takers.map (·.deadline) = p.queue.takers.map (·.deadline) := by
  obtain ⟨-, rfl⟩ := startWorker?_eq_some_iff.mp h
  rfl

theorem Submitted.deadlines_eq {t : Task} {a : Admission} (h : Submitted p t a q) :
    q.queue.takers.map (·.deadline) = p.queue.takers.map (·.deadline) := by
  cases h with
  | handed limit _ _ _ hs => exact deadlines_startWorker? hs
  | queued queue _ _ ho =>
    have hoffer := deadlines_offer? ho
    unfold ensureWorker
    split_ifs
    · cases hs : ({ p with queue } : Pool).startWorker? p.maxSize .fresh with
      | none => exact hoffer
      | some r => exact (deadlines_startWorker? hs).trans hoffer
    · exact hoffer
  | displaced queue _ _ ho =>
    have hpoll : p.queue.poll.2.takers = p.queue.takers := by rw [TaskQueue.poll_eq]
    exact (deadlines_offer? ho).trans (by rw [hpoll])
  | dropped =>
    rw [TaskQueue.poll_eq]
  | _ => rfl

theorem Adjusted.deadlines_eq (h : Adjusted p q) :
    q.queue.takers.map (·.deadline) = p.queue.takers.map (·.deadline) := by
  have hwake : ∀ (r : Pool) (condition : Bool), r.queue = p.queue →
      (r.wakeIf condition).queue.takers.map (·.deadline) =
        p.queue.takers.map (·.deadline) := by
    intro r condition hr
    cases condition with
    | true => exact (deadlines_wakeAll r.queue).trans (by rw [hr])
    | false => exact congrArg (fun queue => queue.takers.map (·.deadline)) hr
  cases h with
  | coreSize n hn =>
    obtain ⟨fresh, largest, heq, -⟩ :=
      startWorkers_spec n (min p.queue.size (n - p.coreSize)) { p with coreSize := n }
    refine hwake _ _ ?_
    rw [heq]
  | maxSize n h0 hn => exact hwake _ _ rfl
  | keepAlive span wake => exact hwake _ _ rfl
  | coreTimeout allow wake => exact hwake _ _ rfl
  | _ => rfl

theorem deadlines_stop (p : Pool) :
    p.stop.2.queue.takers.map (·.deadline) = p.queue.takers.map (·.deadline) := by
  unfold stop
  simp only
  split_ifs
  · exact deadlines_wakeAll _
  · exact deadlines_wakeAll _

/-- A step makes nobody wait at the queue, or the worker itself, which has time left. -/
theorem Sound.takers_stepOf_cases (h : p.Sound) (clock : Clock) {w : Worker} (hw : w ∈ p.workers) :
    (p.stepOf clock w).queue.takers ⊆ p.queue.takers ∨
      ∃ since, w.phase = .seeking since ∧ p.isExpired clock since = false ∧
        ∀ taker ∈ (p.stepOf clock w).queue.takers, taker ∈ p.queue.takers ∨
          taker.deadline = some (clock.timer + p.parkTime clock since) := by
  obtain ⟨id, phase⟩ := w
  cases phase with
  | seeking since =>
    rcases takers_seek (h.size_pos hw) clock id since with hsame | ⟨he, hadded⟩
    · exact Or.inl fun taker ht => hsame ▸ ht
    · refine Or.inr ⟨since, rfl, he, fun taker ht => ?_⟩
      have hm : taker ∈ (p.seek clock id since).queue.takers := ht
      rw [hadded] at hm
      rcases List.mem_append.mp hm with hm | hm
      · exact Or.inl hm
      · rw [List.mem_singleton.mp hm]
        exact Or.inr rfl
  | parked since =>
    left
    intro taker ht
    simp only [stepOf, TaskQueue.resume_eq] at ht
    cases hi : p.queue.items.head? <;> rw [hi] at ht <;> exact List.mem_of_mem_filter ht
  | _ => exact Or.inl fun taker ht => ht

theorem RechecksBy.stepOf (h : p.RechecksBy time) (hp : p.Sound)
    (hle : clock.timer + idleRecheck ≤ time) {w : Worker} (hw : w ∈ p.workers) :
    (p.stepOf clock w).RechecksBy time := by
  intro taker ht
  rcases hp.takers_stepOf_cases clock hw with hsub | ⟨since, -, -, hcases⟩
  · exact h taker (hsub ht)
  · rcases hcases taker ht with hm | hd
    · exact h taker hm
    · have hpark := p.parkTime_le clock since
      exact ⟨_, by omega, hd⟩

theorem RechecksBy.step (h : p.RechecksBy time) (hp : p.Sound)
    (hle : clock.timer + idleRecheck ≤ time) (id : Nat) : (p.step clock id).RechecksBy time := by
  rcases hp.step_cases clock id with ⟨w, hw, -, -, hstep⟩ | ⟨hstep, -⟩ <;> rw [hstep]
  · exact h.stepOf hp hle hw
  · exact h

theorem Happens.rechecks (h : Happens s t) (hp : s.pool.Sound)
    (hs : s.pool.RechecksBy (s.clock.timer + idleRecheck)) :
    t.pool.RechecksBy (t.clock.timer + idleRecheck) := by
  cases h with
  | submit t => exact hs.of_deadlines (s.pool.submitted t).deadlines_eq
  | work w hw h => exact hs.step hp (Nat.le_refl _) w.id
  | finish id =>
    rcases s.pool.finish_cases id with hq | ⟨t, -, hq⟩ <;> rw [hq] <;> exact hs
  | retune p h =>
    exact h.keeps (P := fun p => p.RechecksBy (s.clock.timer + idleRecheck))
      (fun _ _ h hs => hs.of_deadlines h.adjusted.deadlines_eq) hs
  | stop hr => exact hs.of_deadlines s.pool.deadlines_stop
  | advance timer wall => exact RechecksBy.mono hs (by rw [Clock.timer_advance]; omega)

/-- **Every waiting worker looks again** after a second at the latest. -/
theorem Reach.rechecks (h : Reach s) : s.pool.RechecksBy (s.clock.timer + idleRecheck) := by
  induction h with
  | start clock h =>
    obtain ⟨-, -, policy, -, rfl⟩ := ofRecord_eq_ok_iff.mp h
    exact fun t ht => nomatch ht
  | next h e ok ih => exact (InUse.happens h.sound ok).rechecks h.sound ih

/-! ### What idle workers do -/

/-- Everything of a pool that idle workers leave alone: all but the workers, their number, and who
waits at the queue. -/
def still (p : Pool) : Pool :=
  { p with
    workers := []
    size := 0
    queue := { p.queue with takers := [], waiting := 0, permit := false } }

/-- **An idle worker that finds no task** goes on being idle since the same moment, or leaves. -/
theorem Stepped.of_idle (h : Stepped p clock w q) (hi : p.queue.items = []) {since : Nat}
    (hs : w.phase.idleSince? = some since) :
    q.still = p.still ∧
      ((q.size = p.size ∧ ∃ phase, phase.idleSince? = some since ∧
          q.workers = (p.setPhase w.id phase).workers) ∨
        q = p.removeWorker w.id ∧
          (p.running = false ∨ p.maxSize < p.size ∨ p.isExpired clock since = true)) := by
  cases h with
  | leaves id since hi why =>
    obtain rfl := Option.some.inj hs
    exact ⟨rfl, Or.inr ⟨rfl, why⟩⟩
  | looksAgain id since hi hp => exact ⟨rfl, Or.inl ⟨rfl, .seeking since, hs, rfl⟩⟩
  | parks id since deadline hi hp hr hm he => exact ⟨rfl, Or.inl ⟨rfl, .parked since, hs, rfl⟩⟩
  | wakes id since hi' hd =>
    refine ⟨?_, Or.inl ⟨rfl, .seeking since, hs, rfl⟩⟩
    rw [TaskQueue.resume_eq]
    simp only [still, setPhase, hi, List.tail_nil]
  | fetches id since t items hi' =>
    rw [hi] at hi'
    cases hi'
  | obtains id since t items hi' hd =>
    rw [hi] at hi'
    cases hi'
  | _ => cases hs

/-- What became of a settled state while time passed and its workers took steps. Whoever is idle has
been so since before, and where anyone is, no task is queued. Once as many workers are left as the
core size asks for they stay; otherwise every waiting worker looks again a second after the
keep-alive at the latest. -/
structure Idles (s : InUse) (p : Pool) (clock : Clock) : Prop where
  clock_eq : ∃ span, clock = s.clock.advance span span
  still_eq : p.still = s.pool.still
  idle : ∀ w ∈ p.workers, (∃ t, w.phase = .running t) ∨
    s.pool.queue.items = [] ∧ ∃ since ≤ s.clock.wall, w.phase.idleSince? = some since
  size_le : p.size ≤ s.pool.size
  core_le : s.pool.coreTimeout = true ∨ min s.pool.size s.pool.coreSize ≤ p.size
  rechecks : s.pool.coreTimeout = false ∧ p.size ≤ s.pool.coreSize ∨
    p.RechecksBy (s.clock.timer + s.pool.keepAlive.toNat + idleRecheck)

section Idles
variable (h : Idles s p clock)
include h

theorem Idles.fields : p.coreSize = s.pool.coreSize ∧ p.maxSize = s.pool.maxSize ∧
    p.keepAlive = s.pool.keepAlive ∧ p.coreTimeout = s.pool.coreTimeout ∧
    p.running = s.pool.running ∧ p.queue.items = s.pool.queue.items :=
  ⟨congrArg (·.coreSize) h.still_eq, congrArg (·.maxSize) h.still_eq,
    congrArg (·.keepAlive) h.still_eq, congrArg (·.coreTimeout) h.still_eq,
    congrArg (·.running) h.still_eq, congrArg (·.queue.items) h.still_eq⟩

theorem Idles.advance (span : Nat) : Idles s p (clock.advance span span) := by
  obtain ⟨before, rfl⟩ := h.clock_eq
  exact ⟨⟨before + span, by simp only [Clock.advance, Nat.add_assoc]⟩, h.still_eq, h.idle,
    h.size_le, h.core_le, h.rechecks⟩

/-- Whoever begins to wait later than the keep-alive after the start may not time out: the core size
needs it. -/
theorem Idles.rechecks_stepOf (hp : p.Sound) (hw : w ∈ p.workers) :
    s.pool.coreTimeout = false ∧ p.size ≤ s.pool.coreSize ∨
      (p.stepOf clock w).RechecksBy (s.clock.timer + s.pool.keepAlive.toNat + idleRecheck) := by
  obtain ⟨hcore, -, hkeep, htimeout, -, -⟩ := h.fields
  obtain ⟨span, hclock⟩ := h.clock_eq
  rcases h.rechecks with hdone | hbefore
  · exact Or.inl hdone
  rcases hp.takers_stepOf_cases clock hw with hsub | ⟨since, hphase, hexpired, -⟩
  · exact Or.inr fun taker ht => hbefore taker (hsub ht)
  by_cases hspan : span ≤ s.pool.keepAlive.toNat
  · refine Or.inr (hbefore.stepOf hp ?_ hw)
    rw [hclock, Clock.timer_advance]
    omega
  · left
    rcases h.idle w hw with ⟨t, ht⟩ | ⟨-, moment, hle, hidle⟩
    · rw [hphase] at ht
      cases ht
    · rw [hphase] at hidle
      obtain rfl : since = moment := Option.some.inj hidle
      have hwaited : s.pool.keepAlive.toNat ≤ clock.wall - since := by
        rw [hclock, Clock.wall_advance]
        omega
      simpa [isExpired, isTimed, hkeep, hwaited, htimeout, hcore] using hexpired

theorem Idles.stays (hempty : s.pool.queue.items = []) {since : Nat} (hle : since ≤ s.clock.wall)
    (hstill : q.still = p.still) (hsize : q.size = p.size) {phase : Phase}
    (hphase : phase.idleSince? = some since)
    (hworkers : q.workers = (p.setPhase w.id phase).workers)
    (hrechecks : s.pool.coreTimeout = false ∧ p.size ≤ s.pool.coreSize ∨
      q.RechecksBy (s.clock.timer + s.pool.keepAlive.toNat + idleRecheck)) :
    Idles s q clock := by
  refine ⟨h.clock_eq, hstill.trans h.still_eq, fun v hv => ?_, ?_, ?_, ?_⟩
  · rw [hworkers] at hv
    rcases mem_setPhase hv with rfl | hv
    · exact Or.inr ⟨hempty, since, hle, hphase⟩
    · exact h.idle v hv
  · rw [hsize]
    exact h.size_le
  · rw [hsize]
    exact h.core_le
  · rw [hsize]
    exact hrechecks

/-- A worker that leaves is one above the core size, if core workers do not time out. -/
theorem Idles.core_le_of_leaves (hp : p.Sound) (hr : s.pool.running = true) {since : Nat}
    (why : p.running = false ∨ p.maxSize < p.size ∨ p.isExpired clock since = true) :
    s.pool.coreTimeout = true ∨ s.pool.coreSize < p.size := by
  obtain ⟨hcore, -, -, htimeout, hrunning, -⟩ := h.fields
  have hcommittable := hp.coreSize_le
  rcases why with hstopped | hmany | hexpired
  · rw [hrunning, hr] at hstopped
    cases hstopped
  · exact Or.inr (by omega)
  · simp only [isExpired, isTimed, Bool.and_eq_true, Bool.or_eq_true,
      decide_eq_true_eq] at hexpired
    rw [htimeout, hcore] at hexpired
    exact hexpired.1

theorem Idles.leaves (hcore : s.pool.coreTimeout = true ∨ s.pool.coreSize < p.size)
    (hstill : q.still = p.still) (hleft : q = p.removeWorker w.id)
    (hrechecks : s.pool.coreTimeout = false ∧ p.size ≤ s.pool.coreSize ∨
      q.RechecksBy (s.clock.timer + s.pool.keepAlive.toNat + idleRecheck)) :
    Idles s q clock := by
  have hsize : q.size = p.size - 1 := by
    rw [hleft]
    rfl
  have hbefore := h.size_le
  refine ⟨h.clock_eq, hstill.trans h.still_eq, fun v hv => ?_, by omega, ?_, ?_⟩
  · rw [hleft] at hv
    exact h.idle v (List.mem_of_mem_filter hv)
  · exact hcore.imp_right fun hlt => by omega
  · exact hrechecks.imp_left fun ⟨hno, hdone⟩ => ⟨hno, by omega⟩

/-- **A step of an idle worker** goes on like that. -/
theorem Idles.step (hp : p.Sound) (hr : s.pool.running = true) (id : Nat) :
    Idles s (p.step clock id) clock := by
  rcases hp.step_cases clock id with ⟨w, hw, -, hc, hstep⟩ | ⟨hstep, -⟩ <;> rw [hstep]
  · rcases h.idle w hw with ⟨t, ht⟩ | ⟨hempty, since, hle, hidle⟩
    · rw [canStep, ht] at hc
      cases hc
    · have hitems : p.queue.items = s.pool.queue.items := h.fields.2.2.2.2.2
      obtain ⟨hstill, hcases⟩ := (hp.stepped_stepOf hw hc).of_idle (hitems.trans hempty) hidle
      rcases hcases with ⟨hsize, phase, hphase, hworkers⟩ | ⟨hleft, why⟩
      · exact h.stays hempty hle hstill hsize hphase hworkers (h.rechecks_stepOf hp hw)
      · exact h.leaves (h.core_le_of_leaves hp hr why) hstill hleft (h.rechecks_stepOf hp hw)
  · exact h

end Idles

/-- Whether workers take a step, or time passes for both clocks. -/
def Event.isQuiet : Event → Bool
  | .work _ => true
  | .advance timer wall => timer == wall
  | _ => false

/-- **A settled state idles** from the start. -/
theorem InUse.Settled.idles (h : s.Settled) (hs : Reach s) : Idles s s.pool s.clock := by
  refine ⟨⟨0, rfl⟩, rfl, fun w hw => ?_, Nat.le_refl _, Or.inr (Nat.min_le_left _ _), Or.inr ?_⟩
  · rcases phase_of_canStep_eq_false (h w hw) with hrun | ⟨hpark, -⟩
    · exact Or.inl hrun
    · obtain ⟨past, hpast⟩ := hs.exists_run
      have hempty := (h.idle hs.sound hw hpark).1
      obtain ⟨id, phase⟩ := w
      cases phase with
      | parked since => exact Or.inr ⟨hempty, since, (hpast.idleSince hw rfl).le_wall hpast, rfl⟩
      | _ => cases hpark
  · exact hs.rechecks.mono (by omega)

theorem Idles.follow (hr : s.pool.running = true) : ∀ {es : List Event} {u t : InUse},
    Reach u → Idles s u.pool u.clock → (∀ e ∈ es, e.isQuiet = true) → u.follow? es = some t →
    Idles s t.pool t.clock
  | [], u, t, _, hi, _, hf => by cases hf; exact hi
  | e :: es, u, t, hu, hi, he, hf => by
    unfold InUse.follow? at hf
    split_ifs at hf with ok
    rw [List.forall_mem_cons] at he
    refine Idles.follow hr (hu.next e ok) ?_ he.2 hf
    cases e with
    | work id =>
      obtain ⟨hclock, hpool⟩ := u.after_work id
      rw [hclock, hpool]
      exact hi.step hu.sound hr id
    | advance timer wall =>
      obtain rfl : timer = wall := by simpa [Event.isQuiet] using he.1
      exact hi.advance timer
    | _ => cases he.1

/-! ### What is left in the end -/

theorem InUse.Settled.timer_lt (h : t.Settled) (hp : t.pool.Sound)
    (hw : w ∈ t.pool.workers) (hpark : w.phase.isParked = true)
    (hr : t.pool.RechecksBy time) : t.clock.timer < time := by
  have hid : w.id ∈ t.pool.queue.takers.map (·.id) :=
    hp.takers_perm.mem_iff.mpr (List.mem_map_of_mem (List.mem_filter.mpr ⟨hw, hpark⟩))
  obtain ⟨taker, ht, hid⟩ := List.mem_map.mp hid
  obtain ⟨deadline, hle, hd⟩ := hr taker ht
  rcases phase_of_canStep_eq_false (h w hw) with ⟨x, hx⟩ | ⟨-, hnot⟩
  · rw [hx] at hpark
    cases hpark
  · by_contra hlate
    have hdue : taker.isDue t.clock.timer = true := by
      simp only [Taker.isDue, hd, Option.any_some, Bool.or_eq_true, decide_eq_true_eq]
      omega
    exact hnot (hid ▸ List.mem_map_of_mem (List.mem_filter.mpr ⟨ht, hdue⟩))

theorem InUse.Settled.active_eq_size (h : t.Settled) (hp : t.pool.Sound)
    (hrun : ∀ w ∈ t.pool.workers, w.phase.isParked = false) : t.pool.active = t.pool.size := by
  rw [h.active_eq hp, hp.size_eq, runningCount, List.countP_eq_length]
  intro w hw
  rcases phase_of_canStep_eq_false (h w hw) with ⟨x, hx⟩ | ⟨hpark, -⟩
  · rw [hx]
    rfl
  · rw [hrun w hw] at hpark
    cases hpark

/-- **How many workers are left** a second after the keep-alive, once they have settled. -/
theorem Idles.size_eq (h : Idles s t.pool t.clock) (hp : t.pool.Sound) (ht : t.Settled)
    (hlate : s.clock.timer + s.pool.keepAlive.toNat + idleRecheck ≤ t.clock.timer) :
    t.pool.size = if s.pool.coreTimeout then t.pool.active
      else max t.pool.active (min s.pool.size s.pool.coreSize) := by
  have hactive := hp.active_le_size
  have hsize := h.size_le
  by_cases hwaits : ∃ w ∈ t.pool.workers, w.phase.isParked = true
  · obtain ⟨w, hw, hpark⟩ := hwaits
    rcases h.rechecks with ⟨hno, hdone⟩ | hsoon
    · have hcore := h.core_le.resolve_left (by rw [hno]; exact Bool.false_ne_true)
      rw [hno]
      simp only [Bool.false_eq_true, if_false]
      omega
    · have hlater := ht.timer_lt hp hw hpark hsoon
      omega
  · have hall : t.pool.active = t.pool.size := by
      refine ht.active_eq_size hp fun w hw => ?_
      by_contra hpark
      exact hwaits ⟨w, hw, by simpa using hpark⟩
    rcases h.core_le with hyes | hcore
    · rw [hyes]
      simpa using hall.symm
    · split_ifs
      · exact hall.symm
      · omega

/-- **Idle workers leave.** Take a settled state of a running pool, and let workers take steps and
time pass for both clocks, by the keep-alive and a second at least, while nothing else happens. Then
the workers come to rest, and however they do, only those are left that run a task if core workers
time out, and otherwise so many more that the pool has its core size, or all that there were. The
queued tasks, the other counters and the tunables are as before. -/
theorem idle_workers_leave (h : Reach s) (hset : s.Settled) (hr : s.pool.running = true)
    {es : List Event} (hes : ∀ e ∈ es, e.isQuiet = true) (hfollow : s.follow? es = some u)
    (hlate : s.clock.timer + s.pool.keepAlive.toNat + idleRecheck ≤ u.clock.timer) :
    (∃ (ids : List Nat) (t : InUse), u.follow? (ids.map .work) = some t ∧ t.Settled) ∧
    ∀ (ids : List Nat) (t : InUse), u.follow? (ids.map .work) = some t → t.Settled →
      t.pool.size = (if s.pool.coreTimeout then t.pool.active
        else max t.pool.active (min s.pool.size s.pool.coreSize)) ∧
      t.pool.queue.items = s.pool.queue.items ∧
      (t.pool.active = s.pool.active ∧ t.pool.largest = s.pool.largest ∧
        t.pool.completed = s.pool.completed ∧ t.pool.rejected = s.pool.rejected) ∧
      t.pool.snapshot = s.pool.snapshot := by
  have hu : Reach u := h.follow hfollow
  refine ⟨hu.exists_settled, fun ids t hwork ht => ?_⟩
  have hquiet : ∀ e ∈ ids.map Event.work, e.isQuiet = true := by
    intro e he
    obtain ⟨id, -, rfl⟩ := List.mem_map.mp he
    rfl
  have hidle : Idles s u.pool u.clock := Idles.follow hr h (hset.idles h) hes hfollow
  have hidle' : Idles s t.pool t.clock := Idles.follow hr hu hidle hquiet hwork
  rw [← clock_follow_work hwork] at hlate
  have hstill := hidle'.still_eq
  have hsnapshot : t.pool.still.snapshot = s.pool.still.snapshot := by rw [hstill]
  exact ⟨hidle'.size_eq (hu.follow hwork).sound ht hlate, hidle'.fields.2.2.2.2.2,
    ⟨congrArg (·.active) hstill, congrArg (·.largest) hstill, congrArg (·.completed) hstill,
      congrArg (·.rejected) hstill⟩, hsnapshot⟩

/-- Events of a pool with one core worker and room for one queued task, after which three workers
wait. -/
def idling : List Event :=
  [.submit ⟨"a", .noop⟩, .submit ⟨"b", .noop⟩, .submit ⟨"c", .noop⟩, .submit ⟨"d", .noop⟩, .work 0,
    .work 1, .work 2, .finish 0, .finish 1, .finish 2, .work 0, .work 0, .finish 0, .work 0,
    .work 0, .work 0, .work 1, .work 1, .work 2, .work 2]

theorem idle_workers_leave_idling :
    ∃ (p : Pool) (s u t : InUse),
      ofRecord { name := "pool", maxSize := 3, queueCapacity := 1 } = .ok p ∧
      ({ pool := p } : InUse).follow? idling = some s ∧ s.Settled ∧ s.pool.running = true ∧
      s.follow? [.advance 31000 31000] = some u ∧
      s.clock.timer + s.pool.keepAlive.toNat + idleRecheck ≤ u.clock.timer ∧
      u.follow? ([0, 0, 1, 1, 2, 2].map .work) = some t ∧ t.Settled ∧ s.pool.size = 3 ∧
      t.pool.size = 1 ∧ t.pool.size = max t.pool.active (min s.pool.size s.pool.coreSize) ∧
      t.pool.queue.items = s.pool.queue.items := by
  have hp : ofRecord { name := "pool", maxSize := 3, queueCapacity := 1 } = .ok _ := rfl
  have hs := (Reach.start {} hp).follow (rfl : InUse.follow? _ idling = some _)
  obtain ⟨-, hleft⟩ := idle_workers_leave hs (by decide) rfl (by decide)
    (rfl : InUse.follow? _ [.advance 31000 31000] = some _) (by decide)
  obtain ⟨hsize, hitems, -⟩ := hleft [0, 0, 1, 1, 2, 2] _ rfl (by decide)
  exact ⟨_, _, _, _, hp, rfl, by decide, rfl, rfl, by decide, rfl, by decide, rfl, rfl, hsize,
    hitems⟩

end PoolControl.Pool
