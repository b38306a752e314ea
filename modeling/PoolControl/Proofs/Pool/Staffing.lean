import PoolControl.Proofs.Pool.Course

/-! # No task is stranded

Workers are started lazily, retire when they may, and wait at the queue when there is nothing to do.
What keeps a queued task from being left behind is that a pool is `Staffed`: queued tasks find a
worker at all; they find the core size, or else as many workers that will look for a task as there
are tasks; and nobody sleeps at the queue of a pool that is shut down or too large.

A worker will look for a task if it does so in its next steps (`Pool.looking`) or was woken at the
queue. In a settled state there is none of either kind, and `no_task_stranded` is what is left. -/

namespace PoolControl.Pool

/-- The workers suffice for the queued tasks. -/
structure Staffed (p : Pool) : Prop where
  manned : p.queue.items ≠ [] → 0 < p.size
  reached : p.coreSize ≤ p.size ∨ p.queue.size ≤ p.looking + p.queue.woken
  vigilant : p.queue.asleep ≠ 0 → p.running = true ∧ p.size ≤ p.maxSize

variable {p q : Pool} {s : InUse}

/-! ### Workers that will look for a task -/

theorem Sound.looking_setPhase (h : p.Sound) {w : Worker} (hw : w ∈ p.workers) (phase : Phase) :
    (p.setPhase w.id phase).looking + w.phase.isLooking.toNat =
      p.looking + phase.isLooking.toNat := by
  obtain ⟨before, after, heq, -, hphase⟩ := h.exists_split hw
  simp only [looking, hphase, heq, List.countP_append, List.countP_cons]
  cases w.phase.isLooking <;> cases phase.isLooking <;> simp <;> omega

/-- The taker that looks once more was woken or not; the others are as before. -/
theorem Sound.woken_resume (h : p.Sound) {clock : Clock} {id : Nat}
    (hd : id ∈ p.queue.due clock.timer) :
    p.queue.woken ≤ (p.queue.resume id).2.woken + 1 ∧
      (p.queue.resume id).2.asleep ≤ p.queue.asleep := by
  obtain ⟨t, ht, rfl⟩ := List.mem_map.mp hd
  obtain ⟨before, after, heq, hf, -⟩ :=
    exists_split_of_key (·.id) h.takers_nodup (List.mem_of_mem_filter ht)
  rw [TaskQueue.resume_eq]
  simp only [TaskQueue.woken, TaskQueue.asleep, hf]
  rw [heq]
  simp only [List.countP_append, List.countP_cons]
  cases t.woken with
  | true => simp; omega
  | false => simp

theorem looking_startWorker? {limit : Nat} {phase : Phase}
    (hs : p.startWorker? limit phase = some q) :
    q.looking = p.looking + phase.isLooking.toNat := by
  obtain ⟨-, rfl⟩ := startWorker?_eq_some_iff.mp hs
  simp only [looking, List.countP_append, List.countP_singleton]
  cases phase.isLooking <;> rfl

/-! ### Changes of the queue and of one worker -/

/-- A worker that goes on to another phase leaves the pool staffed if it takes no task more than one
from the queue, and one only if it was among those that will look for it. -/
theorem Staffed.rephase (h : p.Staffed) (hp : p.Sound) {w : Worker} (hw : w ∈ p.workers)
    (phase : Phase) (queue : TaskQueue Task) (active completed : Nat)
    (hle : queue.size ≤ p.queue.size)
    (hlook : queue.items = [] ∨ queue.size + w.phase.isLooking.toNat + p.queue.woken ≤
      p.queue.size + phase.isLooking.toNat + queue.woken)
    (hsleep : queue.asleep ≤ p.queue.asleep ∨ p.running = true ∧ p.size ≤ p.maxSize) :
    Staffed { { p with queue }.setPhase w.id phase with active, completed } := by
  have hl := hp.looking_setPhase hw phase
  refine ⟨fun hi => h.manned fun h0 => hi ?_, ?_, fun ha => ?_⟩
  · have h0' : p.queue.size = 0 := by simp [TaskQueue.size, h0]
    exact List.eq_nil_of_length_eq_zero (Nat.le_zero.mp (h0' ▸ hle))
  · rcases h.reached with hc | hr
    · exact Or.inl hc
    · right
      show queue.size ≤ (p.setPhase w.id phase).looking + queue.woken
      rcases hlook with h0 | hlook
      · simp [TaskQueue.size, h0]
      · omega
  · rcases hsleep with hs | hs
    · refine h.vigilant fun h0 => ha ?_
      show queue.asleep = 0
      omega
    · exact hs

theorem Staffed.leave (h : p.Staffed) (hi : p.queue.items = []) (id : Nat) :
    (p.removeWorker id).Staffed := by
  refine ⟨fun hne => absurd hi hne, Or.inr ?_, fun ha => ?_⟩
  · show p.queue.size ≤ _
    simp [TaskQueue.size, hi]
  · obtain ⟨hr, hm⟩ := h.vigilant ha
    exact ⟨hr, Nat.le_trans (Nat.sub_le _ _) hm⟩

/-- **Every step keeps the pool staffed.** -/
theorem Staffed.stepped (h : p.Staffed) (hp : p.Sound) {clock : Clock} {w : Worker}
    (hw : w ∈ p.workers) (hs : Stepped p clock w q) : q.Staffed := by
  cases hs with
  | begins id t =>
    exact h.rephase hp hw (.running t) p.queue (p.active + 1) p.completed (Nat.le_refl _)
      (Or.inr (Nat.le_refl _)) (Or.inl (Nat.le_refl _))
  | arrives id =>
    exact h.rephase hp hw (.seeking clock.wall) p.queue p.active p.completed (Nat.le_refl _)
      (Or.inr (Nat.le_refl _)) (Or.inl (Nat.le_refl _))
  | reports id t =>
    exact h.rephase hp hw (.seeking clock.wall) p.queue (p.active - 1) (p.completed + 1)
      (Nat.le_refl _) (Or.inr (Nat.le_refl _)) (Or.inl (Nat.le_refl _))
  | fetches id since t items hi =>
    have hsize : p.queue.size = items.length + 1 := by simp [TaskQueue.size, hi]
    refine h.rephase hp hw (.running t) { p.queue with items } (p.active + 1) p.completed ?_
      (Or.inr ?_) (Or.inl (Nat.le_refl _))
    · show items.length ≤ _
      omega
    · show items.length + 1 + p.queue.woken ≤ p.queue.size + 0 + p.queue.woken
      omega
  | leaves id since hi why => exact h.leave hi id
  | looksAgain id since hi hperm =>
    exact h.rephase hp hw (.seeking since) { p.queue with permit := false } p.active p.completed
      (Nat.le_refl _) (Or.inl hi) (Or.inl (Nat.le_refl _))
  | parks id since deadline hi hperm hr hm he =>
    exact h.rephase hp hw (.parked since)
      { p.queue with
        takers := p.queue.takers ++ [({ id, deadline := some deadline } : Taker)]
        waiting := p.queue.waiting + 1 }
      p.active p.completed (Nat.le_refl _) (Or.inl hi) (Or.inr ⟨hr, hm⟩)
  | obtains id since t items hi hd =>
    obtain ⟨hwoken, hasleep⟩ := hp.woken_resume hd
    have hsize : p.queue.size = (p.queue.resume id).2.size + 1 := by
      simp [TaskQueue.size, hi]
    refine h.rephase hp hw (.running t) (p.queue.resume id).2 (p.active + 1) p.completed (by omega)
      (Or.inr ?_) (Or.inl hasleep)
    show (p.queue.resume id).2.size + 0 + p.queue.woken ≤
      p.queue.size + 0 + (p.queue.resume id).2.woken
    omega
  | wakes id since hi hd =>
    refine h.rephase hp hw (.seeking since) (p.queue.resume id).2 p.active p.completed ?_
      (Or.inl (by simp [hi])) (Or.inl (hp.woken_resume hd).2)
    simp [TaskQueue.size]

theorem Staffed.finish (h : p.Staffed) (hp : p.Sound) (id : Nat) : (p.finish id).Staffed := by
  rcases p.finish_cases id with he | ⟨t, hw, he⟩
  · rw [he]
    exact h
  · rw [he]
    refine h.rephase hp hw (.finished t) p.queue p.active p.completed (Nat.le_refl _) (Or.inr ?_)
      (Or.inl (Nat.le_refl _))
    show p.queue.size + 0 + p.queue.woken ≤ p.queue.size + 1 + p.queue.woken
    omega

/-! ### Submissions -/

theorem Staffed.startWorker? (h : p.Staffed) {limit : Nat} {phase : Phase}
    (hl : limit ≤ p.maxSize) (hs : p.startWorker? limit phase = some q) : q.Staffed := by
  have hlook := looking_startWorker? hs
  obtain ⟨hlt, rfl⟩ := startWorker?_eq_some_iff.mp hs
  refine ⟨fun _ => Nat.succ_pos _, ?_, fun ha => ⟨(h.vigilant ha).1, ?_⟩⟩
  · rcases h.reached with hc | hr
    · exact Or.inl (Nat.le_succ_of_le hc)
    · right
      rw [hlook]
      show p.queue.size ≤ _ + p.queue.woken
      omega
  · show p.size + 1 ≤ p.maxSize
    omega

/-- A full pool keeps staffed whatever it does to the queue, if it wakes no fewer takers. -/
theorem Staffed.of_full (h : p.Staffed) (hm : p.maxSize ≤ p.size) (hp : p.Sound)
    (queue : TaskQueue Task) (rejected : Nat) (ha : queue.asleep ≤ p.queue.asleep) :
    Staffed { p with queue, rejected } := by
  have hpos := hp.maxSize_pos
  have hcore := hp.coreSize_le
  refine ⟨fun _ => ?_, Or.inl ?_, fun h0 => h.vigilant fun h0' => h0 ?_⟩
  · show 0 < p.size
    omega
  · show p.coreSize ≤ p.size
    omega
  · show queue.asleep = 0
    omega

theorem asleep_offer? {queue r : TaskQueue Task} {t : Task} (ho : queue.offer? t = some r) :
    r.asleep ≤ queue.asleep := by
  obtain ⟨-, rfl⟩ := TaskQueue.offer?_eq_some_iff.mp ho
  have hsame : ({ queue with items := queue.items ++ [t] } : TaskQueue Task).asleep =
      queue.asleep := rfl
  rcases TaskQueue.woken_wakeOne { queue with items := queue.items ++ [t] } with
    ⟨-, -, h0⟩ | ⟨-, h1⟩
  · omega
  · omega

/-- **Every submission keeps the pool staffed.** A task is queued only if the core size is reached,
and without any worker one is started to look for it. -/
theorem Staffed.submitted (h : p.Staffed) (hp : p.Sound) {t : Task} {a : Admission}
    (hs : Submitted p t a q) : q.Staffed := by
  cases hs with
  | stopped => exact h
  | handed limit q hr hl hs =>
    refine h.startWorker? ?_ hs
    rcases hl with rfl | rfl
    · exact hp.coreSize_le
    · exact Nat.le_refl _
  | queued queue hr hc ho =>
    have ha := asleep_offer? ho
    have hvigilant : queue.asleep ≠ 0 → p.running = true ∧ p.size ≤ p.maxSize := fun h0 =>
      h.vigilant (by omega)
    unfold Pool.ensureWorker
    by_cases hz : p.size = 0
    · have hstart : { p with queue }.startWorker? p.maxSize .fresh = some _ :=
        startWorker?_eq_some_iff.mpr ⟨hz ▸ hp.maxSize_pos, rfl⟩
      rw [if_pos hz, hstart]
      have hpos := hp.maxSize_pos
      refine ⟨fun _ => Nat.succ_pos _, Or.inl (Nat.le_succ_of_le hc), fun h0 => ⟨hr, ?_⟩⟩
      show p.size + 1 ≤ p.maxSize
      omega
    · rw [if_neg hz]
      exact ⟨fun _ => Nat.pos_of_ne_zero hz, Or.inl hc, hvigilant⟩
  | refused hr hm => exact h.of_full hm hp p.queue _ (Nat.le_refl _)
  | inline hr hm => exact h.of_full hm hp p.queue _ (Nat.le_refl _)
  | discarded hr hm => exact h.of_full hm hp p.queue _ (Nat.le_refl _)
  | displaced queue hr hm ho =>
    have ha := asleep_offer? ho
    rw [TaskQueue.poll_eq] at ha
    exact h.of_full hm hp queue _ ha
  | dropped hr hm ho =>
    refine h.of_full hm hp p.queue.poll.2 _ ?_
    rw [TaskQueue.poll_eq]
    exact Nat.le_refl _

/-! ### Settings, shutdown -/

/-- Waking the takers is what a pool needs that has become too large, or was shut down. -/
theorem Staffed.wakeIf (condition : Bool) (hmanned : p.queue.items ≠ [] → 0 < p.size)
    (hreached : p.coreSize ≤ p.size ∨ p.queue.size ≤ p.looking + p.queue.woken)
    (hvigilant : condition = false → p.queue.asleep ≠ 0 → p.running = true ∧ p.size ≤ p.maxSize) :
    (p.wakeIf condition).Staffed := by
  cases condition with
  | false => exact ⟨hmanned, hreached, hvigilant rfl⟩
  | true =>
    refine ⟨hmanned, ?_, fun ha => absurd p.queue.asleep_wakeAll ha⟩
    rcases hreached with hc | hr
    · exact Or.inl hc
    · right
      show p.queue.size ≤ p.looking + p.queue.wakeAll.woken
      have hle : p.queue.woken ≤ p.queue.takers.length := List.countP_le_length
      rw [TaskQueue.woken_wakeAll]
      omega

/-- **A raised core size** starts a worker for every queued task, or as many as it asks for. -/
theorem Staffed.setCoreSize (h : p.Staffed) (n : Nat) (hn : n ≤ p.maxSize) :
    ((startWorkers n (min p.queue.size (n - p.coreSize)) { p with coreSize := n }).wakeIf
      (n < p.coreSize)).Staffed := by
  obtain ⟨fresh, largest, heq, hphase, -, hcount, hlimit⟩ :=
    startWorkers_spec n (min p.queue.size (n - p.coreSize)) { p with coreSize := n }
  simp only at hcount hlimit
  have hfresh : fresh.countP (·.phase.isLooking) = fresh.length :=
    List.countP_eq_length.mpr fun w hw => by rw [hphase w hw]; rfl
  rw [heq]
  refine .wakeIf _ (fun hi => Nat.lt_of_lt_of_le (h.manned hi) (Nat.le_add_right _ _)) ?_
    fun _ ha => ⟨(h.vigilant ha).1, ?_⟩
  · -- Fresh workers look for a task, so a backlog that is covered needs no core size.
    show n ≤ p.size + fresh.length ∨
      p.queue.size ≤ (p.workers ++ fresh).countP (·.phase.isLooking) + p.queue.woken
    have hreached := h.reached
    rw [List.countP_append, hfresh]
    simp only [looking] at hreached
    omega
  · show p.size + fresh.length ≤ p.maxSize
    have hm := (h.vigilant ha).2
    rcases hlimit with rfl | hlimit
    · exact hm
    · omega

/-- **Every setting keeps the pool staffed.** -/
theorem Staffed.adjusted (h : p.Staffed) (hs : Adjusted p q) : q.Staffed := by
  cases hs with
  | coreSize n hn => exact h.setCoreSize n hn
  | maxSize n h0 hn =>
    refine .wakeIf _ h.manned h.reached fun hle ha => ⟨(h.vigilant ha).1, ?_⟩
    have hm := (h.vigilant ha).2
    simp only [decide_eq_false_iff_not, Nat.not_lt] at hle
    exact Nat.le_trans hm hle
  | keepAlive span wake => exact .wakeIf _ h.manned h.reached fun _ => h.vigilant
  | coreTimeout allow wake => exact .wakeIf _ h.manned h.reached fun _ => h.vigilant
  | _ => exact ⟨h.manned, h.reached, h.vigilant⟩

theorem Staffed.retuned (h : p.Staffed) (hs : Retuned p q) : q.Staffed :=
  hs.keeps (fun _ _ hs h => h.adjusted hs.adjusted) h

theorem Staffed.stop (h : p.Staffed) : p.stop.2.Staffed := by
  have hwake : ({ p with running := false } : Pool).wakeIf true |>.Staffed :=
    .wakeIf true h.manned h.reached nofun
  unfold Pool.stop
  simp only
  split_ifs
  · exact hwake
  · refine ⟨fun hi => absurd rfl hi, Or.inr (Nat.zero_le _), fun ha => absurd ?_ ha⟩
    exact TaskQueue.asleep_wakeAll _

/-! ### Settled states -/

theorem Happens.staffed {t : InUse} (h : Happens s t) (hp : s.pool.Sound) (hs : s.pool.Staffed) :
    t.pool.Staffed := by
  cases h with
  | submit t => exact hs.submitted hp (s.pool.submitted t)
  | work w hw h => exact hs.stepped hp hw h
  | finish id => exact hs.finish hp id
  | retune p h => exact hs.retuned h
  | stop h => exact hs.stop
  | advance timer wall => exact hs

theorem Reach.staffed (h : Reach s) : s.pool.Staffed := by
  induction h with
  | start clock h =>
    obtain ⟨-, -, policy, -, rfl⟩ := ofRecord_eq_ok_iff.mp h
    exact ⟨fun hi => absurd rfl hi, Or.inr (Nat.le_refl _), fun ha => absurd rfl ha⟩
  | next h e ok ih => exact (InUse.happens h.sound ok).staffed h.sound ih

/-- No worker can take a step without a new event. -/
def InUse.Settled (s : InUse) : Prop := ∀ w ∈ s.pool.workers, s.pool.canStep s.clock w = false

instance (s : InUse) : Decidable s.Settled := by unfold InUse.Settled; infer_instance

theorem phase_of_canStep_eq_false {clock : Clock} {w : Worker} (h : p.canStep clock w = false) :
    (∃ t, w.phase = .running t) ∨
      w.phase.isParked = true ∧ w.id ∉ p.queue.due clock.timer := by
  obtain ⟨id, phase⟩ := w
  cases phase with
  | running t => exact Or.inl ⟨t, rfl⟩
  | parked since => exact Or.inr ⟨rfl, by simpa [canStep] using h⟩
  | _ => cases h

theorem InUse.Settled.looking_eq (h : s.Settled) : s.pool.looking = 0 := by
  refine List.countP_eq_zero.mpr fun w hw => ?_
  obtain ⟨id, phase⟩ := w
  cases phase with
  | running t => exact Bool.false_ne_true
  | parked since => exact Bool.false_ne_true
  | assigned t => exact Bool.false_ne_true
  | _ => cases h _ hw

/-- Every taker is a worker that waits, so none of them was woken. -/
theorem InUse.Settled.woken_eq (h : s.Settled) (hp : s.pool.Sound) : s.pool.queue.woken = 0 := by
  rw [TaskQueue.woken_eq_zero_iff]
  intro t ht
  have hid : t.id ∈ s.pool.parkedIds := hp.takers_perm.subset (List.mem_map_of_mem ht)
  obtain ⟨w, hw, hwid⟩ := List.mem_map.mp hid
  obtain ⟨hw, hpark⟩ := List.mem_filter.mp hw
  rcases phase_of_canStep_eq_false (h w hw) with ⟨u, hu⟩ | ⟨-, hd⟩
  · rw [hu] at hpark
    cases hpark
  · by_contra hwoken
    have hdue : t.isDue s.clock.timer = true := by
      rw [Bool.not_eq_false] at hwoken
      simp [Taker.isDue, hwoken]
    exact hd (hwid ▸ List.mem_map_of_mem (List.mem_filter.mpr ⟨ht, hdue⟩))

theorem InUse.Settled.idle (h : s.Settled) (hp : s.pool.Sound) {w : Worker}
    (hw : w ∈ s.pool.workers) (hpark : w.phase.isParked = true) :
    s.pool.queue.items = [] ∧ s.pool.queue.asleep ≠ 0 := by
  have hwoken := h.woken_eq hp
  have hid : w.id ∈ s.pool.queue.takers.map (·.id) :=
    hp.takers_perm.mem_iff.mpr (List.mem_map_of_mem (List.mem_filter.mpr ⟨hw, hpark⟩))
  obtain ⟨t, ht, -⟩ := List.mem_map.mp hid
  refine ⟨(hp.attentive.idle hwoken).resolve_left (List.ne_nil_of_mem ht), fun h0 => ?_⟩
  have h1 := (TaskQueue.asleep_eq_zero_iff _).mp h0 t ht
  have h2 := (TaskQueue.woken_eq_zero_iff _).mp hwoken t ht
  rw [h1] at h2
  cases h2

/-- **No task is stranded**, and no worker is idle beside one. In a settled state, a worker waits
only if the pool runs, its queue is empty and it is within its maximum size; and if a task is
queued, every worker runs a task, there is one, and a running pool has reached its core size. -/
theorem no_task_stranded (h : Reach s) (hset : s.Settled) :
    ((∃ w ∈ s.pool.workers, w.phase.isParked = true) →
        s.pool.running = true ∧ s.pool.queue.items = [] ∧ s.pool.size ≤ s.pool.maxSize) ∧
      (s.pool.queue.items ≠ [] →
        (∀ w ∈ s.pool.workers, ∃ t, w.phase = .running t) ∧ 1 ≤ s.pool.size ∧
          (s.pool.running = true → s.pool.coreSize ≤ s.pool.size)) := by
  have hp := h.sound
  have hstaffed := h.staffed
  have hlook := hset.looking_eq
  have hwoken := hset.woken_eq hp
  refine ⟨?_, fun hi => ⟨fun w hw => ?_, hstaffed.manned hi, fun _ => ?_⟩⟩
  · rintro ⟨w, hw, hpark⟩
    obtain ⟨hi, ha⟩ := hset.idle hp hw hpark
    obtain ⟨hr, hm⟩ := hstaffed.vigilant ha
    exact ⟨hr, hi, hm⟩
  · rcases phase_of_canStep_eq_false (hset w hw) with hrun | ⟨hpark, -⟩
    · exact hrun
    · exact absurd (hset.idle hp hw hpark).1 hi
  · rcases hstaffed.reached with hc | hle
    · exact hc
    · rw [hlook, hwoken] at hle
      exact absurd (List.eq_nil_of_length_eq_zero (Nat.le_zero.mp hle)) hi

/-- Events of a pool without core workers: the first task finds a worker started for it, two more
wait, and a raised core size starts a worker for the second. -/
def raising : List Event :=
  [.submit ⟨"a", .gate⟩, .work 0, .work 0, .submit ⟨"b", .gate⟩, .submit ⟨"c", .gate⟩,
    .set (.coreSize 2), .work 1, .work 1]

/-- With the sizes lowered again, the first worker takes the third task, although there is a worker
too many. The other one leaves, and the first waits in the end. -/
def lowering : List Event :=
  [.set (.coreSize 0), .set (.maxSize 1), .finish 0, .work 0, .work 0, .finish 1, .work 1, .work 1,
    .finish 0, .work 0, .work 0, .work 0]

theorem no_task_stranded_raising :
    ∃ (p : Pool) (s t : InUse),
      ofRecord { name := "pool", coreSize := 0, maxSize := 2 } = .ok p ∧
      ({ pool := p } : InUse).follow? raising = some s ∧ s.Settled ∧
      s.pool.queue.items = [⟨"c", .gate⟩] ∧ (∀ w ∈ s.pool.workers, ∃ t, w.phase = .running t) ∧
      1 ≤ s.pool.size ∧ s.pool.coreSize ≤ s.pool.size ∧
      s.follow? lowering = some t ∧ t.Settled ∧ (∃ w ∈ t.pool.workers, w.phase.isParked = true) ∧
      t.pool.running = true ∧ t.pool.queue.items = [] ∧ t.pool.size ≤ t.pool.maxSize := by
  have hp : ofRecord { name := "pool", coreSize := 0, maxSize := 2 } = .ok _ := rfl
  have hs := (Reach.start {} hp).follow (rfl : InUse.follow? _ raising = some _)
  have ht := hs.follow (rfl : InUse.follow? _ lowering = some _)
  have hbusy := (no_task_stranded hs (by decide)).2 (by decide)
  have hidle := (no_task_stranded ht (by decide)).1 (by decide)
  exact ⟨_, _, _, hp, rfl, by decide, rfl, hbusy.1, hbusy.2.1, hbusy.2.2 rfl, rfl, by decide,
    by decide, hidle⟩

end PoolControl.Pool
