import PoolControl.Proofs.Pool.Conservation
import PoolControl.Proofs.Pool.Slots

/-! # Full pools

A pool is full if it has all the workers that it may have and its queue accepts no more tasks: the
saturation policy decides about a task exactly then (`isSaturated_submit_iff`). What it says about
the workers and about the queue that a pool is full depends on the kind of the queue and on its
capacity, which may have been lowered since the tasks were queued.

A worker that waits in a settled state waits beside an empty queue. So the next task is for it,
unless the queue is one that never accepts any (`task_accepted_beside_idle`). And a queue holds more
tasks than its capacity only after that was lowered (`Run.size_le_capacity`). Until it has drained,
the newest task finds no room even in the place of the oldest (`newest_kept`). -/

namespace PoolControl.Pool

variable {p q : Pool} {s t : InUse} {past : List InUse} {x : Task}

/-! ### When the policy decides -/

/-- The pool runs, has all the workers that it may have, and its queue accepts no more tasks. -/
structure Full (p : Pool) : Prop where
  running_eq : p.running = true
  coreSize_le : p.coreSize ≤ p.size
  limit_le : p.queue.limit ≤ p.queue.size
  maxSize_le : p.maxSize ≤ p.size

theorem isSaturated_saturated (p : Pool) (x : Task) : (p.saturated x).1.isSaturated = true := by
  unfold saturated
  cases p.policy with
  | discardOldest => simp only; split <;> rfl
  | _ => rfl

theorem Full.submit (h : p.Full) (x : Task) : p.submit x = p.saturated x := by
  have hc : p.startWorker? p.coreSize (.assigned x) = none :=
    (startWorker?_eq_none_iff _ _ _).mpr h.coreSize_le
  have ho : p.queue.offer? x = none := (TaskQueue.offer?_eq_none_iff _ _).mpr h.limit_le
  have hm : p.startWorker? p.maxSize (.assigned x) = none :=
    (startWorker?_eq_none_iff _ _ _).mpr h.maxSize_le
  simp only [Pool.submit, h.running_eq, hc, ho, hm, Bool.not_true, Bool.false_eq_true, if_false]

/-- **The policy decides exactly if the pool is full.** -/
theorem isSaturated_submit_iff : (p.submit x).1.isSaturated = true ↔ p.Full := by
  refine ⟨fun h => ?_, fun h => by rw [h.submit]; exact p.isSaturated_saturated x⟩
  unfold submit at h
  split_ifs at h with hr
  · cases h
  · cases hc : p.startWorker? p.coreSize (.assigned x) with
    | some q => rw [hc] at h; cases h
    | none =>
      cases ho : p.queue.offer? x with
      | some queue => rw [hc, ho] at h; cases h
      | none =>
        cases hm : p.startWorker? p.maxSize (.assigned x) with
        | some q => rw [hc, ho, hm] at h; cases h
        | none =>
          exact ⟨by simpa using hr, (startWorker?_eq_none_iff _ _ _).mp hc,
            (TaskQueue.offer?_eq_none_iff _ _).mp ho, (startWorker?_eq_none_iff _ _ _).mp hm⟩

/-! ### Beside a worker that waits -/

theorem InUse.runs?_of_assigned (h : s.pool.Sound) {id : Nat}
    (hw : ⟨id, .assigned x⟩ ∈ s.pool.workers) :
    (s.after (.work id)).pool.runs? id = some x := by
  have hid : s.pool.worker? id = some ⟨id, .assigned x⟩ := h.worker?_eq hw
  have hcan : s.pool.canStep s.clock ⟨id, .assigned x⟩ = true := rfl
  obtain ⟨-, hstep⟩ := InUse.stepped_work h hid hcan
  simp only [InUse.after, hid, hcan, if_true]
  generalize (s.work ⟨id, .assigned x⟩).pool = q at hstep
  have hq := h.stepped hw hstep
  cases hstep with
  | begins => exact hq.runs?_setPhase hw rfl

theorem InUse.runs?_of_due (h : s.pool.Sound) {w : Worker} (hw : w ∈ s.pool.workers)
    (hpark : w.phase.isParked = true) (hd : w.id ∈ s.pool.queue.due s.clock.timer)
    {items : List Task} (hi : s.pool.queue.items = x :: items) :
    (s.after (.work w.id)).pool.runs? w.id = some x := by
  have hid := h.worker?_eq hw
  obtain ⟨id, phase⟩ := w
  cases phase with
  | parked since =>
    have hcan : s.pool.canStep s.clock ⟨id, .parked since⟩ = true := by simpa [canStep] using hd
    obtain ⟨-, hstep⟩ := InUse.stepped_work h hid hcan
    simp only [InUse.after, hid, hcan, if_true]
    generalize (s.work ⟨id, .parked since⟩).pool = q at hstep
    have hq := h.stepped hw hstep
    cases hstep with
    | obtains id since y rest hi' =>
      rw [hi] at hi'
      cases hi'
      exact hq.runs?_setPhase hw rfl
    | wakes id since hi' =>
      rw [hi] at hi'
      cases hi'
  | _ => cases hpark

theorem exists_woken_of_offer? {queue r : TaskQueue Task} (ha : queue.asleep ≠ 0)
    (ho : queue.offer? x = some r) : ∃ taker ∈ r.takers, taker.woken = true := by
  obtain ⟨-, rfl⟩ := TaskQueue.offer?_eq_some_iff.mp ho
  rcases TaskQueue.woken_wakeOne { queue with items := queue.items ++ [x] } with
    ⟨h0, -⟩ | ⟨hwoken, -⟩
  · exact absurd h0 ha
  · by_contra hnone
    have h0 : ({ queue with items := queue.items ++ [x] } : TaskQueue Task).wakeOne.woken = 0 :=
      (TaskQueue.woken_eq_zero_iff _).mpr fun t ht => by
        by_contra hw
        exact hnone ⟨t, ht, by simpa using hw⟩
    omega

theorem Sound.exists_due (h : p.Sound) {taker : Taker} (ht : taker ∈ p.queue.takers)
    (hwoken : taker.woken = true) (now : Nat) :
    ∃ w ∈ p.workers, w.phase.isParked = true ∧ w.id ∈ p.queue.due now := by
  have hid : taker.id ∈ p.parkedIds := h.takers_perm.subset (List.mem_map_of_mem ht)
  obtain ⟨w, hw, hwid⟩ := List.mem_map.mp hid
  obtain ⟨hw, hpark⟩ := List.mem_filter.mp hw
  have hdue : taker.isDue now = true := by simp [Taker.isDue, hwoken]
  exact ⟨w, hw, hpark, hwid ▸ List.mem_map_of_mem (List.mem_filter.mpr ⟨ht, hdue⟩)⟩

theorem InUse.begun_of_handed (h : s.pool.Sound) (ha : (s.pool.submit x).1 = .handed) :
    (s.submit x).pool.size = s.pool.size + 1 ∧
      ((s.submit x).after (.work s.pool.nextWorker)).pool.runs? s.pool.nextWorker = some x := by
  have hq : (s.submit x).pool.Sound := h.submitted (s.pool.submitted x)
  have hstart : ∃ limit, s.pool.startWorker? limit (.assigned x) = some (s.submit x).pool := by
    have hsub := s.pool.submitted x
    rw [ha] at hsub
    cases hsub with
    | handed limit q hr hl hs => exact ⟨limit, hs⟩
  obtain ⟨limit, hstart⟩ := hstart
  obtain ⟨-, he⟩ := startWorker?_eq_some_iff.mp hstart
  refine ⟨by rw [he], InUse.runs?_of_assigned hq ?_⟩
  rw [he]
  exact List.mem_append_right _ (List.mem_singleton_self _)

theorem InUse.begun_of_queued (h : s.pool.Sound) (ha : (s.pool.submit x).1 = .queued)
    (hi : s.pool.queue.items = []) (hs : s.pool.queue.asleep ≠ 0) (hpos : s.pool.size ≠ 0) :
    (s.submit x).pool.queue.items = [x] ∧
      ∃ w ∈ s.pool.workers, w.phase.isParked = true ∧
        ((s.submit x).after (.work w.id)).pool.runs? w.id = some x := by
  have hq : (s.submit x).pool.Sound := h.submitted (s.pool.submitted x)
  have hoffer : ∃ queue, s.pool.queue.offer? x = some queue ∧
      (s.submit x).pool = { s.pool with queue } := by
    have hsub := s.pool.submitted x
    rw [ha] at hsub
    show ∃ queue, _ ∧ (s.pool.submit x).2 = _
    generalize (s.pool.submit x).2 = q at hsub
    cases hsub with
    | queued queue hr hc ho => exact ⟨queue, ho, if_neg hpos⟩
  obtain ⟨queue, hoffer, he⟩ := hoffer
  have hitems : queue.items = [x] := by rw [TaskQueue.items_offer? hoffer, hi, List.nil_append]
  obtain ⟨taker, ht, hwoken⟩ := exists_woken_of_offer? hs hoffer
  have hin : taker ∈ (s.submit x).pool.queue.takers := by rw [he]; exact ht
  obtain ⟨w, hw, hpark, hd⟩ := hq.exists_due hin hwoken s.clock.timer
  refine ⟨by rw [he]; exact hitems, w, by rw [he] at hw; exact hw, hpark, ?_⟩
  exact InUse.runs?_of_due hq hw hpark hd (by rw [he]; exact hitems)

/-- **No task is refused beside a worker that waits**, but where the queue has no capacity and the
pool has all its workers. In a settled state in which some worker waits, a task is handed to a new
worker, which begins it next, or it is queued alone, and a worker that waits is woken and begins it
next. Only if a queue that does not hand off has no capacity, and no worker may be started, the
policy decides. -/
theorem task_accepted_beside_idle (h : Reach s) (hset : s.Settled)
    (hidle : ∃ w ∈ s.pool.workers, w.phase.isParked = true) (x : Task) :
    (s.pool.queue.kind = .handOff ∨ 0 < s.pool.queue.capacity ∨ s.pool.size < s.pool.maxSize →
        ((s.pool.submit x).1 = .handed ∧ (s.submit x).pool.size = s.pool.size + 1 ∧
            ((s.submit x).after (.work s.pool.nextWorker)).pool.runs? s.pool.nextWorker = some x) ∨
          ((s.pool.submit x).1 = .queued ∧ (s.submit x).pool.queue.items = [x] ∧
            ∃ w ∈ s.pool.workers, w.phase.isParked = true ∧
              ((s.submit x).after (.work w.id)).pool.runs? w.id = some x)) ∧
      (s.pool.queue.kind ≠ .handOff → s.pool.queue.capacity = 0 →
        s.pool.maxSize ≤ s.pool.size → (s.pool.submit x).1.isSaturated = true) := by
  obtain ⟨w, hw, hpark⟩ := hidle
  have hp := h.sound
  obtain ⟨hi, ha⟩ := hset.idle hp hw hpark
  obtain ⟨hrun, -⟩ := h.staffed.vigilant ha
  have hsize : s.pool.queue.size = 0 := by simp [TaskQueue.size, hi]
  have hworkers : 0 < s.pool.size := by
    rw [hp.size_eq]
    exact List.length_pos_of_mem hw
  have htakers : 0 < s.pool.queue.waiting := by
    rw [hp.waiting_eq]
    exact Nat.lt_of_lt_of_le (Nat.pos_of_ne_zero ha) List.countP_le_length
  constructor
  · intro hroom
    have hfull : ¬ (s.pool.submit x).1.isSaturated = true := by
      rw [isSaturated_submit_iff]
      intro hfull
      have hlimit := hfull.limit_le
      have hmax := hfull.maxSize_le
      unfold TaskQueue.limit at hlimit
      split_ifs at hlimit with hk
      · omega
      · rcases hroom with hk' | hc | hm
        · exact hk hk'
        · omega
        · omega
    cases ha' : (s.pool.submit x).1 with
    | handed => exact Or.inl ⟨rfl, InUse.begun_of_handed hp ha'⟩
    | queued => exact Or.inr ⟨rfl, InUse.begun_of_queued hp ha' hi ha (Nat.ne_of_gt hworkers)⟩
    | stopped =>
      have hsub := s.pool.submitted x
      rw [ha'] at hsub
      generalize (s.pool.submit x).2 = q at hsub
      cases hsub with
      | stopped hr => rw [hrun] at hr; cases hr
    | _ => exact absurd (by rw [ha']; rfl) hfull
  · intro hk hc hm
    refine isSaturated_submit_iff.mpr ⟨hrun, Nat.le_trans hp.coreSize_le hm, ?_, hm⟩
    rw [TaskQueue.limit, if_neg hk, hc]
    exact Nat.zero_le _

/-- The only worker of a pool, after its first task. -/
def resting : List Event :=
  [.submit ⟨"a", .noop⟩, .work 0, .work 0, .finish 0, .work 0, .work 0]

theorem task_accepted_beside_idle_handOff :
    ∃ (p : Pool) (s : InUse),
      ofRecord { name := "pool", maxSize := 1, queueKind := .handOff } = .ok p ∧
      ({ pool := p } : InUse).follow? resting = some s ∧ s.Settled ∧
      (∃ w ∈ s.pool.workers, w.phase.isParked = true) ∧ s.pool.maxSize ≤ s.pool.size ∧
      (s.pool.submit ⟨"b", .noop⟩).1 = .queued ∧
      ∃ w ∈ s.pool.workers, w.phase.isParked = true ∧
        ((s.submit ⟨"b", .noop⟩).after (.work w.id)).pool.runs? w.id = some ⟨"b", .noop⟩ := by
  have hp : ofRecord { name := "pool", maxSize := 1, queueKind := .handOff } = .ok _ := rfl
  have hs := (Reach.start {} hp).follow (rfl : InUse.follow? _ resting = some _)
  have h := (task_accepted_beside_idle hs (by decide) (by decide) ⟨"b", .noop⟩).1 (Or.inl rfl)
  rcases h with ⟨hhanded, -⟩ | ⟨hqueued, -, hw⟩
  · exact absurd hhanded (by decide)
  · exact ⟨_, _, hp, rfl, by decide, by decide, by decide, hqueued, hw⟩

/-- A queue without capacity refuses the next task although the only worker waits. -/
theorem task_refused_beside_idle :
    ∃ (p : Pool) (s : InUse),
      ofRecord { name := "pool", maxSize := 1, queueCapacity := 0 } = .ok p ∧
      ({ pool := p } : InUse).follow? resting = some s ∧ s.Settled ∧ s.pool.running = true ∧
      (∃ w ∈ s.pool.workers, w.phase.isParked = true) ∧
      (s.pool.submit ⟨"b", .noop⟩).1 = .refused ∧
      (s.pool.submit ⟨"b", .noop⟩).2.rejected = 1 :=
  ⟨_, _, rfl, rfl, by decide, rfl, by decide, rfl, rfl⟩

/-! ### Queues over their capacity -/

/-- The other queue is of the same kind, and holds no more tasks than this one did or accepted. -/
structure Admits (queue r : TaskQueue Task) : Prop where
  kind_eq : r.kind = queue.kind
  size_le : r.size ≤ queue.size ∨ r.size ≤ queue.limit

theorem Admits.refl (queue : TaskQueue Task) : Admits queue queue :=
  ⟨rfl, Or.inl (Nat.le_refl _)⟩

theorem Admits.of_tail {queue r : TaskQueue Task} (hk : r.kind = queue.kind)
    (hi : r.items = queue.items.tail) : Admits queue r := by
  refine ⟨hk, Or.inl ?_⟩
  rw [TaskQueue.size, hi, List.length_tail]
  exact Nat.sub_le _ _

theorem admits_offer? {queue r : TaskQueue Task} (ho : queue.offer? x = some r) :
    Admits queue r := by
  obtain ⟨hlt, rfl⟩ := TaskQueue.offer?_eq_some_iff.mp ho
  refine ⟨TaskQueue.kind_wakeOne _, Or.inr ?_⟩
  rw [TaskQueue.size, TaskQueue.items_wakeOne, List.length_append]
  exact hlt

theorem admits_resume (queue : TaskQueue Task) (id : Nat) : Admits queue (queue.resume id).2 :=
  .of_tail (by rw [TaskQueue.resume_eq]) (TaskQueue.items_resume queue id)

theorem Submitted.admits {a : Admission} (h : Submitted p x a q) : Admits p.queue q.queue := by
  cases h with
  | handed limit q hr hl hs =>
    obtain ⟨-, rfl⟩ := startWorker?_eq_some_iff.mp hs
    exact .refl _
  | queued queue hr hc ho =>
    have he : ({ p with queue }.ensureWorker).queue = queue := by
      unfold ensureWorker startWorker? reserve?
      split_ifs <;> rfl
    rw [he]
    exact admits_offer? ho
  | displaced queue hr hm ho =>
    -- The oldest task is out of the queue before the newest is offered.
    have hpoll : Admits p.queue p.queue.poll.2 :=
      .of_tail (by rw [TaskQueue.poll_eq]) p.queue.items_poll
    have hoffer := admits_offer? ho
    have hlimit : p.queue.poll.2.limit = p.queue.limit := by rw [TaskQueue.poll_eq]; rfl
    refine ⟨hoffer.kind_eq.trans hpoll.kind_eq, ?_⟩
    rcases hoffer.size_le with hle | hle
    · rcases hpoll.size_le with hle' | hle'
      · exact Or.inl (Nat.le_trans hle hle')
      · exact Or.inr (Nat.le_trans hle hle')
    · exact Or.inr (hlimit ▸ hle)
  | dropped hr hm ho => exact .of_tail (by rw [TaskQueue.poll_eq]) p.queue.items_poll
  | _ => exact .refl _

theorem Stepped.admits {clock : Clock} {w : Worker} (h : Stepped p clock w q) :
    Admits p.queue q.queue := by
  cases h with
  | fetches id since t items hi => exact .of_tail rfl (by rw [hi]; rfl)
  | obtains id since t items hi hd => exact admits_resume p.queue id
  | wakes id since hi hd => exact admits_resume p.queue id
  | _ => exact ⟨rfl, Or.inl (Nat.le_refl _)⟩

theorem Adjusted.kind_eq (h : Adjusted p q) : q.queue.kind = p.queue.kind := by
  have hwake : ∀ (p : Pool) condition, (p.wakeIf condition).queue.kind = p.queue.kind := by
    intro p condition
    unfold wakeIf
    split_ifs <;> rfl
  cases h with
  | coreSize n hn =>
    obtain ⟨fresh, largest, heq, -⟩ :=
      startWorkers_spec n (min p.queue.size (n - p.coreSize)) { p with coreSize := n }
    rw [hwake, heq]
  | maxSize n => exact hwake _ _
  | keepAlive span wake => exact hwake _ _
  | coreTimeout allow wake => exact hwake _ _
  | _ => rfl

theorem Retuned.admits (h : Retuned p q) : Admits p.queue q.queue :=
  ⟨Retuned.keeps (fun _ _ hs hk => hs.adjusted.kind_eq.trans hk) h rfl,
    Or.inl (Nat.le_of_eq (congrArg List.length h.sameTasks.items))⟩

/-- **An event leaves no more tasks in the queue** than were there or than the queue accepted. -/
theorem Happens.admits (h : Happens s t) : Admits s.pool.queue t.pool.queue := by
  cases h with
  | submit x => exact (s.pool.submitted x).admits
  | work w hw h => exact h.admits
  | finish id =>
    show Admits s.pool.queue (s.pool.finish id).queue
    rcases s.pool.finish_cases id with he | ⟨y, -, he⟩ <;> rw [he]
    · exact .refl _
    · exact .refl _
  | retune p h => exact h.admits
  | stop h =>
    show Admits s.pool.queue s.pool.stop.2.queue
    unfold Pool.stop
    simp only
    split_ifs
    · exact ⟨rfl, Or.inl (Nat.le_refl _)⟩
    · exact ⟨rfl, Or.inl (Nat.zero_le _)⟩
  | advance timer wall => exact .refl _

/-- **A queue holds no more tasks than some capacity it had**, unless it hands off. -/
theorem Run.size_le_capacity (h : Run past s) (hk : s.pool.queue.kind ≠ .handOff) :
    ∃ u ∈ past ++ [s], s.pool.queue.size ≤ u.pool.queue.capacity := by
  induction h with
  | start clock h =>
    obtain ⟨-, -, policy, -, rfl⟩ := ofRecord_eq_ok_iff.mp h
    exact ⟨_, List.mem_singleton_self _, Nat.zero_le _⟩
  | @next past s h e ok ih =>
    have hadmits := (InUse.happens h.reach.sound ok).admits
    have hk' : s.pool.queue.kind ≠ .handOff := hadmits.kind_eq ▸ hk
    rcases hadmits.size_le with hle | hle
    · obtain ⟨u, hu, hsize⟩ := ih hk'
      exact ⟨u, List.mem_append_left _ hu, Nat.le_trans hle hsize⟩
    · rw [TaskQueue.limit, if_neg hk'] at hle
      exact ⟨s, by simp, hle⟩

/-- **The newest task is kept** in the place of the oldest, but where the capacity was lowered below
the number of queued tasks. A full pool whose policy is to discard the oldest task does so and keeps
the others in order. The new task is the last of the queue if the queue is within its capacity,
which it is if it never had a larger one; otherwise it is dropped too. -/
theorem newest_kept (h : Run past s) (hpolicy : s.pool.policy = .discardOldest)
    (hk : s.pool.queue.kind ≠ .handOff) (hc : 0 < s.pool.queue.capacity)
    (hsat : (s.pool.submit x).1.isSaturated = true) :
    ∃ oldest rest, s.pool.queue.items = oldest :: rest ∧
      (s.pool.queue.size ≤ s.pool.queue.capacity →
        (s.pool.submit x).1 = .displaced (some oldest) true ∧
          (s.submit x).pool.queue.items = rest ++ [x]) ∧
      (s.pool.queue.capacity < s.pool.queue.size →
        (s.pool.submit x).1 = .displaced (some oldest) false ∧
          (s.submit x).pool.queue.items = rest) ∧
      ((∀ u ∈ past, u.pool.queue.capacity ≤ s.pool.queue.capacity) →
        s.pool.queue.size ≤ s.pool.queue.capacity) := by
  have hfull := isSaturated_submit_iff.mp hsat
  have hlimit : s.pool.queue.capacity ≤ s.pool.queue.size := by
    have hle := hfull.limit_le
    rwa [TaskQueue.limit, if_neg hk] at hle
  have hsubmit : (s.submit x).pool = (s.pool.submit x).2 := rfl
  rw [hsubmit, hfull.submit x]
  obtain ⟨oldest, rest, hi⟩ : ∃ oldest rest, s.pool.queue.items = oldest :: rest :=
    List.exists_cons_of_length_pos (Nat.lt_of_lt_of_le hc hlimit)
  have hpoll : s.pool.queue.poll = (some oldest, { s.pool.queue with items := rest }) := by
    rw [TaskQueue.poll_eq, hi]
    rfl
  have hsize : s.pool.queue.size = rest.length + 1 := by rw [TaskQueue.size, hi]; rfl
  refine ⟨oldest, rest, hi, fun hle => ?_, fun hlt => ?_, fun hpast => ?_⟩
  · have ho : ({ s.pool.queue with items := rest } : TaskQueue Task).offer? x = some _ :=
      TaskQueue.offer?_eq_some_iff.mpr ⟨?_, rfl⟩
    · simp only [saturated, hpolicy, hpoll, ho, TaskQueue.items_wakeOne, and_self]
    · show rest.length < TaskQueue.limit _
      rw [TaskQueue.limit, if_neg hk]
      show rest.length < s.pool.queue.capacity
      omega
  · have ho : ({ s.pool.queue with items := rest } : TaskQueue Task).offer? x = none := by
      rw [TaskQueue.offer?_eq_none_iff, TaskQueue.limit, if_neg hk]
      show s.pool.queue.capacity ≤ rest.length
      omega
    simp only [saturated, hpolicy, hpoll, ho, and_self]
  · obtain ⟨u, hu, hle⟩ := h.size_le_capacity hk
    rcases List.mem_append.mp hu with hu | hu
    · exact Nat.le_trans hle (hpast u hu)
    · rw [List.mem_singleton] at hu
      exact hu ▸ hle

/-- The only worker of a pool runs a task, and two more fill the queue. -/
def crowding : List Event := [.submit ⟨"a", .gate⟩, .work 0, .submit ⟨"b", .gate⟩,
  .submit ⟨"c", .gate⟩]

/-- With a lower capacity, a new task is dropped beside the oldest one. After that the queue is
within its capacity, and the next new task takes the place of the oldest. -/
theorem newest_kept_lowered :
    ∃ (p : Pool) (s t : InUse),
      ofRecord
        { name := "pool", maxSize := 1, queueCapacity := 2, policyName := "DiscardOldestPolicy" } =
        .ok p ∧
      ({ pool := p } : InUse).follow? (crowding ++ [.set (.queueCapacity 1)]) = some s ∧
      (s.pool.submit ⟨"d", .gate⟩).1 = .displaced (some ⟨"b", .gate⟩) false ∧
      (s.submit ⟨"d", .gate⟩).pool.queue.items = [⟨"c", .gate⟩] ∧
      s.follow? [.submit ⟨"d", .gate⟩] = some t ∧
      (t.pool.submit ⟨"e", .gate⟩).1 = .displaced (some ⟨"c", .gate⟩) true ∧
      (t.submit ⟨"e", .gate⟩).pool.queue.items = [⟨"e", .gate⟩] := by
  have hp : ofRecord
      { name := "pool", maxSize := 1, queueCapacity := 2, policyName := "DiscardOldestPolicy" } =
      .ok _ := rfl
  have hs := (Run.start {} hp).follow
    (rfl : InUse.follow? _ (crowding ++ [.set (.queueCapacity 1)]) = some _)
  have ht := hs.follow (rfl : InUse.follow? _ [.submit ⟨"d", .gate⟩] = some _)
  obtain ⟨oldest, rest, hi, -, hdropped, -⟩ :=
    newest_kept (x := ⟨"d", .gate⟩) hs rfl (by decide) (by decide) rfl
  obtain ⟨oldest', rest', hi', hkept, -⟩ :=
    newest_kept (x := ⟨"e", .gate⟩) ht rfl (by decide) (by decide) rfl
  cases hi
  cases hi'
  exact ⟨_, _, _, hp, rfl, (hdropped (by decide)).1, (hdropped (by decide)).2, rfl,
    (hkept (by decide)).1, (hkept (by decide)).2⟩

/-- After the capacity was lowered, the policy drops the new task as well as the oldest one. -/
theorem newest_dropped :
    ∃ (p : Pool) (s : InUse),
      ofRecord
        { name := "pool", maxSize := 1, queueCapacity := 2, policyName := "DiscardOldestPolicy" } =
        .ok p ∧
      ({ pool := p } : InUse).follow? (crowding ++ [.set (.queueCapacity 1)]) = some s ∧
      s.pool.running = true ∧ s.pool.policy = .discardOldest ∧ s.pool.queue.kind ≠ .handOff ∧
      s.pool.queue.capacity = 1 ∧ s.pool.queue.items = [⟨"b", .gate⟩, ⟨"c", .gate⟩] ∧
      (s.pool.submit ⟨"d", .gate⟩).1.isSaturated = true ∧
      (s.submit ⟨"d", .gate⟩).pool.queue.items.getLast? ≠ some ⟨"d", .gate⟩ ∧
      (s.pool.submit ⟨"d", .gate⟩).1.error? "pool" = none :=
  ⟨_, _, rfl, rfl, rfl, rfl, by decide, rfl, rfl, rfl, by decide, rfl⟩

end PoolControl.Pool
