import PoolControl.Pool.Admission
import PoolControl.Pool.Shutdown
import PoolControl.Pool.Work
import PoolControl.Proofs.Queue.Takers

/-! # What workers and submitters do

What one step of a worker can do (`Pool.Stepped`), and what a submission can do (`Pool.Submitted`),
case by case with the conditions under which each case occurs. -/

namespace PoolControl

namespace Phase

/-- Whether a worker in this phase waits at the queue. -/
def isParked : Phase → Bool
  | parked _ => true
  | _ => false

/-- Whether a worker in this phase will look for a task in its next steps. -/
def isLooking : Phase → Bool
  | fresh | finished _ | seeking _ => true
  | _ => false

/-- The task that a worker in this phase has. -/
def task? : Phase → Option Task
  | assigned t | running t | finished t => some t
  | _ => none

/-- The task that a worker in this phase is running. -/
def running? : Phase → Option Task
  | running t => some t
  | _ => none

/-- The task that a worker in this phase has ended and not reported yet. -/
def ended? : Phase → Option Task
  | finished t => some t
  | _ => none

/-- The task that a worker in this phase has begun. -/
def begun? : Phase → Option Task
  | running t | finished t => some t
  | _ => none

theorem begun?_eq (phase : Phase) : phase.begun? = none ∨ phase.begun? = phase.task? := by
  cases phase <;> simp [begun?, task?]

end Phase

namespace Pool

/-- The workers that wait at the queue. -/
def parkedIds (p : Pool) : List Nat := (p.workers.filter (·.phase.isParked)).map (·.id)

/-- The tasks that workers have, begun or not. -/
def held (p : Pool) : List Task := p.workers.filterMap (·.phase.task?)

/-- The tasks that workers have begun. -/
def begun (p : Pool) : List Task := p.workers.filterMap (·.phase.begun?)

/-- How many workers will look for a task in their next steps. -/
def looking (p : Pool) : Nat := p.workers.countP (·.phase.isLooking)

/-! ### What a step can do -/

/-- **The cases of a step**: what a worker that can take a step makes of the pool. -/
inductive Stepped (p : Pool) (clock : Clock) : Worker → Pool → Prop
  | begins (id : Nat) (t : Task) : Stepped p clock ⟨id, .assigned t⟩ (p.launch id t)
  | arrives (id : Nat) : Stepped p clock ⟨id, .fresh⟩ (p.setPhase id (.seeking clock.wall))
  | reports (id : Nat) (t : Task) :
    Stepped p clock ⟨id, .finished t⟩
      { p.setPhase id (.seeking clock.wall) with
        active := p.active - 1
        completed := p.completed + 1 }
  | fetches (id since : Nat) (t : Task) (items : List Task) (hi : p.queue.items = t :: items) :
    Stepped p clock ⟨id, .seeking since⟩ ({ p with queue := { p.queue with items } }.launch id t)
  | leaves (id since : Nat) (hi : p.queue.items = [])
    (why : p.running = false ∨ p.maxSize < p.size ∨ p.isExpired clock since = true) :
    Stepped p clock ⟨id, .seeking since⟩ (p.removeWorker id)
  | looksAgain (id since : Nat) (hi : p.queue.items = []) (hp : p.queue.permit = true) :
    Stepped p clock ⟨id, .seeking since⟩
      ({ p with queue := { p.queue with permit := false } }.setPhase id (.seeking since))
  | parks (id since deadline : Nat) (hi : p.queue.items = []) (hp : p.queue.permit = false)
    (hr : p.running = true) (hm : p.size ≤ p.maxSize) (he : p.isExpired clock since = false) :
    Stepped p clock ⟨id, .seeking since⟩
      ({ p with
          queue :=
            { p.queue with
              takers := p.queue.takers ++ [({ id, deadline := some deadline } : Taker)]
              waiting := p.queue.waiting + 1 } }.setPhase id (.parked since))
  | obtains (id since : Nat) (t : Task) (items : List Task) (hi : p.queue.items = t :: items)
    (hd : id ∈ p.queue.due clock.timer) :
    Stepped p clock ⟨id, .parked since⟩
      ({ p with queue := (p.queue.resume id).2 }.launch id t)
  | wakes (id since : Nat) (hi : p.queue.items = []) (hd : id ∈ p.queue.due clock.timer) :
    Stepped p clock ⟨id, .parked since⟩
      ({ p with queue := (p.queue.resume id).2 }.setPhase id (.seeking since))

theorem retire_of_allowed {p : Pool} {allowed : Nat → Bool} (hi : p.queue.items = [])
    (hs : 0 < p.size) (ha : allowed p.size = true) :
    p.retire allowed = (true, { p with size := p.size - 1 }) := by
  simp [retire, tryRetire, TaskQueue.isEmpty, hi, hs, ha]

/-- **A worker that has found nothing** and is one too many, or has used up the keep-alive, leaves.
It is not refused to, and does not take its slot back as the last one: no task is queued and no size
is set between its look and its leaving, since both are in one step. -/
theorem seek_eq {p : Pool} (hs : 0 < p.size) (clock : Clock) (id since : Nat) :
    p.seek clock id since =
      match p.queue.poll with
      | (some t, queue) => { p with queue }.launch id t
      | (none, _) =>
        if !p.running then p.removeWorker id
        else if p.maxSize < p.size then p.removeWorker id
        else if p.isExpired clock since then p.removeWorker id
        else p.park clock id since := by
  unfold seek
  rw [TaskQueue.poll_eq]
  cases hi : p.queue.items with
  | cons t items => rfl
  | nil =>
    simp only [List.head?_nil]
    by_cases hr : p.running = true
    · by_cases hm : p.maxSize < p.size
      · have hretire : p.retire (fun n => decide (p.maxSize < n)) =
            (true, { p with size := p.size - 1 }) := retire_of_allowed hi hs (decide_eq_true hm)
        simp only [hm, if_true, hretire]
        rfl
      · cases he : p.isExpired clock since with
        | true =>
          have hretire : p.retire (fun n => decide (p.coreSize < n) || p.coreTimeout) =
              (true, { p with size := p.size - 1 }) := by
            simp only [isExpired, isTimed, Bool.and_eq_true] at he
            refine retire_of_allowed hi hs ?_
            rw [Bool.or_comm]
            exact he.1
          simp only [hm, if_false, if_true, Bool.false_eq_true, hretire]
          rfl
        | false => simp only [hm, if_false, Bool.false_eq_true]
    · simp [hr]

theorem retire_of_size_eq_zero {p : Pool} (hs : p.size = 0) (allowed : Nat → Bool) :
    p.retire allowed = (false, p) := by
  simp [retire, tryRetire, hs]

theorem stepped_park {p : Pool} {clock : Clock} {since : Nat} (id : Nat) (hi : p.queue.items = [])
    (hr : p.running = true) (hm : p.size ≤ p.maxSize) (he : p.isExpired clock since = false) :
    Stepped p clock ⟨id, .seeking since⟩ (p.park clock id since) := by
  unfold park
  rcases p.queue.take_cases id (some (clock.timer + p.parkTime clock since)) with
    ⟨t, items, hc, -⟩ | ⟨-, hp, ht⟩ | ⟨-, hp, ht⟩
  · rw [hi] at hc
    cases hc
  · rw [ht]
    exact .looksAgain id since hi hp
  · rw [ht]
    exact .parks id since _ hi hp hr hm he

theorem stepped_seek {p : Pool} (hs : 0 < p.size) (clock : Clock) (id since : Nat) :
    Stepped p clock ⟨id, .seeking since⟩ (p.seek clock id since) := by
  rw [seek_eq hs, TaskQueue.poll_eq]
  cases hi : p.queue.items with
  | cons t items => exact .fetches id since t items hi
  | nil =>
    simp only [List.head?_nil]
    split_ifs with hr hm he
    · exact .leaves id since hi (Or.inl (by simpa using hr))
    · exact .leaves id since hi (Or.inr (Or.inl hm))
    · exact .leaves id since hi (Or.inr (Or.inr he))
    · exact stepped_park id hi (by simpa using hr) (by omega) (by simpa using he)

/-- In a pool that counts no workers, one that has used up the keep-alive stays and is idle anew. -/
theorem stepped_seek_or_stays {p : Pool} (clock : Clock) (id since : Nat) :
    Stepped p clock ⟨id, .seeking since⟩ (p.seek clock id since) ∨
      p.size = 0 ∧ p.seek clock id since = p.setPhase id (.seeking clock.wall) := by
  rcases Nat.eq_zero_or_pos p.size with hs | hs
  · unfold seek
    rw [TaskQueue.poll_eq]
    cases hi : p.queue.items with
    | cons t items => exact Or.inl (.fetches id since t items hi)
    | nil =>
      have hm : ¬ p.maxSize < p.size := by omega
      simp only [List.head?_nil, hm, if_false, retire_of_size_eq_zero hs, Bool.false_eq_true]
      split_ifs with hr he
      · exact Or.inl (.leaves id since hi (Or.inl (by simpa using hr)))
      · exact Or.inr ⟨hs, rfl⟩
      · exact Or.inl (stepped_park id hi (by simpa using hr) (by omega) (by simpa using he))
  · exact Or.inl (stepped_seek hs clock id since)

/-- **Every step is one of the cases**, but where a pool counts no workers. -/
theorem stepped_or_stays {p : Pool} {clock : Clock} {w : Worker} (hc : p.canStep clock w = true) :
    Stepped p clock w (p.stepOf clock w) ∨
      p.size = 0 ∧ p.stepOf clock w = p.setPhase w.id (.seeking clock.wall) := by
  obtain ⟨id, phase⟩ := w
  cases phase with
  | assigned t => exact Or.inl (.begins id t)
  | fresh => exact Or.inl (.arrives id)
  | running t => cases hc
  | finished t => exact Or.inl (.reports id t)
  | seeking since => exact stepped_seek_or_stays clock id since
  | parked since =>
    have hd : id ∈ p.queue.due clock.timer := by simpa [canStep] using hc
    simp only [stepOf]
    rw [show p.queue.resume id = (p.queue.items.head?, (p.queue.resume id).2) by
      rw [TaskQueue.resume_eq]]
    cases hi : p.queue.items with
    | cons t items => exact Or.inl (.obtains id since t items hi hd)
    | nil => exact Or.inl (.wakes id since hi hd)

theorem stepped {p : Pool} {clock : Clock} {w : Worker} (hs : 0 < p.size)
    (hc : p.canStep clock w = true) : Stepped p clock w (p.stepOf clock w) :=
  (stepped_or_stays hc).resolve_right fun h => Nat.ne_of_gt hs h.1

/-! ### What a submission can do -/

/-- **The cases of a submission**: its answer, and what it makes of the pool. -/
inductive Submitted (p : Pool) (t : Task) : Admission → Pool → Prop
  | stopped (hr : p.running = false) : Submitted p t .stopped p
  | handed (limit : Nat) (q : Pool) (hr : p.running = true)
    (hl : limit = p.coreSize ∨ limit = p.maxSize)
    (h : p.startWorker? limit (.assigned t) = some q) : Submitted p t .handed q
  | queued (queue : TaskQueue Task) (hr : p.running = true) (hc : p.coreSize ≤ p.size)
    (h : p.queue.offer? t = some queue) :
    Submitted p t .queued { p with queue }.ensureWorker
  | refused (hr : p.running = true) (hm : p.maxSize ≤ p.size) :
    Submitted p t .refused { p with rejected := p.rejected + 1 }
  | inline (hr : p.running = true) (hm : p.maxSize ≤ p.size) :
    Submitted p t .inline { p with rejected := p.rejected + 1 }
  | discarded (hr : p.running = true) (hm : p.maxSize ≤ p.size) :
    Submitted p t .discarded { p with rejected := p.rejected + 1 }
  | displaced (queue : TaskQueue Task) (hr : p.running = true) (hm : p.maxSize ≤ p.size)
    (h : p.queue.poll.2.offer? t = some queue) :
    Submitted p t (.displaced p.queue.items.head? true)
      { p with rejected := p.rejected + 1, queue }
  | dropped (hr : p.running = true) (hm : p.maxSize ≤ p.size)
    (h : p.queue.poll.2.offer? t = none) :
    Submitted p t (.displaced p.queue.items.head? false)
      { p with rejected := p.rejected + 1, queue := p.queue.poll.2 }

theorem submitted_saturated {p : Pool} {t : Task} (hr : p.running = true)
    (hm : p.maxSize ≤ p.size) : Submitted p t (p.saturated t).1 (p.saturated t).2 := by
  cases hp : p.policy with
  | abort =>
    rw [show p.saturated t = (.refused, { p with rejected := p.rejected + 1 }) by
      simp [saturated, hp]]
    exact .refused hr hm
  | callerRuns =>
    rw [show p.saturated t = (.inline, { p with rejected := p.rejected + 1 }) by
      simp [saturated, hp]]
    exact .inline hr hm
  | discard =>
    rw [show p.saturated t = (.discarded, { p with rejected := p.rejected + 1 }) by
      simp [saturated, hp]]
    exact .discarded hr hm
  | discardOldest =>
    cases ho : p.queue.poll.2.offer? t with
    | some queue =>
      rw [show p.saturated t = (.displaced p.queue.items.head? true,
          { p with rejected := p.rejected + 1, queue }) by
        simp [saturated, hp, ho]]
      exact .displaced queue hr hm ho
    | none =>
      rw [show p.saturated t = (.displaced p.queue.items.head? false,
          { p with rejected := p.rejected + 1, queue := p.queue.poll.2 }) by
        simp [saturated, hp, ho]]
      exact .dropped hr hm ho

/-- **Every submission is one of the cases.** -/
theorem submitted (p : Pool) (t : Task) : Submitted p t (p.submit t).1 (p.submit t).2 := by
  unfold submit
  split_ifs with hr
  · exact .stopped (by simpa using hr)
  · have hrun : p.running = true := by simpa using hr
    cases hc : p.startWorker? p.coreSize (.assigned t) with
    | some q => exact .handed p.coreSize q hrun (Or.inl rfl) hc
    | none =>
      cases ho : p.queue.offer? t with
      | some queue =>
        exact .queued queue hrun ((startWorker?_eq_none_iff _ _ _).mp hc) ho
      | none =>
        cases hm : p.startWorker? p.maxSize (.assigned t) with
        | some q => exact .handed p.maxSize q hrun (Or.inr rfl) hm
        | none => exact submitted_saturated hrun ((startWorker?_eq_none_iff _ _ _).mp hm)

end Pool
end PoolControl
