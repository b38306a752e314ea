import PoolControl.Settings.QueueKind

/-! # Task queues

A `TaskQueue` hands tasks from those who offer them to those who take them, first in, first out. A
taker that finds the queue empty waits (`TaskQueue.take`) until an offer or a broadcast wakes it or
its deadline passes, and then looks once more (`TaskQueue.resume`). An offer wakes the taker that
has waited longest; where none waits it leaves one permit behind, never more, and the next taker
that would wait uses it up instead.

A queue that hands off holds no tasks of its own: it accepts no more tasks than there are takers
waiting. Every other queue accepts tasks up to its capacity. -/

namespace PoolControl

open Settings (QueueKind)

/-- Someone who waits for a task. -/
structure Taker where
  id : Nat
  /-- The time from which the taker waits no longer, if there is one. -/
  deadline : Option Nat
  /-- Whether the taker was woken and has not looked yet. -/
  woken : Bool := false
  deriving DecidableEq, Repr

/-- Whether the taker can go on at the given time. -/
def Taker.isDue (now : Nat) (t : Taker) : Bool := t.woken || t.deadline.any (· ≤ now)

/-- A queue of tasks with its waiting takers, the longest waiting first. -/
structure TaskQueue (α : Type) where
  kind : QueueKind
  capacity : Nat
  items : List α := []
  /-- The number of takers that wait. -/
  waiting : Nat := 0
  /-- Whether a wake-up is stored for the next taker that would wait. -/
  permit : Bool := false
  takers : List Taker := []
  deriving DecidableEq, Repr

namespace TaskQueue

variable {α : Type}

/-- An empty queue. One that hands off has no capacity. -/
def empty (kind : QueueKind) (capacity : Nat) : TaskQueue α :=
  { kind, capacity := if kind = .handOff then 0 else capacity }

/-- The number of queued tasks. -/
def size (q : TaskQueue α) : Nat := q.items.length

/-- Whether no task is queued. -/
def isEmpty (q : TaskQueue α) : Bool := q.items.isEmpty

/-- The room left under the capacity. -/
def remaining (q : TaskQueue α) : Nat := q.capacity - q.size

/-- The number of tasks up to which the queue accepts more. -/
def limit (q : TaskQueue α) : Nat := if q.kind = .handOff then q.waiting else q.capacity

/-- Wakes the first taker of the list that is not woken yet, if there is one. -/
def wakeFirst : List Taker → Option (List Taker)
  | [] => none
  | t :: ts =>
    if t.woken then (wakeFirst ts).map (t :: ·) else some ({ t with woken := true } :: ts)

/-- Wakes the taker that has waited longest, or leaves a permit. -/
def wakeOne (q : TaskQueue α) : TaskQueue α :=
  match wakeFirst q.takers with
  | some takers => { q with takers }
  | none => { q with permit := true }

/-- Wakes every taker that waits now. -/
def wakeAll (q : TaskQueue α) : TaskQueue α :=
  { q with takers := q.takers.map ({ · with woken := true }) }

/-- The queue with the task at its end, unless there is no room. -/
def offer? (q : TaskQueue α) (a : α) : Option (TaskQueue α) :=
  if q.size < q.limit then some { q with items := q.items ++ [a] }.wakeOne else none

/-- Removes the oldest task. -/
def poll (q : TaskQueue α) : Option α × TaskQueue α :=
  match q.items with
  | [] => (none, q)
  | a :: items => (some a, { q with items })

/-- Removes every task. -/
def drain (q : TaskQueue α) : List α × TaskQueue α := (q.items, { q with items := [] })

/-- The queue with another capacity, if its kind allows that. Tasks beyond it stay. -/
def setCapacity? (q : TaskQueue α) (capacity : Nat) : Option (TaskQueue α) :=
  if q.kind.isResizable then some { q with capacity } else none

/-- How taking a task begins. -/
inductive Take (α : Type) where
  /-- It ends at once, with a task or after using up the permit with none. -/
  | done (got : Option α)
  /-- The taker waits. -/
  | waits
  deriving DecidableEq, Repr

/-- A taker registers to be woken. It says whether it was woken at once, which uses up the
permit. -/
def enroll (q : TaskQueue α) (id : Nat) (deadline : Option Nat) : Bool × TaskQueue α :=
  if q.permit then (true, { q with permit := false, waiting := q.waiting + 1 })
  else (false, { q with takers := q.takers ++ [{ id, deadline }], waiting := q.waiting + 1 })

/-- The queue with one taker less that waits. -/
def unenroll (q : TaskQueue α) : TaskQueue α := { q with waiting := q.waiting - 1 }

/-- The queue without the registration of the taker. -/
def withdraw (q : TaskQueue α) (id : Nat) : TaskQueue α :=
  { q with takers := q.takers.filter (·.id != id) }.unenroll

/-- The taker stops waiting and looks once more. -/
def resume (q : TaskQueue α) (id : Nat) : Option α × TaskQueue α := (q.withdraw id).poll

/-- Takes the oldest task; where there is none, uses up the permit or waits. -/
def take (q : TaskQueue α) (id : Nat) (deadline : Option Nat) : Take α × TaskQueue α :=
  match q.poll with
  | (some a, q) => (.done (some a), q)
  | (none, q) =>
    let (woken, q) := q.enroll id deadline
    -- Whoever offered a task before the taker registered has woken nobody for it.
    match q.poll with
    | (some a, q) => (.done (some a), q.withdraw id)
    | (none, q) =>
      if woken then
        let (got, q) := q.poll
        (.done got, q.unenroll)
      else (.waits, q)

/-- The takers that can go on, the longest waiting first. -/
def due (q : TaskQueue α) (now : Nat) : List Nat := (q.takers.filter (·.isDue now)).map (·.id)

/-- Lets takers that can go on do so, at most `fuel` of them, in order of arrival. -/
def settleWith (now : Nat) : Nat → TaskQueue α → List (Nat × Option α) × TaskQueue α
  | 0, q => ([], q)
  | fuel + 1, q =>
    match q.due now with
    | [] => ([], q)
    | id :: _ =>
      let (got, q) := q.resume id
      let (rest, q) := settleWith now fuel q
      ((id, got) :: rest, q)

/-- Lets every taker that can go on do so, and says what each got. -/
def settle (now : Nat) (q : TaskQueue α) : List (Nat × Option α) × TaskQueue α :=
  settleWith now q.takers.length q

/-! ### What each operation does to the queued tasks -/

@[simp] theorem items_empty (kind : QueueKind) (capacity : Nat) :
    (empty kind capacity : TaskQueue α).items = [] := rfl

@[simp] theorem items_wakeOne (q : TaskQueue α) : q.wakeOne.items = q.items := by
  unfold wakeOne
  split <;> rfl

@[simp] theorem items_wakeAll (q : TaskQueue α) : q.wakeAll.items = q.items := rfl

/-- An offer is refused exactly where the limit is reached. -/
theorem offer?_eq_none_iff (q : TaskQueue α) (a : α) : q.offer? a = none ↔ q.limit ≤ q.size := by
  simp [offer?]

/-- An accepted task is the last of the queue. -/
theorem items_offer? {q r : TaskQueue α} {a : α} (h : q.offer? a = some r) :
    r.items = q.items ++ [a] := by
  unfold offer? at h
  split at h
  · rw [← Option.some.inj h, items_wakeOne]
  · cases h

@[simp] theorem poll_fst (q : TaskQueue α) : q.poll.1 = q.items.head? := by
  unfold poll
  split <;> simp_all

@[simp] theorem items_poll (q : TaskQueue α) : q.poll.2.items = q.items.tail := by
  unfold poll
  split <;> simp_all

@[simp] theorem drain_fst (q : TaskQueue α) : q.drain.1 = q.items := rfl

@[simp] theorem items_drain (q : TaskQueue α) : q.drain.2.items = [] := rfl

/-- Another capacity leaves the queued tasks alone. -/
theorem items_setCapacity? {q r : TaskQueue α} {capacity : Nat}
    (h : q.setCapacity? capacity = some r) : r.items = q.items := by
  unfold setCapacity? at h
  split at h
  · rw [← Option.some.inj h]
  · cases h

/-- The capacity can be set exactly where the kind allows it. -/
theorem setCapacity?_isSome (q : TaskQueue α) (capacity : Nat) :
    (q.setCapacity? capacity).isSome = q.kind.isResizable := by
  unfold setCapacity?
  split <;> simp_all

@[simp] theorem items_enroll (q : TaskQueue α) (id : Nat) (deadline : Option Nat) :
    (q.enroll id deadline).2.items = q.items := by
  unfold enroll
  split <;> rfl

@[simp] theorem items_withdraw (q : TaskQueue α) (id : Nat) : (q.withdraw id).items = q.items := rfl

@[simp] theorem resume_fst (q : TaskQueue α) (id : Nat) : (q.resume id).1 = q.items.head? := by
  simp [resume]

@[simp] theorem items_resume (q : TaskQueue α) (id : Nat) :
    (q.resume id).2.items = q.items.tail := by
  simp [resume]

end TaskQueue
end PoolControl
