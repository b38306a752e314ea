import PoolControl.Pool.Basic

/-! # The life of a worker

A worker runs the task that it was started for and then one task after the other from the queue.
Between tasks it looks for the next (`Pool.seek`): it takes a queued task if there is one, leaves if
the pool was shut down, leaves if there are more workers than the maximum size, leaves if it may
time out and has been idle for the keep-alive, and otherwise waits at the queue. A waiting worker
looks again when it is woken, and after a second at the latest. A worker of a running pool gives up
its slot before it leaves, and only if that is still allowed then (`Pool.retire`).

`Pool.step` is one step of one worker, and `Pool.turn` is what a worker does before others have a
turn. -/

namespace PoolControl.Pool

/-- The longest wait of an idle worker before it looks at the pool again, in milliseconds. -/
def idleRecheck : Nat := 1000

/-- The worker starts to run a task. -/
def launch (p : Pool) (id : Nat) (t : Task) : Pool :=
  { p.setPhase id (.running t) with active := p.active + 1 }

/-- Whether idle workers retire after the keep-alive. -/
def isTimed (p : Pool) : Bool := p.coreTimeout || decide (p.coreSize < p.size)

/-- Whether a worker idle since that moment has used up the keep-alive. -/
def isExpired (p : Pool) (clock : Clock) (since : Nat) : Bool :=
  p.isTimed && decide (p.keepAlive.toNat ≤ clock.wall - since)

/-- How long a worker idle since that moment waits at the queue. -/
def parkTime (p : Pool) (clock : Clock) (since : Nat) : Nat :=
  if p.isTimed then min (p.keepAlive.toNat - (clock.wall - since)) idleRecheck else idleRecheck

/-- The worker waits at the queue, or looks on where a stored wake-up or a task is there. -/
def park (p : Pool) (clock : Clock) (id since : Nat) : Pool :=
  match p.queue.take id (some (clock.timer + p.parkTime clock since)) with
  | (.done (some t), queue) => { p with queue }.launch id t
  | (.done none, queue) => { p with queue }.setPhase id (.seeking since)
  | (.waits, queue) => { p with queue }.setPhase id (.parked since)

/-- The pool with one slot less taken, if as many workers as there are allow that. -/
def tryRetire (p : Pool) (allowed : Nat → Bool) : Option Pool :=
  if 0 < p.size ∧ allowed p.size = true then some { p with size := p.size - 1 } else none

/-- A worker gives up its slot, if that is allowed. The last one takes it back where a task was
queued after it looked. -/
def retire (p : Pool) (allowed : Nat → Bool) : Bool × Pool :=
  match p.tryRetire allowed with
  | none => (false, p)
  | some q =>
    if q.queue.isEmpty = false ∧ q.size = 0 then
      match q.reserve? q.maxSize with
      | some kept => (false, kept)
      | none => (true, q)
    else (true, q)

/-- An idle worker looks for a task once. One that has used up the keep-alive and may not retire is
idle anew. -/
def seek (p : Pool) (clock : Clock) (id since : Nat) : Pool :=
  match p.queue.poll with
  | (some t, queue) => { p with queue }.launch id t
  | (none, _) =>
    if !p.running then p.removeWorker id
    else
      let (retired, q) :=
        if p.maxSize < p.size then p.retire fun n => decide (p.maxSize < n) else (false, p)
      if retired then q.dismiss id
      else if p.isExpired clock since then
        let (retired, q) := q.retire fun n => decide (p.coreSize < n) || p.coreTimeout
        if retired then q.dismiss id else q.setPhase id (.seeking clock.wall)
      else q.park clock id since

/-- Whether the worker can take a step. A running one cannot until its task ends. -/
def canStep (p : Pool) (clock : Clock) (w : Worker) : Bool :=
  match w.phase with
  | .running _ => false
  | .parked _ => (p.queue.due clock.timer).contains w.id
  | _ => true

/-- One step of a worker. -/
def stepOf (p : Pool) (clock : Clock) (w : Worker) : Pool :=
  match w.phase with
  | .assigned t => p.launch w.id t
  | .fresh => p.setPhase w.id (.seeking clock.wall)
  | .running _ => p
  | .finished _ =>
    { p.setPhase w.id (.seeking clock.wall) with
      active := p.active - 1
      completed := p.completed + 1 }
  | .seeking since => p.seek clock w.id since
  | .parked since =>
    match p.queue.resume w.id with
    | (some t, queue) => { p with queue }.launch w.id t
    | (none, queue) => { p with queue }.setPhase w.id (.seeking since)

/-- One step of the worker with that identity, if it can take one. -/
def step (p : Pool) (clock : Clock) (id : Nat) : Pool :=
  match p.worker? id with
  | some w => if p.canStep clock w then p.stepOf clock w else p
  | none => p

/-- Whether the worker is looking for a task. -/
def isSeeking (p : Pool) (id : Nat) : Bool :=
  match p.worker? id with
  | some { phase := .seeking _, .. } => true
  | _ => false

/-- The worker looks for a task until it runs one, waits or has left. -/
def seekOn (clock : Clock) (id : Nat) : Nat → Pool → Pool
  | 0, p => p
  | fuel + 1, p => if p.isSeeking id then seekOn clock id fuel (p.step clock id) else p

/-- What the worker does before others have a turn. A stored wake-up makes it look once more. -/
def turn (p : Pool) (clock : Clock) (id : Nat) : Pool :=
  seekOn clock id (if p.queue.permit then 2 else 1) (p.step clock id)

/-- The task that the worker runs has ended. -/
def finish (p : Pool) (id : Nat) : Pool :=
  match p.worker? id with
  | some { phase := .running t, .. } => p.setPhase id (.finished t)
  | _ => p

/-- The workers that can take a step, woken ones first in order of arrival. -/
def runnable (p : Pool) (clock : Clock) : List Nat :=
  p.queue.due clock.timer ++
    ((p.workers.filter (p.canStep clock)).map (·.id)).filter fun id =>
      !(p.queue.due clock.timer).contains id

end PoolControl.Pool
