import PoolControl.Duration
import PoolControl.SaturationPolicy
import PoolControl.Settings.Record
import PoolControl.Snapshot
import PoolControl.TaskQueue
import PoolControl.Text.Quoted

/-! # Worker pools

A `Pool` runs tasks on workers that it starts when they are needed. It holds the tunables, the
queue, the workers with what each is doing (`Phase`), and the counters that it shows to the outside:
`size` workers hold a slot, `largest` is the highest number of slots ever held at once, and `active`
workers run a task. `Pool.ofRecord` gives the pool that a record describes. -/

namespace PoolControl

open Settings (NotifyRule QueueKind Record)

/-- What a task does once it is started. -/
inductive TaskBody where
  /-- It ends at once. -/
  | noop
  /-- It waits until its gate is opened. -/
  | gate
  /-- It fails at once. -/
  | panic
  deriving DecidableEq, Repr

/-- A unit of work. -/
structure Task where
  id : String
  body : TaskBody := .noop
  deriving DecidableEq, Repr

/-- The two clocks, in milliseconds since the program started. -/
structure Clock where
  /-- The clock that runs the timers. -/
  timer : Nat := 0
  /-- The clock that measures how long something took. -/
  wall : Nat := 0
  /-- What the clock of the machine showed when the program started, in nanoseconds. -/
  origin : Nat := 1000000000
  deriving DecidableEq, Repr

namespace Clock

/-- What the clock of the machine shows, in nanoseconds. -/
def nanos (c : Clock) : Nat := c.origin + c.wall * 1000000

/-- The clocks after so much time on each. -/
def advance (c : Clock) (timer wall : Nat) : Clock :=
  { c with timer := c.timer + timer, wall := c.wall + wall }

@[simp] theorem timer_advance (c : Clock) (timer wall : Nat) :
    (c.advance timer wall).timer = c.timer + timer := rfl

@[simp] theorem wall_advance (c : Clock) (timer wall : Nat) :
    (c.advance timer wall).wall = c.wall + wall := rfl

end Clock

/-- What a worker is doing. -/
inductive Phase where
  /-- It was started for a task and has not begun it. -/
  | assigned (task : Task)
  /-- It was started to look for a task. -/
  | fresh
  | running (task : Task)
  /-- Its task has ended, well or badly. -/
  | finished (task : Task)
  /-- It looks for a task, idle since that moment of the wall clock. -/
  | seeking (since : Nat)
  /-- It waits at the queue, idle since that moment of the wall clock. -/
  | parked (since : Nat)
  deriving DecidableEq, Repr

/-- A worker of a pool. -/
structure Worker where
  id : Nat
  phase : Phase
  deriving DecidableEq, Repr

/-- A pool of workers whose tunables can change while it runs. -/
structure Pool where
  name : String
  coreSize : Nat
  maxSize : Nat
  /-- The time in milliseconds after which an idle worker may retire. -/
  keepAlive : UInt64
  /-- Whether core workers retire too. -/
  coreTimeout : Bool
  policy : SaturationPolicy
  queue : TaskQueue Task
  workers : List Worker := []
  /-- The identity of the next worker. -/
  nextWorker : Nat := 0
  size : Nat := 0
  largest : Nat := 0
  active : Nat := 0
  completed : Nat := 0
  rejected : Nat := 0
  running : Bool := true
  /-- Whether a shutdown lets the queued tasks finish. -/
  waitOnShutdown : Bool
  /-- How many seconds a shutdown waits for them. -/
  awaitSeconds : UInt64
  rules : List NotifyRule
  deriving DecidableEq, Repr

namespace Pool

/-- Refuses a record whose sizes and keep-alive describe no pool that can be run. -/
def checkRecord (r : Record) : Except Error Unit :=
  if r.isCommittable then .ok ()
  else .error (.invalidRecord r.name r.coreSize.toInt r.maxSize.toInt r.keepAliveTime.toInt)

/-- The idle pool that a record describes. -/
def ofRecord (r : Record) : Except Error Pool := do
  checkRecord r
  let policy ← SaturationPolicy.resolve r.policyName
  if r.coreTimeout ∧ (r.keepAlive?.getD ⟨0⟩).nanos = 0 then throw (.zeroKeepAlive r.name)
  return {
    name := r.name
    coreSize := r.coreSize.toInt.toNat
    maxSize := r.maxSize.toInt.toNat
    keepAlive := r.keepAliveMillis
    coreTimeout := r.coreTimeout
    policy
    queue := .empty r.queueKind r.queueCapacity.toNat
    waitOnShutdown := r.waitOnShutdown
    awaitSeconds := r.awaitSeconds
    rules := r.rules }

/-- The keep-alive as a span. -/
def keepAliveSpan (p : Pool) : Duration := .ofMillis p.keepAlive.toNat

/-- Whether the pool is shut down and its last worker has left. -/
def isTerminated (p : Pool) : Bool := !p.running && p.size == 0

/-- The tunables of the pool. -/
def snapshot (p : Pool) : Snapshot :=
  { name := p.name
    coreSize := p.coreSize
    maxSize := p.maxSize
    queueKind := p.queue.kind
    queueCapacity := p.queue.capacity
    keepAlive := p.keepAliveSpan
    policy := p.policy.name
    coreTimeout := p.coreTimeout }

/-- The pool in one line, for diagnostics. -/
def debugText (p : Pool) : String :=
  "DynamicExecutor \x7b name: " ++ Text.quoted p.name ++ ", core_size: " ++ toString p.coreSize ++
    ", max_size: " ++ toString p.maxSize ++ ", pool_size: " ++ toString p.size ++
    ", queue_type: " ++ p.queue.kind.name ++ ", queue_size: " ++ toString p.queue.size ++
    ", queue_capacity: " ++ toString p.queue.capacity ++ ", reject_policy: " ++
    p.policy.shortName ++ " \x7d"

/-- The worker with that identity. -/
def worker? (p : Pool) (id : Nat) : Option Worker := p.workers.find? (·.id == id)

/-- The pool with the worker of that identity in another phase. -/
def setPhase (p : Pool) (id : Nat) (phase : Phase) : Pool :=
  { p with workers := p.workers.map fun w => if w.id = id then { w with phase } else w }

/-- The pool without the worker of that identity, which has given up its slot. -/
def dismiss (p : Pool) (id : Nat) : Pool :=
  { p with workers := p.workers.filter (·.id != id) }

/-- The pool without the worker of that identity and without its slot. -/
def removeWorker (p : Pool) (id : Nat) : Pool :=
  { p with workers := p.workers.filter (·.id != id), size := p.size - 1 }

/-- The pool with one more slot taken, if fewer than `limit` are. -/
def reserve? (p : Pool) (limit : Nat) : Option Pool :=
  if p.size < limit then
    some { p with size := p.size + 1, largest := max p.largest (p.size + 1) }
  else none

/-- The pool with one more worker, if fewer than `limit` hold a slot. -/
def startWorker? (p : Pool) (limit : Nat) (phase : Phase) : Option Pool :=
  (p.reserve? limit).map fun p =>
    { p with
      workers := p.workers ++ [{ id := p.nextWorker, phase }]
      nextWorker := p.nextWorker + 1 }

/-! ### What each operation does to the workers -/

@[simp] theorem size_setPhase (p : Pool) (id : Nat) (phase : Phase) :
    (p.setPhase id phase).size = p.size := rfl

@[simp] theorem length_setPhase (p : Pool) (id : Nat) (phase : Phase) :
    (p.setPhase id phase).workers.length = p.workers.length := by
  simp [setPhase]

@[simp] theorem queue_setPhase (p : Pool) (id : Nat) (phase : Phase) :
    (p.setPhase id phase).queue = p.queue := rfl

@[simp] theorem queue_removeWorker (p : Pool) (id : Nat) :
    (p.removeWorker id).queue = p.queue := rfl

/-- No worker is started exactly where the limit is reached. -/
theorem startWorker?_eq_none_iff (p : Pool) (limit : Nat) (phase : Phase) :
    p.startWorker? limit phase = none ↔ limit ≤ p.size := by
  simp [startWorker?, reserve?]

end Pool
end PoolControl
