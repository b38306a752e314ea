import PoolControl.Pool.Basic

/-! # Tuning a running pool

Every tunable can be set while the pool runs. A setter that would leave the core size above the
maximum size, or core workers that time out after no time at all, is refused and changes nothing.
Raising the core size starts workers for tasks that are queued already, and whatever lets more
workers retire wakes those that wait.

`Tuning` records what a setter did. -/

namespace PoolControl

open Settings (NotifyRule)

/-- What a setter did, for the log. -/
inductive Tuning where
  | coreSize (old new : Nat)
  | maxSize (old new : Nat)
  | keepAlive (old new : Duration)
  | coreTimeout (allow : Bool)
  | policy (old new : SaturationPolicy)
  | queueCapacity (new : Nat)
  deriving DecidableEq, Repr

namespace Pool

/-- Starts up to `n` workers that look for tasks, as long as fewer than `limit` hold a slot. -/
def startWorkers (limit : Nat) : Nat → Pool → Pool
  | 0, p => p
  | n + 1, p =>
    match p.startWorker? limit .fresh with
    | some p => startWorkers limit n p
    | none => p

/-- Wakes the waiting workers if the condition holds. -/
def wakeIf (p : Pool) (condition : Bool) : Pool :=
  if condition then { p with queue := p.queue.wakeAll } else p

/-- Sets the core size. -/
def setCoreSize (p : Pool) (core : Nat) : Except Error Pool :=
  if p.maxSize < core then .error (.coreAboveMax p.name core p.maxSize)
  else
    let old := p.coreSize
    let p := { p with coreSize := core }
    .ok ((startWorkers core (min p.queue.size (core - old)) p).wakeIf (core < old))

/-- Sets the maximum size. -/
def setMaxSize (p : Pool) (max : Nat) : Except Error Pool :=
  if max = 0 ∨ max < p.coreSize then .error (.maxTooSmall p.name max p.coreSize)
  else .ok ({ p with maxSize := max }.wakeIf (max < p.maxSize))

/-- Sets the keep-alive, which is kept in whole milliseconds. -/
def setKeepAlive (p : Pool) (keepAlive : Duration) : Except Error Pool :=
  if keepAlive.nanos = 0 ∧ p.coreTimeout then .error (.zeroKeepAlive p.name)
  else
    .ok ({ p with keepAlive := keepAlive.wordMillis }.wakeIf
      (decide (keepAlive.nanos < p.keepAliveSpan.nanos)))

/-- Sets whether core workers time out. -/
def setCoreTimeout (p : Pool) (allow : Bool) : Except Error Pool :=
  if allow ∧ p.keepAlive = 0 then .error (.zeroKeepAlive p.name)
  else .ok ({ p with coreTimeout := allow }.wakeIf (p.coreTimeout != allow))

/-- Sets the saturation policy. -/
def setPolicy (p : Pool) (policy : SaturationPolicy) : Pool := { p with policy }

/-- Sets the capacity of the queue. -/
def setQueueCapacity (p : Pool) (capacity : Nat) : Except Error Pool :=
  match p.queue.setCapacity? capacity with
  | some queue => .ok { p with queue }
  | none => .error (.fixedCapacity p.name p.queue.kind)

/-- Sets whether a shutdown lets the queued tasks finish. -/
def setWaitOnShutdown (p : Pool) (wait : Bool) : Pool := { p with waitOnShutdown := wait }

/-- Sets how long a shutdown waits, in whole seconds. -/
def setAwait (p : Pool) (seconds : UInt64) : Pool := { p with awaitSeconds := seconds }

/-- Sets the notification rules. -/
def setRules (p : Pool) (rules : List NotifyRule) : Pool := { p with rules }

end Pool
end PoolControl
