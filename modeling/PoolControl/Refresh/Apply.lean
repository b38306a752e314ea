import PoolControl.Pool.Tuning
import PoolControl.Throttle

/-! # Applying a record to a pool

`Tuned.ofRecord` gives a running pool the tunables of a record. Only what differs is touched, and a
tunable that the pool refuses keeps its value and is reported, while the others are still applied.
The order of the steps keeps every state in between committable: the maximum size goes first when
the new core size exceeds the old maximum, and a keep-alive is in place before core workers time
out.

`applyRecord` then sets how the pool shuts down and its notification rules, and resets the gauges of
the rules whose interval is new. -/

namespace PoolControl

open Settings (NotifyRule Platform Record)

/-- What applying a record did. -/
inductive TuningEvent where
  | set (tuning : Tuning)
  /-- The pool refused a tunable. -/
  | kept (field : String) (error : Error)
  /-- The pool refused another capacity of its queue. -/
  | capacityKept (requested current : Nat) (error : Error)
  deriving DecidableEq, Repr

/-- A tunable that a pool refused. -/
structure Skip where
  field : String
  error : Error
  deriving DecidableEq, Repr

/-- The refused tunable of an event, if it is one. -/
def TuningEvent.skip? : TuningEvent → Option Skip
  | set _ => none
  | kept field error => some { field, error }
  | capacityKept _ _ error => some { field := "queue_capacity", error }

/-- A pool in the course of being tuned. -/
structure Tuned where
  pool : Pool
  events : List TuningEvent := []
  deriving DecidableEq, Repr

namespace Tuned

/-- The tunables that were refused so far. -/
def skipped (t : Tuned) : List Skip := t.events.filterMap TuningEvent.skip?

/-- Takes over the result of a setter. -/
def attempt (t : Tuned) (result : Except Error Pool) (tuning : Tuning)
    (refused : Error → TuningEvent) : Tuned :=
  match result with
  | .ok pool => { pool, events := t.events ++ [.set tuning] }
  | .error e => { t with events := t.events ++ [refused e] }

/-- Sets the core size where it differs. -/
def core (core : Nat) (t : Tuned) : Tuned :=
  if core = t.pool.coreSize then t
  else t.attempt (t.pool.setCoreSize core) (.coreSize t.pool.coreSize core) (.kept "core_size")

/-- Sets the maximum size where it differs. -/
def max (max : Nat) (t : Tuned) : Tuned :=
  if max = t.pool.maxSize then t
  else t.attempt (t.pool.setMaxSize max) (.maxSize t.pool.maxSize max) (.kept "max_size")

/-- Sets both sizes. -/
def sizes (core max : Nat) (t : Tuned) : Tuned :=
  if t.pool.maxSize < core then (t.max max).core core else (t.core core).max max

/-- Sets the keep-alive where it differs. -/
def keepAlive (millis : UInt64) (t : Tuned) : Tuned :=
  let span := Duration.ofMillis millis.toNat
  if millis = t.pool.keepAlive then t
  else
    t.attempt (t.pool.setKeepAlive span) (.keepAlive t.pool.keepAliveSpan span) (.kept "keep_alive")

/-- Sets whether core workers time out, where it differs. -/
def coreTimeout (allow : Bool) (t : Tuned) : Tuned :=
  if allow = t.pool.coreTimeout then t
  else t.attempt (t.pool.setCoreTimeout allow) (.coreTimeout allow) (.kept "allow_core_timeout")

/-- Sets the saturation policy where its name differs. -/
def policy (name : String) (t : Tuned) : Tuned :=
  if Text.sameName t.pool.policy.name (Text.trim name) then t
  else
    match SaturationPolicy.resolve name with
    | .ok policy =>
      { pool := t.pool.setPolicy policy
        events := t.events ++ [.set (.policy t.pool.policy policy)] }
    | .error e => { t with events := t.events ++ [.kept "reject_policy" e] }

/-- Sets the capacity of the queue where it differs. One that hands off has none to set. -/
def queueCapacity (capacity : Nat) (t : Tuned) : Tuned :=
  if t.pool.queue.kind = .handOff ∨ capacity = t.pool.queue.capacity then t
  else
    t.attempt (t.pool.setQueueCapacity capacity) (.queueCapacity capacity)
      (.capacityKept capacity t.pool.queue.capacity)

/-- Sets keep-alive and core timeout, in the order in which neither can be refused for the other. -/
def timing (r : Record) (t : Tuned) : Tuned :=
  if r.coreTimeout then (t.keepAlive r.keepAliveMillis).coreTimeout true
  else (t.coreTimeout false).keepAlive r.keepAliveMillis

/-- The pool with the tunables of a committable record. -/
def ofRecord (r : Record) (p : Pool) : Tuned :=
  let t := Tuned.sizes r.coreSize.toInt.toNat r.maxSize.toInt.toNat { pool := p }
  ((t.timing r).policy r.policyName).queueCapacity r.queueCapacity.toNat

end Tuned

/-- Whether the rule's interval is the one that the pool's rule of the kind had before. -/
def keepsInterval (previous : List NotifyRule) (rule : NotifyRule) : Bool :=
  (NotifyRule.find? previous rule.kind).any (·.intervalSecs == rule.intervalSecs)

/-- Resets the gauges of the rules in order. A failure ends it, with the gauges as they are then. -/
def Throttle.resetAll (t : Throttle) (now : Nat) (pool : String) :
    List NotifyRule → Option Fault × Throttle
  | [] => (none, t)
  | rule :: rules =>
    match t.reset now pool rule with
    | .ok t => t.resetAll now pool rules
    | .error fault => (some fault, t)

/-- The result of applying a record. -/
structure Applied where
  pool : Pool
  throttle : Throttle
  events : List TuningEvent
  fault : Option Fault

/-- The tunables that were refused. -/
def Applied.skipped (a : Applied) : List Skip := a.events.filterMap TuningEvent.skip?

/-- Applies a committable record at a moment. After a fault the rules are left as they were. -/
def applyRecord (platforms : List Platform) (throttle : Throttle) (now : Nat) (r : Record)
    (p : Pool) : Applied :=
  let tuned := Tuned.ofRecord r p
  let pool := (tuned.pool.setWaitOnShutdown r.waitOnShutdown).setAwait r.awaitSeconds
  let rules := NotifyRule.effective platforms r.rules
  let (fault, throttle) :=
    throttle.resetAll now pool.name (rules.filter fun rule => !keepsInterval pool.rules rule)
  { pool := if fault.isNone then pool.setRules rules else pool
    throttle
    events := tuned.events
    fault }

end PoolControl
