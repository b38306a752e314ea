import PoolControl.Alarm
import PoolControl.Bind
import PoolControl.Pool.Admission
import PoolControl.Pool.Shutdown
import PoolControl.Pool.Work
import PoolControl.Watch

/-! # Scripted sessions

A `Session` is a control plane with everything that lives around it: calls that have not returned,
background tickers, a configuration source that can be set, gates of tasks and permits of channels
that can be opened. A script moves it step by step; after each step everything that can run is run
until all of it waits. Nothing happens between steps, and the clocks move only when a step says so.

This module holds the state, the steps and their answers. -/

namespace PoolControl

open Settings (Batch NoticeKind NotifyRule Platform Record)

/-! ### Steps -/

/-- A new value for one setting of a pool. -/
inductive Setting where
  | coreSize (n : Nat)
  | maxSize (n : Nat)
  | queueCapacity (n : Nat)
  | keepAlive (span : Duration)
  | await (span : Duration)
  | coreTimeout (allow : Bool)
  | waitOnShutdown (wait : Bool)
  | policy (name : String)
  | rules (rules : List NotifyRule)
  deriving Repr

/-- A background task that acts periodically. -/
inductive TickerKind where
  | watch
  | monitor
  deriving DecidableEq, Repr

/-- One step of a script. -/
inductive Step where
  | register (record : Record)
  | names
  | contains (name : String)
  | rulesOf (pool : String)
  | snapshotOf (pool : String)
  | debugOf (pool : String)
  | set (pool : String) (setting : Setting)
  | execute (pool : String) (tasks : List Task)
  | openGate (task : String)
  | shutdown (pool : String)
  | shutdownAll
  | waitTerminated (pool : String) (span : Duration)
  | refresh (batch : Batch)
  | refreshGet (batch : Batch) (name : String)
  | refreshRecord (record : Record) (platforms : List Platform)
  | bind (batch : Batch)
  | askThrottle (key : GaugeKey)
  | hasGauge (key : GaugeKey)
  | resetGauge (pool : String) (rule : NotifyRule)
  | alarmRound
  | post (notice : Notice)
  | syncPlatforms (platforms : List Platform)
  | outbox
  | givePermits (n : Nat)
  | closeOutbox
  | tally
  | setSource (source : Except Error Batch)
  | watchSync
  | watchMark (batch : Batch)
  | watchInfo
  | spawn (kind : TickerKind)
  | stop
  | background
  | advance (millis : Nat)
  | sleep (millis : Nat)

/-- The answer to a step. -/
inductive Answer where
  | ok
  | done
  | bool (b : Bool)
  | count (n : Nat)
  | error (e : Error)
  | fault (f : Fault)
  /-- The call has not returned; it is known by this number from now on. -/
  | pending (number : Nat)
  | snapshot (s : Snapshot)
  | names (names : List String)
  | rules (rules : List NotifyRule)
  | text (s : String)
  | submitted (errors : List (Option Error))
  | summary (s : Summary)
  | outcome (o : Option Outcome)
  | raised (alarms : List (String × NoticeKind))
  | posted (scheduled : Bool) (pending : Nat)
  | channels (n : Nat)
  | outbox (channels pending : Nat)
  | timedOut (b : Bool)
  | tally (t : Tally)
  | sync (s : Watch.Sync)
  | watchInfo (fetches period : Nat)
  | background (finished : List Bool)

/-! ### What goes on beside the steps -/

/-- What happened to a task. -/
inductive TaskEventKind where
  | start
  | done
  | panic
  /-- It was dropped unfinished. -/
  | drop
  deriving DecidableEq, Repr

/-- Something that happened to a task. -/
structure TaskEvent where
  kind : TaskEventKind
  task : String
  deriving DecidableEq, Repr

/-- The event in one word. -/
def TaskEvent.text (e : TaskEvent) : String :=
  (match e.kind with
    | .start => "start:"
    | .done => "done:"
    | .panic => "panic:"
    | .drop => "drop:") ++ e.task

/-- What a call has left to do. Pools are known by their serial numbers. -/
inductive Work where
  /-- Submit the tasks that are left. -/
  | submitting (pool : Nat) (left : List Task) (errors : List (Option Error))
  /-- Run a task itself, and then submit those that are left. -/
  | inline (pool : Nat) (task : Task) (left : List Task) (errors : List (Option Error))
  /-- Shut the pools down, one after the other. -/
  | stopping (left : List Nat)
  /-- Wait for a pool that was shut down, and then shut down those that are left. -/
  | draining (pool : Nat) (wait : Termination) (left : List Nat)
  | waiting (pool : Nat) (wait : Termination)
  | returned (answer : Answer)

/-- The tasks that a call has left to submit or to run. -/
def Work.left : Work → Nat
  | .submitting _ left _ => left.length
  | .inline _ _ left _ => left.length + 1
  | _ => 0

/-- A call that was begun. -/
structure Call where
  /-- The number by which a call that did not return in its step is known. -/
  number : Option Nat := none
  work : Work

/-- A background task. -/
structure Ticker where
  kind : TickerKind
  /-- The moment of the timer clock of the next tick. -/
  next : Nat
  alive : Bool := true
  deriving DecidableEq, Repr

/-- A control plane with everything that lives around it. -/
structure Session where
  plane : ControlPlane
  /-- The pools that were replaced in the registry. -/
  replaced : List Registered := []
  monitor : Monitor := {}
  /-- The time between two alarm rounds, in milliseconds. -/
  monitorPeriod : Nat := 5000
  watch : Watch := {}
  /-- The time between two looks at the source, in milliseconds. -/
  watchPeriod : Nat := 60000
  /-- What the source gives. -/
  source : Except Error Batch := .ok {}
  /-- How often the source was asked. -/
  fetches : Nat := 0
  /-- The tasks whose gate is open. -/
  opened : List String := []
  /-- How many more deliveries gated channels may accept. -/
  permits : Nat := 0
  calls : List Call := []
  /-- How many calls did not return in their step so far. -/
  numbered : Nat := 0
  tickers : List Ticker := []
  /-- What happened to tasks in this step. -/
  events : List TaskEvent := []
  /-- What arrived at the host's channels in this step. -/
  arrivals : List (String × Notice) := []
  /-- What log channels wrote in this step. -/
  logged : List Log.Entry := []

namespace Session

/-- The clocks. -/
def clock (s : Session) : Clock := s.plane.clock

/-- The session after something happened to a task. -/
def note (s : Session) (kind : TaskEventKind) (task : String) : Session :=
  { s with events := s.events ++ [{ kind, task }] }

/-- The session after tasks were dropped unfinished. -/
def noteDropped (s : Session) (tasks : List Task) : Session :=
  tasks.foldl (fun s t => s.note .drop t.id) s

/-- Every pool, also the replaced ones. -/
def everyPool (s : Session) : List Registered := s.plane.registry.entries ++ s.replaced

/-- The pool with that serial number. -/
def pool? (s : Session) (serial : Nat) : Option Pool :=
  (s.everyPool.find? (·.serial == serial)).map (·.pool)

/-- The session with that pool under the serial number. -/
def setPool (s : Session) (serial : Nat) (p : Pool) : Session :=
  let put := List.map fun (e : Registered) => if e.serial = serial then { e with pool := p } else e
  let registry := { s.plane.registry with entries := put s.plane.registry.entries }
  { s with plane := { s.plane with registry }, replaced := put s.replaced }

/-- The serial number of the registered pool of that name. -/
def serial? (s : Session) (name : String) : Option Nat :=
  (s.plane.registry.entry? name).map (·.serial)

end Session
end PoolControl
