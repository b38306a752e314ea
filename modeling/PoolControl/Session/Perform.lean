import PoolControl.Session.Settle

/-! # Performing the steps of a session

`Session.perform` does one step, settles, and reports the answer with all that happened in the step.
A call that has not returned by then answers with a number, and the report of the step in which it
returns gives its answer under that number. -/

namespace PoolControl

open Settings (Batch Record)

/-- What a step led to. -/
structure Report where
  answer : Answer
  /-- The answers of earlier calls that returned in this step. -/
  resolved : List (Nat × Answer) := []
  events : List TaskEvent := []
  /-- What arrived at the host's channels, with their platforms. -/
  arrivals : List (String × Notice) := []
  /-- What log channels wrote. -/
  logged : List Log.Entry := []

namespace Session

/-- The answer of something that can be refused. -/
def answerOf {α : Type} (answer : α → Answer) : Except Error α → Answer
  | .ok a => answer a
  | .error e => .error e

/-- The answer of something that can fail. -/
def answerOfFault {α : Type} (answer : α → Answer) : Except Fault α → Answer
  | .ok a => answer a
  | .error f => .fault f

/-- Registers the pool that a record describes. -/
def register (s : Session) (r : Record) : Answer × Session :=
  match Pool.ofRecord r with
  | .error e => (.error e, s)
  | .ok p =>
    let (old, registry) := s.plane.registry.register p
    (.snapshot p.snapshot,
      { s with plane := { s.plane with registry }, replaced := s.replaced ++ old.toList })

/-- The pool with a new value of a setting. -/
def applySetting (p : Pool) : Setting → Except Error Pool
  | .coreSize n => p.setCoreSize n
  | .maxSize n => p.setMaxSize n
  | .queueCapacity n => p.setQueueCapacity n
  | .keepAlive span => p.setKeepAlive span
  | .await span => .ok (p.setAwait (UInt64.ofNat span.secs))
  | .coreTimeout allow => p.setCoreTimeout allow
  | .waitOnShutdown wait => .ok (p.setWaitOnShutdown wait)
  | .policy name => (SaturationPolicy.resolve name).map p.setPolicy
  | .rules rules => .ok (p.setRules rules)

/-- Puts a result of the control plane into the session. -/
def withPlane {α : Type} (s : Session) (answer : α → Answer) (result : α × ControlPlane) :
    Answer × Session :=
  (answer result.1, { s with plane := result.2 })

/-- Begins a call. It gets its first turn when the session settles. -/
def call (s : Session) (work : Work) : Option Answer × Session :=
  (none, { s with calls := s.calls ++ [{ work }] })

/-- An answer that is there at once. -/
def now (result : Answer × Session) : Option Answer × Session := (some result.1, result.2)

/-- Does something with a registered pool. -/
def onPool (s : Session) (name : String) (act : Pool → Option Answer × Session) :
    Option Answer × Session :=
  match s.plane.registry.get name with
  | .ok p => act p
  | .error e => (some (.error e), s)

/-- Begins a call on a registered pool. -/
def callOn (s : Session) (name : String) (work : Nat → Work) : Option Answer × Session :=
  match s.serial? name with
  | some serial => s.call (work serial)
  | none => (some (.error (.notFound name)), s)

/-- Moves the clocks. -/
def moveClocks (s : Session) (timer wall : Nat) : Session :=
  { s with
    plane := { s.plane with clock := s.clock.advance timer wall } }

/-- Starts a ticker. One with no time between its ticks ends at once; the monitor's first tick is
due at once, and the watch's after one period. -/
def spawn (s : Session) (kind : TickerKind) : Session :=
  let first := match kind with
    | .monitor => 0
    | .watch => s.period kind
  { s with
    tickers :=
      s.tickers ++ [{ kind, next := s.clock.timer + first, alive := decide (0 < s.period kind) }] }

/-- How long the outbox may take to deliver its backlog when it is closed, in milliseconds. -/
def drainLimit : Nat := 5000

/-- Closes the outbox and lets the courier deliver what it can. -/
def closeOutbox (s : Session) : Answer × Session :=
  if !s.plane.outbox.isOpen then (.timedOut false, s)
  else
    let s := { s with plane := { s.plane with outbox := s.plane.outbox.close } }.settle
    if s.plane.outbox.courier = .gone then (.timedOut false, s)
    else (.timedOut true, (s.moveClocks drainLimit 0).settle)

/-- Begins a step, and gives its answer unless it is a call. -/
def begin (s : Session) : Step → Option Answer × Session
  | .register r => now (s.register r)
  | .names => (some (.names s.plane.registry.names), s)
  | .contains name => (some (.bool (s.plane.registry.contains name)), s)
  | .rulesOf name => s.onPool name fun p => (some (.rules p.rules), s)
  | .snapshotOf name => s.onPool name fun p => (some (.snapshot p.snapshot), s)
  | .debugOf name => s.onPool name fun p => (some (.text p.debugText), s)
  | .set name setting =>
    s.onPool name fun p =>
      match applySetting p setting with
      | .ok p => (some .ok, { s with plane := s.plane.updatePool p })
      | .error e => (some (.error e), s)
  | .execute name tasks => s.callOn name fun serial => .submitting serial tasks []
  | .openGate task => (some .ok, { s with opened := task :: s.opened })
  | .shutdown name => s.callOn name fun serial => .stopping [serial]
  | .shutdownAll => s.call (.stopping (s.plane.registry.entries.map (·.serial)))
  | .waitTerminated name span =>
    s.callOn name fun serial =>
      match Termination.start? s.clock span with
      | some wait => .waiting serial wait
      | none => .returned (.fault .clockOverflow)
  | .refresh batch => now (s.withPlane (answerOfFault .summary) (PoolControl.refresh s.plane batch))
  | .refreshGet batch name =>
    now (s.withPlane (answerOfFault fun summary => .outcome (summary.get? name))
      (PoolControl.refresh s.plane batch))
  | .refreshRecord record platforms =>
    now (s.withPlane (answerOfFault (.outcome ∘ some))
      (PoolControl.refreshRecord platforms s.plane record))
  | .bind batch =>
    now (s.withPlane
      (fun | (bindings, none) => .count (bindings.countP Binding.isApplied)
           | (_, some fault) => .fault fault)
      (PoolControl.bind s.plane batch))
  | .askThrottle key => now (s.withPlane .bool (s.plane.ask key))
  | .hasGauge key => (some (.bool (s.plane.throttle.contains key)), s)
  | .resetGauge pool rule =>
    match s.plane.throttle.reset s.plane.nowNanos pool rule with
    | .ok throttle => (some .ok, { s with plane := { s.plane with throttle } })
    | .error fault => (some (.fault fault), s)
  | .alarmRound =>
    let (raised, s) := s.alarmRound
    (some (.raised raised), s)
  | .post notice =>
    let (scheduled, plane) := s.plane.post notice
    (some (.posted scheduled plane.outbox.pending), { s with plane })
  | .syncPlatforms platforms =>
    let outbox := s.plane.outbox.sync platforms
    (some (.channels outbox.channels.length), { s with plane := { s.plane with outbox } })
  | .outbox =>
    (some (.outbox s.plane.outbox.channels.length s.plane.outbox.pending), s)
  | .givePermits n => (some .ok, { s with permits := s.permits + n })
  | .closeOutbox => now s.closeOutbox
  | .tally => (some (.tally s.plane.tally), s)
  | .setSource source => (some .ok, { s with source })
  | .watchSync =>
    match s.syncWatch with
    | (.broken fault, s) => (some (.fault fault), s)
    | (result, s) => (some (.sync result), s)
  | .watchMark batch => (some .ok, { s with watch := s.watch.mark batch })
  | .watchInfo => (some (.watchInfo s.fetches s.watchPeriod), s)
  | .spawn kind => (some .ok, s.spawn kind)
  | .stop =>
    (some (.bool (s.tickers.any (·.alive))),
      { s with tickers := s.tickers.map ({ · with alive := false }) })
  | .background => (some (.background (s.tickers.map fun t => !t.alive)), s)
  | .advance millis => (some .ok, s.moveClocks millis 0)
  | .sleep millis => (some .ok, s.moveClocks millis millis)

/-- The answers of the numbered calls that have returned. -/
def returned (s : Session) : List (Nat × Answer) :=
  s.calls.filterMap fun c =>
    match c.number, c.work with
    | some number, .returned answer => some (number, answer)
    | _, _ => none

/-- Takes the call that was begun in this step out of the calls, if it has returned, and numbers it
otherwise. -/
def conclude (s : Session) : Answer × Session :=
  match s.calls.find? (·.number.isNone) with
  | some { work := .returned answer, .. } =>
    (answer, { s with calls := s.calls.filter (·.number.isSome) })
  | some _ =>
    let number := s.numbered + 1
    (.pending number,
      { s with
        numbered := number
        calls := s.calls.map fun c => { c with number := some (c.number.getD number) } })
  | none => (.done, s)

/-- Forgets the numbered calls that have returned. -/
def dropReturned (s : Session) : Session :=
  { s with
    calls := s.calls.filter fun c =>
      match c.number, c.work with
      | some _, .returned _ => false
      | _, _ => true }

/-- Does one step and settles. -/
def perform (s : Session) (step : Step) : Report × Session :=
  let (answer, s) := { s with events := [], arrivals := [], logged := [] }.begin step
  let s := s.settle
  let resolved := s.returned
  let (answer, s) :=
    match answer with
    | some answer => (answer, s)
    | none => s.conclude
  let arrivals := s.arrivals.mergeSort fun a b => !decide (b.2.pool < a.2.pool)
  ({ answer, resolved, events := s.events, arrivals, logged := s.logged }, s.dropReturned)

end Session
end PoolControl
