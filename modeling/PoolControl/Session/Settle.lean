import PoolControl.Session.Basic

/-! # Settling a session

`Session.settle` runs everything that can run until all of it waits. It goes in rounds: in each,
calls, workers, tasks, the courier and the tickers have one turn. -/

namespace PoolControl

open Settings (NoticeKind)

namespace Session

/-! ### Calls -/

/-- Submits one task and gives what the submitter is told, or the task that it has to run itself. -/
def submit (s : Session) (serial : Nat) (p : Pool) (t : Task) : (Option Error ⊕ Task) × Session :=
  let (admission, p') := p.submit t
  let s := s.setPool serial p'
  let s := if admission.isSaturated then { s with plane := s.plane.bump (.rejected p.name) } else s
  match admission with
  | .handed | .queued => (.inl none, s)
  | .stopped | .refused => (.inl (admission.error? p.name), s.note .drop t.id)
  | .discarded => (.inl none, s.note .drop t.id)
  | .inline => (.inr t, s.note .start t.id)
  | .displaced oldest kept =>
    (.inl none, s.noteDropped (oldest.toList ++ if kept then [] else [t]))

/-- Submits tasks until one that the submitter runs itself has to wait. -/
def submitAll (s : Session) (serial : Nat) (errors : List (Option Error)) :
    List Task → Work × Session
  | [] => (.returned (.submitted errors), s)
  | t :: left =>
    match s.pool? serial with
    | none => (.returned (.submitted errors), s)
    | some p =>
      match s.submit serial p t with
      | (.inl error, s) => s.submitAll serial (errors ++ [error]) left
      | (.inr t, s) =>
        match t.body with
        | .noop => (s.note .done t.id).submitAll serial (errors ++ [none]) left
        | .panic => (.returned (.fault .inlineTask), s.note .panic t.id)
        | .gate =>
          if s.opened.contains t.id then
            (s.note .done t.id).submitAll serial (errors ++ [none]) left
          else (.inline serial t left errors, s)

/-- Shuts a pool down if it runs, and gives the wait for it if there is one. -/
def stopPool (s : Session) (serial : Nat) : Except Fault (Option Termination) × Session :=
  match s.pool? serial with
  | none => (.ok none, s)
  | some p =>
    if !p.running then (.ok none, s)
    else
      let (dropped, p) := p.stop
      let s := (s.setPool serial p).noteDropped dropped
      if !p.waitOnShutdown then (.ok none, s)
      else
        match Termination.start? s.clock p.awaitSpan with
        | none => (.error .clockOverflow, s)
        | some wait =>
          match wait.look s.clock p with
          | (some _, _) => (.ok none, s)
          | (none, wait) => (.ok (some wait), s)

/-- Shuts pools down until one has to be waited for. -/
def stopAll (s : Session) : List Nat → Work × Session
  | [] => (.returned .done, s)
  | serial :: left =>
    match s.stopPool serial with
    | (.ok none, s) => s.stopAll left
    | (.ok (some wait), s) => (.draining serial wait left, s)
    | (.error fault, s) => (.returned (.fault fault), s)

/-- The turn of a call. -/
def workTurn (s : Session) : Work → Work × Session
  | .submitting serial left errors => s.submitAll serial errors left
  | .inline serial t left errors =>
    if s.opened.contains t.id then
      (s.note .done t.id).submitAll serial (errors ++ [none]) left
    else (.inline serial t left errors, s)
  | .stopping left => s.stopAll left
  | .draining serial wait left =>
    if s.clock.timer < wait.nextLook then (.draining serial wait left, s)
    else
      match s.pool? serial with
      | none => s.stopAll left
      | some p =>
        match wait.look s.clock p with
        | (some _, _) => s.stopAll left
        | (none, wait) => (.draining serial wait left, s)
  | .waiting serial wait =>
    if s.clock.timer < wait.nextLook then (.waiting serial wait, s)
    else
      match s.pool? serial with
      | none => (.returned (.bool true), s)
      | some p =>
        match wait.look s.clock p with
        | (some b, _) => (.returned (.bool b), s)
        | (none, wait) => (.waiting serial wait, s)
  | .returned answer => (.returned answer, s)

/-- Gives every call its turn, in the order in which they were begun. -/
def callTurns (s : Session) : Session :=
  s.calls.foldl (fun s c =>
      let (work, s) := s.workTurn c.work
      { s with calls := s.calls ++ [{ c with work }] })
    { s with calls := [] }

/-! ### Workers and their tasks -/

/-- The turn of a worker. -/
def workerTurn (s : Session) (serial id : Nat) : Session :=
  match s.pool? serial with
  | none => s
  | some p =>
    let p := p.turn s.clock id
    let s := s.setPool serial p
    match p.worker? id with
    | some { phase := .running t, .. } => s.note .start t.id
    | _ => s

/-- The workers of every pool that can take a step, with the serial number of the pool. -/
def runnable (s : Session) : List (Nat × Nat) :=
  s.everyPool.flatMap fun e => (e.pool.runnable s.clock).map (e.serial, ·)

/-- The tasks of every pool that can end, with their pool and worker. -/
def ending (s : Session) : List (Nat × Nat × Task) :=
  s.everyPool.flatMap fun e =>
    e.pool.workers.filterMap fun w =>
      match w.phase with
      | .running t =>
        if t.body = .gate ∧ !s.opened.contains t.id then none else some (e.serial, w.id, t)
      | _ => none

/-- Ends a task. -/
def endTask (s : Session) (serial id : Nat) (t : Task) : Session :=
  match s.pool? serial with
  | none => s
  | some p =>
    (s.setPool serial (p.finish id)).note (if t.body = .panic then .panic else .done) t.id

/-! ### The courier -/

/-- The answer of a channel, if it has one now. A webhook cannot be reached from a session. -/
def channelAnswer (s : Session) : Channel → Option (Bool × Session)
  | .host _ .accepts => some (true, s)
  | .host _ .refuses => some (false, s)
  | .host _ .gated =>
    if s.permits = 0 then none else some (true, { s with permits := s.permits - 1 })
  | .log _ => some (true, s)
  | .webhook .. => some (false, s)

/-- Records the arrival of a notice at a channel of the host or of the log. -/
def arrive (s : Session) : Courier → Session
  | .sending n (.host platform _) _ => { s with arrivals := s.arrivals ++ [(platform, n)] }
  | .sending n (.log _) _ => { s with logged := s.logged ++ [n.logEntry] }
  | _ => s

/-- One step of the courier, if it can take one. -/
def courierStep? (s : Session) : Option Session :=
  match s.plane.outbox.courier with
  | .sending _ channel _ =>
    (s.channelAnswer channel).map fun (accepted, s) =>
      let plane := s.plane.bump (.notices (if accepted then "delivered" else "failed"))
      { s with plane := { plane with outbox := plane.outbox.answered } }
  | _ =>
    s.plane.outbox.move?.map fun outbox =>
      { s with plane := { s.plane with outbox } }.arrive outbox.courier

/-- The courier goes on until it has to wait. -/
def courierTurn : Nat → Session → Session
  | 0, s => s
  | fuel + 1, s =>
    match s.courierStep? with
    | some s => courierTurn fuel s
    | none => s

/-- A bound on the steps that the courier can take with what is in the outbox. -/
def courierBound (o : Outbox) : Nat :=
  (o.backlog.length + 2) * (2 * (o.channels.length + 2)) +
    match o.courier with
    | .delivering _ left => 2 * left.length
    | .sending _ _ left => 2 * left.length
    | _ => 0

/-! ### Tickers -/

/-- Asks the source and deals with what it gives. -/
def syncWatch (s : Session) : Watch.Sync × Session :=
  let ((result, watch), plane) := s.watch.sync s.plane s.source
  (result, { s with plane, watch, fetches := s.fetches + 1 })

/-- Runs an alarm round. -/
def alarmRound (s : Session) : List (String × NoticeKind) × Session :=
  let ((raised, monitor), plane) := s.monitor.round s.plane
  (raised, { s with plane, monitor })

/-- The time between two ticks. -/
def period (s : Session) : TickerKind → Nat
  | .watch => s.watchPeriod
  | .monitor => s.monitorPeriod

/-- Acts on one tick, and says whether the ticker lives on. -/
def tick (s : Session) : TickerKind → Bool × Session
  | .monitor => (true, s.alarmRound.2)
  | .watch =>
    match s.syncWatch with
    | (.broken _, s) => (false, s)
    | (_, s) => (true, s)

/-- Acts on the ticks whose moment has come. -/
def tickerTurn : Nat → Session → Ticker → Ticker × Session
  | 0, s, t => (t, s)
  | fuel + 1, s, t =>
    if t.alive ∧ t.next ≤ s.clock.timer then
      let (alive, s) := s.tick t.kind
      tickerTurn fuel s { t with next := t.next + s.period t.kind, alive }
    else (t, s)

/-- Gives every ticker its turn. -/
def tickerTurns (s : Session) : Session :=
  s.tickers.foldl (fun s t =>
      let (t, s) := tickerTurn (s.clock.timer + 1 - t.next) s t
      { s with tickers := s.tickers ++ [t] })
    { s with tickers := [] }

/-! ### Rounds -/

/-- Whether a call can go on. -/
def canGoOn (s : Session) : Work → Bool
  | .submitting .. => true
  | .inline _ t _ _ => s.opened.contains t.id
  | .stopping _ => true
  | .draining _ wait _ => decide (wait.nextLook ≤ s.clock.timer)
  | .waiting _ wait => decide (wait.nextLook ≤ s.clock.timer)
  | .returned _ => false

/-- Whether everything waits. -/
def isSettled (s : Session) : Bool :=
  !s.calls.any (s.canGoOn ·.work) && s.runnable.isEmpty && s.ending.isEmpty &&
    s.courierStep?.isNone && !s.tickers.any fun t => t.alive && decide (t.next ≤ s.clock.timer)

/-- Gives everything one turn. -/
def round (s : Session) : Session :=
  let s := s.callTurns
  let s := s.runnable.foldl (fun s (serial, id) => s.workerTurn serial id) s
  let s := s.ending.foldl (fun s (serial, id, t) => s.endTask serial id t) s
  (courierTurn (courierBound s.plane.outbox) s).tickerTurns

/-- Goes on for at most so many rounds. -/
def rounds : Nat → Session → Session
  | 0, s => s
  | fuel + 1, s => if s.isSettled then s else rounds fuel s.round

/-- Runs everything that can run until all of it waits. Every task needs a few rounds at most. -/
def settle (s : Session) : Session :=
  let left := s.calls.foldl (fun n c => n + c.work.left) 0
  let tasks := s.everyPool.foldl (fun n e => n + e.pool.queue.size + e.pool.workers.length) left
  rounds (4 * tasks + 16) s

end Session
end PoolControl
