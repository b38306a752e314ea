import PoolControl.Configuration.EnvironmentFile
import PoolControl.Server.Entries
import PoolControl.Session.Perform

/-! # The server

`Server.start` loads the configuration, registers a pool for each record, binds the pools and starts
what runs in the background; `Server.stop` shuts everything down after a signal. Both give the
entries that they log. Between the two `Running.pass` lets time pass. `Server.run` is a whole life
of the server in which nothing happens between the two: what it logs, how it exits, and what it says
about an error. -/

namespace PoolControl.Server

open Log (Entry)
open Settings (Batch Record)

/-- A server that was started. -/
structure Running where
  configuration : Configuration
  /-- The configuration file that was found. -/
  file : Option String
  session : Session

/-- What starting led to. -/
inductive Startup where
  | started (server : Running)
  /-- The configuration says that nothing is to be run. -/
  | disabled
  | failed (e : LoadError)
  | broken (fault : Fault)

/-- Registers a pool for each record that describes one. -/
def registerRecords (r : Registry) : List Record → List Entry × Registry
  | [] => ([], r)
  | record :: records =>
    if Text.isBlankText record.name then
      let (entries, r) := registerRecords r records
      (warn .server "Executor record without thread_pool_name skipped" :: entries, r)
    else
      match Pool.ofRecord record with
      | .error e =>
        let entry : Entry :=
          { level := .error
            target := Source.server.name
            message := "Failed to create executor"
            fields := [poolField record.name, errorField e] }
        let (entries, r) := registerRecords r records
        (entry :: entries, r)
      | .ok p =>
        let (old, r) := r.register p
        let (entries, r) := registerRecords r records
        (registeredEntry p.snapshot old.isSome :: entries, r)

/-- The entry for the watch of the configuration file. -/
def watchEntry (c : Configuration) (file : Option String) : Entry :=
  match c.watch.enabled, file with
  | true, some path => info .server "Watching configuration file" [("path", .plain path)]
  | true, none => warn .server "No configuration file found, config watch disabled"
  | false, _ => info .server "Config watch disabled"

/-- The file that is watched. -/
def Running.watched? (s : Running) : Option String :=
  if s.configuration.watch.enabled then s.file else none

/-- What lives around the control plane: the alarm monitor and the watch, as far as they are wanted.
The batch that was bound is the one that was applied last. -/
def sessionOf (c : Configuration) (file : Option String) (plane : ControlPlane) : Session :=
  let s : Session :=
    { plane
      monitorPeriod := c.alarm.interval.toNat * 1000
      watch := ({} : Watch).mark c.batch
      watchPeriod := c.watch.interval.toNat * 1000
      source := .ok c.batch }
  let s := if c.alarm.enabled then s.spawn .monitor else s
  if c.watch.enabled && file.isSome then s.spawn .watch else s

/-- Starts the control plane with a configuration. -/
def startWith (c : Configuration) (file : Option String) : List Entry × Startup :=
  let channels := c.batch.platforms.flatMap channelEntry
  match Outbox.ofPlatforms c.batch.platforms c.backlog.toNat with
  | .error fault => (channels, .broken fault)
  | .ok outbox =>
    let opened := info .outbox "NotificationDispatcher started"
      [("backlog_capacity", .number outbox.capacity), ("channels", .number outbox.channels.length)]
    let (registered, registry) := registerRecords {} c.batch.records
    let ((bindings, fault), plane) := bind { registry, outbox } c.batch
    let entries := channels ++ [opened] ++ registered ++
      bindEntries c.batch bindings fault.isSome plane.registry.size
    match fault with
    | some fault => (entries, .broken fault)
    | none =>
      let names := plane.registry.names
      let started := info .server "DynamicTp server started. Press Ctrl+C to shutdown."
        [("executors", .number names.length), ("names", .plain (Text.quotedList names))]
      let alarm := info .alarm "Alarm monitor started"
        [("interval_secs", .number c.alarm.interval.toNat)]
      (entries ++ [watchEntry c file, started] ++ (if c.alarm.enabled then [alarm] else []),
        .started { configuration := c, file, session := sessionOf c file plane })

/-- Whether entries are wanted as tables for programs, and not as lines for people. -/
def wantsTables (env : Environment) : Bool :=
  (env.get? "LOG_FORMAT").any (Text.sameName · "json")

/-- Starts the server with the files of its working directory and its environment. -/
def start [Machine] (files : FileTree) (env : Environment) : List Entry × Startup :=
  let env := env.withFile files
  let path := Configuration.locate files env none
  let entries := [
    info .logging "Logging initialized"
      [("service", .plain "dtp-server"), ("json", .bool (wantsTables env))],
    info .server "Starting DynamicTp server"] ++
    path.toList.map fun path =>
      info .loader "Loading configuration from file" [("path", .path path)]
  match Configuration.load files env none with
  | .error e => (entries, .failed e)
  | .ok c =>
    if c.batch.enabled then
      let (more, startup) := startWith c path
      (entries ++ more, startup)
    else
      (entries ++
        [warn .server "DynamicTp disabled in configuration (dtp.enabled = false), exiting"],
        .disabled)

/-- Lets time pass, with what the watched file now holds, and gives what is logged. -/
def Running.pass [Machine] (s : Running) (files : FileTree) (millis : Nat) : List Entry × Running :=
  let session := match s.watched? with
    | some path => { s.session with source := Configuration.fetch files path }
    | none => s.session
  let (report, session) := session.perform (.sleep millis)
  (report.logged, { s with session })

/-- Shuts the pools down one after the other. Their queues are empty and no worker has started, so
none has to be waited for. -/
def stopPools (clock : Clock) : List Pool → List Entry × Option Fault
  | [] => ([], none)
  | p :: ps =>
    let entry := info .pool "Shutting down executor"
      [poolField p.name, ("graceful", .bool p.waitOnShutdown), ("pool_size", .number p.size),
        ("queue_size", .number p.queue.size)]
    if p.waitOnShutdown ∧ (Termination.start? clock p.awaitSpan).isNone then
      ([entry], some .clockOverflow)
    else
      let (entries, fault) := stopPools clock ps
      (entry :: entries, fault)

/-- Stops the server after a signal. -/
def stop (s : Running) : List Entry × Option Fault :=
  let background :=
    (if s.configuration.alarm.enabled then [info .alarm "Alarm monitor shutting down"] else []) ++
      if s.watched?.isSome then [info .watch "Config watch shutting down"] else []
  let plane := s.session.plane
  let (pools, fault) := stopPools plane.clock plane.registry.pools
  (info .server "Shutdown signal received..." :: background ++ pools ++
    (if fault.isSome then []
    else
      [info .registry "All executors shut down" [("executors", .number plane.registry.size)],
        info .outbox "NotificationDispatcher stopped",
        info .server "DynamicTp server shutdown complete"]),
    fault)

/-- How the program ends. -/
structure Exit where
  code : Nat := 0
  /-- The first line that it writes to the standard error output. -/
  complaint : String := ""

-- What is written about a fault begins with an empty line.
/-- The end after a fault, or without one. -/
def Exit.ofFault? : Option Fault → Exit
  | none => {}
  | some _ => { code := 101 }

/-- The end where no configuration could be loaded. -/
def Exit.ofError (e : LoadError) : Exit := { code := 1, complaint := "Error: " ++ e.message }

/-- A whole life of the server. -/
structure Run where
  entries : List Entry
  exit : Exit := {}

/-- Runs the server from its start to a signal. -/
def run [Machine] (files : FileTree) (env : Environment) : Run :=
  match start files env with
  | (entries, .failed e) => { entries, exit := .ofError e }
  | (entries, .disabled) => { entries }
  | (entries, .broken fault) => { entries, exit := .ofFault? (some fault) }
  | (entries, .started server) =>
    let (more, fault) := stop server
    { entries := entries ++ more, exit := .ofFault? fault }

end PoolControl.Server
