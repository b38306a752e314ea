import PoolControl.Bind
import PoolControl.Configuration.Basic
import PoolControl.Log

/-! # What the server logs

The log entries for what happens while the server starts and stops: pools that are registered, bound
and shut down, and channels that are built. -/

namespace PoolControl.Server

open Log (Entry Value)
open Settings (Batch Platform)

/-- The part of the program that an entry comes from. -/
inductive Source where
  | logging
  | loader
  | alarm
  | binder
  | watch
  | outbox
  | pool
  | channel
  | refresh
  | registry
  | server

/-- The name of a part. -/
def Source.name : Source → String
  | logging => "dtp_common::logging"
  | loader => "dtp_config::loader"
  | alarm => "dtp_core::alarm"
  | binder => "dtp_core::binder"
  | watch => "dtp_core::config_watch"
  | outbox => "dtp_core::dispatcher"
  | pool => "dtp_core::executor"
  | channel => "dtp_core::notification"
  | refresh => "dtp_core::refresher"
  | registry => "dtp_core::registry"
  | server => "dtp_server"

/-- An entry that informs. -/
def info (source : Source) (message : String) (fields : List (String × Value) := []) : Entry :=
  { level := .info, target := source.name, message, fields }

/-- An entry that warns. -/
def warn (source : Source) (message : String) (fields : List (String × Value) := []) : Entry :=
  { level := .warn, target := source.name, message, fields }

/-- The field that names a pool. -/
def poolField (name : String) : String × Value := ("executor", .plain name)

/-- The field that words an error. -/
def errorField (e : Error) : String × Value := ("error", .plain e.message)

/-! ### Channels -/

/-- The entry for the channel of a platform, or for its lack. -/
def channelEntry (p : Platform) : List Entry :=
  match Channel.ofPlatform p with
  | .ok (.webhook platform _ receivers) =>
    [info .channel "WebhookChannel initialized"
      [("platform", .plain platform), ("receivers", .number receivers.length)]]
  | .ok _ => []
  | .error (.missingUrl platform) =>
    [warn .channel "Webhook platform has no webhook_url, skipping" [("platform", .plain platform)]]
  | .error (.unknownPlatform platform) =>
    [warn .channel "No notification channel for platform, skipping" [("platform", .plain platform)]]

/-! ### Pools -/

/-- The entry for a pool that was registered. -/
def registeredEntry (s : Snapshot) (replaced : Bool) : Entry :=
  info .registry "Executor registered"
    [poolField s.name, ("source", .plain "config file"), ("replaced", .bool replaced),
      ("core_size", .number s.coreSize), ("max_size", .number s.maxSize),
      ("queue_type", .plain s.queueKind.name), ("queue_capacity", .number s.queueCapacity),
      ("keep_alive_ms", .number s.keepAlive.millis), ("reject_policy", .plain s.policy)]

/-- The fields of an old and a new value. -/
def oldNew (old new : Value) : List (String × Value) := [("old", old), ("new", new)]

/-- The entry for a tunable that was set. -/
def tuningEntry (pool : String) : Tuning → Entry
  | .coreSize old new =>
    info .pool "Core size updated" (poolField pool :: oldNew (.number old) (.number new))
  | .maxSize old new =>
    info .pool "Max size updated" (poolField pool :: oldNew (.number old) (.number new))
  | .keepAlive old new =>
    info .pool "Keep-alive updated" (poolField pool :: oldNew (.plain old.text) (.plain new.text))
  | .coreTimeout allow =>
    info .pool "Core thread timeout updated" [poolField pool, ("allow", .bool allow)]
  | .policy old new =>
    info .pool "Rejection policy updated"
      (poolField pool :: oldNew (.plain old.name) (.plain new.name))
  | .queueCapacity new =>
    info .pool "Queue capacity updated" [poolField pool, ("capacity", .number new)]

/-- What is said of a tunable that was refused. -/
def keptMessage (field : String) : String :=
  (([("core_size", "Core size"), ("max_size", "Max size"), ("keep_alive", "Keep-alive"),
    ("allow_core_timeout", "Core thread timeout"), ("reject_policy", "Rejection policy")].lookup
      field).getD field) ++ " left unchanged"

/-- The entry for what applying a record did. -/
def tuningEventEntry (pool : String) : TuningEvent → Entry
  | .set tuning => tuningEntry pool tuning
  | .kept field e => warn .refresh (keptMessage field) [poolField pool, errorField e]
  | .capacityKept requested current e =>
    warn .refresh "Queue capacity left unchanged"
      [poolField pool, ("requested", .number requested), ("current", .number current), errorField e]

/-- The entries for a record that was bound. -/
def bindingEntries : Binding → List Entry
  | .notRegistered name =>
    [info .binder "DynamicTp bind, executor not yet defined, skipped" [poolField name]]
  | .invalid name e =>
    [warn .binder "DynamicTp bind, invalid parameters, skipped" [poolField name, errorField e]]
  | .applied name events => events.map (tuningEventEntry name)

/-- The entries for a bind, the last one unless it failed. -/
def bindEntries (b : Batch) (bindings : List Binding) (failed : Bool) (registered : Nat) :
    List Entry :=
  bindings.flatMap bindingEntries ++
    if failed then []
    else
      [info .binder "DynamicTp startup bind completed"
        [("records", .number b.records.length),
          ("applied", .number (bindings.countP Binding.isApplied)),
          ("executors", .number registered)]]

end PoolControl.Server
