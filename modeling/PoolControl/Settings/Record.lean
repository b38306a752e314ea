import PoolControl.Settings.KeepAliveUnit
import PoolControl.Settings.NotifyRule
import PoolControl.Settings.QueueKind

/-! # Records and batches

A `Record` holds the wanted tunables of one named pool, and a `Batch` is what a configuration source
hands over at once: the platforms and one record per pool. Sizes and keep-alive are signed, so that
a record with impossible values can be read and then refused (`Record.isCommittable`). What a record
leaves open has a default, and the largest size the one that suits the `Machine`. -/

namespace PoolControl

/-- What there is to know about the machine that runs the program. -/
class Machine where
  /-- How many threads it can run at once. -/
  parallelism? : Option Nat

/-- A machine of which nothing is known. -/
instance : Machine := ⟨none⟩

namespace Settings

/-- The wanted tunables of one named pool. -/
structure Record where
  name : String := ""
  coreSize : Int64 := 1
  maxSize : Int64
  queueCapacity : UInt64 := 1024
  queueKind : QueueKind := .resizable
  keepAliveTime : Int64 := 30
  keepAliveUnit : KeepAliveUnit := .seconds
  coreTimeout : Bool := false
  policyName : String := "AbortPolicy"
  waitOnShutdown : Bool := false
  awaitSeconds : UInt64 := 0
  rules : List NotifyRule := []
  deriving DecidableEq, Repr, Inhabited

namespace Record

/-- The record of a pool that is given nothing but a name. It may have as many workers as can run at
once. -/
def named [Machine] (name : String) : Record :=
  { name, maxSize := .ofNat (Machine.parallelism?.getD 1) }

/-- The keep-alive as a span, unless it is negative. -/
def keepAlive? (r : Record) : Option Duration :=
  if 0 ≤ r.keepAliveTime.toInt then some (r.keepAliveUnit.duration r.keepAliveTime.toInt.toNat)
  else none

/-- The keep-alive in whole milliseconds, clipped to a machine word. -/
def keepAliveMillis (r : Record) : UInt64 := (r.keepAlive?.getD ⟨0⟩).wordMillis

/-- Whether sizes and keep-alive describe a pool that can be run. -/
def isCommittable (r : Record) : Bool :=
  decide (0 ≤ r.coreSize.toInt ∧ 0 < r.maxSize.toInt ∧ r.coreSize.toInt ≤ r.maxSize.toInt ∧
    0 ≤ r.keepAliveTime.toInt)

/-- The names of the fields in a data format. -/
def fieldNames : List String :=
  ["thread_pool_name", "core_pool_size", "maximum_pool_size", "queue_capacity", "queue_type",
    "keep_alive_time", "unit", "allow_core_thread_timeout", "rejected_handler_type",
    "wait_for_tasks_to_complete_on_shutdown", "await_termination_seconds", "notify_items"]

/-- The record that a datum describes. -/
def ofDatum? [Machine] (format : Format) (d : Datum) : Option Record := do
  match ← fields? format fieldNames d with
  | [name, coreSize, maxSize, queueCapacity, queueKind, keepAliveTime, keepAliveUnit, coreTimeout,
      policyName, waitOnShutdown, awaitSeconds, rules] =>
    let default : Record := .named ""
    some
      { name := ← withDefault Datum.text? default.name name
        coreSize := ← withDefault int64? default.coreSize coreSize
        maxSize := ← withDefault int64? default.maxSize maxSize
        queueCapacity := ← withDefault uint64? default.queueCapacity queueCapacity
        queueKind := ← withDefault (QueueKind.ofDatum? format) default.queueKind queueKind
        keepAliveTime := ← withDefault int64? default.keepAliveTime keepAliveTime
        keepAliveUnit :=
          ← withDefault (KeepAliveUnit.ofDatum? format) default.keepAliveUnit keepAliveUnit
        coreTimeout := ← withDefault Datum.bool? default.coreTimeout coreTimeout
        policyName := ← withDefault Datum.text? default.policyName policyName
        waitOnShutdown := ← withDefault Datum.bool? default.waitOnShutdown waitOnShutdown
        awaitSeconds := ← withDefault uint64? default.awaitSeconds awaitSeconds
        rules := ← withDefault (listOf? (NotifyRule.ofDatum? format)) [] rules }
  | _ => none

/-- The record with every field present. -/
def toDatum (r : Record) : Datum :=
  .table
    [("thread_pool_name", .text r.name), ("core_pool_size", .integer r.coreSize.toInt),
      ("maximum_pool_size", .integer r.maxSize.toInt),
      ("queue_capacity", .nat r.queueCapacity.toNat), ("queue_type", .text r.queueKind.name),
      ("keep_alive_time", .integer r.keepAliveTime.toInt), ("unit", .text r.keepAliveUnit.name),
      ("allow_core_thread_timeout", .bool r.coreTimeout),
      ("rejected_handler_type", .text r.policyName),
      ("wait_for_tasks_to_complete_on_shutdown", .bool r.waitOnShutdown),
      ("await_termination_seconds", .nat r.awaitSeconds.toNat),
      ("notify_items", .list (r.rules.map NotifyRule.toDatum))]

end Record

/-- What a configuration source hands over at once. -/
structure Batch where
  enabled : Bool := true
  platforms : List Platform := []
  records : List Record := []
  deriving DecidableEq, Repr, Inhabited

namespace Batch

/-- The names of the fields in a data format. -/
def fieldNames : List String := ["enabled", "platforms", "executors"]

/-- The batch that a datum describes. -/
def ofDatum? [Machine] (format : Format) (d : Datum) : Option Batch := do
  match ← fields? format fieldNames d with
  | [enabled, platforms, records] =>
    some
      { enabled := ← withDefault Datum.bool? true enabled
        platforms := ← withDefault (listOf? (Platform.ofDatum? format)) [] platforms
        records := ← withDefault (listOf? (Record.ofDatum? format)) [] records }
  | _ => none

/-- The batch with every field present. -/
def toDatum (b : Batch) : Datum :=
  .table
    [("enabled", .bool b.enabled), ("platforms", .list (b.platforms.map Platform.toDatum)),
      ("executors", .list (b.records.map Record.toDatum))]

end Batch
end Settings
end PoolControl
