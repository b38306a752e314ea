import PoolControl.Settings.Record
import PoolControl.Toml.Reader

/-! # The configuration of the process

A `Configuration` holds the initial batch of records and how the control plane itself runs. It is
read from the tables of a file (`Configuration.ofText`), where everything has a default, and
`Configuration.check` refuses values that the control plane could not run with. What is wrong with a
record does not matter here: it is found when the record is applied. -/

namespace PoolControl

open Settings

/-- How often something is done in the background, and whether it is done at all. -/
structure Periodic where
  enabled : Bool := true
  /-- The time between two rounds in seconds. -/
  interval : UInt64
  deriving DecidableEq, Repr

/-- The configuration of the process. -/
structure Configuration where
  batch : Batch := {}
  /-- The most notices that wait at once. -/
  backlog : UInt64 := 1024
  alarm : Periodic := { interval := 5 }
  watch : Periodic := { interval := 10 }
  deriving DecidableEq, Repr

/-- A value that the control plane cannot run with. -/
inductive ConfigurationFlaw where
  | zeroBacklog
  | zeroAlarmInterval
  | zeroWatchInterval
  deriving DecidableEq, Repr

/-- The words for a flaw. -/
def ConfigurationFlaw.text : ConfigurationFlaw → String
  | zeroBacklog => "dispatcher.backlog_capacity must be greater than 0"
  | zeroAlarmInterval => "alarm.check_interval_seconds must be greater than 0"
  | zeroWatchInterval => "watch.poll_interval_seconds must be greater than 0"

/-- A periodic activity as a section of a file, with the name of its interval. -/
def Periodic.ofDatum? (intervalName : String) (default : Periodic) (d : Datum) :
    Option Periodic := do
  match ← fields? .file ["enabled", intervalName] d with
  | [enabled, interval] =>
    some
      { enabled := ← withDefault Datum.bool? default.enabled enabled
        interval := ← withDefault uint64? default.interval interval }
  | _ => none

namespace Configuration

/-- The name of the interval of the alarm section. -/
def alarmInterval : String := "check_interval_seconds"

/-- The name of the interval of the watch section. -/
def watchInterval : String := "poll_interval_seconds"

/-- The capacity that the section of the outbox sets. -/
def backlogOf? (default : UInt64) (d : Datum) : Option UInt64 := do
  match ← fields? .file ["backlog_capacity"] d with
  | [backlog] => withDefault uint64? default backlog
  | _ => none

/-- The configuration that the tables of a file describe. -/
def ofDatum? [Machine] (d : Datum) : Option Configuration := do
  let default : Configuration := {}
  match ← fields? .file ["dtp", "dispatcher", "alarm", "watch"] d with
  | [batch, outbox, alarm, watch] =>
    some
      { batch := ← withDefault (Batch.ofDatum? .file) default.batch batch
        backlog := ← withDefault (backlogOf? default.backlog) default.backlog outbox
        alarm := ← withDefault (Periodic.ofDatum? alarmInterval default.alarm) default.alarm alarm
        watch := ← withDefault (Periodic.ofDatum? watchInterval default.watch) default.watch watch }
  | _ => none

/-- The configuration with every field present. -/
def toDatum (c : Configuration) : Datum :=
  .table
    [("dtp", c.batch.toDatum),
      ("dispatcher", .table [("backlog_capacity", .nat c.backlog.toNat)]),
      ("alarm",
        .table [("enabled", .bool c.alarm.enabled), (alarmInterval, .nat c.alarm.interval.toNat)]),
      ("watch",
        .table [("enabled", .bool c.watch.enabled), (watchInterval, .nat c.watch.interval.toNat)])]

/-- Refuses a configuration that the control plane cannot run with. -/
def check (c : Configuration) : Except ConfigurationFlaw Unit :=
  if c.backlog = 0 then .error .zeroBacklog
  else if c.alarm.enabled ∧ c.alarm.interval = 0 then .error .zeroAlarmInterval
  else if c.watch.enabled ∧ c.watch.interval = 0 then .error .zeroWatchInterval
  else .ok ()

end Configuration
end PoolControl
