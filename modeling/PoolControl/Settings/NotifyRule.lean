import PoolControl.Duration
import PoolControl.Settings.NoticeKind
import PoolControl.Settings.Platform

/-! # Notification rules

A pool's rule for one kind of notice: whether it is wanted, from which threshold on, how often at
most, and on which platforms. Threshold and interval may be left unset; `mergeDefaults` takes them
from the default rule of the same kind, and `fillPlatforms` gives rules without platforms all of the
configured ones. -/

namespace PoolControl.Settings

/-- A pool's rule for one kind of notice. -/
structure NotifyRule where
  kind : NoticeKind
  enabled : Bool := true
  threshold : Option UInt32 := none
  /-- The least number of seconds between two alerts, if set. -/
  interval : Option UInt64 := none
  /-- The platforms to deliver to; none means all that are configured. -/
  platforms : List String := []
  deriving DecidableEq, Repr, Inhabited

namespace NotifyRule

/-- The interval in seconds of a rule that sets none. -/
def defaultInterval : UInt64 := 120

/-- A rule of the default interval, for all platforms. -/
def ofKind (kind : NoticeKind) (threshold : Option UInt32) : NotifyRule :=
  { kind, threshold, interval := some defaultInterval }

/-- The threshold in force. -/
def thresholdValue (r : NotifyRule) : Nat := (r.threshold.getD 0).toNat

/-- The interval in force, in seconds. -/
def intervalSecs (r : NotifyRule) : Nat := (r.interval.getD defaultInterval).toNat

/-- The rules of a pool that is given none. -/
def defaults : List NotifyRule :=
  [ofKind .change none, ofKind .liveness (some 70), ofKind .capacity (some 70),
    ofKind .reject (some 1)]

/-- The first rule of a kind. -/
def find? (rules : List NotifyRule) (kind : NoticeKind) : Option NotifyRule :=
  rules.find? (·.kind == kind)

/-- The rule with unset fields taken from the default rule of its kind. -/
def mergeDefault (r : NotifyRule) : NotifyRule :=
  match find? defaults r.kind with
  | some d =>
    { r with threshold := r.threshold <|> d.threshold, interval := r.interval <|> d.interval }
  | none => r

/-- The rules with their unset fields taken from the default rules. -/
def mergeDefaults (rules : List NotifyRule) : List NotifyRule := rules.map mergeDefault

/-- The rules with every configured platform where a rule names none. -/
def fillPlatforms (platforms : List Platform) (rules : List NotifyRule) : List NotifyRule :=
  rules.map fun r =>
    if r.platforms.isEmpty then { r with platforms := platforms.map (·.name) } else r

/-- The rules that a pool is given from those written in a record. -/
def effective (platforms : List Platform) (rules : List NotifyRule) : List NotifyRule :=
  fillPlatforms platforms (if rules.isEmpty then defaults else mergeDefaults rules)

/-- The names of the fields in a data format. -/
def fieldNames : List String := ["type", "enabled", "threshold", "interval", "platforms"]

/-- The rule that a datum describes. -/
def ofDatum? (format : Format) (d : Datum) : Option NotifyRule := do
  match ← fields? format fieldNames d with
  | [kind, enabled, threshold, interval, platforms] =>
    some
      { kind := ← NoticeKind.ofDatum? format (← kind)
        enabled := ← withDefault Datum.bool? true enabled
        threshold := ← optional uint32? threshold
        interval := ← optional uint64? interval
        platforms := ← withDefault Datum.texts? [] platforms }
  | _ => none

/-- The rule with every field present. -/
def toDatum (r : NotifyRule) : Datum :=
  .table
    [("type", .text r.kind.name), ("enabled", .bool r.enabled),
      ("threshold", .option (fun t => .nat t.toNat) r.threshold),
      ("interval", .option (fun i => .nat i.toNat) r.interval), ("platforms", .texts r.platforms)]

end NotifyRule
end PoolControl.Settings
