import PoolControl.Duration
import PoolControl.Settings.Decoding

/-! # Units of the keep-alive

The unit of a configured keep-alive time. Minutes and hours are counted in seconds, clipped to a
machine word. -/

namespace PoolControl.Settings

/-- The unit of a configured keep-alive time. -/
inductive KeepAliveUnit where
  | milliseconds
  | seconds
  | minutes
  | hours
  deriving DecidableEq, Repr, Inhabited

namespace KeepAliveUnit

/-- The configured name of a unit. -/
def name : KeepAliveUnit → String
  | milliseconds => "MILLISECONDS"
  | seconds => "SECONDS"
  | minutes => "MINUTES"
  | hours => "HOURS"

/-- Every unit. -/
def all : List KeepAliveUnit := [milliseconds, seconds, minutes, hours]

/-- The length of a unit in milliseconds. -/
def inMillis : KeepAliveUnit → Nat
  | milliseconds => 1
  | seconds => 1000
  | minutes => 60000
  | hours => 3600000

/-- The span of `n` units. -/
def duration : KeepAliveUnit → Nat → Duration
  | milliseconds, n => .ofMillis n
  | seconds, n => .ofSecs n
  | minutes, n => .ofSecs (min (n * 60) maxWord)
  | hours, n => .ofSecs (min (n * 3600) maxWord)

/-- The unit that a datum names. -/
def ofDatum? (format : Format) : Datum → Option KeepAliveUnit :=
  variant? format (all.map fun u => (u.name, u))

end KeepAliveUnit
end PoolControl.Settings
