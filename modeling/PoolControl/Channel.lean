import PoolControl.Log
import PoolControl.Notice
import PoolControl.Settings.Platform
import PoolControl.Text.AsciiCase

/-! # Delivery channels

A `Channel` delivers notices to one platform: to a webhook, to the log, or through a channel of the
host program. `Channel.ofPlatform` builds the channel of a configured platform; a platform of any
other name than `webhook` and `log`, and a webhook without a location, has none. -/

namespace PoolControl

open Settings (Platform)

/-- How a channel of the host program treats a notice. -/
inductive HostMode where
  | accepts
  | refuses
  /-- It accepts the notice once it is given a permit. -/
  | gated
  deriving DecidableEq, Repr

/-- A way to deliver notices to one platform. -/
inductive Channel where
  | webhook (platform url : String) (receivers : List String)
  | log (platform : String)
  | host (platform : String) (mode : HostMode)
  deriving DecidableEq, Repr

/-- Why a platform has no channel. -/
inductive NoChannel where
  /-- A webhook has no location. -/
  | missingUrl (platform : String)
  /-- There is no such kind of platform; the name is in small letters. -/
  | unknownPlatform (platform : String)
  deriving DecidableEq, Repr

namespace Channel

/-- The name of the platform that the channel serves. -/
def platform : Channel → String
  | webhook platform _ _ => platform
  | log platform => platform
  | host platform _ => platform

/-- The channel of a configured platform. -/
def ofPlatform (p : Platform) : Except NoChannel Channel :=
  match Text.foldAscii p.name with
  | "webhook" =>
    match p.webhookUrl with
    | some url =>
      if url.isEmpty then .error (.missingUrl p.name) else .ok (.webhook p.name url p.receivers)
    | none => .error (.missingUrl p.name)
  | "log" => .ok (.log p.name)
  | other => .error (.unknownPlatform other)

/-- The channels of the platforms that have one. -/
def ofPlatforms (ps : List Platform) : List Channel :=
  ps.filterMap fun p => (ofPlatform p).toOption

/-- Whether the notice is meant for the platform of the channel. -/
def serves (c : Channel) (n : Notice) : Bool := n.platforms.any (Text.sameName · c.platform)

end Channel

/-- The log entry that a log channel writes for a notice. -/
def Notice.logEntry : Notice → Log.Entry
  | .change n =>
    { level := .info
      target := "dtp_core::notification"
      message := "Executor configuration changed"
      fields := [("executor", .plain n.pool), ("changes", .plain n.diff.text)] }
  | .alarm n =>
    { level := .warn
      target := "dtp_core::notification"
      message := "Executor alarm"
      fields :=
        [("executor", .plain n.pool), ("kind", .plain n.kind.name)] ++
          (Notice.quantities n).map fun (name, value) => (name, .number value) }

end PoolControl
