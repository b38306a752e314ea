import PoolControl.Configuration.Basic
import PoolControl.Error
import PoolControl.FileTree

/-! # Loading the configuration

`Configuration.load` reads the file that `Configuration.locate` finds, or takes the defaults where
there is none, and lets variables of the environment override single settings. The file has to pass
the check before the overrides, and the result after them. -/

namespace PoolControl

open Settings (Batch)

/-- Why no configuration could be loaded. -/
inductive LoadError where
  | unreadable (failure : ReadFailure)
  /-- The file is no configuration. -/
  | malformed
  | invalid (flaw : ConfigurationFlaw)
  deriving DecidableEq, Repr

/-- The wording of a load error. -/
def LoadError.message : LoadError → String
  | unreadable failure => "Failed to read config file: " ++ failure.text
  | malformed => "Failed to parse TOML"
  | invalid flaw => "Invalid configuration: " ++ flaw.text

/-- The variables of the environment. -/
abbrev Environment := List (String × String)

/-- The value of a variable. -/
def Environment.get? (env : Environment) (name : String) : Option String :=
  (env.find? (·.1 == name)).map (·.2)

namespace Configuration

/-- The configuration that a text describes, if it passes the check. -/
def ofText [Machine] (text : String) : Except LoadError Configuration :=
  match (Toml.read? text).bind ofDatum? with
  | none => .error .malformed
  | some c =>
    match c.check with
    | .ok _ => .ok c
    | .error flaw => .error (.invalid flaw)

/-- The configuration that a file holds. -/
def ofFile [Machine] (files : FileTree) (path : String) : Except LoadError Configuration :=
  match files.read path with
  | .ok text => ofText text
  | .error failure => .error (.unreadable failure)

/-- Where a configuration is looked for when no path is given. -/
def searchPaths : List String :=
  ["dtp.toml", "config.toml", "./config/dtp.toml", "/etc/dtp/dtp.toml"]

/-- The file to read: the given one, else the one that the environment names, else the first of the
search paths; of those that exist. -/
def locate (files : FileTree) (env : Environment) (path : Option String) : Option String :=
  (path.toList ++ (env.get? "DTP_CONFIG").toList ++ searchPaths).find? files.contains

/-- A count as a variable gives it: decimal digits after an optional plus, within a word. -/
def count? (s : String) : Option UInt64 :=
  let digits := match s.toList with
    | '+' :: rest => rest
    | cs => cs
  (Text.natural? digits).bind fun n => if n ≤ maxWord then some (UInt64.ofNat n) else none

/-- A switch as a variable gives it: on unless it says otherwise. -/
def switch (s : String) : Bool := s != "false"

/-- The configuration with the settings that the environment overrides. -/
def override (env : Environment) (c : Configuration) : Configuration :=
  let flag (name : String) (old : Bool) : Bool := ((env.get? name).map switch).getD old
  let word (name : String) (old : UInt64) : UInt64 := ((env.get? name).bind count?).getD old
  { batch := { c.batch with enabled := flag "DTP_ENABLED" c.batch.enabled }
    backlog := word "DTP_DISPATCHER_BACKLOG" c.backlog
    alarm :=
      { enabled := flag "DTP_ALARM_ENABLED" c.alarm.enabled
        interval := word "DTP_ALARM_INTERVAL" c.alarm.interval }
    watch :=
      { enabled := flag "DTP_WATCH_ENABLED" c.watch.enabled
        interval := word "DTP_WATCH_INTERVAL" c.watch.interval } }

/-- Loads the configuration. -/
def load [Machine] (files : FileTree) (env : Environment) (path : Option String) :
    Except LoadError Configuration := do
  let c ← match locate files env path with
    | some path => ofFile files path
    | none => .ok {}
  let c := c.override env
  match c.check with
  | .ok _ => .ok c
  | .error flaw => .error (.invalid flaw)

/-- The batch that a file holds, as a configuration source. -/
def fetch [Machine] (files : FileTree) (path : String) : Except Error Batch :=
  match files.read path with
  | .error failure => .error (.configuration (path ++ ": " ++ failure.text))
  | .ok text =>
    match ofText text with
    | .error e => .error (.configuration (path ++ ": " ++ e.message))
    | .ok c => .ok c.batch

end Configuration
end PoolControl
