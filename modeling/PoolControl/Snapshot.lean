import PoolControl.Datum
import PoolControl.Duration
import PoolControl.Settings.QueueKind

/-! # Snapshots and their differences

A `Snapshot` holds the tunables of a pool at one moment. `Snapshot.diff` lists the fields in which
two snapshots differ, in the order of the fields, with the old and the new value as texts; a `Diff`
without changes says that nothing differs. -/

namespace PoolControl

open Settings (QueueKind)

/-- The tunables of a pool at one moment. -/
structure Snapshot where
  name : String
  coreSize : Nat
  maxSize : Nat
  queueKind : QueueKind
  queueCapacity : Nat
  keepAlive : Duration
  /-- The configured name of the saturation policy. -/
  policy : String
  coreTimeout : Bool
  deriving DecidableEq, Repr

/-- One field in which two snapshots differ. -/
structure Change where
  field : String
  old : String
  new : String
  deriving DecidableEq, Repr

namespace Change

/-- The change in one line. -/
def text (c : Change) : String := c.field ++ ": " ++ c.old ++ " => " ++ c.new

/-- The change with its fields. -/
def toDatum (c : Change) : Datum :=
  .table [("field", .text c.field), ("old", .text c.old), ("new", .text c.new)]

/-- The change between two values, none if they are equal. -/
def between {α : Type} [DecidableEq α] (field : String) (text : α → String) (old new : α) :
    List Change :=
  if old = new then [] else [{ field, old := text old, new := text new }]

end Change

/-- The fields in which two snapshots differ, in the order of the fields. -/
abbrev Diff := List Change

namespace Diff

/-- The names of the changed fields. -/
def keys (d : Diff) : List String := d.map (·.field)

/-- The first change of a field. -/
def get? (d : Diff) (field : String) : Option Change := d.find? (·.field == field)

/-- All changes in one line. -/
def text (d : Diff) : String := ", ".intercalate (d.map Change.text)

/-- The changes in order. -/
def toDatum (d : Diff) : Datum := .table [("changes", .list (d.map Change.toDatum))]

end Diff

namespace Snapshot

/-- The keep-alive in whole milliseconds, with its unit. -/
def keepAliveText (s : Snapshot) : String := toString s.keepAlive.millis ++ "ms"

/-- The truth value as a word. -/
def boolText (b : Bool) : String := if b then "true" else "false"

/-- What changes from one snapshot to another. -/
def diff (old new : Snapshot) : Diff :=
  Change.between "name" id old.name new.name ++
  Change.between "core_size" toString old.coreSize new.coreSize ++
  Change.between "max_size" toString old.maxSize new.maxSize ++
  Change.between "queue_type" QueueKind.name old.queueKind new.queueKind ++
  Change.between "queue_capacity" toString old.queueCapacity new.queueCapacity ++
  Change.between "keep_alive" id old.keepAliveText new.keepAliveText ++
  Change.between "reject_policy" id old.policy new.policy ++
  Change.between "allow_core_timeout" boolText old.coreTimeout new.coreTimeout

/-- The snapshot with every field. The keep-alive is a count of milliseconds in a machine word. -/
def toDatum (s : Snapshot) : Datum :=
  .table
    [("name", .text s.name), ("core_size", .nat s.coreSize), ("max_size", .nat s.maxSize),
      ("queue_type", .text s.queueKind.name), ("queue_capacity", .nat s.queueCapacity),
      ("keep_alive", .nat (s.keepAlive.millis % UInt64.size)), ("reject_policy", .text s.policy),
      ("allow_core_timeout", .bool s.coreTimeout)]

end Snapshot
end PoolControl
