import PoolControl.Settings.Decoding

/-! # Alert platforms

A destination for notices, configured for the whole process. -/

namespace PoolControl.Settings

/-- A destination for notices. -/
structure Platform where
  name : String
  webhookUrl : Option String := none
  receivers : List String := []
  deriving DecidableEq, Repr, Inhabited

namespace Platform

/-- The names of the fields in a data format. -/
def fieldNames : List String := ["platform", "webhook_url", "receivers"]

/-- The platform that a datum describes. -/
def ofDatum? (format : Format) (d : Datum) : Option Platform := do
  match ← fields? format fieldNames d with
  | [name, webhookUrl, receivers] =>
    some
      { name := ← (← name).text?
        webhookUrl := ← optional Datum.text? webhookUrl
        receivers := ← withDefault Datum.texts? [] receivers }
  | _ => none

/-- The platform with every field present. -/
def toDatum (p : Platform) : Datum :=
  .table
    [("platform", .text p.name), ("webhook_url", .option .text p.webhookUrl),
      ("receivers", .texts p.receivers)]

end Platform
end PoolControl.Settings
