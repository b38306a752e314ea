import PoolControl.Datum

/-! # Decoding typed values

The rules by which a `Datum` becomes a typed value. The fields of a structure come as a table, in
any order and beside members that are no fields, or as a list in the order of their declaration
(`fields?`). A field that is left out takes its default (`withDefault`, `optional`). A name of an
enumeration comes as a text or as a table that gives the name no content (`variant?`). -/

namespace PoolControl.Settings

/-- The format that a datum was read from. -/
inductive Format where
  /-- JSON text. -/
  | json
  /-- The tables of a configuration file. -/
  | file
  deriving DecidableEq, Repr

/-- The member of that name, if there is exactly one; two are an error. -/
def fieldIn? (members : List (String × Datum)) (name : String) : Option (Option Datum) :=
  match members.filter (·.1 == name) with
  | [] => some none
  | [(_, value)] => some (some value)
  | _ => none

/-- The values of the named fields, `none` for each that is left out. A list in JSON may not be
longer than the list of the fields. -/
def fields? (format : Format) (names : List String) : Datum → Option (List (Option Datum))
  | .table members => names.mapM (fieldIn? members)
  | .list items =>
    if format = .json ∧ names.length < items.length then none
    else some ((List.range names.length).map fun i => items[i]?)
  | _ => none

/-- A field with a default. -/
def withDefault {α : Type} (read : Datum → Option α) (default : α) : Option Datum → Option α
  | none => some default
  | some value => read value

/-- A field that may be left unset. -/
def optional {α : Type} (read : Datum → Option α) : Option Datum → Option (Option α)
  | none => some none
  | some .null => some none
  | some value => (read value).map some

/-- Whether the datum is the empty content that a format gives a bare name. -/
def isEmptyContent : Format → Datum → Bool
  | .json, .null => true
  | .file, .list [] => true
  | .file, .table [] => true
  | _, _ => false

/-- The value that goes by the name that the datum gives. -/
def variant? {α : Type} (format : Format) (all : List (String × α)) : Datum → Option α
  | .text name => (all.find? (·.1 == name)).map (·.2)
  | .table [(name, content)] =>
    if isEmptyContent format content then (all.find? (·.1 == name)).map (·.2) else none
  | _ => none

/-- A signed 64-bit number. -/
def int64? (d : Datum) : Option Int64 :=
  d.integer?.bind fun n =>
    if Int64.minValue.toInt ≤ n ∧ n ≤ Int64.maxValue.toInt then some (Int64.ofInt n) else none

/-- An unsigned 64-bit number. -/
def uint64? (d : Datum) : Option UInt64 := d.word?.map UInt64.ofNat

/-- An unsigned 32-bit number. -/
def uint32? (d : Datum) : Option UInt32 := (d.natUpTo? (UInt32.size - 1)).map UInt32.ofNat

/-- A list whose items are all read. -/
def listOf? {α : Type} (read : Datum → Option α) (d : Datum) : Option (List α) := do
  (← d.list?).mapM read

end PoolControl.Settings
