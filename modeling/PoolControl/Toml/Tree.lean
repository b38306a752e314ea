import PoolControl.Datum

/-! # The tree of tables

While a configuration file is read, its tables make a tree whose nodes remember how they came about
(`Origin`), since that decides what may still be added to them. A table with a header of its own is
complete in its place; one that is only on the way of another header may be given a header later;
and one that was opened by a dotted key takes further dotted keys. -/

namespace PoolControl.Toml

/-- How a table came about. -/
inductive Origin where
  /-- It has a header of its own, or is the whole file. -/
  | header
  /-- It lies on the way of another table's header. -/
  | onTheWay
  /-- A dotted key opened it. -/
  | dotted
  deriving DecidableEq, Repr

/-- A node of the tree. -/
inductive Node where
  | value (d : Datum)
  | table (origin : Origin) (entries : List (String × Node))
  /-- Tables that share a header, one for each time that it is written. -/
  | tables (elements : List (List (String × Node)))
  deriving Inhabited

/-- The entries of a table. -/
abbrev Entries := List (String × Node)

namespace Entries

/-- The node of a key. -/
def get? (es : Entries) (key : String) : Option Node := (es.find? (·.1 == key)).map (·.2)

/-- The entries with another node for a key. -/
def set (es : Entries) (key : String) (n : Node) : Entries :=
  if es.any (·.1 == key) then es.map fun e => if e.1 = key then (key, n) else e
  else es ++ [(key, n)]

/-- Changes the entries of the table at the end of a path, opening tables that are missing. A dotted
key opens no table that has a header of its own, and no path leads through a value. Of tables that
share a header, the last is meant. -/
def change (dotted : Bool) (act : Origin → Entries → Option Entries) :
    List String → Origin → Entries → Option Entries
  | [], origin, es => act origin es
  | key :: path, _, es =>
    match es.get? key with
    | none => do
      let origin := if dotted then Origin.dotted else .onTheWay
      some (es.set key (.table origin (← change dotted act path origin [])))
    | some (.value _) => none
    | some (.table origin inner) =>
      if dotted ∧ origin = .header then none
      else do some (es.set key (.table origin (← change dotted act path origin inner)))
    | some (.tables elements) => do
      let inner ← change dotted act path .header (← elements.getLast?)
      some (es.set key (.tables (elements.dropLast ++ [inner])))

/-- Adds a value under a dotted key. The last table on its way has to be one that dotted keys
opened, and the key must be new. -/
def addValue (path : List String) (key : String) (d : Datum) (es : Entries) : Option Entries :=
  change true
    (fun origin es =>
      if (origin = .dotted ↔ path = []) ∨ (es.get? key).isSome then none
      else some (es.set key (.value d)))
    path .header es

/-- Opens the table of a header. -/
def openTable (path : List String) (key : String) (es : Entries) : Option Entries :=
  change false
    (fun _ es =>
      match es.get? key with
      | none => some (es.set key (.table .header []))
      | some (.table .onTheWay inner) => some (es.set key (.table .header inner))
      | some _ => none)
    path .header es

/-- Opens one more of the tables that share a header. -/
def openElement (path : List String) (key : String) (es : Entries) : Option Entries :=
  change false
    (fun _ es =>
      match es.get? key with
      | none => some (es.set key (.tables [[]]))
      | some (.tables elements) => some (es.set key (.tables (elements ++ [[]])))
      | some _ => none)
    path .header es

/-- Adds a value under a dotted key to the table of a header. -/
def addValueAt (header path : List String) (key : String) (d : Datum) (es : Entries) :
    Option Entries :=
  change false (fun _ es => addValue path key d es) header .header es

end Entries

mutual

/-- The datum of a node. -/
def Node.toDatum : Node → Datum
  | .value d => d
  | .table _ entries => .table (Entries.toMembers entries)
  | .tables elements => .list (Entries.toTables elements)

/-- The members of a table. -/
def Entries.toMembers : List (String × Node) → List (String × Datum)
  | [] => []
  | (key, n) :: es => (key, n.toDatum) :: Entries.toMembers es

/-- The tables that share a header. -/
def Entries.toTables : List (List (String × Node)) → List Datum
  | [] => []
  | es :: rest => .table (Entries.toMembers es) :: Entries.toTables rest

end

end PoolControl.Toml
