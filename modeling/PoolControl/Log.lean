import PoolControl.Datum
import PoolControl.Text.Quoted

/-! # Log entries

A log `Entry` has a level, the part of the program that it comes from, a message and named values.
`Entry.line` writes it for people, in one line, and `Entry.toDatum` is what programs are given. -/

namespace PoolControl.Log

/-- How much an entry matters. -/
inductive Level where
  | info
  | warn
  | error
  deriving DecidableEq, Repr

/-- The name of a level. -/
def Level.name : Level → String
  | info => "INFO"
  | warn => "WARN"
  | error => "ERROR"

/-- A named value of an entry. -/
inductive Value where
  /-- A text that is shown as it is. -/
  | plain (s : String)
  /-- A path, which is shown between quotes where entries are written for people. -/
  | path (s : String)
  | number (n : Nat)
  | bool (b : Bool)
  deriving DecidableEq, Repr

namespace Value

/-- The value in a line for people. -/
def text : Value → String
  | plain s => s
  | path s => Text.quotedPath s
  | number n => toString n
  | bool b => if b then "true" else "false"

/-- The value as a text, or as a number if it is one. -/
def toDatum : Value → Datum
  | plain s => .text s
  | path s => .text s
  | number n => .nat n
  | bool b => .text (if b then "true" else "false")

/-- The value as programs are given it, with a truth value as such. -/
def typed : Value → Datum
  | bool b => .bool b
  | v => v.toDatum

end Value

/-- One entry of a log. -/
structure Entry where
  level : Level
  /-- The part of the program that the entry comes from. -/
  target : String
  message : String
  fields : List (String × Value) := []
  deriving DecidableEq, Repr

namespace Entry

/-- The value of a field. -/
def field? (e : Entry) (name : String) : Option Value := (e.fields.find? (·.1 == name)).map (·.2)

/-- The entry in one line. -/
def line (e : Entry) : String :=
  e.level.name ++ " " ++ e.target ++ ": " ++
    " ".intercalate (e.message :: e.fields.map fun (name, value) => name ++ "=" ++ value.text)

/-- The entry as a table: level and message, the fields, and where it comes from. -/
def toDatum (e : Entry) : Datum :=
  .table
    ([("level", .text e.level.name), ("message", .text e.message)] ++
      e.fields.map (fun (name, value) => (name, value.typed)) ++ [("target", .text e.target)])

end Entry
end PoolControl.Log
