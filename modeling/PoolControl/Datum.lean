/-! # Structured data

A `Datum` is a value of a data format: JSON text and configuration files are both read into it, and
typed values are decoded from it and encoded to it. Members of a table keep the order of the text,
and a name may come more than once. A number that is not an integer, and a text that is not valid,
is kept as its source text (`raw`), since no typed value has a field for it. -/

namespace PoolControl

/-- A value of a data format. -/
inductive Datum where
  | null
  | bool (b : Bool)
  | integer (n : Int)
  | raw (source : String)
  | text (s : String)
  | list (items : List Datum)
  | table (members : List (String × Datum))
  deriving Inhabited

namespace Datum

/-- A natural number as a datum. -/
def nat (n : Nat) : Datum := .integer n

/-- An optional value, `null` when it is not set. -/
def option {α : Type} (encode : α → Datum) : Option α → Datum
  | none => .null
  | some a => encode a

/-- A list of texts as a datum. -/
def texts (ss : List String) : Datum := .list (ss.map .text)

/-- The last member of that name. -/
def member? (name : String) : Datum → Option Datum
  | .table members => (members.reverse.find? (·.1 == name)).map (·.2)
  | _ => none

/-- The text, if the datum is one. -/
def text? : Datum → Option String
  | .text s => some s
  | _ => none

/-- The truth value, if the datum is one. -/
def bool? : Datum → Option Bool
  | .bool b => some b
  | _ => none

/-- The integer, if the datum is one. -/
def integer? : Datum → Option Int
  | .integer n => some n
  | _ => none

/-- The list, if the datum is one. -/
def list? : Datum → Option (List Datum)
  | .list items => some items
  | _ => none

/-- The natural number of at most `max`, if the datum is one. -/
def natUpTo? (max : Nat) : Datum → Option Nat
  | .integer n => if 0 ≤ n ∧ n ≤ max then some n.toNat else none
  | _ => none

/-- The unsigned 64-bit number, if the datum is one. -/
def word? : Datum → Option Nat := natUpTo? (UInt64.size - 1)

/-- The list of texts, if the datum is one. -/
def texts? (d : Datum) : Option (List String) := do (← d.list?).mapM text?

end Datum
end PoolControl
