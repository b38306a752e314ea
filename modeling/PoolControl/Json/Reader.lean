import PoolControl.Datum
import PoolControl.Text.Digits

/-! # Reading JSON text

`Json.read?` reads one JSON value that makes up the whole text, with blanks around it. The grammar
is strict: no trailing commas, no comments, no leading zeros, no control characters inside a text.
Three kinds of well-formed value have no typed reading and are kept as their source (`Datum.raw`):
numbers that are not integers of a 64-bit word, texts with half of a surrogate pair alone, and
tables with such a text as a name. A negative zero counts as a number that is not an integer. -/

namespace PoolControl.Json

/-! ### Texts -/

/-- One element of a text: a character, or one half of a surrogate pair. -/
inductive Piece where
  | char (c : Char)
  | half (unit : Nat)
  deriving DecidableEq

/-- The character that a single-letter escape stands for. -/
def escaped? (c : Char) : Option Char :=
  if c = '"' ∨ c = '\\' ∨ c = '/' then some c
  else if c = 'b' then some (Char.ofNat 8)
  else if c = 'f' then some (Char.ofNat 12)
  else if c = 'n' then some '\n'
  else if c = 'r' then some '\r'
  else if c = 't' then some '\t'
  else none

/-- The element that four hexadecimal digits stand for. -/
def pieceOfUnit (unit : Nat) : Piece :=
  if 0xD800 ≤ unit ∧ unit < 0xE000 then .half unit else .char (Char.ofNat unit)

/-- The elements of a text up to its closing quote, and what follows the quote. -/
def readPieces : List Char → Option (List Piece × List Char)
  | [] => none
  | '\\' :: 'u' :: a :: b :: c :: d :: rest => do
    let unit ← ([a, b, c, d].mapM Text.hexDigit?).map (Text.valueOf 16)
    let (pieces, rest) ← readPieces rest
    some (pieceOfUnit unit :: pieces, rest)
  | '\\' :: e :: rest => do
    let c ← escaped? e
    let (pieces, rest) ← readPieces rest
    some (.char c :: pieces, rest)
  | c :: rest =>
    if c = '"' then some ([], rest)
    else if c = '\\' ∨ c.toNat < 0x20 then none
    else do
      let (pieces, rest) ← readPieces rest
      some (.char c :: pieces, rest)

/-- The characters of a text, if every half of a surrogate pair meets its other half. -/
def joinPieces : List Piece → Option (List Char)
  | [] => some []
  | .char c :: rest => (joinPieces rest).map (c :: ·)
  | .half high :: .half low :: rest =>
    if high < 0xDC00 ∧ 0xDC00 ≤ low then
      (joinPieces rest).map (Char.ofNat (0x10000 + (high - 0xD800) * 0x400 + (low - 0xDC00)) :: ·)
    else none
  | .half _ :: _ => none

/-- A text after its opening quote. -/
def readText (cs : List Char) : Option (Datum × List Char) := do
  let (pieces, rest) ← readPieces cs
  match joinPieces pieces with
  | some chars => some (.text (String.ofList chars), rest)
  | none => some (.raw (String.ofList ('"' :: cs.take (cs.length - rest.length))), rest)

/-- The name of a member after its opening quote, `none` for one that is no valid text. -/
def readName (cs : List Char) : Option (Option String × List Char) := do
  let (pieces, rest) ← readPieces cs
  some ((joinPieces pieces).map String.ofList, rest)

/-- The table with those members, or its source where a name is no valid text. -/
def tableDatum (members : List (Option String × Datum)) (source : List Char) : Datum :=
  match members.mapM fun (name, value) => name.map (·, value) with
  | some members => .table members
  | none => .raw (String.ofList source)

/-! ### Numbers -/

/-- What follows a fraction, if there is one, and whether there is. -/
def readFraction : List Char → Option (Bool × List Char)
  | '.' :: rest =>
    let digits := rest.takeWhile Text.isDecimal
    if digits.isEmpty then none else some (true, rest.drop digits.length)
  | rest => some (false, rest)

/-- The text without a leading sign. -/
def dropSign : List Char → List Char
  | '+' :: rest => rest
  | '-' :: rest => rest
  | rest => rest

/-- What follows an exponent, if there is one, and whether there is. -/
def readExponent : List Char → Option (Bool × List Char)
  | [] => some (false, [])
  | c :: rest =>
    if c = 'e' ∨ c = 'E' then
      let rest := dropSign rest
      let digits := rest.takeWhile Text.isDecimal
      if digits.isEmpty then none else some (true, rest.drop digits.length)
    else some (false, c :: rest)

/-- An integer of the given sign if it fits a 64-bit word and is not a negative zero. -/
def integerDatum (negative : Bool) (n : Nat) (source : List Char) : Datum :=
  if negative then
    if n = 0 ∨ -(n : Int) < Int64.minValue.toInt then .raw (String.ofList source)
    else .integer (-(n : Int))
  else if n < UInt64.size then .integer n else .raw (String.ofList source)

/-- A number at the start of the text. -/
def readNumber (cs : List Char) : Option (Datum × List Char) := do
  let negative := cs.head? == some '-'
  let body := if negative then cs.drop 1 else cs
  let digits := body.takeWhile Text.isDecimal
  let n ← Text.natural? digits
  if digits.head? == some '0' && digits.length != 1 then none
  let (hasFraction, rest) ← readFraction (body.drop digits.length)
  let (hasExponent, rest) ← readExponent rest
  let source := cs.take (cs.length - rest.length)
  if hasFraction || hasExponent then some (.raw (String.ofList source), rest)
  else some (integerDatum negative n source, rest)

/-! ### Values -/

/-- Whether the character may stand between the parts of a value. -/
def isSpace (c : Char) : Bool := c == ' ' || c == '\t' || c == '\n' || c == '\r'

/-- The text from its first character that is not blank. -/
def skip (cs : List Char) : List Char := cs.dropWhile isSpace

mutual

/-- A value at the start of the text; `fuel` bounds the parts read. -/
def readValue : Nat → List Char → Option (Datum × List Char)
  | 0, _ => none
  | fuel + 1, cs =>
    match skip cs with
    | [] => none
    | c :: rest =>
      if c = '"' then readText rest
      else if c = '{' then
        match skip rest with
        | [] => none
        | d :: rest =>
          if d = '}' then some (.table [], rest)
          else do
            let (members, after) ← readMembers fuel (d :: rest)
            let source := '{' :: (d :: rest).take (rest.length + 1 - after.length)
            some (tableDatum members source, after)
      else if c = '[' then
        match skip rest with
        | [] => none
        | d :: rest =>
          if d = ']' then some (.list [], rest)
          else do
            let (items, rest) ← readItems fuel (d :: rest)
            some (.list items, rest)
      else if (c :: rest).take 4 = ['t', 'r', 'u', 'e'] then some (.bool true, rest.drop 3)
      else if (c :: rest).take 5 = ['f', 'a', 'l', 's', 'e'] then some (.bool false, rest.drop 4)
      else if (c :: rest).take 4 = ['n', 'u', 'l', 'l'] then some (.null, rest.drop 3)
      else readNumber (c :: rest)

/-- The members of a table from the first name to the closing brace. -/
def readMembers : Nat → List Char → Option (List (Option String × Datum) × List Char)
  | 0, _ => none
  | fuel + 1, cs =>
    match skip cs with
    | '"' :: rest => do
      let (name, rest) ← readName rest
      match skip rest with
      | ':' :: rest =>
        let (value, rest) ← readValue fuel rest
        match skip rest with
        | ',' :: rest =>
          let (members, rest) ← readMembers fuel rest
          some ((name, value) :: members, rest)
        | '}' :: rest => some ([(name, value)], rest)
        | _ => none
      | _ => none
    | _ => none

/-- The items of a list from the first one to the closing bracket. -/
def readItems : Nat → List Char → Option (List Datum × List Char)
  | 0, _ => none
  | fuel + 1, cs => do
    let (item, rest) ← readValue fuel cs
    match skip rest with
    | ',' :: rest =>
      let (items, rest) ← readItems fuel rest
      some (item :: items, rest)
    | ']' :: rest => some ([item], rest)
    | _ => none

end

/-- The value that the whole text is, if it is one. -/
def read? (s : String) : Option Datum :=
  let cs := s.toList
  match readValue (cs.length + 1) cs with
  | some (value, rest) => if (skip rest).isEmpty then some value else none
  | none => none

end PoolControl.Json
