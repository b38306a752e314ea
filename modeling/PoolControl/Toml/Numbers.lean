import PoolControl.Datum
import PoolControl.Text.Digits

/-! # Numbers and moments of a configuration file

Integers are decimal with an optional sign, or hexadecimal, octal or binary without one, and fit a
signed 64-bit word. Underscores may stand between digits. A float is kept as its source; one that
lies above the range of double precision is refused. Dates and times are checked and kept in a table
with one member that no typed value has. -/

namespace PoolControl.Toml

/-! ### Digits -/

/-- The digits after the first: an underscore has to be followed by a digit. -/
def readMoreDigits (isDigit : Char → Bool) : List Char → Option (List Char × List Char)
  | '_' :: c :: rest =>
    if isDigit c then (readMoreDigits isDigit rest).map fun (ds, rest) => (c :: ds, rest) else none
  | ['_'] => none
  | c :: rest =>
    if isDigit c then (readMoreDigits isDigit rest).map fun (ds, rest) => (c :: ds, rest)
    else some ([], c :: rest)
  | [] => some ([], [])

/-- A run of digits with underscores between them. -/
def readDigits (isDigit : Char → Bool) : List Char → Option (List Char × List Char)
  | c :: rest =>
    if isDigit c then (readMoreDigits isDigit rest).map fun (ds, rest) => (c :: ds, rest) else none
  | [] => none

/-- Whether the character is a digit of the base. -/
def isDigitOf (base : Nat) (c : Char) : Bool := (Text.digit? base c).isSome

/-- The value of digits of a base. -/
def valueOfChars (base : Nat) (ds : List Char) : Nat :=
  Text.valueOf base (ds.filterMap (Text.digit? base))

/-- Takes off a sign: whether it is a minus, and what follows. -/
def readSign : List Char → Bool × List Char
  | '-' :: rest => (true, rest)
  | '+' :: rest => (false, rest)
  | cs => (false, cs)

/-! ### Integers and floats -/

/-- An integer that fits a signed word. -/
def wordInteger? (n : Int) : Option Datum :=
  if Int64.minValue.toInt ≤ n ∧ n ≤ Int64.maxValue.toInt then some (.integer n) else none

/-- An integer of a base after its mark. -/
def readBased (base : Nat) (cs : List Char) : Option (Datum × List Char) := do
  let (ds, rest) ← readDigits (isDigitOf base) cs
  some (← wordInteger? (valueOfChars base ds), rest)

/-- The digits of a decimal integer: a zero stands alone. -/
def readWhole : List Char → Option (List Char × List Char)
  | '0' :: rest => some (['0'], rest)
  | cs => readDigits Text.isDecimal cs

/-- An exponent, if there is one: its sign, its value, and what follows. -/
def readExponent : List Char → Option (Option (Bool × Nat) × List Char)
  | c :: rest =>
    if c = 'e' ∨ c = 'E' then do
      let (negative, rest) := readSign rest
      let (ds, rest) ← readDigits Text.isDecimal rest
      some (some (negative, valueOfChars 10 ds), rest)
    else some (none, c :: rest)
  | [] => some (none, [])

/-- A fraction, if there is one. -/
def readFraction : List Char → Option (Option (List Char) × List Char)
  | '.' :: rest => do
    let (ds, rest) ← readDigits Text.isDecimal rest
    some (some ds, rest)
  | cs => some (none, cs)

/-- Whether the number with these digits, the last `places` of them after the point, scaled by the
power of ten, rounds to more than the largest number of double precision. -/
def isHuge (digits : List Char) (places : Nat) (negative : Bool) (exponent : Nat) : Bool :=
  let significant := digits.dropWhile (· == '0')
  let scale : Int := (if negative then -(exponent : Int) else exponent) - places
  let magnitude : Int := significant.length + scale
  if significant.isEmpty ∨ magnitude < 300 then false
  else if 320 < magnitude then true
  else
    let bound := (1 <<< 1024) - (1 <<< 970)
    let n := valueOfChars 10 significant
    if 0 ≤ scale then decide (bound ≤ n * Nat.pow 10 scale.toNat)
    else decide (bound * Nat.pow 10 (-scale).toNat ≤ n)

/-- The characters of `cs` up to `rest`. -/
def source (cs rest : List Char) : String := String.ofList (cs.take (cs.length - rest.length))

/-- One of the words for infinity and for what is not a number. -/
def readSpecial (cs : List Char) : Option (List Char) :=
  match cs with
  | 'i' :: 'n' :: 'f' :: rest => some rest
  | 'n' :: 'a' :: 'n' :: rest => some rest
  | _ => none

/-- A decimal integer or a float. -/
def readDecimal (cs : List Char) : Option (Datum × List Char) := do
  let (negative, unsigned) := readSign cs
  match readSpecial unsigned with
  | some rest => some (.raw (source cs rest), rest)
  | none =>
    let (whole, rest) ← readWhole unsigned
    let (fraction, rest) ← readFraction rest
    let (exponent, rest) ← readExponent rest
    if fraction.isNone ∧ exponent.isNone then
      let n := valueOfChars 10 whole
      some (← wordInteger? (if negative then -(n : Int) else n), rest)
    else
      let places := fraction.getD []
      let (small, power) := exponent.getD (false, 0)
      if !negative && isHuge (whole ++ places) places.length small power then none
      else some (.raw (source cs rest), rest)

/-! ### Dates and times -/

/-- A number of exactly `width` digits. -/
def readFixed (width : Nat) (cs : List Char) : Option (Nat × List Char) :=
  let ds := cs.take width
  if ds.length = width ∧ ds.all Text.isDecimal then some (valueOfChars 10 ds, cs.drop width)
  else none

/-- A number of two digits within bounds. -/
def readTwo (lo hi : Nat) (cs : List Char) : Option (Nat × List Char) :=
  (readFixed 2 cs).filter fun (n, _) => decide (lo ≤ n ∧ n ≤ hi)

/-- What follows the character, if it is there. -/
def after? (c : Char) : List Char → Option (List Char)
  | x :: rest => if x = c then some rest else none
  | [] => none

/-- The number of days of a month. -/
def daysOfMonth (year month : Nat) : Nat :=
  if month = 2 then
    if year % 4 = 0 ∧ (year % 100 ≠ 0 ∨ year % 400 = 0) then 29 else 28
  else if month = 4 ∨ month = 6 ∨ month = 9 ∨ month = 11 then 30
  else 31

/-- A date after its year and the dash. -/
def readMonthDay (year : Nat) (cs : List Char) : Option (List Char) := do
  let (month, rest) ← readTwo 1 12 cs
  let (_, rest) ← readTwo 1 (daysOfMonth year month) (← after? '-' rest)
  some rest

/-- A fraction of a second, if there is one. -/
def skipSecondFraction : List Char → List Char
  | '.' :: c :: rest => if Text.isDecimal c then rest.dropWhile Text.isDecimal else '.' :: c :: rest
  | cs => cs

/-- A time of day after its hour and the colon. -/
def readMinuteSecond (cs : List Char) : Option (List Char) := do
  let (_, rest) ← readTwo 0 59 cs
  let (_, rest) ← readTwo 0 60 (← after? ':' rest)
  some (skipSecondFraction rest)

/-- The hour of a time of day and its colon. -/
def readHour (cs : List Char) : Option (List Char) := do
  let (_, rest) ← readTwo 0 23 cs
  after? ':' rest

/-- An offset from universal time, if there is one. -/
def readOffset : List Char → Option (List Char)
  | [] => some []
  | c :: rest =>
    if c = 'Z' ∨ c = 'z' then some rest
    else if c = '+' ∨ c = '-' then do
      let rest ← readHour rest
      let (_, rest) ← readTwo 0 59 rest
      some rest
    else some (c :: rest)

/-- A time of day after a date, if there is one. -/
def readTimeOfDate : List Char → Option (List Char)
  | [] => some []
  | c :: rest =>
    if c = 'T' ∨ c = 't' ∨ c = ' ' then
      match readHour rest with
      | some rest => do readOffset (← readMinuteSecond rest)
      | none => some (c :: rest)
    else some (c :: rest)

/-- A date or a time as a datum. -/
def moment (cs rest : List Char) : Datum := .table [("$moment", .text (source cs rest))]

/-- A number, a date or a time. What begins like a date or a time has to be one. -/
def readNumber (cs : List Char) : Option (Datum × List Char) :=
  match (readFixed 4 cs).bind fun (year, rest) => (after? '-' rest).map (year, ·) with
  | some (year, rest) => do
    let rest ← readTimeOfDate (← readMonthDay year rest)
    some (moment cs rest, rest)
  | none =>
    match readHour cs with
    | some rest => do
      let rest ← readMinuteSecond rest
      some (moment cs rest, rest)
    | none =>
      match cs with
      | '0' :: 'x' :: rest => readBased 16 rest
      | '0' :: 'o' :: rest => readBased 8 rest
      | '0' :: 'b' :: rest => readBased 2 rest
      | _ => readDecimal cs

end PoolControl.Toml
