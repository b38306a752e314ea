/-! # Digits

Reading and writing numerals: `digit?` is the value of a digit in bases up to sixteen, `hexText` the
shortest hexadecimal numeral, `padded` a decimal numeral with leading zeros, and `natural?` the
value of a decimal numeral. -/

namespace PoolControl.Text

/-- The value of a hexadecimal digit of either case. -/
def hexDigit? (c : Char) : Option Nat :=
  if '0' ≤ c ∧ c ≤ '9' then some (c.toNat - 48)
  else if 'a' ≤ c ∧ c ≤ 'f' then some (c.toNat - 87)
  else if 'A' ≤ c ∧ c ≤ 'F' then some (c.toNat - 55)
  else none

/-- The value of a digit in a base of at most sixteen. -/
def digit? (base : Nat) (c : Char) : Option Nat := (hexDigit? c).filter (· < base)

/-- Whether the character is a decimal digit. -/
def isDecimal (c : Char) : Bool := '0' ≤ c && c ≤ '9'

/-- The value of a run of digits, most significant first. -/
def valueOf (base : Nat) (digits : List Nat) : Nat := digits.foldl (fun n d => n * base + d) 0

/-- The value of a nonempty run of decimal digits. -/
def natural? (cs : List Char) : Option Nat :=
  if cs.isEmpty then none else (cs.mapM (digit? 10)).map (valueOf 10)

/-- The shortest hexadecimal numeral, with small letters. -/
def hexText (n : Nat) : List Char := Nat.toDigits 16 n

/-- The decimal numeral of `n` with leading zeros up to the given width. -/
def padded (width n : Nat) : String :=
  let digits := Nat.toDigits 10 n
  String.ofList (List.replicate (width - digits.length) '0' ++ digits)

end PoolControl.Text
