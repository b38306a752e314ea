import PoolControl.Datum
import PoolControl.Text.Digits

/-! # Writing JSON text

`Json.write` writes a value without blanks, members and items in order. A text escapes the quote,
the backslash and the control characters, the common ones by a letter and the others by four
hexadecimal digits; every other character stands for itself. -/

namespace PoolControl.Json

/-- One character inside the quotes of a text. -/
def escape (c : Char) : List Char :=
  if c = '"' then ['\\', '"']
  else if c = '\\' then ['\\', '\\']
  else if c.toNat = 8 then ['\\', 'b']
  else if c.toNat = 9 then ['\\', 't']
  else if c.toNat = 10 then ['\\', 'n']
  else if c.toNat = 12 then ['\\', 'f']
  else if c.toNat = 13 then ['\\', 'r']
  else if c.toNat < 0x20 then
    ['\\', 'u', '0', '0', Nat.digitChar (c.toNat / 16), Nat.digitChar (c.toNat % 16)]
  else [c]

/-- A text between quotes. -/
def writeText (s : String) : List Char := '"' :: (s.toList.flatMap escape ++ ['"'])

/-- An integer in decimal. -/
def writeInteger : Int → List Char
  | .ofNat n => Nat.toDigits 10 n
  | .negSucc n => '-' :: Nat.toDigits 10 (n + 1)

mutual

/-- The characters of a value. -/
def writeValue : Datum → List Char
  | .null => ['n', 'u', 'l', 'l']
  | .bool true => ['t', 'r', 'u', 'e']
  | .bool false => ['f', 'a', 'l', 's', 'e']
  | .integer n => writeInteger n
  | .raw source => source.toList
  | .text s => writeText s
  | .list items => '[' :: writeItems items
  | .table members => '{' :: writeMembers members

/-- The items of a list and its closing bracket. -/
def writeItems : List Datum → List Char
  | [] => [']']
  | [item] => writeValue item ++ [']']
  | item :: items => writeValue item ++ ',' :: writeItems items

/-- The members of a table and its closing brace. -/
def writeMembers : List (String × Datum) → List Char
  | [] => ['}']
  | [(name, value)] => writeText name ++ ':' :: (writeValue value ++ ['}'])
  | (name, value) :: members =>
    writeText name ++ ':' :: (writeValue value ++ ',' :: writeMembers members)

end

/-- The value as compact JSON text. -/
def write (d : Datum) : String := String.ofList (writeValue d)

end PoolControl.Json
