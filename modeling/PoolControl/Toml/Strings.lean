import PoolControl.Text.Digits

/-! # Strings of a configuration file

The four kinds of string: basic and literal ones, on one line or on several. A basic string has
escapes, a literal one none. A string on several lines drops a newline right after its opening
quotes, keeps other newlines as a line feed, and may end in one or two quotes of its own right
before the closing ones. In a basic string on several lines, a backslash at the end of a line drops
all blanks and newlines up to the next character. -/

namespace PoolControl.Toml

/-- Whether the character is a blank within a line. -/
def isBlank (c : Char) : Bool := c == ' ' || c == '\t'

/-- Whether the character may stand in a comment or, unescaped, in a string: any but the controls
other than the tab. -/
def isPlain (c : Char) : Bool := c == '\t' || 0x20 ≤ c.toNat && c.toNat != 0x7F

/-- What follows the blanks. -/
def skipBlanks (cs : List Char) : List Char := cs.dropWhile isBlank

/-- What follows a newline, if there is one. -/
def newline? : List Char → Option (List Char)
  | '\n' :: rest => some rest
  | '\r' :: '\n' :: rest => some rest
  | _ => none

/-- The character that a single-letter escape stands for. -/
def escaped? (c : Char) : Option Char :=
  if c = '"' ∨ c = '\\' then some c
  else if c = 'b' then some (Char.ofNat 8)
  else if c = 'f' then some (Char.ofNat 12)
  else if c = 'n' then some '\n'
  else if c = 'r' then some '\r'
  else if c = 't' then some '\t'
  else none

/-- The character with the code point that the hexadecimal digits give. -/
def charOfDigits? (digits : List Char) : Option Char := do
  let n := Text.valueOf 16 (← digits.mapM Text.hexDigit?)
  if n < 0xD800 ∨ 0xE000 ≤ n ∧ n < 0x110000 then some (Char.ofNat n) else none

/-- Puts a character before the characters that were read. -/
def withChar (c : Char) : List Char × List Char → List Char × List Char
  | (cs, rest) => (c :: cs, rest)

/-- A basic string on one line after its opening quote. -/
def readBasic : List Char → Option (List Char × List Char)
  | [] => none
  | '"' :: rest => some ([], rest)
  | '\\' :: 'u' :: a :: b :: c :: d :: rest => do
    let char ← charOfDigits? [a, b, c, d]
    (readBasic rest).map (withChar char)
  | '\\' :: 'U' :: a :: b :: c :: d :: e :: f :: g :: h :: rest => do
    let char ← charOfDigits? [a, b, c, d, e, f, g, h]
    (readBasic rest).map (withChar char)
  | '\\' :: e :: rest => do
    let char ← escaped? e
    (readBasic rest).map (withChar char)
  | c :: rest => if isPlain c && c != '\\' then (readBasic rest).map (withChar c) else none

/-- A literal string on one line after its opening quote. -/
def readLiteral : List Char → Option (List Char × List Char)
  | [] => none
  | '\'' :: rest => some ([], rest)
  | c :: rest => if isPlain c then (readLiteral rest).map (withChar c) else none

/-- A basic string on several lines. While `skipping`, blanks and newlines are dropped. -/
def readBasicLines (skipping : Bool) : List Char → Option (List Char × List Char)
  | [] => none
  | '"' :: '"' :: '"' :: '"' :: '"' :: rest => some (['"', '"'], rest)
  | '"' :: '"' :: '"' :: '"' :: rest => some (['"'], rest)
  | '"' :: '"' :: '"' :: rest => some ([], rest)
  | '\r' :: '\n' :: rest =>
    if skipping then readBasicLines true rest
    else (readBasicLines false rest).map (withChar '\n')
  | '\n' :: rest =>
    if skipping then readBasicLines true rest
    else (readBasicLines false rest).map (withChar '\n')
  | '\\' :: 'u' :: a :: b :: c :: d :: rest => do
    let char ← charOfDigits? [a, b, c, d]
    (readBasicLines false rest).map (withChar char)
  | '\\' :: 'U' :: a :: b :: c :: d :: e :: f :: g :: h :: rest => do
    let char ← charOfDigits? [a, b, c, d, e, f, g, h]
    (readBasicLines false rest).map (withChar char)
  | '\\' :: e :: rest =>
    if (newline? (skipBlanks (e :: rest))).isSome then
      readBasicLines true (if isBlank e then rest else e :: rest)
    else do
      let char ← escaped? e
      (readBasicLines false rest).map (withChar char)
  | c :: rest =>
    if skipping && isBlank c then readBasicLines true rest
    else if isPlain c && c != '\\' then (readBasicLines false rest).map (withChar c)
    else none
termination_by cs => cs.length
decreasing_by all_goals (try split) <;> simp <;> omega

/-- A literal string on several lines. -/
def readLiteralLines : List Char → Option (List Char × List Char)
  | [] => none
  | '\'' :: '\'' :: '\'' :: '\'' :: '\'' :: rest => some (['\'', '\''], rest)
  | '\'' :: '\'' :: '\'' :: '\'' :: rest => some (['\''], rest)
  | '\'' :: '\'' :: '\'' :: rest => some ([], rest)
  | '\r' :: '\n' :: rest => (readLiteralLines rest).map (withChar '\n')
  | '\n' :: rest => (readLiteralLines rest).map (withChar '\n')
  | c :: rest => if isPlain c then (readLiteralLines rest).map (withChar c) else none

/-- What follows a newline right after the opening quotes. -/
def dropFirstNewline (cs : List Char) : List Char := (newline? cs).getD cs

/-- A string on one line, as a key may be. -/
def readLineString : List Char → Option (List Char × List Char)
  | '"' :: rest => readBasic rest
  | '\'' :: rest => readLiteral rest
  | _ => none

/-- A string of any kind. -/
def readString : List Char → Option (List Char × List Char)
  | '"' :: '"' :: '"' :: rest => readBasicLines false (dropFirstNewline rest)
  | '\'' :: '\'' :: '\'' :: rest => readLiteralLines (dropFirstNewline rest)
  | cs => readLineString cs

end PoolControl.Toml
