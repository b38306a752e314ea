import PoolControl.Text.Digits
import PoolControl.Text.Visible

/-! # Quoted text

A text between double quotes on one line, for logs and diagnostics. Tab, newline, carriage return,
NUL, the double quote and the backslash have an escape of their own, and every other character that
is not visible on its own is written by its code point. The apostrophe is kept, except in a path
(`quotedPath`). -/

namespace PoolControl.Text

/-- One character inside the quotes. -/
def quoteChar (c : Char) : List Char :=
  if c = '\t' then ['\\', 't']
  else if c = '\n' then ['\\', 'n']
  else if c = '\r' then ['\\', 'r']
  else if c = Char.ofNat 0 then ['\\', '0']
  else if c = '"' then ['\\', '"']
  else if c = '\\' then ['\\', '\\']
  else if isVisible c then [c]
  else ['\\', 'u', '{'] ++ hexText c.toNat ++ ['}']

/-- The text between quotes. -/
def quoted (s : String) : String := String.ofList ('"' :: s.toList.flatMap quoteChar ++ ['"'])

/-- The path between quotes, with its apostrophes escaped too. -/
def quotedPath (path : String) : String :=
  let shown (c : Char) : List Char := if c = '\'' then ['\\', '\''] else quoteChar c
  String.ofList ('"' :: path.toList.flatMap shown ++ ['"'])

/-- A list of texts between brackets, each quoted. -/
def quotedList (ss : List String) : String := "[" ++ ", ".intercalate (ss.map quoted) ++ "]"

end PoolControl.Text
