import PoolControl.Toml.Numbers
import PoolControl.Toml.Strings
import PoolControl.Toml.Tree

/-! # Reading configuration files

`Toml.read?` reads a whole file: lines with a key and a value, headers of tables, and headers of
tables that share one. Brackets and braces nest less than `depthLimit` deep, and keys have less than
`depthLimit` parts. -/

namespace PoolControl.Toml

/-- The depth that is too much. -/
def depthLimit : Nat := 80

/-! ### Lines and keys -/

/-- What follows a comment, if there is one. -/
def skipComment : List Char → List Char
  | '#' :: rest => rest.dropWhile isPlain
  | cs => cs

/-- The end of a line or of the file, after blanks and a comment. -/
def readLineEnd (cs : List Char) : Option (List Char) :=
  match skipComment (skipBlanks cs) with
  | [] => some []
  | cs => newline? cs

/-- Whether the character may stand in a key without quotes. -/
def isKeyChar (c : Char) : Bool :=
  'a' ≤ c && c ≤ 'z' || 'A' ≤ c && c ≤ 'Z' || Text.isDecimal c || c == '_' || c == '-'

/-- One part of a key. -/
def readKeyPart (cs : List Char) : Option (String × List Char) :=
  match cs with
  | '"' :: _ => (readLineString cs).map fun (key, rest) => (String.ofList key, rest)
  | '\'' :: _ => (readLineString cs).map fun (key, rest) => (String.ofList key, rest)
  | _ =>
    let key := cs.takeWhile isKeyChar
    if key.isEmpty then none else some (String.ofList key, cs.dropWhile isKeyChar)

/-- The parts of a key, with blanks around them. -/
def readKeyParts : Nat → List Char → Option (List String × List Char)
  | 0, _ => none
  | fuel + 1, cs => do
    let (part, rest) ← readKeyPart (skipBlanks cs)
    match skipBlanks rest with
    | '.' :: rest => do
      let (parts, rest) ← readKeyParts fuel rest
      some (part :: parts, rest)
    | rest => some ([part], rest)

/-- A key: the parts before the last, and the last. -/
def readKey (cs : List Char) : Option ((List String × String) × List Char) := do
  let (parts, rest) ← readKeyParts (depthLimit - 1) cs
  some ((parts.dropLast, ← parts.getLast?), rest)

/-! ### Values -/

/-- What follows blanks, comments and newlines. -/
def skipLines : Nat → List Char → List Char
  | 0, cs => cs
  | fuel + 1, cs =>
    let cs := skipBlanks cs
    match newline? (skipComment cs) with
    | some rest => skipLines fuel rest
    | none => cs

mutual

/-- A value, inside so many brackets and braces. -/
def readValue : Nat → Nat → List Char → Option (Datum × List Char)
  | 0, _, _ => none
  | fuel + 1, depth, cs =>
    match cs with
    | '"' :: _ => (readString cs).map fun (s, rest) => (.text (String.ofList s), rest)
    | '\'' :: _ => (readString cs).map fun (s, rest) => (.text (String.ofList s), rest)
    | '[' :: rest =>
      if depth + 1 < depthLimit then do
        let (items, rest) ← readItems fuel (depth + 1) (skipLines rest.length rest)
        some (.list items, rest)
      else none
    | '{' :: rest =>
      if depth + 1 < depthLimit then
        match skipBlanks rest with
        | '}' :: rest => some (.table [], rest)
        | rest => do
          let (entries, rest) ← readPairs fuel (depth + 1) [] rest
          some (.table (Entries.toMembers entries), rest)
      else none
    | 't' :: 'r' :: 'u' :: 'e' :: rest => some (.bool true, rest)
    | 'f' :: 'a' :: 'l' :: 's' :: 'e' :: rest => some (.bool false, rest)
    | _ => readNumber cs

/-- The items of a list and its closing bracket. A comma may follow the last item. -/
def readItems : Nat → Nat → List Char → Option (List Datum × List Char)
  | 0, _, _ => none
  | fuel + 1, depth, cs =>
    match cs with
    | ']' :: rest => some ([], rest)
    | _ => do
      let (item, rest) ← readValue fuel depth cs
      match skipLines rest.length rest with
      | ',' :: rest => do
        let (items, rest) ← readItems fuel depth (skipLines rest.length rest)
        some (item :: items, rest)
      | ']' :: rest => some ([item], rest)
      | _ => none

/-- The pairs of a table between braces and its closing brace. No comma follows the last pair. -/
def readPairs : Nat → Nat → Entries → List Char → Option (Entries × List Char)
  | 0, _, _, _ => none
  | fuel + 1, depth, entries, cs => do
    let ((path, key), rest) ← readKey cs
    let (value, rest) ← readValue fuel depth (skipBlanks (← after? '=' rest))
    let entries ← entries.addValue path key value
    match skipBlanks rest with
    | ',' :: rest => readPairs fuel depth entries rest
    | '}' :: rest => some (entries, rest)
    | _ => none

end

/-! ### The file -/

/-- What was read of a file so far. -/
structure Document where
  root : Entries := []
  /-- The header that the next keys belong to. -/
  header : List String := []

/-- Opens the table of a header. -/
def Document.open? (doc : Document) (shared : Bool) (path : List String) (key : String) :
    Option Document := do
  let root ← if shared then doc.root.openElement path key else doc.root.openTable path key
  some { root, header := path ++ [key] }

/-- A header after its first bracket, up to the end of its line. -/
def readHeader (doc : Document) (cs : List Char) : Option (Document × List Char) :=
  match cs with
  | '[' :: rest => do
    let ((path, key), rest) ← readKey rest
    let rest ← after? ']' (← after? ']' rest)
    some (← doc.open? true path key, ← readLineEnd rest)
  | rest => do
    let ((path, key), rest) ← readKey rest
    let rest ← after? ']' rest
    some (← doc.open? false path key, ← readLineEnd rest)

/-- A key with its value, up to the end of its line. -/
def readPair (doc : Document) (cs : List Char) : Option (Document × List Char) := do
  let ((path, key), rest) ← readKey cs
  let rest := skipBlanks (← after? '=' rest)
  let (value, rest) ← readValue (rest.length + 1) 0 rest
  let root ← doc.root.addValueAt doc.header path key value
  some ({ doc with root }, ← readLineEnd rest)

/-- The lines of a file, of which there are at most `fuel`. -/
def readLines : Nat → Document → List Char → Option Document
  | 0, doc, cs => if cs.isEmpty then some doc else none
  | fuel + 1, doc, cs =>
    match skipBlanks cs with
    | [] => some doc
    | '[' :: rest => do
      let (doc, rest) ← readHeader doc rest
      readLines fuel doc rest
    | c :: rest =>
      if c = '#' ∨ c = '\n' ∨ c = '\r' then do
        readLines fuel doc (← readLineEnd (c :: rest))
      else do
        let (doc, rest) ← readPair doc (c :: rest)
        readLines fuel doc rest

/-- The table that a whole file describes. A mark of the byte order at its start is dropped. -/
def read? (s : String) : Option Datum :=
  let cs := match s.toList with
    | '\uFEFF' :: rest => rest
    | cs => cs
  (readLines (cs.length + 1) {} cs).map fun doc => .table (Entries.toMembers doc.root)

end PoolControl.Toml
