import PoolControl.Configuration.Load
import PoolControl.Text.Blank

/-! # Files of environment variables

A file may set variables that the environment does not have (`Environment.extend`), one assignment a
line: a name, an equals sign and a value, after an optional `export`. A value may be quoted and then
go over several lines; single quotes keep everything, while elsewhere a backslash escapes and a
dollar sign takes in another variable. The first line that cannot be read ends the file; what stands
before it counts. -/

namespace PoolControl

namespace EnvironmentFile

open Text (isBlank)

/-! ### Lines -/

/-- Where a reader of lines stands after a character. -/
inductive LineState where
  /-- Outside of quotes, after something other than a blank. -/
  | plain
  | blank
  | escape
  | strong
  | strongEscape
  | weak
  | weakEscape
  /-- At a number sign that begins a comment. -/
  | comment
  deriving DecidableEq

/-- The state outside of quotes after a character other than a blank. -/
def LineState.outside (c : Char) : LineState :=
  if c = '\\' then .escape
  else if c = '"' then .weak
  else if c = '\'' then .strong
  else .plain

/-- The state after one more character. -/
def LineState.next : LineState → Char → LineState
  | plain, c => if isBlank c ∧ c ≠ '\n' ∧ c ≠ '\r' then blank else outside c
  | blank, c => if c = '#' then comment else outside c
  | escape, _ => plain
  | strong, c => if c = '\\' then strongEscape else if c = '\'' then plain else strong
  | strongEscape, _ => strong
  | weak, c => if c = '\\' then weakEscape else if c = '"' then plain else weak
  | weakEscape, _ => weak
  | comment, _ => comment

/-- Reads on to the end of a line: the characters up to there or up to a comment, the state there,
and what follows the line. -/
def scanLine (state : LineState) : List Char → List Char × LineState × List Char
  | [] => ([], state, [])
  | c :: rest =>
    match state.next c with
    | .comment => ([], .comment, (rest.dropWhile (· != '\n')).drop 1)
    | state =>
      if c = '\n' then ([c], state, rest)
      else
        let (line, final, rest) := scanLine state rest
        (c :: line, final, rest)

/-- Whether the line is a comment from its start. -/
def isComment (line : List Char) : Bool := (line.dropWhile isBlank).head? == some '#'

/-- What the lines of a file come to. -/
inductive Lines where
  | done
  /-- The rest cannot be read. -/
  | broken
  | line (cs : List Char) (rest : List Char)

/-- Reads a line, over several where quotes are open. `read` holds what was read before. -/
def readLine : Nat → List Char → LineState → List Char → Lines
  | 0, _, _, _ => .broken
  | fuel + 1, read, state, cs =>
    if cs.isEmpty then (if state = .plain then .done else .broken)
    else
      let whole := read ++ cs.takeWhile (· != '\n')
      if isComment whole then .line [] ((cs.dropWhile (· != '\n')).drop 1)
      else
        match scanLine state cs with
        | (line, .plain, rest) => .line (read ++ line) rest
        | (line, .comment, rest) => .line (read ++ line) rest
        | (line, state, rest) => readLine fuel (read ++ line) state rest

/-! ### Values -/

/-- How far the name of another variable was read. -/
inductive Reference where
  | none
  /-- After a dollar sign. -/
  | bare (name : List Char)
  /-- Between braces. -/
  | braced (name : List Char)

/-- What quotes are open around a character. -/
inductive Quotes where
  | none
  | strong
  | weak
  /-- After a blank only blanks and a comment may follow. -/
  | ended
  deriving DecidableEq

/-- Whether the character may stand in the name of a referenced variable. -/
def isNameChar (c : Char) : Bool := c.isAlphanum || 0x80 ≤ c.toNat && !isBlank c

/-- Reads a value, with the characters of it so far in reverse. -/
def readValue (lookup : String → String) : List Char → Quotes → Reference → Bool → List Char →
    Option (List Char)
  | out, quotes, ref, _, [] =>
    match ref, quotes with
    | .braced _, _ => none
    | _, .strong => none
    | _, .weak => none
    | .bare name, _ => some (out.reverse ++ (lookup (String.ofList name.reverse)).toList)
    | .none, _ => some out.reverse
  | out, quotes, ref, escaped, c :: rest =>
    let value (name : List Char) : List Char :=
      (lookup (String.ofList name.reverse)).toList.reverse
    if quotes = .ended then
      if c = ' ' ∨ c = '\t' then readValue lookup out quotes ref false rest
      else if c = '#' then some out.reverse
      else none
    else if escaped then
      if c = '\\' ∨ c = '\'' ∨ c = '"' ∨ c = '$' ∨ c = ' ' then
        readValue lookup (c :: out) quotes ref false rest
      else if c = 'n' then readValue lookup ('\n' :: out) quotes ref false rest
      else none
    else if quotes = .strong then
      if c = '\'' then readValue lookup out .none ref false rest
      else readValue lookup (c :: out) quotes ref false rest
    else
      match ref with
      | .bare name =>
        if isNameChar c then readValue lookup out quotes (.bare (c :: name)) false rest
        else if c = '{' ∧ name.isEmpty then readValue lookup out quotes (.braced []) false rest
        else if c = '$' then readValue lookup (value name ++ out) quotes (.bare []) false rest
        else readValue lookup (c :: (value name ++ out)) quotes .none false rest
      | .braced name =>
        if c = '}' then readValue lookup (value name ++ out) quotes .none false rest
        else readValue lookup out quotes (.braced (c :: name)) false rest
      | .none =>
        if c = '$' then readValue lookup out quotes (.bare []) false rest
        else if c = '\\' then readValue lookup out quotes .none true rest
        else if quotes = .weak then
          if c = '"' then readValue lookup out .none .none false rest
          else readValue lookup (c :: out) quotes .none false rest
        else if c = '\'' then readValue lookup out .strong .none false rest
        else if c = '"' then readValue lookup out .weak .none false rest
        else if c = ' ' ∨ c = '\t' then readValue lookup out .ended .none false rest
        else readValue lookup (c :: out) quotes .none false rest

/-! ### Assignments -/

/-- A name and what follows it and the blanks after it. -/
def readName (cs : List Char) : Option (List Char × List Char) :=
  let isPart (c : Char) : Bool := c.isAlphanum || c == '_' || c == '.'
  match cs with
  | c :: _ =>
    if c.isAlpha || c == '_' then
      some (cs.takeWhile isPart, (cs.dropWhile isPart).dropWhile isBlank)
    else none
  | [] => none

/-- A name before an equals sign and what follows the sign, after an optional `export`. -/
def readTarget (cs : List Char) : Option (List Char × List Char) := do
  match ← readName cs with
  | (name, '=' :: rest) => some (name, rest)
  | (name, rest) =>
    if name = "export".toList then
      match ← readName rest with
      | (name, '=' :: rest) => some (name, rest)
      | _ => none
    else none

/-- The assignment of a line: `some none` where the line has none. -/
def readAssignment (lookup : String → String) (line : List Char) :
    Option (Option (String × String)) :=
  let cs := ((line.reverse.dropWhile isBlank).reverse).dropWhile isBlank
  if cs.isEmpty || cs.head? == some '#' then some none
  else do
    let (name, rest) ← readTarget cs
    let rest := rest.dropWhile isBlank
    let value ←
      if rest.isEmpty || rest.head? == some '#' then some []
      else readValue lookup [] .none .none false rest
    some (some (String.ofList name, String.ofList value))

/-- Reads the assignments of a file. `set` holds the variables that earlier lines give, the last
first, whether they took effect or not. -/
def readAll : Nat → Environment → Environment → List Char → Environment
  | 0, env, _, _ => env
  | fuel + 1, env, set, cs =>
    match readLine (cs.length + 1) [] .plain cs with
    | .done => env
    | .broken => env
    | .line line rest =>
      let lookup (name : String) : String := ((env.get? name <|> set.get? name).getD "")
      match readAssignment lookup line with
      | none => env
      | some none => readAll fuel env set rest
      | some (some (name, value)) =>
        let set := (name, value) :: set
        if (env.get? name).isSome then readAll fuel env set rest
        else readAll fuel (env ++ [(name, value)]) set rest

end EnvironmentFile

/-- The environment with the variables of a file that it does not have itself. -/
def Environment.extend (env : Environment) (text : String) : Environment :=
  let cs := match text.toList with
    | '\uFEFF' :: rest => rest
    | cs => cs
  EnvironmentFile.readAll (cs.length + 1) env [] cs

/-- The environment with the variables that the file `.env` sets. -/
def Environment.withFile (env : Environment) (files : FileTree) : Environment :=
  match files.read ".env" with
  | .ok text => env.extend text
  | .error _ => env

end PoolControl
