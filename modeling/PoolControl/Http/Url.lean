import PoolControl.Text.Digits

/-! # Locations

`Url.parse?` reads an absolute location of the scheme `http` or `https` by the rules for the web:
blanks and controls around it and line breaks in it do not count, backslashes are slashes, dots and
double dots in the path are resolved, and characters that may not stand in a request are written by
their octets. What it yields is what a request needs: the host, the port, and the request target,
which leaves the fragment out. -/

namespace PoolControl.Http

/-- What a request needs of a location. -/
structure Url where
  secure : Bool
  /-- The host in small letters, an address of four numbers in its usual form. -/
  host : String
  port : Nat
  /-- The path and the query. -/
  target : String
  deriving DecidableEq, Repr

namespace Url

/-! ### Octets -/

/-- An octet by its two hexadecimal digits. -/
def escapeOctet (b : UInt8) : List Char :=
  let digit (n : Nat) : Char := (Nat.digitChar n).toUpper
  ['%', digit (b.toNat / 16), digit (b.toNat % 16)]

/-- The characters with all but the permitted ones written by their octets. -/
def escape (permitted : Char → Bool) (cs : List Char) : List Char :=
  cs.flatMap fun c =>
    if 0x20 < c.toNat && c.toNat < 0x7F && permitted c then [c]
    else (String.singleton c).toUTF8.toList.flatMap escapeOctet

/-- Whether the character may stand in a path. -/
def inPath (c : Char) : Bool := !(['"', '#', '<', '>', '?', '`', '{', '}'].contains c)

/-- Whether the character may stand in a query. -/
def inQuery (c : Char) : Bool := !(['"', '#', '<', '>', '\''].contains c)

/-- The characters with the escaped ASCII characters in their place. -/
def unescape : List Char → List Char
  | '%' :: a :: b :: rest =>
    match Text.hexDigit? a, Text.hexDigit? b with
    | some hi, some lo =>
      if hi < 8 then Char.ofNat (hi * 16 + lo) :: unescape rest
      else '%' :: unescape (a :: b :: rest)
    | _, _ => '%' :: unescape (a :: b :: rest)
  | c :: rest => c :: unescape rest
  | [] => []

/-! ### Hosts -/

/-- A part of an address: hexadecimal after `0x`, octal after a zero, and decimal otherwise. -/
def addressPart? (cs : List Char) : Option Nat :=
  let digits (base : Nat) (cs : List Char) : Option Nat :=
    (cs.mapM (Text.digit? base)).map (Text.valueOf base)
  match cs with
  | '0' :: 'x' :: rest => digits 16 rest
  | '0' :: rest => digits 8 rest
  | [] => none
  | cs => digits 10 cs

/-- The numbers of an address in one: each part but the last is an octet. -/
def addressOf? : List Nat → Option Nat
  | [] => none
  | parts@(_ :: _) =>
    let last := parts.getLast?.getD 0
    let first := parts.dropLast
    let room := 1 <<< (8 * (4 - first.length))
    if 3 < first.length ∨ first.any (255 < ·) ∨ room ≤ last then none
    else some (first.foldr (fun (n : Nat) (acc : Nat × Nat) => (acc.1 + n * acc.2, acc.2 * 256))
      (0, room)).1 |>.map (· + last)

/-- An address of four numbers in its usual form. -/
def addressText (n : Nat) : String :=
  ".".intercalate ([n >>> 24, (n >>> 16) % 256, (n >>> 8) % 256, n % 256].map toString)

/-- The usual form of a host. -/
def hostText (cs : List Char) : String :=
  let host := String.ofList ((unescape cs).map Char.toLower)
  let parts := host.splitOn "."
  let parts := if 1 < parts.length ∧ parts.getLast? = some "" then parts.dropLast else parts
  match (parts.mapM fun p => addressPart? p.toList).bind addressOf? with
  | some n => addressText n
  | none => host

/-- Host and port of an authority, after the part that names a user. -/
def readAuthority (default : Nat) (cs : List Char) : Option (String × Nat) :=
  let hostPort := (cs.reverse.takeWhile (· != '@')).reverse
  if hostPort.head? = some '[' then none
  else
    let host := hostPort.takeWhile (· != ':')
    let port := (hostPort.dropWhile (· != ':')).drop 1
    if host.isEmpty then none
    else if port.isEmpty then some (hostText host, default)
    else (Text.natural? port).bind fun n => if n < 65536 then some (hostText host, n) else none

/-! ### Paths -/

/-- Whether the segment is a dot. -/
def isDot (segment : List Char) : Bool := unescapesTo ['.'] segment
where
  /-- Whether the segment is that text, with dots written out or escaped. -/
  unescapesTo (text segment : List Char) : Bool :=
    let rec plain : List Char → List Char
      | '%' :: '2' :: e :: rest => if e = 'e' ∨ e = 'E' then '.' :: plain rest else ['%']
      | c :: rest => c :: plain rest
      | [] => []
    plain segment == text

/-- Whether the segment is a double dot. -/
def isDoubleDot (segment : List Char) : Bool := isDot.unescapesTo ['.', '.'] segment

/-- Splits a path at its slashes. -/
def segments (cs : List Char) : List (List Char) :=
  cs.foldr
    (fun c acc =>
      if c = '/' ∨ c = '\\' then [] :: acc
      else match acc with
        | s :: rest => (c :: s) :: rest
        | [] => [[c]])
    [[]]

/-- Resolves dots and double dots, with the segments so far in reverse. -/
def resolve (done : List (List Char)) : List (List Char) → List (List Char)
  | [] => done.reverse
  | [s] =>
    if isDoubleDot s then ([] :: done.drop 1).reverse
    else if isDot s then ([] :: done).reverse
    else (s :: done).reverse
  | s :: rest =>
    if isDoubleDot s then resolve (done.drop 1) rest
    else if isDot s then resolve done rest
    else resolve (s :: done) rest

/-- The path of a request, which begins with a slash. -/
def pathText (cs : List Char) : List Char :=
  let cs := match cs with
    | '/' :: rest => rest
    | '\\' :: rest => rest
    | cs => cs
  (resolve [] (segments cs)).flatMap fun s => '/' :: escape inPath s

/-! ### The whole -/

/-- The location without what does not count: blanks and controls around it, and line breaks and
tabs inside. -/
def clean (s : String) : List Char :=
  let outer (c : Char) : Bool := c.toNat ≤ 0x20
  let inner := ((s.toList.dropWhile outer).reverse.dropWhile outer).reverse
  inner.filter fun c => c != '\t' && c != '\n' && c != '\r'

/-- Takes off the scheme, in small letters. -/
def readScheme (cs : List Char) : Option (String × List Char) :=
  let name := cs.takeWhile (· != ':')
  match name, cs.dropWhile (· != ':') with
  | c :: more, ':' :: rest =>
    if c.isAlpha && more.all fun c => c.isAlphanum || c == '+' || c == '-' || c == '.' then
      some (String.ofList (name.map Char.toLower), rest)
    else none
  | _, _ => none

/-- Whether the character ends an authority. -/
def endsAuthority (c : Char) : Bool := c == '/' || c == '\\' || c == '?' || c == '#'

/-- Reads an absolute location. -/
def parse? (s : String) : Option Url := do
  let (scheme, rest) ← readScheme (clean s)
  let secure ← if scheme = "http" then some false else if scheme = "https" then some true else none
  let rest := rest.dropWhile fun c => c == '/' || c == '\\'
  let (host, port) ← readAuthority (if secure then 443 else 80)
    (rest.takeWhile fun c => !endsAuthority c)
  let rest := (rest.dropWhile fun c => !endsAuthority c).takeWhile (· != '#')
  let path := pathText (rest.takeWhile (· != '?'))
  let query := match rest.dropWhile (· != '?') with
    | '?' :: query => '?' :: escape inQuery query
    | _ => []
  some { secure, host, port, target := String.ofList (path ++ query) }

end Url
end PoolControl.Http
