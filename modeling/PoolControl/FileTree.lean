/-! # Files

A `FileTree` holds the files and directories below one working directory. `FileTree.find` follows a
path through it: a dot stays where it is, two dots go up, and every part but the last has to be a
directory, as has the last one when a slash follows it. Outside the working directory nothing is
known but the root of all paths, and what `FileTree.addWhole` says of a whole path. -/

namespace PoolControl

/-- Why a file cannot be read. -/
inductive ReadFailure where
  | notFound
  | notDirectory
  | isDirectory
  | nameTooLong
  | nulInName
  | notUtf8
  deriving DecidableEq, Repr

/-- The words for a failure. -/
def ReadFailure.text : ReadFailure → String
  | notFound => "No such file or directory (os error 2)"
  | notDirectory => "Not a directory (os error 20)"
  | isDirectory => "Is a directory (os error 21)"
  | nameTooLong => "File name too long (os error 36)"
  | nulInName => "file name contained an unexpected NUL byte"
  | notUtf8 => "stream did not contain valid UTF-8"

/-- A file with its content, or a directory. -/
inductive FileEntry where
  | file (bytes : ByteArray)
  | directory

/-- The files and directories below a working directory, by the parts of their paths. -/
structure FileTree where
  entries : List (List String × FileEntry) := []
  /-- What is known to be at a whole path, as it is written. -/
  whole : List (String × FileEntry) := []

namespace FileTree

/-- The parts of a path that name something. -/
def parts (path : String) : List String :=
  (path.splitOn "/").filter fun part => part != "" && part != "."

/-- The entry at the given parts. The working directory itself is a directory. -/
def entry? (t : FileTree) (place : List String) : Option FileEntry :=
  if place.isEmpty then some .directory else (t.entries.find? (·.1 == place)).map (·.2)

/-- The tree with a directory and all directories above it. -/
def addDirectory (t : FileTree) (path : String) : FileTree :=
  (List.range ((parts path).length + 1)).map ((parts path).take ·) |>.foldl (fun t place =>
      if (t.entry? place).isSome then t
      else { t with entries := t.entries ++ [(place, .directory)] })
    t

/-- The tree with a file and all directories above it. -/
def addFile (t : FileTree) (path : String) (bytes : ByteArray) : FileTree :=
  let t := t.addDirectory ("/".intercalate (parts path).dropLast)
  { t with entries := t.entries.filter (·.1 != parts path) ++ [(parts path, .file bytes)] }

/-- The tree with what is at a whole path, wherever the path leads. -/
def addWhole (t : FileTree) (path : String) (e : FileEntry) : FileTree :=
  { t with whole := (path, e) :: t.whole }

/-- Follows the parts of a path from a place in the tree. -/
def follow (t : FileTree) (here : List String) : List String → Except ReadFailure FileEntry
  | [] =>
    match t.entry? here with
    | some e => .ok e
    | none => .error .notFound
  | part :: rest =>
    match t.entry? here with
    | none => .error .notFound
    | some (.file _) => .error .notDirectory
    | some .directory =>
      if 255 < part.utf8ByteSize then .error .nameTooLong
      else if part = "" ∨ part = "." then t.follow here rest
      else if part = ".." then
        if here.isEmpty then .error .notFound else t.follow here.dropLast rest
      else t.follow (here ++ [part]) rest

/-- What is at a path. -/
def find (t : FileTree) (path : String) : Except ReadFailure FileEntry :=
  if path.toList.contains (Char.ofNat 0) then .error .nulInName
  else if path.isEmpty then .error .notFound
  else if 4095 < path.utf8ByteSize then .error .nameTooLong
  else if let some e := t.whole.lookup path then .ok e
  else if path.startsWith "/" then
    if (parts path).isEmpty then .ok .directory else .error .notFound
  else t.follow [] (path.splitOn "/")

/-- Whether something is at a path. -/
def contains (t : FileTree) (path : String) : Bool := (t.find path).toOption.isSome

/-- The text of the file at a path. -/
def read (t : FileTree) (path : String) : Except ReadFailure String :=
  match t.find path with
  | .error failure => .error failure
  | .ok .directory => .error .isDirectory
  | .ok (.file bytes) =>
    match String.fromUTF8? bytes with
    | some s => .ok s
    | none => .error .notUtf8

end FileTree
end PoolControl
