import PoolControl.Json.Writer
import PoolControl.Server

/-! # The server program

`main` starts the server with the files of its working directory and its environment and writes what
is logged to the standard output. It runs until its standard input ends. -/

namespace PoolControl.Server

open Log (Entry)

/-- The variables of the environment that the server knows. -/
def knownVariables : List String :=
  ["DTP_CONFIG", "DTP_ENABLED", "DTP_DISPATCHER_BACKLOG", "DTP_ALARM_ENABLED", "DTP_ALARM_INTERVAL",
    "DTP_WATCH_ENABLED", "DTP_WATCH_INTERVAL", "LOG_FORMAT"]

/-- The known variables that are set. -/
def readEnvironment : IO Environment :=
  knownVariables.filterMapM fun name => do
    return (← IO.getEnv name).map (name, ·)

/-- The tree with what is at a path, if anything can be read there. -/
def readEntry (files : FileTree) (path : String) : IO FileTree := do
  try
    return files.addWhole path (.file (← IO.FS.readBinFile path))
  catch
    | .inappropriateType .. => return files.addWhole path .directory
    | _ => return files

/-- The files that the server may ask for when it starts. -/
def readFiles (env : Environment) : IO FileTree := do
  let files ← readEntry {} ".env"
  let named := ((env.withFile files).get? "DTP_CONFIG").toList
  (named ++ Configuration.searchPaths).foldlM readEntry files

/-- Writes entries, each on a line of its own. -/
def writeEntries (tables : Bool) (entries : List Entry) : IO Unit := do
  let out ← IO.getStdout
  for e in entries do
    out.putStrLn (if tables then Json.write e.toDatum else e.line)
  out.flush

/-- Reads the standard input to its end. -/
partial def awaitEnd (input : IO.FS.Stream) : IO Unit := do
  unless (← input.getLine).isEmpty do awaitEnd input

/-- Lets second after second pass until the input has ended. -/
partial def runUntil (hasEnded : IO Bool) (tables : Bool) (s : Running) : IO Running := do
  if ← hasEnded then return s
  IO.sleep 1000
  let files ← match s.watched? with
    | some path => readEntry {} path
    | none => pure {}
  let (entries, s) := s.pass files 1000
  writeEntries tables entries
  runUntil hasEnded tables s

/-- Says what went wrong, if anything did, and gives the exit code. -/
def leave (exit : Exit) : IO UInt32 := do
  unless exit.complaint.isEmpty do IO.eprintln exit.complaint
  return UInt32.ofNat exit.code

/-- Runs the server from its start to the end of its input. -/
def serve : IO UInt32 := do
  let env ← readEnvironment
  let files ← readFiles env
  let tables := wantsTables (env.withFile files)
  let (entries, startup) := start files env
  writeEntries tables entries
  match startup with
  | .failed e => leave (.ofError e)
  | .disabled => leave {}
  | .broken fault => leave (.ofFault? (some fault))
  | .started server =>
    let input ← IO.asTask (awaitEnd (← IO.getStdin)) .dedicated
    let (entries, fault) := stop (← runUntil (IO.hasFinished input) tables server)
    writeEntries tables entries
    leave (.ofFault? fault)

end PoolControl.Server

def main : IO UInt32 := PoolControl.Server.serve
