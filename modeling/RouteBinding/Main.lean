import RouteBinding.Command.Run
import RouteBinding.Command.Sources

/-!
# The program

Gathers what a run may see of the machine, runs the command line on that, and writes what has changed.
Addresses on the web are not asked for.
-/

namespace RouteBinding.Machine

/-- The names of the environment that a run looks at. -/
def lookedUp : List String :=
  ["HOME", "XDG_CONFIG_HOME", "XDG_DATA_HOME", "SPECBIND_CONFIG", "SPECBIND_BODY_SLOT",
    "SPECBIND_FAIL_ON_WARNINGS", "NO_COLOR", "TERM"]

/-- Those of the names that are set. -/
def environment : IO (List (String × String)) := do
  let found ← lookedUp.mapM fun name => do
    return (← IO.getEnv name).map (name, ·)
  return found.filterMap id

/-- What stands at a path. -/
def entryAt (path : String) : IO (Option FileEntry) := do
  try
    let found ← IO.FS.realPath path
    if ← found.isDir then return some .directory
    return some (.file (← IO.FS.readBinFile path))
  catch _ => return none

/-- What stands on some ways from the root. -/
def gather (ways : List (List String)) : IO FileTree := do
  let all : List Place := (ways.flatMap (Path.stations [])).eraseDups
  let found ← all.mapM fun place => do
    return (← entryAt (Path.ofNames "/" place)).map (place, ·)
  return ⟨found.filterMap id⟩

/-- Reads a stream to its end. -/
partial def readAll (stream : IO.FS.Stream) (read : String) : IO String := do
  let line ← stream.getLine
  if line.isEmpty then return read
  readAll stream (read ++ line)

/-- The machine as a command line may see it. -/
def host (items : List String) : IO Host := do
  let directory := (← IO.currentDir).toString
  let named ← environment
  let input ← if Command.readsInput items then readAll (← IO.getStdin) "" else pure ""
  let bare : Host :=
    { files := .empty, environment := named, directory := directory, platform := "Linux",
      input := input, fetch := fun _ => .failure "no network",
      hasTerminal := ← (← IO.getStdout).isTty, time := toString (← IO.monoMsNow) }
  let ways := (Command.paths bare items).map (Path.way directory)
  return { bare with files := ← gather ways }

/-- Writes what is new or has changed. -/
def save (before after : FileTree) : IO Unit :=
  after.entries.reverse.forM fun e => do
    let path := Path.ofNames "/" e.1
    match e.2 with
    | .directory => if !before.isDirectory e.1 then IO.FS.createDirAll path
    | .file content =>
      if (before.read? e.1).map (·.data) ≠ some content.data then
        IO.FS.writeBinFile path content

end RouteBinding.Machine

/-- Runs the command line of the program. -/
def main (items : List String) : IO UInt32 := do
  let before ← RouteBinding.Machine.host items
  let (outcome, after) := (RouteBinding.Command.run items).run.run before
  RouteBinding.Machine.save before.files after.files
  (← IO.getStdout).putStr after.output
  (← IO.getStderr).putStr after.messages
  match outcome with
  | .ok code => return code.toUInt32
  | .error e => return e.exitCode.toUInt32
