import RouteBinding.Host.FileTree
import RouteBinding.Host.Path
import RouteBinding.Host.Renderer
import RouteBinding.Step

/-!
# The host of a command

All that a command sees of the machine it runs on, and may change there: files, the environment, the
current directory, standard input, the answers of other machines, how marked-up texts are shown, and what has
been written to standard output and standard error.
-/

namespace RouteBinding

/-- What comes back when an address is asked for. -/
inductive Fetched
  | answer (status : Nat) (contentType : Option String) (body : List UInt8)
  | failure (reason : String)
deriving DecidableEq, Inhabited

/-- The machine that a command runs on. `output` and `messages` hold what has been written to
standard output and to standard error. -/
structure Host where
  files : FileTree
  environment : List (String × String)
  directory : String
  platform : String
  input : String
  fetch : String → Fetched
  hasTerminal : Bool
  time : String
  renderer : Renderer := .untagging
  output : String := ""
  messages : String := ""

namespace Host

/-- The value of a variable of the environment. -/
def setting? (h : Host) (name : String) : Option String :=
  h.environment.lookup name

/-- The value of a variable that is set and not empty. -/
def filled? (h : Host) (name : String) : Option String :=
  (h.setting? name).filter (· ≠ "")

/-- Sets a variable, or removes it. -/
def setVariable (h : Host) (name : String) (value : Option String) : Host :=
  let others := h.environment.filter (·.1 ≠ name)
  { h with environment := (value.map (name, ·)).toList ++ others }

/-- The way of names to a path. -/
def way (h : Host) (path : String) : Except Obstacle (List String) :=
  if !Path.isWritable path then .error .noDirectory
  else if Path.mostBytes < (Path.tidy path).utf8ByteSize then .error .nameTooLong
  else .ok (Path.way h.directory path)

/-- The place of a path. -/
def place (h : Host) (path : String) : Except Obstacle Place := do
  h.files.follow [] (← h.way path)

/-- Whether a file stands at a path. A path that leads nowhere names no file, but one that is too long
breaks the run off. -/
def isFile (h : Host) (path : String) : Except Breakdown Bool :=
  match h.place path with
  | .ok place => .ok (h.files.isFile place)
  | .error .nameTooLong => .error .nameTooLong
  | .error _ => .ok false

/-- The text of the file at a path; `none` if it is no text. -/
def readText? (h : Host) (path : String) : Option String := do
  let place ← (h.place path).toOption
  (h.files.read? place).bind String.fromUTF8?

/-- Writes a line to standard output. -/
def print (h : Host) (line : String) : Host :=
  { h with output := h.output ++ line ++ "\n" }

/-- Writes a line to standard error. -/
def note (h : Host) (line : String) : Host :=
  { h with messages := h.messages ++ line ++ "\n" }

/-- The host with other files, where they could be changed. -/
def withFiles (h : Host) : Option FileTree → Except Breakdown Host
  | some files => .ok { h with files := files }
  | none => .error .unwritableFile

/-- Makes a directory and those above it. -/
def makeDirectory (h : Host) (path : String) : Except Breakdown Host :=
  h.withFiles do
    let made ← (h.files.makeWay [] (← (h.way path).toOption)).toOption
    return made.1

/-- Writes a text to a file. -/
def writeText (h : Host) (path content : String) : Except Breakdown Host :=
  h.withFiles do h.files.write? (← (h.place path).toOption) content.toUTF8

/-- How many bytes the name of the file that takes another's place has more than that one's name, as long
as both are there. -/
def extraBytes : Nat := 14

/-- Writes a text to a file beside the one at a path, which takes its place, and makes the directory
for it. -/
def replaceText (h : Host) (path content : String) : Except Breakdown Host :=
  h.withFiles do
    let way ← (h.way path).toOption
    let name := Path.fileName path
    if mostBytesInName < name.utf8ByteSize + extraBytes then none
    let (files, _) ← (h.files.makeWay [] way.dropLast).toOption
    let place ← (files.follow [] way).toOption
    files.write? place content.toUTF8

end Host

end RouteBinding
