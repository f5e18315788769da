import RouteBinding.Failure
import RouteBinding.Json.Printer
import RouteBinding.Operation.Basic

/-!
# Consoles

How a command writes. Data goes to standard output, as JSON, as lines of text with tabs in them or, for
a reader at a terminal, in columns; every message goes to standard error. Messages are marked up unless colours
are turned off, and so are tables in columns; markup that cannot be shown breaks the run off.
-/

namespace RouteBinding

/-- How data is written; `auto` leaves the choice to the terminal. -/
inductive OutputFormat
  | auto
  | json
  | plain
  | rich
deriving DecidableEq, Inhabited

namespace OutputFormat

/-- The name of a format. -/
def name : OutputFormat → String
  | auto => "auto"
  | json => "json"
  | plain => "plain"
  | rich => "rich"

/-- The format with a name. -/
def ofName? (s : String) : Option OutputFormat :=
  [auto, json, plain, rich].find? (·.name = s)

end OutputFormat

/-- How a command writes: the format of its data, whether its messages are not marked up, whether those that
only inform are left out, and whether its steps are told. -/
structure Console where
  format : OutputFormat
  colourless : Bool
  quiet : Bool
  verbose : Bool
deriving DecidableEq, Inhabited

namespace Console

/-- Whether the environment turns colours off. -/
def colourIsOff (h : Host) : Bool :=
  (h.setting? "NO_COLOR").isSome || h.setting? "TERM" = some "dumb"

/-- The console for a wanted format. Left to the terminal, data is written in columns only on a
terminal with colours. -/
def forHost (h : Host) (format : OutputFormat) (noColour quiet verbose : Bool) : Console :=
  let colourless := noColour || colourIsOff h
  let chosen := if format = .auto then (if h.hasTerminal && !colourless then .rich else .plain) else format
  ⟨chosen, colourless, quiet, verbose⟩

/-- What a library of the terminal has to show, if it can show it. -/
def shown (text : Option String) : Action String :=
  match text with
  | some text => return text
  | none => Action.fail (.breakdown .badMarkup)

/-! ## Messages -/

/-- Writes a line of a message as it is. -/
def note (line : String) : Action Unit :=
  modify (·.note line)

/-- Writes a message: as it is, or marked up where colours are not turned off. -/
def say (c : Console) (message markup : String) : Action Unit := do
  if c.colourless then note message
  else note (← shown ((← get).renderer.message? markup))

/-- A message that only informs. It may hold markup of its own. -/
def info (c : Console) (message : String) : Action Unit :=
  if c.quiet then return else c.say message message

/-- A message that something is done. -/
def success (c : Console) (message : String) : Action Unit :=
  if c.quiet then return else c.say message (TextStyle.green.around message)

/-- A warning. -/
def warning (c : Console) (message : String) : Action Unit :=
  c.say ("Warning: " ++ message) (TextStyle.yellow.around "Warning:" ++ " " ++ message)

/-- An error. -/
def error (c : Console) (message : String) : Action Unit :=
  c.say ("Error: " ++ message) (TextStyle.boldRed.around "Error:" ++ " " ++ message)

/-- A hint at what to do next. -/
def suggest (c : Console) (message : String) : Action Unit :=
  if c.quiet then return else c.say ("→ " ++ message) (TextStyle.dim.around ("→ " ++ message))

/-- A message about a step. -/
def debug (c : Console) (message : String) : Action Unit :=
  if c.verbose then c.say ("[debug] " ++ message) (TextStyle.dim.around ("\\[debug] " ++ message)) else return

/-- What a finding says, with its place unless the message names it. -/
def findingText (d : Diagnostic) : String :=
  match d.location with
  | some place =>
    if place = "" || Text.contains d.message place then d.message
    else d.message ++ " (at " ++ place ++ ")"
  | none => d.message

/-- Reports findings: a warning always, anything else as a message about a step. -/
def report (c : Console) (findings : List Diagnostic) : Action Unit :=
  findings.forM fun d =>
    match d.level with
    | .warning => c.warning (findingText d)
    | .info => c.debug (findingText d)

/-! ## Data -/

/-- Writes a text of data. -/
def print (text : String) : Action Unit :=
  modify (·.print text)

/-- The text of a tree, unless some key or number of it cannot be written. -/
def written (layout : Json.Layout) (t : Tree) : Action String :=
  match Json.write? layout t with
  | some text => return text
  | none => Action.fail (.breakdown .unwritableData)

/-- The text of a scalar in plain data, unless it is a number with too many digits. -/
def displayed (s : Scalar) : Action String :=
  Action.ofExcept id (spelled .breakdown s.display?)

/-- The text of a tree in a line of plain data. -/
def plainText : Tree → Action String
  | .scalar s => displayed s
  | t => written .line t

/-- Writes a tree as plain data, one entry of its outermost list or mapping a line. -/
def printPlain : Tree → Action Unit
  | .mapping entries =>
    entries.forM fun e => do print ((← displayed e.1) ++ "\t" ++ (← plainText e.2))
  | .list items => items.forM fun t => do print (← plainText t)
  | .scalar s => do print (← displayed s)

/-- Writes a tree. -/
def showData (c : Console) (t : Tree) : Action Unit := do
  match c.format with
  | .plain => printPlain t
  | .rich => do
    let text ← written .pretty t
    print ((← get).renderer.data text)
  | _ => print (← written .pretty t)

/-- The records of a table: each row under the names of its columns. Cells without a column and columns
without a cell are left out, and of two columns with one name the last one counts. -/
def records (columns : List String) (rows : List (List String)) : Tree :=
  .list (rows.map fun row =>
    .mapping (mergeEntries ((columns.zip row).map fun p => (.text p.1, .text p.2))))

/-- Writes a table. In columns its title and all of its cells are taken as markup. -/
def showTable (c : Console) (title : String) (columns : List String) (rows : List (List String)) :
    Action Unit := do
  match c.format with
  | .json => print (← written .pretty (records columns rows))
  | .rich => print (← shown ((← get).renderer.table? title columns rows))
  | _ => (columns :: rows).forM fun row => print (Text.join "\t" row)

/-- Writes a tree to a file. -/
def writeFile (path : String) (t : Tree) : Action Unit := do
  let text ← written .pretty t
  Action.change (·.writeText path (text ++ "\n"))

end Console

end RouteBinding
