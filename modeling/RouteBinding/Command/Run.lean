import RouteBinding.Command.Inspect
import RouteBinding.Command.Request
import RouteBinding.Command.Settings

/-!
# Running the program

A run reads a command line, does what it asks for on a host and ends with an exit code. What a failure says
is written to standard error, by the command that fails or by the program itself; of a breakdown a log is kept
in the directory of data. A line that asks for no command is answered with what the program says about itself.
-/

namespace RouteBinding.Command

/-! ## What the program says about itself -/

/-- The version of the program. -/
def version : String := "0.1.0"

/-- What the program says about its version. -/
def versionText : String :=
  program ++ " " ++ version

namespace Topic

/-- How a name is followed up. -/
def usage (t : Topic) : String :=
  "Usage: " ++ Text.join " " (t.title :: "[OPTIONS]" :: t.words)

/-- A line about an option. -/
def optionLine (f : OptionForm) : String :=
  "  " ++ Text.join ", " f.spellings ++ (if f.takesValue then " TEXT" else "")

/-- A line about a command. -/
def entryLine (entry : String × String) : String :=
  "  " ++ entry.1 ++ "  " ++ entry.2

/-- The lines of help. -/
def lines (t : Topic) : List String :=
  let commands := if t.entries.isEmpty then [] else "" :: "Commands:" :: t.entries.map entryLine
  [t.usage, "", "  " ++ t.summary, "", "Options:"] ++ t.options.map optionLine ++ commands

/-- The lines that refuse a command line. -/
def refusal (t : Topic) : List String :=
  [t.usage, "Try '" ++ t.title ++ " --help' for help."]

end Topic

/-! ## Runs -/

/-- Does what a request asks for. -/
def perform (c : Console) : Request → Action Unit
  | .check spec routes bodySlot strict => check c spec routes bodySlot strict
  | .contracts spec routes bodySlot file => contracts c spec routes bodySlot file
  | .inspectTypes spec => inspectTypes c spec
  | .inspectOperations spec => inspectOperations c spec
  | .inspectType spec name => inspectType c spec name
  | .showConfig => showConfig c
  | .changeConfig key value => changeConfig c key value

/-- The format of data that a user has set; a configuration that cannot be read, and a name of no format,
leave it to the terminal. -/
def userFormat : Action OutputFormat := do
  let _ ← ConfigStore.ensured ConfigStore.configDirectory
  match ConfigStore.user (← get) with
  | .ok config => return (OutputFormat.ofName? config.output.format).getD .auto
  | .error (.config _) => return .auto
  | .error e => throw e

/-- The console that the options of the program ask for. -/
def openConsole (options : Arguments) : Action Console := do
  let format ←
    if options.has "json" then pure OutputFormat.json
    else if options.has "plain" then pure OutputFormat.plain
    else userFormat
  return Console.forHost (← get) format (options.has "no-color") (options.has "quiet")
    (options.has "verbose")

/-- Says why a command line asks for no command, and gives the exit code of that. -/
def Stop.answer : Stop → Action Nat
  | .help topic => do
    topic.lines.forM Console.print
    return 0
  | .nothing topic => do
    topic.lines.forM Console.print
    return 2
  | .version => do
    Console.print versionText
    return 0
  | .refused topic => do
    topic.refusal.forM Console.note
    return 2

/-- Whether a command leaves it to the program to say what it fails for: a breakdown, and a fault in the
configuration that it was to change. -/
def Request.leaves : Request → Failure → Bool
  | _, .breakdown _ => true
  | .changeConfig .., .config _ => true
  | _, _ => false

/-- Does what a request asks for, or says what that fails for, and gives the exit code. -/
def Request.answer (c : Console) (request : Request) : Action Nat :=
  tryCatch (do perform c request; return 0) fun e => do
    if request.leaves e then throw e
    e.lines.forM c.error
    return e.exitCode

/-- The file that keeps the log of a breakdown. -/
def logFile (h : Host) : String :=
  Path.append (ConfigStore.dataDirectory h) ("logs/crash-" ++ h.time ++ ".log")

/-- Keeps the log of a breakdown, says what a command has failed for, and gives the exit code of that. -/
def report (c : Console) : Failure → Action Nat
  | .breakdown b => do
    let path := logFile (← get)
    Action.change (·.replaceText path "The run broke off.\n")
    c.error ("Unexpected error. Debug log: " ++ path)
    return (Failure.breakdown b).exitCode
  | e => do
    c.error e.message
    return e.exitCode

/-- Runs a command line and gives its exit code. The configuration of the user is looked at before the items
behind a command's name. It fails only where the log of a breakdown cannot be kept, or what is said about a
failure cannot be shown. -/
def run (items : List String) : Action Nat := do
  match Call.read items with
  | .error stop => stop.answer
  | .ok call =>
    match ← ExceptT.lift (openConsole call.options).run with
    | .error e => report (Console.forHost (← get) .auto false false false) e
    | .ok c =>
      match call.request with
      | .error stop => stop.answer
      | .ok request => tryCatch (request.answer c) (report c)

end RouteBinding.Command
