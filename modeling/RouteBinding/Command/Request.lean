import RouteBinding.Command.Line

/-!
# Requests

What a command line asks for. The options of the program stand in front of the name of a command; some
commands stand together in a group. A command line is read in two steps, because the options of the
program take effect before the items behind the command's name are looked at.
-/

namespace RouteBinding.Command

/-- What a command is to do. -/
inductive Request
  | check (spec routes : String) (bodySlot : Option String) (strict : Option Bool)
  | contracts (spec routes : String) (bodySlot file : Option String)
  | inspectTypes (spec : String)
  | inspectOperations (spec : String)
  | inspectType (spec name : String)
  | showConfig
  | changeConfig (key value : String)
deriving DecidableEq, Inhabited

/-- What help is about: the program, a group or a command, with what may stand behind its name. -/
structure Topic where
  title : String
  summary : String
  options : List OptionForm
  words : List String
  entries : List (String × String)
deriving DecidableEq, Inhabited

/-- Why a command line asks for no command: for help, for nothing at all, for the version, or for
something that there is not. -/
inductive Stop
  | help (topic : Topic)
  | nothing (topic : Topic)
  | version
  | refused (topic : Topic)
deriving DecidableEq, Inhabited

/-- The option that asks for help. -/
def helpOption : OptionForm := .flag "help" ["--help"]

/-- A command: its name, what it does in a few words, its options, the names of its words, and the
request that it makes of both. -/
structure Form where
  name : String
  summary : String
  options : List OptionForm
  words : List String
  request? : Arguments → Option Request

/-- A name behind the options of the program: a command, or a group of commands. -/
inductive Entry
  | command (form : Form)
  | group (name summary : String) (forms : List Form)

/-- The name of an entry. -/
def Entry.name : Entry → String
  | command form => form.name
  | group name .. => name

/-- What an entry is for. -/
def Entry.summary : Entry → String
  | command form => form.summary
  | group _ summary _ => summary

/-! ## The commands -/

/-- The option that names the table of routes. -/
def routesOption : OptionForm := .value "routes" ["--routes", "-r"]

/-- The option that names the field of the request body. -/
def bodySlotOption : OptionForm := .value "body-slot" ["--body-slot"]

/-- Checks a table of routes. -/
def checkForm : Form where
  name := "check"
  summary := "Validate declared routes against an OpenAPI document."
  options := [routesOption, bodySlotOption, .flag "strict" ["--strict"],
    .flag "no-strict" ["--no-strict"]]
  words := ["SPEC"]
  request? := fun a =>
    match a.words, a.value? "routes" with
    | [spec], some routes =>
      let strict := (a.lastOf? ["strict", "no-strict"]).map fun key => key == "strict"
      some (.check spec routes (a.value? "body-slot") strict)
    | _, _ => none

/-- Writes the contracts of a table of routes. -/
def contractsForm : Form where
  name := "contracts"
  summary := "Emit binding contracts and the type model as JSON."
  options := [routesOption, bodySlotOption, .value "output" ["-o", "--output"]]
  words := ["SPEC"]
  request? := fun a =>
    match a.words, a.value? "routes" with
    | [spec], some routes =>
      some (.contracts spec routes (a.value? "body-slot") (a.value? "output"))
    | _, _ => none

/-- Lists the types of a description. -/
def typesForm : Form where
  name := "types"
  summary := "List every named type the document compiles to."
  options := []
  words := ["SPEC"]
  request? := fun a =>
    match a.words with
    | [spec] => some (.inspectTypes spec)
    | _ => none

/-- Lists the operations of a description. -/
def operationsForm : Form where
  name := "operations"
  summary := "List every compiled operation with its parameters and body."
  options := []
  words := ["SPEC"]
  request? := fun a =>
    match a.words with
    | [spec] => some (.inspectOperations spec)
    | _ => none

/-- Shows one type of a description. -/
def typeForm : Form where
  name := "type"
  summary := "Show one named type definition as structured data."
  options := []
  words := ["SPEC", "NAME"]
  request? := fun a =>
    match a.words with
    | [spec, name] => some (.inspectType spec name)
    | _ => none

/-- Shows the configuration. -/
def showForm : Form where
  name := "show"
  summary := "Show the effective configuration."
  options := []
  words := []
  request? := fun a => if a.words.isEmpty then some .showConfig else none

/-- Changes the user's configuration. -/
def setForm : Form where
  name := "set"
  summary := "Set a value in the user configuration."
  options := []
  words := ["KEY", "VALUE"]
  request? := fun a =>
    match a.words with
    | [key, value] => some (.changeConfig key value)
    | _ => none

/-- Everything that may stand behind the options of the program. -/
def entries : List Entry :=
  [.command checkForm, .command contractsForm,
    .group "inspect" "Inspect what a document compiles to."
      [typesForm, operationsForm, typeForm],
    .group "config" "Configuration management." [showForm, setForm]]

/-- The name of the program. -/
def program : String := "specbind"

/-- The options of the program. -/
def programOptions : List OptionForm :=
  [.flag "version" ["--version"], .flag "json" ["--json"], .flag "plain" ["--plain"],
    .flag "no-color" ["--no-color"], .flag "quiet" ["--quiet", "-q"],
    .flag "verbose" ["--verbose", "-v"], helpOption]

/-! ## Help -/

/-- What stands behind a name that must be followed by another one. -/
def commandWords : List String := ["COMMAND", "[ARGS]..."]

/-- Help about the program. -/
def programTopic : Topic :=
  ⟨program, "Compile OpenAPI 3.x documents into typed route binding contracts.", programOptions,
    commandWords, entries.map fun e => (e.name, e.summary)⟩

/-- Help about a group. -/
def groupTopic (name summary : String) (forms : List Form) : Topic :=
  ⟨program ++ " " ++ name, summary, [helpOption], commandWords,
    forms.map fun f => (f.name, f.summary)⟩

/-- Help about a command, which stands behind the name of its group if it has one. -/
def Form.topic (f : Form) (owner : Option String) : Topic :=
  ⟨Text.join " " (program :: owner.toList ++ [f.name]), f.summary, f.options ++ [helpOption],
    f.words, []⟩

/-! ## Reading -/

/-- The options of the program as they are given, the entry that is asked for, and the items behind its
name. -/
structure Call where
  options : Arguments
  entry : Entry
  items : List String

/-- Reads the options in front of a name and the name. Help and the version are given to whoever asks
for them, whatever follows. -/
def Call.read (items : List String) : Except Stop Call :=
  if items.isEmpty then .error (.nothing programTopic)
  else
    match Arguments.read programOptions false items with
    | none => .error (.refused programTopic)
    | some a =>
      match a.firstOf? ["help", "version"], a.words with
      | some "help", _ => .error (.help programTopic)
      | some _, _ => .error .version
      | none, [] => .error (.refused programTopic)
      | none, name :: rest =>
        match entries.find? (·.name = name) with
        | some entry => .ok ⟨a, entry, rest⟩
        | none => .error (.refused programTopic)

/-- Reads the items behind the name of a command. -/
def Form.read (f : Form) (owner : Option String) (items : List String) : Except Stop Request :=
  match Arguments.read (helpOption :: f.options) true items with
  | none => .error (.refused (f.topic owner))
  | some a =>
    if a.has "help" then .error (.help (f.topic owner))
    else
      match f.request? a with
      | some request => .ok request
      | none => .error (.refused (f.topic owner))

/-- Reads the items behind the name of a group. -/
def readGroup (name summary : String) (forms : List Form) (items : List String) :
    Except Stop Request :=
  let topic := groupTopic name summary forms
  if items.isEmpty then .error (.nothing topic)
  else
    match Arguments.read [helpOption] false items with
    | none => .error (.refused topic)
    | some a =>
      match a.has "help", a.words with
      | true, _ => .error (.help topic)
      | false, [] => .error (.refused topic)
      | false, word :: rest =>
        match forms.find? (·.name = word) with
        | some form => form.read (some name) rest
        | none => .error (.refused topic)

/-- Reads the items behind the name of an entry. -/
def Call.request (c : Call) : Except Stop Request :=
  match c.entry with
  | .command form => form.read none c.items
  | .group name summary forms => readGroup name summary forms c.items

end RouteBinding.Command
