import RouteBinding.Config.Edit
import RouteBinding.Config.Layers
import RouteBinding.Failure
import RouteBinding.Json.Printer
import RouteBinding.Json.Reader

/-!
# Where the configuration is kept

The user's configuration is a file in a directory of its own, which is made when it is asked for.
The project's is a file in the current directory, or the one that the environment names. Variables
of the environment hold single settings.
-/

namespace RouteBinding.ConfigStore

/-- Whether the host keeps configuration and data in the directories that the environment names. -/
def usesNamedDirectories (h : Host) : Bool :=
  h.platform = "Linux" || Text.endsWith h.platform "BSD"

/-- The home directory. -/
def home (h : Host) : String :=
  Path.tidy ((h.filled? "HOME").getD "/")

/-- The directory that a variable names, or else one in the home directory. -/
def namedDirectory (h : Host) (name default : String) : String :=
  match h.filled? name with
  | some path => Path.tidy path
  | none => Path.append (home h) default

/-- The directory of the user's configuration. -/
def configDirectory (h : Host) : String :=
  if usesNamedDirectories h then
    Path.append (namedDirectory h "XDG_CONFIG_HOME" ".config") "specbind"
  else Path.append (home h) ".specbind"

/-- The directory of data, such as the logs of crashes. -/
def dataDirectory (h : Host) : String :=
  if usesNamedDirectories h then
    Path.append (namedDirectory h "XDG_DATA_HOME" ".local/share") "specbind"
  else Path.append (home h) ".specbind/logs"

/-- The file of the user's configuration. -/
def userFile (h : Host) : String :=
  Path.append (configDirectory h) "config.json"

/-- The file of the project's configuration. -/
def projectFile (h : Host) : String :=
  match h.filled? "SPECBIND_CONFIG" with
  | some path => Path.tidy path
  | none => Path.append h.directory "specbind.json"

/-- Makes a directory and gives its path. -/
def ensured (directory : Host → String) : Action String := do
  let path := directory (← get)
  Action.change (·.makeDirectory path)
  return path

/-! ## Loading -/

/-- The data in a file of JSON, if it is one. -/
def readJson? (h : Host) (path : String) : Option Tree := do
  let text ← h.readText? path
  (Json.read text).toOption

/-- The user's configuration, or the default one where there is no file. -/
def user (h : Host) : Except Failure Config := do
  let path := userFile h
  if ← (h.isFile path).mapError .breakdown then
    match readJson? h path with
    | some t => (Config.ofTree t).mapError fun ps => .config (.userFile path (some ps))
    | none => throw (.config (.userFile path none))
  else return .default

/-- The entries of the project's configuration, where there is a file. -/
def project (h : Host) : Except Failure (Option (List (Scalar × Tree))) := do
  let path := projectFile h
  if ← (h.isFile path).mapError .breakdown then
    match readJson? h path with
    | some (.mapping entries) => return some entries
    | some _ => throw (.config (.projectNotObject path))
    | none => throw (.config (.projectFile path))
  else return none

/-- The truth value of a variable that is set and not empty. -/
def variableBool (h : Host) (name : String) : Except ConfigError (Option Bool) :=
  match h.filled? name with
  | none => .ok none
  | some value =>
    let word := Text.lower (Text.trim value)
    if ["1", "true", "yes", "on"].contains word then .ok (some true)
    else if ["0", "false", "no", "off"].contains word then .ok (some false)
    else .error (.notBoolean name value)

/-- The settings of the environment. -/
def environment (h : Host) : Except ConfigError Settings := do
  let fail ← variableBool h "SPECBIND_FAIL_ON_WARNINGS"
  return ⟨h.filled? "SPECBIND_BODY_SLOT", fail, none⟩

/-- The configuration in force under the settings of a command. -/
def resolve (h : Host) (command : Settings) : Except Failure Config := do
  let user ← user h
  let project ← project h
  let environment ← (environment h).mapError .config
  (Layers.resolve ⟨user, project, environment, command⟩).mapError fun ps => .config (.refused ps)

/-- Loads the user's configuration. -/
def load : Action Config := do
  let _ ← ensured configDirectory
  Action.ofExcept id (user (← get))

/-- Loads the configuration in force. -/
def loadResolved (command : Settings) : Action Config := do
  let _ ← ensured configDirectory
  Action.ofExcept id (resolve (← get) command)

/-! ## Saving -/

/-- The text of a configuration's file. -/
def fileText (c : Config) : String :=
  ((Json.write? .prettyAscii c.tree).getD "") ++ "\n"

/-- Saves the user's configuration. -/
def save (c : Config) : Action Unit := do
  let _ ← ensured configDirectory
  let path := userFile (← get)
  Action.change (·.replaceText path (fileText c))

end RouteBinding.ConfigStore
