import RouteBinding.Config.Reader
import RouteBinding.Document.Error

/-!
# Errors of the configuration

Why no configuration is in force: a file cannot be read or does not hold settings, a variable of the
environment is no truth value, or the layers together are refused.
-/

namespace RouteBinding

/-- Why there is no configuration. -/
inductive ConfigError
  | userFile (path : String) (problems : Option (List ConfigProblem))
  | projectFile (path : String)
  | projectNotObject (path : String)
  | notBoolean (name value : String)
  | refused (problems : List ConfigProblem)
deriving DecidableEq, Inhabited

/-- The wording of an error. -/
def ConfigError.message : ConfigError → String
  | userFile path _ => "Invalid global config at " ++ path ++ ": " ++ readerDetail
  | projectFile path => "Invalid project config at " ++ path ++ ": " ++ readerDetail
  | projectNotObject path =>
    "Invalid project config at " ++ path ++ ": expected a JSON object"
  | notBoolean name value => name ++ " must be a boolean (got " ++ Text.quoted value ++ ")"
  | refused _ => "Invalid configuration: " ++ readerDetail

/-- What was wrong with the settings, where that is the reason. -/
def ConfigError.problems? : ConfigError → Option (List ConfigProblem)
  | userFile _ problems => problems
  | refused problems => some problems
  | _ => none

end RouteBinding
