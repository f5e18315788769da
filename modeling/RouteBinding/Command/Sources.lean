import RouteBinding.Command.Request
import RouteBinding.Config.Store

/-!
# What a command line may touch

The paths of the files that a run may read or write, and whether it reads standard input. They are known
from the command line and the environment alone.
-/

namespace RouteBinding.Command

/-- The sources that a request reads. -/
def Request.sources : Request → List String
  | check spec routes _ _ => [spec, routes]
  | contracts spec routes _ _ => [spec, routes]
  | inspectTypes spec => [spec]
  | inspectOperations spec => [spec]
  | inspectType spec _ => [spec]
  | showConfig => []
  | changeConfig _ _ => []

/-- The file that a request writes, beside the configuration. -/
def Request.target? : Request → Option String
  | contracts _ _ _ file => file
  | _ => none

/-- The request of a command line, if it makes one. -/
def requestOf? (items : List String) : Option Request :=
  match Call.read items with
  | .ok call => call.request.toOption
  | .error _ => none

/-- The paths that a run of a command line may read or write. -/
def paths (h : Host) (items : List String) : List String :=
  let named := match requestOf? items with
    | some request => request.sources ++ request.target?.toList
    | none => []
  [ConfigStore.userFile h, ConfigStore.projectFile h, ConfigStore.dataDirectory h] ++ named

/-- Whether a run of a command line reads standard input. -/
def readsInput (items : List String) : Bool :=
  match requestOf? items with
  | some request => request.sources.contains "-"
  | none => false

end RouteBinding.Command
