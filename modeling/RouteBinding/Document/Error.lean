/-!
# Errors of a source

Why no document comes from a source: it cannot be read, its text is neither JSON nor YAML, or it is
no API description of a supported version.
-/

namespace RouteBinding

/-- What a source is read for. -/
inductive Purpose
  | spec
  | routes
deriving DecidableEq, Inhabited

/-- The name of a purpose at the beginning of a sentence. -/
def Purpose.title : Purpose → String
  | spec => "Spec"
  | routes => "Routes"

/-- The name of a purpose inside a sentence. -/
def Purpose.name : Purpose → String
  | spec => "spec"
  | routes => "routes"

/-- Why a source gives no document. -/
inductive DocumentError
  | noInput
  | fileNotFound (purpose : Purpose) (path : String)
  | fileEmpty (purpose : Purpose) (path : String)
  | badStatus (purpose : Purpose) (address : String) (status : Nat)
  | fetchFailed (purpose : Purpose) (address : String) (reason : String)
  | invalidJson
  | unreadable (triedJson : Bool)
  | notObject (found : String)
  | swagger (version : String)
  | noVersion
  | badVersion (version : String)
deriving DecidableEq, Inhabited

/-- What stands for the details of a reader's complaint. -/
def readerDetail : String := "~"

/-- The wording of an error. -/
def DocumentError.message : DocumentError → String
  | noInput => "No input on stdin"
  | fileNotFound purpose path => purpose.title ++ " file not found: " ++ path
  | fileEmpty purpose path => purpose.title ++ " file is empty: " ++ path
  | badStatus purpose address status =>
    s!"HTTP {status} fetching {purpose.name} from {address}"
  | fetchFailed purpose address reason =>
    "Failed to fetch " ++ purpose.name ++ " from " ++ address ++ ": " ++ reason
  | invalidJson => "Invalid JSON: " ++ readerDetail
  | unreadable triedJson =>
    "Failed to parse document as JSON or YAML"
      ++ (if triedJson then "\n  JSON error: " ++ readerDetail else "")
      ++ "\n  YAML error: " ++ readerDetail
  | notObject found => "Spec must be a JSON/YAML object (got " ++ found ++ ")"
  | swagger version =>
    "Swagger " ++ version ++ " documents are not supported; "
      ++ "convert to OpenAPI 3.x first (https://converter.swagger.io)"
  | noVersion => "Missing 'openapi' field. Is this an OpenAPI 3.x document?"
  | badVersion version =>
    "Unsupported OpenAPI version: " ++ version ++ " (expected 3.0.x or 3.1.x)"

end RouteBinding
