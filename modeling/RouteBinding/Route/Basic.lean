import RouteBinding.Data.Scalar
import RouteBinding.Method
import RouteBinding.Text.Split

/-!
# Routes

A route names a method, a path template and the handler that serves it. A declaration gives the
three parts as data of any kind; it is a route when the method is one that can be routed, the path
is a text that starts with a slash, and the handler is a text. Otherwise every problem is reported,
in the order of the parts.
-/

namespace RouteBinding

open Text (join)

/-- A part of a declaration: a text, bytes, or something else as it stands inside a sentence. -/
inductive Given
  | text (value : String)
  | bytes (value : List UInt8)
  | other (shown : String)
deriving DecidableEq, Inhabited

namespace Given

/-- The part as it stands inside a sentence. -/
def shown : Given → String
  | text value => value
  | bytes value => Scalar.bytesLiteral value
  | other shown => shown

/-- The method that a part names: a text in any case, or the bytes of the name itself. -/
def method? : Given → Option Method
  | text name => Method.ofName? name
  | bytes value => Method.all.find? fun m => m.name.toUTF8.toList = value
  | other _ => none

end Given

/-- A declared route. -/
structure Route where
  method : Method
  path : String
  handler : String
deriving DecidableEq, Inhabited

/-- The method and the path of a route. -/
def Route.label (r : Route) : String :=
  r.method.label ++ " " ++ r.path

/-- What is wrong with one part of a declaration. -/
inductive RouteProblem
  | unknownMethod
  | notRoutable (method : Method)
  | relativePath (path : String)
  | notText
deriving DecidableEq, Inhabited

/-- The wording of a problem. -/
def RouteProblem.message : RouteProblem → String
  | unknownMethod =>
    let names := Method.all.map fun m => "'" ++ m.name ++ "'"
    "Input should be " ++ join ", " names.dropLast ++ " or " ++ join "" (names.drop 7)
  | notRoutable method => "Value error, " ++ method.label ++ " routes cannot be declared"
  | relativePath path =>
    "Value error, path template must start with '/', got " ++ Text.quoted path
  | notText => "Input should be a valid string"

/-- Why declared routes are refused. The texts named `place` lead to the part at fault. -/
inductive RouteError
  | invalid (method path : String) (problems : List RouteProblem)
  | notRoutes (place : String)
  | unknownKeys (place : String) (keys : List String)
  | modulesNotMapping (place : String)
  | notShorthand (place : String) (found : String)
  | missingParts (place : String) (parts : List String)
  | notEntry (place : String) (typeName : String)
deriving DecidableEq, Inhabited

/-- The wording of a refusal. -/
def RouteError.message : RouteError → String
  | invalid method path problems =>
    "Invalid route " ++ Text.upper method ++ " " ++ path ++ ": "
      ++ join "; " (problems.map RouteProblem.message)
  | notRoutes place =>
    place ++ ": expected a list of routes or a mapping with 'routes'/'modules'"
  | unknownKeys place keys => place ++ ": unknown key(s) " ++ join ", " keys
  | modulesNotMapping place =>
    place ++ ".modules: expected a mapping of module name to routes"
  | notShorthand place found =>
    place ++ ": expected 'METHOD /path as handler', got " ++ Text.quoted found
  | missingParts place parts => place ++ ": missing " ++ join ", " parts
  | notEntry place typeName => place ++ ": expected a mapping or string, got " ++ typeName

namespace Route

/-- The method of a declaration, or what is wrong with it. -/
def readMethod (given : Given) : Except RouteProblem Method :=
  match given.method? with
  | some method => if method.isRoutable then .ok method else .error (.notRoutable method)
  | none => .error .unknownMethod

/-- The path of a declaration, or what is wrong with it. -/
def readPath (given : Given) : Except RouteProblem String :=
  match given with
  | .text path => if Text.startsWith path "/" then .ok path else .error (.relativePath path)
  | _ => .error .notText

/-- The handler of a declaration, or what is wrong with it. -/
def readHandler (given : Given) : Except RouteProblem String :=
  match given with
  | .text handler => .ok handler
  | _ => .error .notText

/-- The problem of a part that has one. -/
def problem? {α : Type} : Except RouteProblem α → Option RouteProblem
  | .ok _ => none
  | .error p => some p

/-- The route of a declaration, or all that is wrong with the declaration. -/
def declare (method path handler : Given) : Except RouteError Route :=
  match readMethod method, readPath path, readHandler handler with
  | .ok m, .ok p, .ok h => .ok ⟨m, p, h⟩
  | m, p, h =>
    .error (.invalid method.shown path.shown
      ([problem? m, problem? p, problem? h].filterMap id))

end Route

end RouteBinding
