import RouteBinding.MediaType
import RouteBinding.Method
import RouteBinding.Model.Basic
import RouteBinding.CompileError

/-!
# Operations

An operation is the contract of one method on one path: its parameters, its request body by content
type, and the types of its responses. A compiled description holds the operations in the order of
the document and the type model that they refer to.
-/

namespace RouteBinding

/-- Where a bound parameter stands in a request. -/
inductive Location
  | path
  | query
deriving DecidableEq, Inhabited

/-- How the value of a parameter is written. -/
inductive Style
  | simple
  | label
  | matrix
  | form
  | spaceDelimited
  | pipeDelimited
deriving DecidableEq, Inhabited

namespace Location

/-- The name of a location. -/
def name : Location → String
  | path => "path"
  | query => "query"

/-- The location with a name. -/
def ofName? (s : String) : Option Location :=
  [path, query].find? (·.name = s)

/-- The style of parameters that declare none. -/
def defaultStyle : Location → Style
  | path => .simple
  | query => .form

/-- The styles that parameters may declare. -/
def styles : Location → List Style
  | path => [.simple, .label, .matrix]
  | query => [.form, .spaceDelimited, .pipeDelimited]

end Location

namespace Style

/-- The name of a style. -/
def name : Style → String
  | simple => "simple"
  | label => "label"
  | matrix => "matrix"
  | form => "form"
  | spaceDelimited => "spaceDelimited"
  | pipeDelimited => "pipeDelimited"

/-- Whether the items of an array are separate values when nothing is declared. -/
def explodes (s : Style) : Bool :=
  s = form

end Style

/-- A typed parameter. -/
structure Parameter where
  name : String
  location : Location
  required : Bool
  type : TypeRef
  style : Style
  explode : Bool
  description : Option String
deriving DecidableEq, Inhabited

/-- One content type of a request body. Without a type the payload is handed on undecoded. -/
structure BodyEntry where
  contentType : String
  codec : Codec
  type : Option TypeRef
deriving DecidableEq, Inhabited

/-- A request body, by the content types as they are written in the document. -/
structure BodyContract where
  required : Bool
  entries : List (String × BodyEntry)
deriving DecidableEq, Inhabited

namespace BodyContract

/-- The declared content types, in order. -/
def contentTypes (b : BodyContract) : List String :=
  b.entries.map (·.1)

/-- The last entry whose content type is a media type or pattern. -/
def entryFor? (b : BodyContract) (mediaType : String) : Option BodyEntry :=
  (b.entries.reverse.find? fun e => MediaType.normalize e.1 = mediaType).map (·.2)

/-- The entry that a request with a content type is decoded by: the entry of its media type, else of
its family, else of every media type. -/
def select (b : BodyContract) (contentType : String) (location : Option String) :
    Except CompileError BodyEntry :=
  let wanted := MediaType.normalize contentType
  match b.entryFor? wanted with
  | some entry => .ok entry
  | none =>
    match b.entryFor? (MediaType.family wanted) with
    | some entry => .ok entry
    | none =>
      match b.entryFor? MediaType.any with
      | some entry => .ok entry
      | none => .error (.unsupportedContentType contentType b.contentTypes location)

end BodyContract

/-- The contract of one method on one path. -/
structure Operation where
  method : Method
  path : String
  name : String
  operationId : Option String
  summary : Option String
  parameters : List Parameter
  body : Option BodyContract
  responses : List (String × TypeRef)
deriving DecidableEq, Inhabited

namespace Operation

/-- The method and the path of an operation. -/
def label (op : Operation) : String :=
  op.method.label ++ " " ++ op.path

/-- The parameters at a location, in order. -/
def parametersIn (op : Operation) (location : Location) : List Parameter :=
  op.parameters.filter (·.location = location)

end Operation

/-- How grave a finding is. -/
inductive Level
  | info
  | warning
deriving DecidableEq, Inhabited

namespace Level

/-- The name of a level. -/
def name : Level → String
  | info => "info"
  | warning => "warning"

/-- The level with a name. -/
def ofName? (s : String) : Option Level :=
  [info, warning].find? (·.name = s)

end Level

/-- A finding that does not stop a compilation. -/
structure Diagnostic where
  level : Level
  message : String
  location : Option String
deriving DecidableEq, Inhabited

/-- Everything compiled from one description. -/
structure CompiledApi where
  types : TypeModel
  operations : List Operation
  diagnostics : List Diagnostic
  version : Option String
deriving DecidableEq, Inhabited

/-- The first operation with a method and a path. -/
def CompiledApi.find? (api : CompiledApi) (method : Method) (path : String) : Option Operation :=
  api.operations.find? fun op => op.method = method && op.path = path

end RouteBinding
