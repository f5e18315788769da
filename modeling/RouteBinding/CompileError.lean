import RouteBinding.Method
import RouteBinding.Text.Quoted
import RouteBinding.Text.Split

/-!
# Errors of a compilation

Every way in which a document or a table of routes can be refused, as a cause with its data. The
wording of each stands in `CompileError.message`, and the place that it points at in
`CompileError.location`.
-/

namespace RouteBinding

/-- Why a reference cannot be followed. -/
inductive ReferenceFault
  | notInternal
  | missingKey (segment : String)
  | invalidIndex (segment : String)
  | notNavigable (typeName : String)
  | unknownSchema (name : String)
  | notAnObject
deriving DecidableEq, Inhabited

/-- Keywords of a schema that are refused. -/
inductive Construct
  | anyOf
  | allOf
  | negation
  | additionalProperties
deriving DecidableEq, Inhabited

/-- What is wrong with a part of a document. Texts named `literal` show the value found there. -/
inductive SchemaFault
  | schemasNotMapping
  | componentName (literal : String)
  | notMapping (typeName : String)
  | title (literal : String)
  | oneOf
  | missingItems
  | propertiesNotMapping
  | propertyName (literal : String)
  | required
  | missingType
  | unsupportedType (shown : String)
  | pathsNotMapping
  | parametersNotList
  | fieldNotText (field literal : String)
deriving DecidableEq, Inhabited

/-- Why the branches of a union cannot be told apart by name. -/
inductive VariantFault
  | sameName (first second : Nat) (variant : String)
  | unnamed
deriving DecidableEq, Inhabited

/-- What is wrong with a parameter. -/
inductive ParameterFault
  | missingName
  | declaredTwice (location : String)
  | unsupportedLocation (literal : String)
  | pathNotRequired
  | requiredNotBoolean
  | missingSchema
  | notScalarLike
  | style (literal location : String)
  | explodeNotBoolean
deriving DecidableEq, Inhabited

/-- How a path template and its parameters, or two templates, disagree. -/
inductive TemplateFault
  | repeated (path : String)
  | undeclared (path : String)
  | noPlaceholder (name path : String)
  | renamed (theirs : String) (method : Method) (path : String)
deriving DecidableEq, Inhabited

/-- What is wrong with a request body. -/
inductive BodyFault
  | noContent
  | sameMediaType (first second : String)
  | missingSchema (contentType : String)
  | notObject (contentType : String)
deriving DecidableEq, Inhabited

/-- Why a route has no operation. -/
inductive RouteFault
  | unknownPath
  | unknownMethod (supported : List Method)
deriving DecidableEq, Inhabited

/-- An error found while a document is compiled or a table of routes is bound to it. -/
inductive CompileError
  | unresolvedReference (pointer : String) (fault : ReferenceFault)
  | cyclicSchema (pointer : String) (chain : List String)
  | unsupportedConstruct (construct : Construct) (location : String)
  | malformedSchema (fault : SchemaFault) (location : String)
  | nameCollision (name : String) (location : String) (origin : String)
  | ambiguousVariant (name : String) (location : String) (fault : VariantFault)
  | invalidParameter (name : String) (location : String) (fault : ParameterFault)
  | templateMismatch (name : String) (location : String) (fault : TemplateFault)
  | invalidBody (fault : BodyFault) (location : String)
  | unsupportedContentType (contentType : String) (supported : List String)
      (location : Option String)
  | unknownRoute (method : Method) (path : String) (fault : RouteFault)
  | duplicateRoute (method : Method) (path : String) (handlers : List String)
  | reservedName (name : String) (location : String)
  | bindingCollision (name : String) (parameters : List String) (location : String)
deriving DecidableEq, Inhabited

open Text (join)

/-- The wording of a reference that cannot be followed. -/
def ReferenceFault.message : ReferenceFault → String
  | notInternal => "only internal references (#/...) are supported"
  | missingKey segment => "key '" ++ segment ++ "' not found"
  | invalidIndex segment => "invalid array index '" ++ segment ++ "'"
  | notNavigable typeName => "cannot navigate into " ++ typeName
  | unknownSchema name => "no schema named '" ++ name ++ "' in components"
  | notAnObject => "does not point at an object"

/-- The keyword of a construct. -/
def Construct.keyword : Construct → String
  | anyOf => "anyOf"
  | allOf => "allOf"
  | negation => "not"
  | additionalProperties => "additionalProperties"

/-- The wording of a malformed part of a document. -/
def SchemaFault.message : SchemaFault → String
  | schemasNotMapping => "components.schemas must be a mapping"
  | componentName literal => "Component name must be a string, got " ++ literal
  | notMapping typeName => "Schema must be a mapping, got " ++ typeName
  | title literal => "`title` must be a string, got " ++ literal
  | oneOf => "oneOf must be a non-empty list"
  | missingItems => "Array must contain an `items` field"
  | propertiesNotMapping => "properties must be a mapping"
  | propertyName literal => "Property name must be a string, got " ++ literal
  | required => "`required` must be a list of property names"
  | missingType => "Schema is missing both `type` and `oneOf`"
  | unsupportedType shown => "Unsupported schema type '" ++ shown ++ "'"
  | pathsNotMapping => "paths must be a mapping"
  | parametersNotList => "parameters must be a list"
  | fieldNotText field literal => "`" ++ field ++ "` must be a string, got " ++ literal

/-- The wording of a union whose branches cannot be named. -/
def VariantFault.message : VariantFault → String
  | sameName first second variant =>
    s!"branches {first} and {second} both derive the variant name '{variant}'; give one a `title`"
  | unnamed =>
    "an inline object or oneOf branch needs a `title` or a $ref to a named schema"

/-- The wording of a parameter that cannot be bound. -/
def ParameterFault.message : ParameterFault → String
  | missingName => "missing `name`"
  | declaredTwice location => "declared twice with in: " ++ location
  | unsupportedLocation literal => "unsupported location in: " ++ literal
  | pathNotRequired => "path parameters must be required"
  | requiredNotBoolean => "`required` must be a boolean"
  | missingSchema => "missing `schema`"
  | notScalarLike =>
    "only primitives, aliases of primitives and arrays of those can be bound"
  | style literal location =>
    "style " ++ literal ++ " is not allowed for " ++ location ++ " parameters"
  | explodeNotBoolean => "`explode` must be a boolean"

/-- The wording of a disagreement about placeholders. -/
def TemplateFault.message : TemplateFault → String
  | repeated path => "appears more than once in " ++ path
  | undeclared path => "appears in " ++ path ++ " but is not declared"
  | noPlaceholder name path =>
    "is declared but " ++ path ++ " has no \x7b" ++ name ++ "\x7d placeholder"
  | renamed theirs method path =>
    "does not match '" ++ theirs ++ "' in " ++ method.label ++ " " ++ path
      ++ "; placeholder names must be identical"

/-- The wording of a request body that cannot be compiled. -/
def BodyFault.message : BodyFault → String
  | noContent => "requestBody must declare at least one content type"
  | sameMediaType first second =>
    "content types '" ++ first ++ "' and '" ++ second ++ "' are the same"
  | missingSchema contentType => "'" ++ contentType ++ "' body needs a `schema`"
  | notObject contentType => "'" ++ contentType ++ "' body schema must be an object"

/-- The wording of a route without an operation. -/
def RouteFault.message : RouteFault → String
  | unknownPath => "not found in OpenAPI document"
  | unknownMethod supported =>
    "is not declared (path supports: " ++ join ", " (supported.map Method.label) ++ ")"

namespace CompileError

/-- The place that an error points at: a pointer into the document, or a method and a path. -/
def location : CompileError → Option String
  | unresolvedReference .. => none
  | cyclicSchema pointer _ => some pointer
  | unsupportedConstruct _ location => some location
  | malformedSchema _ location => some location
  | nameCollision _ location origin => some (location ++ ", first defined at " ++ origin)
  | ambiguousVariant _ location _ => some location
  | invalidParameter _ location _ => some location
  | templateMismatch _ location _ => some location
  | invalidBody _ location => some location
  | unsupportedContentType _ _ location => location
  | unknownRoute .. => none
  | duplicateRoute .. => none
  | reservedName _ location => some location
  | bindingCollision _ _ location => some location

/-- What an error says, without its place. -/
def summary : CompileError → String
  | unresolvedReference pointer fault =>
    "Cannot resolve $ref '" ++ pointer ++ "': " ++ fault.message
  | cyclicSchema pointer chain =>
    "Cyclic schema without a named indirection: "
      ++ (if chain.isEmpty then pointer else join " -> " chain)
  | unsupportedConstruct construct _ => "'" ++ construct.keyword ++ "' is not supported"
  | malformedSchema fault _ => fault.message
  | nameCollision name _ _ =>
    "Type name '" ++ name ++ "' is already used by a different schema; add a distinct `title` "
      ++ "or move one into components/schemas"
  | ambiguousVariant name _ fault => "Cannot name variant of '" ++ name ++ "': " ++ fault.message
  | invalidParameter name _ fault => "Invalid parameter '" ++ name ++ "': " ++ fault.message
  | templateMismatch name _ fault => "Path parameter '" ++ name ++ "' " ++ fault.message
  | invalidBody fault _ => fault.message
  | unsupportedContentType contentType supported _ =>
    "Content type '" ++ contentType ++ "' is not supported for this operation (declared: "
      ++ (if join ", " supported = "" then "none" else join ", " supported) ++ ")"
  | unknownRoute method path fault =>
    "Route " ++ method.label ++ " " ++ path ++ " " ++ fault.message
  | duplicateRoute method path handlers =>
    "Route " ++ method.label ++ " " ++ path ++ " is declared more than once (handlers: "
      ++ join ", " handlers ++ ")"
  | reservedName name _ =>
    "Parameter '" ++ name ++ "' collides with the reserved body binding name"
  | bindingCollision name parameters _ =>
    "Parameters " ++ join ", " (parameters.map Text.quoted) ++ " all bind to field '" ++ name ++ "'"

/-- What an error says, with its place if that is not empty. -/
def message (e : CompileError) : String :=
  match e.location with
  | some place => if place = "" then e.summary else e.summary ++ " (at " ++ place ++ ")"
  | none => e.summary

end CompileError

/-- The heading of a list of errors. -/
def failureHeading (count : Nat) : String :=
  s!"Compilation failed with {count} error" ++ (if count = 1 then "" else "s")

/-- The errors of one compilation, one on a line. -/
def failureMessage (errors : List CompileError) : String :=
  join "\n" ((failureHeading errors.length ++ ":") :: errors.map fun e => "  - " ++ e.message)

end RouteBinding
