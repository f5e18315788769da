import RouteBinding.Model.Builder
import RouteBinding.Operation.Basic
import RouteBinding.PathTemplate
import RouteBinding.Schema.Resolver

/-!
# Compiling operations

Walks the paths of a description and compiles one operation for each path and method. An error does
not stop the walk: it is collected, the operation it belongs to is left out, and the next one is
compiled. A parameter is known by the pointer it was found at and compiled once, for the first
operation that has it.
-/

namespace RouteBinding

/-- What became of a parameter: bound, left out on purpose, or refused. -/
inductive ParameterOutcome
  | bound (parameter : Parameter)
  | skipped
  | refused
deriving DecidableEq, Inhabited

/-- The state of a compilation. -/
structure Compilation where
  resolved : Resolver.State
  builder : TypeBuilder
  errors : List CompileError
  diagnostics : List Diagnostic
  parameters : List (String × ParameterOutcome)
  names : List String
deriving Inhabited

namespace Compilation

/-- Nothing compiled yet. -/
def initial : Compilation := ⟨.initial, .empty, [], [], [], []⟩

/-- A step of the compilation of a description. -/
abbrev Compile (α : Type) := Step Compilation α

open Step (fail failShowing breakOff attempt)

/-- Collects an error. -/
def record (e : CompileError) : Compile Unit :=
  modify fun s => { s with errors := s.errors ++ [e] }

/-- The node of the schema at a pointer. -/
def resolveSchema (r : Resolver) (raw : Value) (pointer : String) : Compile SchemaNode :=
  Step.zoom (·.resolved) (fun t s => { s with resolved := t }) (r.resolve raw pointer)

/-- A step of the building of types, as a step of the compilation. -/
def building {α : Type} (step : TypeBuilder.Build α) : Compile α := do
  let s ← get
  match step s.builder with
  | (outcome, builder) =>
    set { s with builder := builder }
    Step.ofExcept outcome

/-- The type of the schema at a pointer; `context` names a definition that declares no name. -/
def typeOf (r : Resolver) (raw : Value) (pointer context : String) : Compile TypeRef := do
  let node ← resolveSchema r raw pointer
  building (TypeBuilder.refFor node context)

/-- The first type that is no alias, among the definitions made so far. -/
def unalias (ref : TypeRef) : Compile TypeRef := do
  return (← get).builder.model.unalias ref

/-- The text under a key, if there is a value other than null. -/
def optionalText (g : Graph) (entries : List (Scalar × Value)) (key pointer : String) :
    Except Halt (Option String) :=
  match Resolver.keyword? key entries with
  | none => .ok none
  | some (.scalar (.text s)) => .ok (some s)
  | some other =>
    .error (Halt.showing (fun shown => .malformedSchema (.fieldNotText key shown) pointer) (g.literal? other))

/-! ## Parameters -/

/-- A parameter object of the document and the pointer it was found at. -/
structure RawParameter where
  entries : List (Scalar × Value)
  pointer : String

/-- The text of a value as it stands in a sentence, if it has one; of an absent one, the given text. -/
def entryText? (g : Graph) (key absent : String) (entries : List (Scalar × Value)) : Option String :=
  match valueAt? key entries with
  | some value => g.display? value
  | none => some absent

/-- What tells the parameters of one operation apart: the name and the location, as texts. -/
def RawParameter.key? (g : Graph) (p : RawParameter) : Option (String × String) := do
  return (← entryText? g "name" "" p.entries, ← entryText? g "in" "" p.entries)

/-- Follows the references of a list of parameters from the place `index` on, and leaves out those
that cannot be followed and those whose name and location were there before. -/
def readParameters (r : Resolver) (pointer : String) (seen : List (String × String)) (index : Nat) :
    List Value → Compile (List RawParameter)
  | [] => return []
  | raw :: rest => do
    match ← attempt (Step.ofOutcome (r.resolveObject raw s!"{pointer}/{index}")) with
    | .error e =>
      record e
      readParameters r pointer seen (index + 1) rest
    | .ok (entries, _, found) =>
      let p : RawParameter := ⟨entries, found⟩
      let key ← Step.ofOutcome (spelled .breakdown (p.key? r.document.graph))
      if seen.contains key then
        record (.invalidParameter key.1 found (.declaredTwice key.2))
        readParameters r pointer seen (index + 1) rest
      else
        let later ← readParameters r pointer (key :: seen) (index + 1) rest
        return p :: later

/-- The parameters that a path item or an operation declares. -/
def declaredParameters (r : Resolver) (entries : List (Scalar × Value)) (pointer : String) :
    Compile (List RawParameter) :=
  let g := r.document.graph
  match (valueAt? "parameters" entries).filter g.isTruthy with
  | none => return []
  | some value =>
    match g.shape value with
    | .list _ items => readParameters r (pointer ++ "/parameters") [] 0 items
    | _ => do
      record (.malformedSchema .parametersNotList (pointer ++ "/parameters"))
      return []

/-- The parameters of a path and of an operation under it: an operation's own parameter takes the
place of the path's with the same name and location. Both are known of a parameter that has been read. -/
def mergeParameters (g : Graph) (ofPath ofOperation : List RawParameter) : List RawParameter :=
  let own := ofOperation.map (·.key? g)
  ofPath.filter (fun p => !own.contains (p.key? g)) ++ ofOperation

/-- The locations of parameters that are known and not bound. -/
def skippedLocations : List String := ["header", "cookie"]

/-- The declared style of a parameter, or the default of its location. -/
def readStyle (g : Graph) (name : String) (location : Location) (p : RawParameter) :
    Compile Style := do
  match valueAt? "style" p.entries with
  | none => return location.defaultStyle
  | some value =>
    if !g.canBeKey value then breakOff .unhashableKey
    match location.styles.find? fun s => value = .scalar (.text s.name) with
    | some style => return style
    | none =>
      failShowing (fun shown => .invalidParameter name p.pointer (.style shown location.name)) (g.literal? value)

/-- Whether the items of an array are separate values: as declared, or as the style has it. -/
def readExplode (name : String) (style : Style) (p : RawParameter) : Compile Bool :=
  match Resolver.keyword? "explode" p.entries with
  | none => return style.explodes
  | some (.scalar (.bool b)) => return b
  | some _ => fail (.invalidParameter name p.pointer .explodeNotBoolean)

/-- Whether a parameter is required. One in the path always is, and may not say otherwise. -/
def readRequired (name : String) (location : Location) (p : RawParameter) : Compile Bool :=
  match location, valueAt? "required" p.entries with
  | .path, none => return true
  | .path, some (.scalar (.bool true)) => return true
  | .path, some _ => fail (.invalidParameter name p.pointer .pathNotRequired)
  | .query, none => return false
  | .query, some (.scalar (.bool b)) => return b
  | .query, some _ => fail (.invalidParameter name p.pointer .requiredNotBoolean)

/-- Whether a type is a scalar or an array of scalars, behind any aliases. -/
def isScalarLike (m : TypeModel) (ref : TypeRef) : Bool :=
  match m.unalias ref with
  | .primitive _ => true
  | .array item =>
    match m.unalias item with
    | .primitive _ => true
    | _ => false
  | .named _ => false

/-- The name of a parameter, which may not be empty. -/
def readName (g : Graph) (p : RawParameter) : Compile String :=
  match valueAt? "name" p.entries with
  | some (.scalar (.text name)) =>
    if name = "" then fail (.invalidParameter name p.pointer .missingName) else return name
  | _ =>
    failShowing (fun shown => .invalidParameter shown p.pointer .missingName)
      (entryText? g "name" "None" p.entries)

/-- Compiles a parameter; `none` if its location is one that is not bound. -/
def compileParameter (r : Resolver) (operation : String) (p : RawParameter) :
    Compile (Option Parameter) := do
  let g := r.document.graph
  let name ← readName g p
  let place := (valueAt? "in" p.entries).getD (.scalar .null)
  if !g.canBeMember place then breakOff .unhashableKey
  if let some skipped := skippedLocations.find? fun s => place = .scalar (.text s) then
    let message := skipped ++ " parameter '" ++ name ++ "' is not bound"
    modify fun s => { s with diagnostics := s.diagnostics ++ [⟨.info, message, some p.pointer⟩] }
    return none
  let some location := place.text?.bind Location.ofName?
    | failShowing (fun shown => .invalidParameter name p.pointer (.unsupportedLocation shown)) (g.literal? place)
  let required ← readRequired name location p
  let some schema := valueAt? "schema" p.entries
    | fail (.invalidParameter name p.pointer .missingSchema)
  let type ← typeOf r schema (p.pointer ++ "/schema") (operation ++ Naming.namePart name ++ "Param")
  if !isScalarLike (← get).builder.model type then
    fail (.invalidParameter name p.pointer .notScalarLike)
  let style ← readStyle g name location p
  let explode ← readExplode name style p
  let description ← Step.ofOutcome (optionalText g p.entries "description" p.pointer)
  return some ⟨name, location, required, type, style, explode, description⟩

/-- What becomes of a parameter, found out when it is first met and remembered under its
pointer. -/
def parameterOutcome (r : Resolver) (operation : String) (p : RawParameter) :
    Compile ParameterOutcome := do
  match (← get).parameters.lookup p.pointer with
  | some outcome => return outcome
  | none =>
    let outcome ← match ← attempt (compileParameter r operation p) with
      | .ok (some parameter) => pure (.bound parameter)
      | .ok none => pure .skipped
      | .error e => do
        record e
        pure .refused
    modify fun s => { s with parameters := s.parameters ++ [(p.pointer, outcome)] }
    return outcome

/-- The bound ones of a list of outcomes; `none` if one was refused. -/
def boundParameters? : List ParameterOutcome → Option (List Parameter)
  | [] => some []
  | .bound p :: rest => (boundParameters? rest).map (p :: ·)
  | .skipped :: rest => boundParameters? rest
  | .refused :: _ => none

/-! ## Templates -/

/-- The disagreements of the placeholders of a path with the names of its parameters; `seen` holds
the placeholders passed. -/
def placeholderErrors (path pointer : String) (declared : List String) (seen : List String) :
    List String → List CompileError
  | [] => []
  | name :: rest =>
    (if seen.contains name then [.templateMismatch name pointer (.repeated path)] else [])
      ++ (if declared.contains name then [] else [.templateMismatch name pointer (.undeclared path)])
      ++ placeholderErrors path pointer declared (name :: seen) rest

/-- All disagreements of a path with the names of its parameters: a placeholder stands once and is
declared, and a declared parameter has a placeholder. -/
def templateErrors (path pointer : String) (declared : List String) : List CompileError :=
  let placeholders := PathTemplate.placeholders path
  placeholderErrors path pointer declared [] placeholders
    ++ (declared.filter fun name => !placeholders.contains name).map fun name =>
      .templateMismatch name pointer (.noPlaceholder name path)

/-- The names of the parameters that are declared to be in the path. -/
def pathNames? (g : Graph) (parameters : List RawParameter) : Option (List String) :=
  (parameters.filter fun p => valueAt? "in" p.entries = some (.scalar (.text "path"))).mapM fun p =>
    entryText? g "name" "None" p.entries

/-! ## Request bodies -/

/-- Whether a type is an object, behind any aliases. -/
def isObject (m : TypeModel) (ref : TypeRef) : Bool :=
  match m.unalias ref with
  | .named name =>
    match m.get? name with
    | some (.object ..) => true
    | _ => false
  | _ => false

/-- The schema of a media object, where null counts as absent. -/
def schemaOf? (g : Graph) (media : Value) : Option Value :=
  (g.entries? media).bind (Resolver.keyword? "schema")

/-- Compiles one content type of a request body. -/
def compileBodyEntry (r : Resolver) (operation contentType : String) (media : Value)
    (pointer : String) (several : Bool) : Compile BodyEntry := do
  let codec := MediaType.codec contentType
  if MediaType.normalize contentType = MediaType.any then return ⟨contentType, codec, none⟩
  match schemaOf? r.document.graph media with
  | none =>
    if codec.needsSchema then fail (.invalidBody (.missingSchema contentType) pointer)
    else return ⟨contentType, codec, none⟩
  | some schema =>
    let part := if several then Naming.namePart codec.name else ""
    let type ← typeOf r schema (pointer ++ "/schema") (operation ++ part ++ "Body")
    if codec = .form && !isObject (← get).builder.model type then
      fail (.invalidBody (.notObject contentType) pointer)
    return ⟨contentType, codec, some type⟩

/-- Compiles the content types of a request body; `seen` holds the earlier ones by their media
types. -/
def compileContent (r : Resolver) (operation pointer : String) (several : Bool)
    (seen : List (String × String)) :
    List (Scalar × Value) → Compile (List (String × BodyEntry))
  | [] => return []
  | (.text contentType, media) :: rest => do
    let place := pointer ++ "/content/" ++ Pointer.escape contentType
    let mediaType := MediaType.normalize contentType
    match seen.lookup mediaType with
    | some first =>
      record (.invalidBody (.sameMediaType first contentType) place)
      compileContent r operation pointer several seen rest
    | none =>
      let outcome ← attempt (compileBodyEntry r operation contentType media place several)
      let seen := (mediaType, contentType) :: seen
      match outcome with
      | .ok entry =>
        let later ← compileContent r operation pointer several seen rest
        return (contentType, entry) :: later
      | .error e =>
        record e
        compileContent r operation pointer several seen rest
  | _ :: _ => breakOff .keyNotText

/-- Compiles the request body of an operation, if it declares one. -/
def compileBody (r : Resolver) (operation : String) (entries : List (Scalar × Value))
    (pointer : String) : Compile (Option BodyContract) := do
  let g := r.document.graph
  let some raw := Resolver.keyword? "requestBody" entries | return none
  match ← attempt (Step.ofOutcome (r.resolveObject raw (pointer ++ "/requestBody"))) with
  | .error e =>
    record e
    return none
  | .ok (body, _, place) =>
    let content := ((valueAt? "content" body).bind g.entries?).getD []
    if content.isEmpty then
      record (.invalidBody .noContent place)
      return none
    let compiled ← compileContent r operation place (content.length > 1) [] content
    return some ⟨(valueAt? "required" body).any g.isTruthy, compiled⟩

/-! ## Responses -/

/-- The media objects of a response that have a schema, by content type. -/
def schemasOf (g : Graph) (content : List (Scalar × Value)) : List (Scalar × Value) :=
  content.filterMap fun (contentType, media) =>
    ((g.entries? media).bind (valueAt? "schema")).map (contentType, ·)

/-- The first entry of a content type that is JSON. -/
def firstJson? : List (Scalar × Value) → Compile (Option (String × Value))
  | [] => return none
  | (.text contentType, schema) :: rest =>
    if MediaType.codec contentType = .json then return some (contentType, schema)
    else firstJson? rest
  | _ :: _ => breakOff .keyNotText

/-- The content type and schema that a response is typed by: the first JSON one, else the first. -/
def pickSchema (g : Graph) (response : List (Scalar × Value)) :
    Compile (Option (String × Value)) := do
  let schemas := schemasOf g (((valueAt? "content" response).bind g.entries?).getD [])
  match ← firstJson? schemas with
  | some found => return some found
  | none =>
    match schemas with
    | (.text contentType, schema) :: _ => return some (contentType, schema)
    | _ => return none

/-- Puts a type under a status: in the place of the entry with that status, or else at the end. -/
def putResponse (status : String) (ref : TypeRef) :
    List (String × TypeRef) → List (String × TypeRef)
  | [] => [(status, ref)]
  | (s, t) :: rest =>
    if s = status then (s, ref) :: rest else (s, t) :: putResponse status ref rest

/-- The type of the body of one response, if it has one. -/
def compileResponse (r : Resolver) (operation status : String) (raw : Value) (pointer : String) :
    Compile (Option TypeRef) := do
  let (response, _, place) ←
    Step.ofOutcome (r.resolveObject raw (pointer ++ "/responses/" ++ Pointer.escape status))
  let some (contentType, schema) ← pickSchema r.document.graph response | return none
  let type ← typeOf r schema (place ++ "/content/" ++ Pointer.escape contentType ++ "/schema")
    (operation ++ "Response" ++ Naming.namePart status)
  return some type

/-- Compiles the responses of an operation; `done` holds the earlier ones. -/
def compileResponsesFrom (r : Resolver) (operation pointer : String)
    (done : List (String × TypeRef)) :
    List (Scalar × Value) → Compile (List (String × TypeRef))
  | [] => return done
  | (key, raw) :: rest => do
    let status ← Step.ofOutcome (spelled .breakdown key.display?)
    match ← attempt (compileResponse r operation status raw pointer) with
    | .ok (some type) =>
      compileResponsesFrom r operation pointer (putResponse status type done) rest
    | .ok none => compileResponsesFrom r operation pointer done rest
    | .error e =>
      record e
      compileResponsesFrom r operation pointer done rest

/-- The types of the responses of an operation, by status. -/
def compileResponses (r : Resolver) (operation : String) (entries : List (Scalar × Value))
    (pointer : String) : Compile (List (String × TypeRef)) :=
  let responses := (valueAt? "responses" entries).bind r.document.graph.entries?
  compileResponsesFrom r operation pointer [] (responses.getD [])

/-! ## Operations -/

/-- The first name that is still free: the name itself, or the name with a counter. Of `fuel`
counters, one more than there are names, one is free. -/
def freeName (names : List String) (name : String) : (fuel counter : Nat) → String
  | 0, _ => name
  | fuel + 1, counter =>
    let candidate := s!"{name}{counter}"
    if names.contains candidate then freeName names name fuel (counter + 1) else candidate

/-- Takes the name for an operation, with a counter if an earlier operation has it. -/
def takeName (name : String) : Compile String := do
  let s ← get
  let free := if s.names.contains name then freeName s.names name (s.names.length + 1) 2 else name
  set { s with names := s.names ++ [free] }
  return free

/-- Compiles the parts of an operation that has been named; `none` if there was an error. -/
def compileNamed (r : Resolver) (path : String) (method : Method) (ofPath : List RawParameter)
    (entries : List (Scalar × Value)) (pointer : String) (operationId summary : Option String)
    (name : String) : Compile (Option Operation) := do
  let g := r.document.graph
  let errorsBefore := (← get).errors.length
  let own ← declaredParameters r entries pointer
  let raw := mergeParameters g ofPath own
  let outcomes ← raw.mapM (parameterOutcome r name)
  let declared ← Step.ofOutcome (spelled .breakdown (pathNames? g raw))
  (templateErrors path pointer declared).forM record
  let body ← compileBody r name entries pointer
  let responses ← compileResponses r name entries pointer
  if (← get).errors.length > errorsBefore then return none
  match boundParameters? outcomes with
  | none => return none
  | some parameters =>
    return some ⟨method, path, name, operationId, summary, parameters, body, responses⟩

/-- The identifier and the summary of an operation, if it has any. -/
def operationTexts (g : Graph) (entries : List (Scalar × Value)) (pointer : String) :
    Except Halt (Option String × Option String) := do
  let operationId ← optionalText g entries "operationId" pointer
  let summary ← optionalText g entries "summary" pointer
  return (operationId, summary)

/-- Compiles the operation of a method on a path; `none` if there was an error. -/
def compileOperation (r : Resolver) (path : String) (method : Method)
    (ofPath : List RawParameter) (entries : List (Scalar × Value)) (pointer : String) :
    Compile (Option Operation) := do
  match ← attempt (Step.ofOutcome (operationTexts r.document.graph entries pointer)) with
  | .error e =>
    record e
    return none
  | .ok (operationId, summary) =>
    let name ← takeName (Naming.operationName method.name path operationId)
    compileNamed r path method ofPath entries pointer operationId summary name

/-- Compiles the operations of one path, in the order of the methods. -/
def compileMethods (r : Resolver) (path : String) (ofPath : List RawParameter)
    (item : List (Scalar × Value)) : List Method → Compile (List Operation)
  | [] => return []
  | method :: rest => do
    match (valueAt? method.name item).bind r.document.graph.entries? with
    | none => compileMethods r path ofPath item rest
    | some entries =>
      let pointer := "#/paths/" ++ Pointer.escape path ++ "/" ++ method.name
      let compiled ← compileOperation r path method ofPath entries pointer
      let later ← compileMethods r path ofPath item rest
      return compiled.toList ++ later

/-- Compiles the operations of the paths of a description, in order. -/
def compilePathItems (r : Resolver) : List (Scalar × Value) → Compile (List Operation)
  | [] => return []
  | (.text path, value) :: rest => do
    match r.document.graph.entries? value with
    | none => compilePathItems r rest
    | some item =>
      let ofPath ← declaredParameters r item ("#/paths/" ++ Pointer.escape path)
      let operations ← compileMethods r path ofPath item Method.all
      let later ← compilePathItems r rest
      return operations ++ later
  | _ :: _ => breakOff .keyNotText

/-- Compiles every operation of a description. -/
def compilePaths (r : Resolver) : Compile (List Operation) := do
  let g := r.document.graph
  match ((g.entries? r.document.root).bind (valueAt? "paths")).filter g.isTruthy with
  | none => return []
  | some paths =>
    match g.entries? paths with
    | some entries => compilePathItems r entries
    | none =>
      record (.malformedSchema .pathsNotMapping "#/paths")
      return []

/-- Resolves the component schemas and defines their types. -/
def compileComponents (r : Resolver) : Compile (List CompileError) := do
  let components ←
    Step.zoom (·.resolved) (fun t s => { s with resolved := t }) r.resolveComponents
  let s ← get
  let (errors, builder) := TypeBuilder.buildComponents components s.builder
  set { s with builder := builder }
  return errors

end Compilation

/-- Why a description has no compiled form: the errors found in it, or a breakdown. -/
inductive CompileFailure
  | errors (errors : List CompileError)
  | breakdown (b : Breakdown)
deriving DecidableEq, Inhabited

open Compilation in
/-- Compiles a description. If there are errors, all of them are given: those of the component
schemas, those of their types, and those of the operations. -/
def compile (d : Document) (version : Option String) : Except CompileFailure CompiledApi :=
  match Resolver.ofDocument d with
  | .error (.error e) => .error (.errors [e])
  | .error (.breakdown b) => .error (.breakdown b)
  | .ok r =>
    let run : Compile (List CompileError × List Operation) := do
      let typeErrors ← compileComponents r
      let operations ← compilePaths r
      return (typeErrors, operations)
    match run initial with
    | (.error (.error e), _) => .error (.errors [e])
    | (.error (.breakdown b), _) => .error (.breakdown b)
    | (.ok (typeErrors, operations), s) =>
      let errors := s.resolved.errors ++ typeErrors ++ s.errors
      if errors.isEmpty then .ok ⟨s.builder.model, operations, s.diagnostics, version⟩
      else .error (.errors errors)

end RouteBinding
