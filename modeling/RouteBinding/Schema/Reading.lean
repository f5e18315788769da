import RouteBinding.Schema.Layer
import RouteBinding.Step

/-!
# Reading one schema

The rules by which one mapping of a document is read as a layer of a schema. They look at the entries of
that mapping only: what stands inside is left to whoever reads on. Of several faults the first counts: in
the title, in a reference, in a refused keyword, in `oneOf`, in the type, and then in the parts.
-/

namespace RouteBinding

/-- A document whose schemas are resolved, with its component schemas as they stand in it. -/
structure Resolver where
  document : Document
  schemas : List (Scalar × Value)
deriving Inhabited

/-- What one mapping of a document says as a schema. -/
structure Reading where
  title : Option String
  layer : Layer Value
deriving Inhabited

namespace Resolver

/-- The component schemas of a document: `components.schemas`, where an absent or empty one counts
as an empty mapping. -/
def ofDocument (d : Document) : Except Halt Resolver := do
  let some top := d.graph.entries? d.root | throw (.breakdown .documentNotMapping)
  let components := (valueAt? "components" top).filter d.graph.isTruthy
  match components with
  | none => return ⟨d, []⟩
  | some components =>
    let some inner := d.graph.entries? components | throw (.breakdown .componentsNotMapping)
    match (valueAt? "schemas" inner).filter d.graph.isTruthy with
    | none => return ⟨d, []⟩
    | some schemas =>
      match d.graph.entries? schemas with
      | some entries => return ⟨d, entries⟩
      | none => throw (.error (.malformedSchema .schemasNotMapping "#/components/schemas"))

/-- Whether a component schema is declared under a name. -/
def declares (r : Resolver) (name : String) : Bool :=
  (valueAt? name r.schemas).isSome

/-- The first component name that is bound to a container which is a mapping. -/
def ownerAmong (r : Resolver) (id : Nat) : List (Scalar × Value) → Option String
  | [] => none
  | (.text name, value) :: rest =>
    match r.document.graph.shape value with
    | .mapping found _ => if found = id then some name else ownerAmong r id rest
    | _ => ownerAmong r id rest
  | _ :: rest => ownerAmong r id rest

/-- The component that a container is. -/
def owner? (r : Resolver) (id : Nat) : Option String :=
  r.ownerAmong id r.schemas

/-! ## Keywords -/

/-- Stops with an error. -/
def refuse {α : Type} (e : CompileError) : Except Halt α :=
  .error (.error e)

/-- The value of a keyword, where null counts as absent. -/
def keyword? (key : String) (entries : List (Scalar × Value)) : Option Value :=
  (valueAt? key entries).filter (· ≠ .scalar .null)

/-- The title of a schema. -/
def readTitle (g : Graph) (entries : List (Scalar × Value)) (pointer : String) :
    Except Halt (Option String) :=
  match keyword? "title" entries with
  | none => .ok none
  | some (.scalar (.text title)) => .ok (some title)
  | some other =>
    .error (Halt.showing (fun shown => .malformedSchema (.title shown) pointer) (g.literal? other))

/-- The first refused keyword of a schema. -/
def refused? (entries : List (Scalar × Value)) : Option Construct :=
  [Construct.anyOf, .allOf, .negation].find? fun c => (valueAt? c.keyword entries).isSome

/-- What a schema describes, by its `type`. -/
inductive Kind
  | primitive (kind : Primitive)
  | array
  | object

/-- What the name of a type stands for. -/
def Kind.ofName? (s : String) : Option Kind :=
  if s = "object" then some .object
  else if s = "array" then some .array
  else (Primitive.ofName? s).map .primitive

/-- The type that a schema declares: of a list, the first that is not `null`. -/
def declaredType (g : Graph) (entries : List (Scalar × Value)) : Option Value :=
  match valueAt? "type" entries with
  | none => none
  | some value =>
    match g.shape value with
    | .list _ items =>
      ((items.find? (· ≠ .scalar (.text "null"))).filter (· ≠ .scalar .null))
    | _ => if value = .scalar .null then none else some value

/-- What a schema describes. Without a type, `properties` make it an object and `items` make it an
array. -/
def readKind (g : Graph) (entries : List (Scalar × Value)) (pointer : String) : Except Halt Kind :=
  match declaredType g entries with
  | none =>
    if (valueAt? "properties" entries).isSome then .ok .object
    else if (valueAt? "items" entries).isSome then .ok .array
    else refuse (.malformedSchema .missingType pointer)
  | some value =>
    match value with
    | .scalar (.text name) =>
      match Kind.ofName? name with
      | some kind => .ok kind
      | none => refuse (.malformedSchema (.unsupportedType name) pointer)
    | other =>
      if g.canBeKey other then
        .error (Halt.showing (fun shown => .malformedSchema (.unsupportedType shown) pointer) (g.display? other))
      else .error (.breakdown .unhashableKey)

/-- Entries whose keys are all texts. -/
def readPropertyNames (pointer : String) :
    List (Scalar × Value) → Except Halt (List (String × Value))
  | [] => .ok []
  | (.text name, schema) :: rest =>
    (readPropertyNames pointer rest).map ((name, schema) :: ·)
  | (other, _) :: _ =>
    .error (Halt.showing (fun shown => .malformedSchema (.propertyName shown) pointer) other.literal?)

/-- Whether an object schema leaves open which properties there are. -/
def isOpen (entries : List (Scalar × Value)) : Bool :=
  match valueAt? "additionalProperties" entries with
  | none | some (.scalar .null) | some (.scalar (.bool false)) => false
  | some _ => true

/-- The properties of an object schema, by name. -/
def readProperties (g : Graph) (entries : List (Scalar × Value)) (pointer : String) :
    Except Halt (List (String × Value)) :=
  if isOpen entries then refuse (.unsupportedConstruct .additionalProperties pointer)
  else
    match (valueAt? "properties" entries).filter g.isTruthy with
    | none => .ok []
    | some value =>
      match g.entries? value with
      | none => refuse (.malformedSchema .propertiesNotMapping pointer)
      | some properties => readPropertyNames pointer properties

/-- The texts of a list of values that are all texts. -/
def textsOf? (values : List Value) : Option (List String) :=
  values.mapM fun v => match v with
    | .scalar (.text s) => some s
    | _ => none

/-- The names of the required properties of an object schema, each once. -/
def readRequired? (g : Graph) (entries : List (Scalar × Value)) : Option (List String) :=
  match (valueAt? "required" entries).filter g.isTruthy with
  | none => some []
  | some value =>
    match g.shape value with
    | .list _ items => (textsOf? items).map List.eraseDups
    | _ => none

/-! ## The layer of a schema -/

/-- The layer of a reference: a component is only named, anything else is followed. -/
def readReference (r : Resolver) (reference : Value) : Except Halt (Layer Value) :=
  match reference with
  | .scalar (.text target) =>
    match Pointer.componentName? target with
    | some name =>
      if r.declares name then .ok (.component name)
      else refuse (.unresolvedReference target (.unknownSchema name))
    | none =>
      match r.document.find target with
      | .ok value => .ok (.inlined target value)
      | .error e => refuse e
  | other => .error (r.document.misreference other)

/-- The layer of a schema without a reference. -/
def readStructure (g : Graph) (entries : List (Scalar × Value)) (pointer : String) :
    Except Halt (Layer Value) :=
  match refused? entries with
  | some construct => refuse (.unsupportedConstruct construct pointer)
  | none =>
    match valueAt? "oneOf" entries with
    | some branches =>
      match g.shape branches with
      | .list _ (first :: rest) => .ok (.oneOf (first :: rest))
      | _ => refuse (.malformedSchema .oneOf pointer)
    | none => do
      match ← readKind g entries pointer with
      | .object => return .object (← readProperties g entries pointer) (readRequired? g entries)
      | .array =>
        match valueAt? "items" entries with
        | some items => return .array items
        | none => refuse (.malformedSchema .missingItems pointer)
      | .primitive kind => return .primitive kind

/-- Reads the entries of a mapping, met at a pointer, as a schema. -/
def read (r : Resolver) (entries : List (Scalar × Value)) (pointer : String) :
    Except Halt Reading := do
  let title ← readTitle r.document.graph entries pointer
  match valueAt? "$ref" entries with
  | some reference => return ⟨title, ← r.readReference reference⟩
  | none => return ⟨title, ← readStructure r.document.graph entries pointer⟩

end Resolver

end RouteBinding
