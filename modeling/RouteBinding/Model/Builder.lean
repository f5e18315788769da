import RouteBinding.CompileError
import RouteBinding.Model.Basic
import RouteBinding.Naming
import RouteBinding.Schema.Node

/-!
# Building the type model

A schema that needs a name takes it from the component it is, else from its title, else from where
it stands. Objects and unions always become definitions; scalars and arrays only under a component
name or a title. A node is built once: the type it was given is remembered under its serial
number. A name may be defined twice only by equal definitions.
-/

namespace RouteBinding

/-- The definitions made so far, the places they were read from, and the types of the nodes. -/
structure TypeBuilder where
  model : TypeModel
  origins : List (String × String)
  built : List (Nat × TypeRef)
deriving Inhabited

namespace TypeBuilder

/-- Nothing built yet. -/
def empty : TypeBuilder := ⟨.empty, [], []⟩

/-- A step of the building; what it has defined stays defined when it fails. -/
abbrev Build (α : Type) := ExceptT CompileError (StateM TypeBuilder) α

/-- Adds a definition, unless an equal one stands under its name. -/
def define (d : TypeDef) (pointer : String) : Build TypeRef := do
  let s ← get
  match s.model.get? d.name with
  | none =>
    set { s with
      model := ⟨s.model.definitions ++ [(d.name, d)]⟩
      origins := s.origins ++ [(d.name, pointer)] }
    return .named d.name
  | some existing =>
    if existing = d then return .named d.name
    else
      let origin := (s.origins.lookup d.name).getD ""
      throw (.nameCollision d.name pointer origin)

/-- The name that a node declares: of its component, else of its title; an empty one does not
count. -/
def declaredName? (info : NodeInfo) : Option String :=
  ((info.component.filter (· ≠ "")).or (info.title.filter (· ≠ ""))).map Naming.typeName

/-- The name of a branch of a union: of its title, else of the component it refers to or is, else
of its type. An object or union without a name has none. -/
def variantName (union : String) : SchemaNode → Except CompileError String
  | .primitive info kind =>
    .ok ((named? info).getD (Naming.namePart kind.name))
  | .reference info target =>
    match info.title.filter (· ≠ "") with
    | some title => .ok (Naming.typeName title)
    | none => .ok (Naming.typeName target)
  | .array info item =>
    match named? info with
    | some name => .ok name
    | none => (variantName union item).map (· ++ "Array")
  | .object info _ _ => nameOr info
  | .oneOf info _ => nameOr info
where
  named? (info : NodeInfo) : Option String :=
    ((info.title.filter (· ≠ "")).or (info.component.filter (· ≠ ""))).map Naming.typeName
  nameOr (info : NodeInfo) : Except CompileError String :=
    match named? info with
    | some name => .ok name
    | none => .error (.ambiguousVariant union info.pointer .unnamed)

/-- Remembers the type of a node. -/
def remember (serial : Nat) (ref : TypeRef) : Build TypeRef := do
  modify fun s => { s with built := (serial, ref) :: s.built }
  return ref

/-- The definition of an alias if the node declares a name, else the type itself. -/
def aliasOr (info : NodeInfo) (ref : TypeRef) : Build TypeRef :=
  match declaredName? info with
  | some name => define (.alias name ref) info.pointer
  | none => return ref

/-- The name of a branch, which no earlier branch may have; `taken` holds the earlier ones with
their places. -/
def branchName (union : String) (taken : List (String × Nat)) (index : Nat)
    (branch : SchemaNode) : Build String := do
  let name ← match variantName union branch with
    | .ok name => pure name
    | .error e => throw e
  match taken.lookup name with
  | some first =>
    throw (.ambiguousVariant union branch.info.pointer (.sameName first index name))
  | none => return name

mutual

/-- The type of a node; `fallback` is the name of a definition that declares none. -/
def refFor (node : SchemaNode) (fallback : String) : Build TypeRef :=
  match node with
  | .reference _ target => return .named (Naming.typeName target)
  | .primitive info kind => do
    match (← get).built.lookup info.serial with
    | some ref => return ref
    | none => remember info.serial (← aliasOr info (.primitive kind))
  | .array info item => do
    match (← get).built.lookup info.serial with
    | some ref => return ref
    | none =>
      let item ← refFor item ((declaredName? info).getD fallback ++ "Item")
      remember info.serial (← aliasOr info (.array item))
  | .object info properties required => do
    match (← get).built.lookup info.serial with
    | some ref => return ref
    | none =>
      let name := (declaredName? info).getD fallback
      let fields ← fieldsOf name required properties
      remember info.serial (← define (.object name fields) info.pointer)
  | .oneOf info variants => do
    match (← get).built.lookup info.serial with
    | some ref => return ref
    | none =>
      let name := (declaredName? info).getD fallback
      let variants ← variantsOf name [] 0 variants
      remember info.serial (← define (.union name variants) info.pointer)

/-- The fields of an object with a name. -/
def fieldsOf (name : String) (required : List String) :
    List (String × SchemaNode) → Build (List Field)
  | [] => return []
  | (property, node) :: rest => do
    let type ← refFor node (name ++ Naming.namePart property)
    let fields ← fieldsOf name required rest
    return ⟨property, type, !required.contains property⟩ :: fields

/-- The branches of a union with a name, from the place `index` on. -/
def variantsOf (union : String) (taken : List (String × Nat)) (index : Nat) :
    List SchemaNode → Build (List Variant)
  | [] => return []
  | branch :: rest => do
    let name ← branchName union taken index branch
    let type ← refFor branch (union ++ name)
    let variants ← variantsOf union ((name, index) :: taken) (index + 1) rest
    return ⟨name, type⟩ :: variants

end

/-- The type of a component, defined under its name. A component that is only a reference is an
alias of its target. -/
def buildComponent (name : String) (node : SchemaNode) : Build Unit := do
  let ref ← refFor node (Naming.typeName name)
  if node.target?.isSome then
    let _ ← define (.alias (Naming.typeName name) ref) node.info.pointer

/-- Builds the components in order and gives the errors of those that fail. -/
def buildComponents : List (String × SchemaNode) → StateM TypeBuilder (List CompileError)
  | [] => return []
  | (name, node) :: rest => do
    let outcome ← (buildComponent name node).run
    let errors ← buildComponents rest
    match outcome with
    | .ok () => return errors
    | .error e => return e :: errors

end TypeBuilder

end RouteBinding
