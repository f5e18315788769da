import RouteBinding.Schema.Reading

/-!
# Resolving schemas

Turns the schemas of a document into nodes. A reference to a component becomes a node that names
it; any other reference is followed and what it leads to takes its place. The containers that are
being read are kept as a trail: to meet one of them again means that a schema would hold itself.

Each container is read once. Its node is remembered under its name, so a schema that is reached on
several ways is one node. A container that is itself a component carries the first component name
bound to it, on whatever way it is reached.
-/

namespace RouteBinding

namespace Resolver

/-- What has been resolved so far. -/
structure State where
  nextSerial : Nat
  nodes : List (Nat × SchemaNode)
  components : List (String × SchemaNode)
  errors : List CompileError
  componentsDone : Bool
deriving Inhabited

/-- Nothing resolved yet. -/
def State.initial : State := ⟨0, [], [], [], false⟩

/-- A step of the resolution. -/
abbrev Resolve (α : Type) := Step State α

open Step (fail)

/-! ## Nodes -/

/-- A number that no node has yet. -/
def freshSerial : Resolve Nat := do
  let s ← get
  set { s with nextSerial := s.nextSerial + 1 }
  return s.nextSerial

/-- The common part of a new node. -/
def freshInfo (pointer : String) (title : Option String) : Resolve NodeInfo := do
  let serial ← freshSerial
  return ⟨serial, pointer, title, none⟩

/-- A copy of a node that is a component. -/
def asComponent (name : String) (node : SchemaNode) : Resolve SchemaNode := do
  let serial ← freshSerial
  return node.withInfo { node.info with serial := serial, component := some name }

/-- The node of a schema whose inner schemas have their nodes. What a reference leads to takes the place
of the reference. -/
def assemble (pointer : String) (title : Option String) :
    Layer SchemaNode → Resolve SchemaNode
  | .component name => return .reference (← freshInfo pointer title) name
  | .inlined _ node => return node
  | .oneOf variants => return .oneOf (← freshInfo pointer title) variants
  | .array item => return .array (← freshInfo pointer title) item
  | .object properties (some required) =>
    return .object (← freshInfo pointer title) properties required
  | .object _ none => fail (.malformedSchema .required pointer)
  | .primitive kind => return .primitive (← freshInfo pointer title) kind

/-- The node of a container: a copy under the name of the component that the container is, unless the
node is a component already. -/
def claim (r : Resolver) (id : Nat) (node : SchemaNode) : Resolve SchemaNode :=
  match r.owner? id with
  | some name => if node.info.component.isNone then asComponent name node else return node
  | none => return node

/-! ## Following a schema through the document -/

/-- The pointers at which the containers being read were met, last first. -/
abbrev Trail := List (Nat × String)

/-- The way from the first meeting of a container to a second one at `pointer`. -/
def Trail.loop (trail : Trail) (id : Nat) (pointer : String) : List String :=
  (trail.reverse.dropWhile fun t => t.1 ≠ id).map (·.2) ++ [pointer]

/-- The error of a schema that would hold itself. -/
def cyclic (chain : List String) : CompileError :=
  .cyclicSchema (chain.headD "") chain

/-- The node of a schema met inside the containers of the trail. The trail holds no container
twice, so `depth`, one more than the count of containers, is never used up. -/
def expandWithin (r : Resolver) : (depth : Nat) → Trail → Site → Resolve SchemaNode
  | 0, _, site => fail (cyclic [site.pointer])
  | depth + 1, trail, site =>
    match r.document.graph.shape site.value with
    | .mapping id entries => do
      match (← get).nodes.lookup id with
      | some node => return node
      | none =>
        if trail.any (·.1 = id) then fail (cyclic (trail.loop id site.pointer))
        else
          let reading ← Step.ofOutcome (r.read entries site.pointer)
          let layer ← (reading.layer.located site.pointer).traverse
            (r.expandWithin depth ((id, site.pointer) :: trail))
          let node ← assemble site.pointer reading.title layer
          let node ← r.claim id node
          modify fun s => { s with nodes := (id, node) :: s.nodes }
          return node
    | _ =>
      fail (.malformedSchema (.notMapping (r.document.graph.typeName site.value)) site.pointer)

/-- The node of the schema found at a pointer. -/
def resolve (r : Resolver) (raw : Value) (pointer : String) : Resolve SchemaNode :=
  r.expandWithin (r.document.graph.size + 1) [] ⟨raw, pointer⟩

/-! ## Components -/

/-- Records an error. -/
def record (e : CompileError) : Resolve Unit :=
  modify fun s => { s with errors := s.errors ++ [e] }

/-- Resolves one entry of the component schemas; an error is recorded and the component left
out. -/
def resolveComponent (r : Resolver) (key : Scalar) (raw : Value) : Resolve Unit := do
  match key with
  | .text name =>
    match ← Step.attempt (r.resolve raw (Pointer.component name)) with
    | .error e => record e
    | .ok node =>
      let node ← if node.info.component = some name then pure node else asComponent name node
      modify fun s => { s with components := s.components ++ [(name, node)] }
  | other =>
    let name ← Step.ofOutcome (spelled .breakdown other.literal?)
    record (.malformedSchema (.componentName name) "#/components/schemas")

/-- The names of a chain of components that are nothing but references to each other, from the
last one on, if it comes back to one of them. `fuel` bounds the chain by the count of
components. -/
def aliasLoop? (components : List (String × SchemaNode)) :
    (fuel : Nat) → (chain : List String) → Option SchemaNode → Option (List String)
  | fuel + 1, chain, some (.reference _ target) =>
    if chain.contains target then some (target :: chain)
    else aliasLoop? components fuel (target :: chain) (components.lookup target)
  | _, _, _ => none

/-- The error of a component whose chain of references comes back to itself. -/
def aliasError? (components : List (String × SchemaNode)) (name : String) : Option CompileError :=
  (aliasLoop? components (components.length + 1) [name] (components.lookup name)).map fun chain =>
    let pointers := chain.reverse.map (Pointer.componentHead ++ ·)
    .cyclicSchema (pointers.headD "") pointers

/-- Resolves every component schema in document order, once. A component that fails, or whose
chain of references comes back to itself, is left out and its error recorded. -/
def resolveComponents (r : Resolver) : Resolve (List (String × SchemaNode)) := do
  if (← get).componentsDone then return (← get).components
  modify fun s => { s with componentsDone := true }
  r.schemas.forM fun (key, raw) => r.resolveComponent key raw
  modify fun s =>
    { s with
      components := s.components.filter fun c => (aliasError? s.components c.1).isNone
      errors := s.errors ++ s.components.filterMap fun c => aliasError? s.components c.1 }
  return (← get).components

/-! ## Objects that are no schemas -/

/-- Follows references until a mapping without one is reached. `chain` holds the references
followed, last first; no text comes twice in it, so `fuel` is never used up. -/
def followObject (d : Document) :
    (fuel : Nat) → (chain : List String) → Value → String →
      Except Halt (List (Scalar × Value) × Value × String)
  | 0, chain, _, pointer => refuse (.cyclicSchema pointer chain.reverse)
  | fuel + 1, chain, raw, pointer =>
    match d.graph.entries? raw with
    | none => refuse (.unresolvedReference pointer .notAnObject)
    | some entries =>
      match valueAt? "$ref" entries with
      | none => .ok (entries, raw, pointer)
      | some (.scalar (.text target)) =>
        if chain.contains target then refuse (.cyclicSchema target ((target :: chain).reverse))
        else
          match d.find target with
          | .ok next => followObject d fuel (target :: chain) next target
          | .error e => refuse e
      | some other => .error (d.misreference other)

/-- The object that a parameter, request body or response stands for, and where it was found. -/
def resolveObject (r : Resolver) (raw : Value) (pointer : String) :
    Except Halt (List (Scalar × Value) × Value × String) :=
  followObject r.document (r.document.graph.size + 1) [] raw pointer

end Resolver

end RouteBinding
