import RouteBinding.Data.Tree

/-!
# Documents as graphs

A document names every list and mapping by its place in a store, so that one container can be
reached on several ways, and even from inside itself. Two containers with equal contents are
still two; where a container is met again, its name is the same. Beside lists and mappings there are
sets of scalars, and pairs, which are what a list of pairs holds.
-/

namespace RouteBinding

/-- A value of a document: a scalar, or the container with a name. -/
inductive Value
  | scalar (value : Scalar)
  | container (id : Nat)
deriving DecidableEq, Inhabited

/-- The contents of a container. -/
inductive Container
  | list (items : List Value)
  | mapping (entries : List (Scalar × Value))
  | set (members : List Scalar)
  | pair (first second : Value)
deriving DecidableEq, Inhabited

/-- The text of a value that is one. -/
def Value.text? : Value → Option String
  | .scalar s => s.text?
  | .container _ => none

/-- The containers of a document, each named by its index. -/
structure Graph where
  containers : Array Container
deriving Inhabited

/-- A value seen with the contents of its container. -/
inductive Shape
  | scalar (value : Scalar)
  | list (id : Nat) (items : List Value)
  | mapping (id : Nat) (entries : List (Scalar × Value))
  | set (members : List Scalar)
  | pair (id : Nat) (first second : Value)

namespace Graph

/-- The graph without containers. -/
def empty : Graph := ⟨#[]⟩

/-- The count of containers. -/
def size (g : Graph) : Nat := g.containers.size

/-- The contents of a value. A name that the store does not hold reads as null. -/
def shape (g : Graph) : Value → Shape
  | .scalar s => .scalar s
  | .container id =>
    match g.containers[id]? with
    | some (.list items) => .list id items
    | some (.mapping entries) => .mapping id entries
    | some (.set members) => .set members
    | some (.pair first second) => .pair id first second
    | none => .scalar .null

/-- A mapping's name lies within the store. -/
theorem lt_size_of_shape_mapping {g : Graph} {v : Value} {id : Nat}
    {entries : List (Scalar × Value)} (h : g.shape v = .mapping id entries) : id < g.size := by
  unfold shape at h
  split at h
  · simp at h
  · split at h
    · simp at h
    · rename_i hget
      simp only [Shape.mapping.injEq] at h
      obtain ⟨rfl, -⟩ := h
      exact (Array.getElem?_eq_some_iff.1 hget).1
    · simp at h
    · simp at h
    · simp at h

/-- The entries of a value that is a mapping. -/
def entries? (g : Graph) (v : Value) : Option (List (Scalar × Value)) :=
  match g.shape v with
  | .mapping _ entries => some entries
  | _ => none

/-- The name of the kind of a value. -/
def typeName (g : Graph) (v : Value) : String :=
  match g.shape v with
  | .scalar s => s.typeName
  | .list .. => "list"
  | .mapping .. => "dict"
  | .set .. => "set"
  | .pair .. => "tuple"

/-- Whether a value counts as present: not null, false, zero or empty. -/
def isTruthy (g : Graph) (v : Value) : Bool :=
  match g.shape v with
  | .scalar s => s.isTruthy
  | .list _ items => !items.isEmpty
  | .mapping _ entries => !entries.isEmpty
  | .set members => !members.isEmpty
  | .pair .. => true

/-- Whether a value can be looked up among names: a scalar, or a pair of such values; `depth` bounds how
far pairs nest. -/
def canBeKeyWithin (g : Graph) : (depth : Nat) → Value → Bool
  | 0, _ => false
  | depth + 1, v =>
    match g.shape v with
    | .scalar _ => true
    | .pair _ first second => g.canBeKeyWithin depth first && g.canBeKeyWithin depth second
    | _ => false

/-- Whether a value can be looked up among names. No way through pairs without a repetition has more
steps than there are containers. -/
def canBeKey (g : Graph) (v : Value) : Bool :=
  g.canBeKeyWithin (g.size + 1) v

/-- Whether a value can be looked for in a set: what can be a key, and a set. -/
def canBeMember (g : Graph) (v : Value) : Bool :=
  match g.shape v with
  | .set _ => true
  | _ => g.canBeKey v

/-- Puts a container into the store and returns its name. -/
def push (g : Graph) (c : Container) : Graph × Value :=
  (⟨g.containers.push c⟩, .container g.size)

/-! ## Trees in a graph -/

mutual

/-- Puts a tree into the store; every list and mapping of it becomes a container of its own. -/
def ofTree (g : Graph) : Tree → Graph × Value
  | .scalar s => (g, .scalar s)
  | .list items =>
    let (g, values) := g.ofItems items
    g.push (.list values)
  | .mapping entries =>
    let (g, values) := g.ofEntries entries
    g.push (.mapping values)

/-- Puts the items of a list into the store. -/
def ofItems (g : Graph) : List Tree → Graph × List Value
  | [] => (g, [])
  | item :: rest =>
    let (g, value) := g.ofTree item
    let (g, values) := g.ofItems rest
    (g, value :: values)

/-- Puts the values of a mapping into the store. -/
def ofEntries (g : Graph) : List (Scalar × Tree) → Graph × List (Scalar × Value)
  | [] => (g, [])
  | (key, item) :: rest =>
    let (g, value) := g.ofTree item
    let (g, values) := g.ofEntries rest
    (g, (key, value) :: values)

end

/-- Reads a value back as a tree, where `depth` bounds how far containers nest; `none` if a
container is reached from inside itself. A set and a pair read as the list of what they hold. -/
def treeWithin (g : Graph) : (depth : Nat) → Value → Option Tree
  | 0, _ => none
  | depth + 1, v =>
    match g.shape v with
    | .scalar s => some (.scalar s)
    | .list _ items => (items.mapM (g.treeWithin depth)).map .list
    | .mapping _ entries =>
      (entries.mapM fun e => (g.treeWithin depth e.2).map (e.1, ·)).map .mapping
    | .set members => some (.list (members.map .scalar))
    | .pair _ first second => ([first, second].mapM (g.treeWithin depth)).map .list

/-- Reads a value back as a tree; `none` if a container is reached from inside itself. No way
through the store without a repetition has more steps than there are containers. -/
def toTree? (g : Graph) (v : Value) : Option Tree :=
  g.treeWithin (g.size + 1) v

/-! ## The text of a value -/

/-- Some texts with commas between them, in brackets. -/
def bracketed (opening closing : String) (texts : List String) : String :=
  opening ++ String.intercalate ", " texts ++ closing

/-- The literal form of a value inside the containers `outer`; a container met inside itself is
written as three dots in its brackets. There is none if a number in the value has too many digits. -/
def literalWithin? (g : Graph) : (depth : Nat) → (outer : List Nat) → Value → Option String
  | 0, _, _ => some ""
  | depth + 1, outer, v =>
    match g.shape v with
    | .scalar s => s.literal?
    | .list id items =>
      if outer.contains id then some "[...]"
      else (items.mapM (g.literalWithin? depth (id :: outer))).map (bracketed "[" "]")
    | .mapping id entries =>
      if outer.contains id then some "\x7b...\x7d"
      else
        let texts := entries.mapM fun e => do
          return (← e.1.literal?) ++ ": " ++ (← g.literalWithin? depth (id :: outer) e.2)
        texts.map (bracketed "\x7b" "\x7d")
    | .set members =>
      if members.isEmpty then some "set()"
      else (members.mapM Scalar.literal?).map (bracketed "\x7b" "\x7d")
    | .pair id first second =>
      if outer.contains id then some "(...)"
      else ([first, second].mapM (g.literalWithin? depth (id :: outer))).map (bracketed "(" ")")

/-- The literal form of a value, unless a number in it has too many digits. -/
def literal? (g : Graph) (v : Value) : Option String :=
  g.literalWithin? (g.size + 2) [] v

/-- The value as it stands inside a sentence, unless a number in it has too many digits. -/
def display? (g : Graph) (v : Value) : Option String :=
  match g.shape v with
  | .scalar s => s.display?
  | _ => g.literal? v

end Graph

/-- A value in the graph that holds its containers. -/
structure Document where
  graph : Graph
  root : Value
deriving Inhabited

/-- The document of a tree. -/
def Document.ofTree (t : Tree) : Document :=
  let (graph, root) := Graph.empty.ofTree t
  ⟨graph, root⟩

end RouteBinding
