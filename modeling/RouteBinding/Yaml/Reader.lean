import RouteBinding.Data.Graph
import RouteBinding.Data.SetOrder
import RouteBinding.Yaml.Lexer
import RouteBinding.Yaml.Node
import RouteBinding.Yaml.Value

/-!
# Reading YAML

The document that a text describes. Every node becomes one value, so a node that several aliases lead
to is one container. Containers are filled in the order in which they are met, level by level; of two
faults the one met first counts. A key must be a scalar. The entries that a mapping merges come in front
of its own.
-/

namespace RouteBinding.Yaml

/-- What is known while values are made: the nodes, how many marks of merging they have at most, the
containers made so far, the value of every node that has one, and the nodes whose containers are still
to be filled. -/
structure Construction where
  nodes : Array Node
  marks : Nat
  graph : Graph
  values : Array (Option Value)
  waiting : List (Nat × Nat)
deriving Inhabited

/-- A step that makes values from nodes. -/
abbrev Construct (α : Type) := StateT Construction (Except ReadError) α

namespace Construct

/-- A node. -/
def nodeAt (id : Nat) : Construct Node := do
  match (← get).nodes[id]? with
  | some n => return n
  | none => throw .malformed

/-- The first of some entries whose key is of a kind. -/
def findKey? (kind : Tag) (entries : List (Nat × Nat)) : Construct (Option (Nat × Nat)) := do
  let nodes := (← get).nodes
  return entries.find? fun e => (nodes[e.1]?.map (·.tag)) = some kind

/-- The entries of a mapping. -/
def entriesOf (id : Nat) : Construct (List (Nat × Nat)) := do
  match (← nodeAt id).content with
  | .mapping entries => return entries
  | _ => throw .malformed

/-- Changes the entries of a mapping. -/
def setEntries (id : Nat) (entries : List (Nat × Nat)) : Construct Unit := do
  let n ← nodeAt id
  modify fun s => { s with nodes := s.nodes.set! id { n with content := .mapping entries } }

/-! ## Merging -/

/-- Makes a text of the mark that stands for the value of a mapping, where it is a key. -/
def readKeyAsText (id : Nat) : Construct Unit := do
  let n ← nodeAt id
  if n.tag = .value then
    modify fun s => { s with nodes := s.nodes.set! id { n with tag := .text } }

/-- Takes the first mark of merging out of a mapping, and gives the node that is merged there. -/
def takeMerge (id : Nat) : Construct (Option Nat) := do
  let entries ← entriesOf id
  match ← findKey? .merge entries with
  | some mark =>
    setEntries id (entries.erase mark)
    return some mark.2
  | none => return none

/-- The mappings that are merged where a node is: itself, or the items of a list. -/
def mergedNodes (id : Nat) : Construct (List Nat) := do
  match (← nodeAt id).content with
  | .mapping _ => return [id]
  | .sequence items => return items
  | .scalar _ => throw .malformed

/-- Puts the entries that a mapping merges in front of its own: those of its first mark first, and where a
list is merged, those of its last item first. `merged` holds what has been merged so far. A mapping can be
met again inside what it merges; it is then done with there. Every further step takes out a mark, so
`fuel`, one more than the count of marks, is never used up. -/
def mergeInto : (fuel : Nat) → (id : Nat) → (merged : List (Nat × Nat)) → Construct Unit
  | 0, _, _ => return
  | fuel + 1, id, merged => do
    match ← takeMerge id with
    | some source =>
      let parts ← (← mergedNodes source).mapM fun part => do
        mergeInto fuel part []
        entriesOf part
      mergeInto fuel id (merged ++ parts.reverse.flatten)
    | none =>
      let own ← entriesOf id
      own.forM fun e => readKeyAsText e.1
      if !merged.isEmpty then setEntries id (merged ++ own)

/-! ## Values -/

/-- Remembers the value of a node. -/
def remember (id : Nat) (v : Value) : Construct Value := do
  modify fun s => { s with values := s.values.set! id (some v) }
  return v

/-- Makes a container for a node, which is filled later. -/
def promise (id : Nat) (c : Container) : Construct Value := do
  let s ← get
  let (graph, v) := s.graph.push c
  set { s with graph := graph, waiting := (id, s.graph.size) :: s.waiting }
  remember id v

/-- The text that a node gives where a scalar is asked for: its own, or that of what stands under the mark
for the value of a mapping. A way through marks that is longer than there are nodes has no end. -/
def textWithin : (depth : Nat) → (id : Nat) → Construct String
  | 0, _ => throw .noSuchValue
  | depth + 1, id => do
    match (← nodeAt id).content with
    | .scalar text => return text
    | .sequence _ => throw .malformed
    | .mapping entries =>
      match ← findKey? .value entries with
      | some mark => textWithin depth mark.2
      | none => throw .malformed

/-- The scalar of a kind that a node stands for. A date is written out as a scalar itself. -/
def readScalar (id : Nat) (n : Node) : Construct Scalar := do
  let text ← textWithin ((← get).nodes.size + 1) id
  if n.tag = .timestamp && n.content ≠ .scalar text then throw .noSuchValue
  match scalarOf n.tag text with
  | .ok s => return s
  | .error e => throw e

/-- The value of a node. -/
def valueOf (id : Nat) : Construct Value := do
  match ((← get).values[id]?).join with
  | some v => return v
  | none =>
    let n ← nodeAt id
    match n.tag with
    | .sequence | .orderedMapping | .pairs => promise id (.list [])
    | .mapping => promise id (.mapping [])
    | .set => promise id (.set [])
    | .merge | .value | .unknown => throw .malformed
    | _ => remember id (.scalar (← readScalar id n))

/-- The key that a node stands for. -/
def keyOf (id : Nat) : Construct Scalar := do
  match ← valueOf id with
  | .scalar s => return s
  | .container _ => throw .malformed

/-- The values of the items of a list. -/
def listOf (id : Nat) : Construct (List Value) := do
  match (← nodeAt id).content with
  | .sequence items => items.mapM valueOf
  | _ => throw .malformed

/-- The keys and values of a mapping. -/
def mappingOf (id : Nat) : Construct (List (Scalar × Value)) := do
  mergeInto ((← get).marks + 1) id []
  let entries ← (← entriesOf id).mapM fun e => do
    let key ← keyOf e.1
    return (key, ← valueOf e.2)
  return mergeEntries entries

/-- One item of a list of pairs. -/
def pairOf (id : Nat) : Construct Value := do
  match ← entriesOf id with
  | [(key, value)] =>
    let key ← valueOf key
    let value ← valueOf value
    let s ← get
    let (graph, pair) := s.graph.push (.pair key value)
    set { s with graph := graph }
    return pair
  | _ => throw .malformed

/-- The items of a list of pairs. -/
def pairsOf (id : Nat) : Construct (List Value) := do
  match (← nodeAt id).content with
  | .sequence items => items.mapM pairOf
  | _ => throw .malformed

/-- The contents of the container of a node. -/
def contentsOf (id : Nat) : Construct Container := do
  match (← nodeAt id).tag with
  | .sequence => return .list (← listOf id)
  | .orderedMapping | .pairs => return .list (← pairsOf id)
  | .set => return .set (setOrder ((← mappingOf id).map (·.1)))
  | _ => return .mapping (← mappingOf id)

/-- Fills the containers that are waiting, level by level. Every node waits once, so `fuel`, the count
of nodes, bounds the levels. -/
def fillWaiting : (fuel : Nat) → Construct Unit
  | 0 => return
  | fuel + 1 => do
    let waiting := (← get).waiting
    if waiting.isEmpty then return
    modify fun s => { s with waiting := [] }
    waiting.reverse.forM fun (id, container) => do
      let c ← contentsOf id
      modify fun s => { s with graph := ⟨s.graph.containers.set! container c⟩ }
    fillWaiting fuel

/-- The value of the outermost node, with everything inside it. -/
def rootValue (root : Nat) : Construct Value := do
  let v ← valueOf root
  fillWaiting ((← get).nodes.size + 1)
  return v

end Construct

/-- The count of the entries of all mappings, which is not less than that of the marks of merging. -/
def NodeGraph.entryCount (g : NodeGraph) : Nat :=
  g.nodes.foldl (fun count n =>
    match n.content with
    | .mapping entries => count + entries.length
    | _ => count) 0

/-- The document of a graph of nodes; without a root, null. -/
def NodeGraph.document (g : NodeGraph) : Except ReadError Document :=
  match g.root with
  | none => .ok ⟨.empty, .scalar .null⟩
  | some root => do
    let start : Construction :=
      ⟨g.nodes, g.entryCount, .empty, Array.replicate g.nodes.size none, []⟩
    let (v, s) ← (Construct.rootValue root).run start
    return ⟨s.graph, v⟩

/-- The document that a text describes. -/
def read (s : String) : Except ReadError Document := do
  let nodes ← NodeGraph.ofTokens (tokens s.toList)
  nodes.document

end RouteBinding.Yaml
