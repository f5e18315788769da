import RouteBinding.Yaml.Tag
import RouteBinding.Yaml.Token

/-!
# Nodes

The nodes that a list of tokens describes: scalars, sequences and mappings, each named by its index in
a store. An alias is the name of the node with its anchor, so a node can be part of several others, and
of itself.
-/

namespace RouteBinding.Yaml

/-- What a node holds. -/
inductive Content
  | scalar (text : String)
  | sequence (items : List Nat)
  | mapping (entries : List (Nat × Nat))
deriving DecidableEq, Inhabited

/-- A node of a kind. -/
structure Node where
  tag : Tag
  content : Content
deriving DecidableEq, Inhabited

/-- The nodes of a text and the outermost one, if the text holds a document. -/
structure NodeGraph where
  nodes : Array Node
  root : Option Nat
deriving Inhabited

/-- What is known in the middle of a list of tokens: the tokens to come, what is wrong behind them, the
nodes made so far, the node of every anchor, and what every handle of a tag stands for. -/
structure Assembly where
  tokens : List Token
  fault : ReadError
  nodes : Array Node
  anchors : List (String × Nat)
  handles : List (String × String)
deriving Inhabited

/-- A step that makes nodes from tokens. -/
abbrev Assemble (α : Type) := StateT Assembly (Except ReadError) α

namespace Assemble

/-- Refuses a list of tokens. -/
def refuse {α : Type} : Assemble α :=
  throw .malformed

/-- The next token. -/
def peek : Assemble Token := do
  let s ← get
  match s.tokens with
  | t :: _ => return t
  | [] => throw s.fault

/-- Moves over a token. -/
def advance : Assemble Unit :=
  modify fun s => { s with tokens := s.tokens.tail }

/-- Moves over a token if it is the next one, and says whether it was. -/
def accept (t : Token) : Assemble Bool := do
  if (← peek) = t then
    advance
    return true
  return false

/-- Whether the next token is one of several. -/
def isNext (ts : List Token) : Assemble Bool := do
  return ts.contains (← peek)

/-- Makes a node. -/
def make (n : Node) : Assemble Nat := do
  let s ← get
  set { s with nodes := s.nodes.push n }
  return s.nodes.size

/-- Makes the node that stands where nothing is written. -/
def makeEmpty : Assemble Nat :=
  make ⟨.null, .scalar ""⟩

/-- Gives a node its content. -/
def fill (id : Nat) (n : Node) : Assemble Nat := do
  modify fun s => { s with nodes := s.nodes.set! id n }
  return id

/-- Binds an anchor to a node. No anchor is bound twice. -/
def bindAnchor (anchor : Option String) (id : Nat) : Assemble Unit := do
  match anchor with
  | none => return
  | some name =>
    let s ← get
    if (s.anchors.lookup name).isSome then refuse
    set { s with anchors := (name, id) :: s.anchors }

/-- The tag in full. -/
def fullTag (handle : Option String) (suffix : String) : Assemble String := do
  match handle with
  | none => return suffix
  | some handle =>
    match (← get).handles.lookup handle with
    | some start => return start ++ suffix
    | none => refuse

/-- The tag in front of a node as it is written, if there is one. -/
def readTag : Assemble (Option (Option String × String)) := do
  match ← peek with
  | .tag handle suffix =>
    advance
    return some (handle, suffix)
  | _ => return none

/-- The anchor in front of a node, if there is one. -/
def readAnchor : Assemble (Option String) := do
  match ← peek with
  | .anchor name =>
    advance
    return some name
  | _ => return none

/-- The anchor and the tag in front of a node, in either order. The handle of the tag is looked up when
both are read. -/
def readProperties : Assemble (Option String × Option String) := do
  let first ← readAnchor
  let tag ← readTag
  let anchor ← if first.isNone && tag.isSome then readAnchor else pure first
  match tag with
  | some (handle, suffix) => return (anchor, some (← fullTag handle suffix))
  | none => return (anchor, none)

/-- The kind of a node with a tag; a single mark of exclamation leaves the kind to `implied`. -/
def kind (tag : Option String) (implied : Tag) : Tag :=
  match tag.filter (· ≠ "!") with
  | some tag => Tag.ofText tag
  | none => implied

/-- The kind of a scalar: a plain text implies it, and a quoted one is a text. -/
def scalarKind (tag : Option String) (text : String) (isPlain : Bool) : Tag :=
  kind tag (if isPlain || tag.isSome then Tag.implied text else .text)

mutual

/-- A node. Only `inBlock` may it be a block; a list in a mapping may then stand as far to the left as
the mapping, if `mayBeIndentless`. -/
def node : (fuel : Nat) → (inBlock mayBeIndentless : Bool) → Assemble Nat
  | 0, _, _ => refuse
  | fuel + 1, inBlock, mayBeIndentless => do
    match ← peek with
    | .alias name =>
      advance
      match (← get).anchors.lookup name with
      | some id => return id
      | none => refuse
    | _ =>
      let (anchor, tag) ← readProperties
      let next ← peek
      let id ← makeEmpty
      bindAnchor anchor id
      match next, inBlock with
      | .blockItem, _ =>
        if mayBeIndentless then
          fill id ⟨kind tag .sequence, .sequence (← indentlessItems fuel)⟩
        else if anchor.isSome || tag.isSome then fill id ⟨kind tag .null, .scalar ""⟩
        else refuse
      | .scalar text isPlain, _ =>
        advance
        fill id ⟨scalarKind tag text isPlain, .scalar text⟩
      | .flowSequenceStart, _ =>
        advance
        fill id ⟨kind tag .sequence, .sequence (← flowItems fuel true)⟩
      | .flowMappingStart, _ =>
        advance
        fill id ⟨kind tag .mapping, .mapping (← flowEntries fuel true)⟩
      | .blockSequenceStart, true =>
        advance
        fill id ⟨kind tag .sequence, .sequence (← blockItems fuel)⟩
      | .blockMappingStart, true =>
        advance
        fill id ⟨kind tag .mapping, .mapping (← blockEntries fuel)⟩
      | _, _ =>
        if anchor.isSome || tag.isSome then fill id ⟨kind tag .null, .scalar ""⟩ else refuse

/-- The items of a list from here on, up to the end of its block. -/
def blockItems : (fuel : Nat) → Assemble (List Nat)
  | 0 => refuse
  | fuel + 1 => do
    if ← accept .blockEnd then return []
    if ← accept .blockItem then
      let item ← if ← isNext [.blockItem, .blockEnd] then makeEmpty else node fuel true false
      return item :: (← blockItems fuel)
    refuse

/-- The items of a list from here on, as long as there are marks of items. -/
def indentlessItems : (fuel : Nat) → Assemble (List Nat)
  | 0 => refuse
  | fuel + 1 => do
    if ← accept .blockItem then
      let item ←
        if ← isNext [.blockItem, .key, .value, .blockEnd] then makeEmpty else node fuel true false
      return item :: (← indentlessItems fuel)
    return []

/-- The entries of a mapping from here on, up to the end of its block. -/
def blockEntries : (fuel : Nat) → Assemble (List (Nat × Nat))
  | 0 => refuse
  | fuel + 1 => do
    if ← accept .blockEnd then return []
    if ← accept .key then
      let key ← if ← isNext [.key, .value, .blockEnd] then makeEmpty else node fuel true true
      let value ←
        if ← accept .value then
          if ← isNext [.key, .value, .blockEnd] then makeEmpty else node fuel true true
        else makeEmpty
      return (key, value) :: (← blockEntries fuel)
    refuse

/-- The key and the value of an entry inside brackets that end with `closing`. -/
def flowPair : (fuel : Nat) → (closing : Token) → Assemble (Nat × Nat)
  | 0, _ => refuse
  | fuel + 1, closing => do
    let key ← if ← isNext [.value, .flowItem, closing] then makeEmpty else node fuel false false
    let value ←
      if ← accept .value then
        if ← isNext [.flowItem, closing] then makeEmpty else node fuel false false
      else makeEmpty
    return (key, value)

/-- The items of a list in brackets from here on. An item with a colon is a mapping of one entry. -/
def flowItems : (fuel : Nat) → (isFirst : Bool) → Assemble (List Nat)
  | 0, _ => refuse
  | fuel + 1, isFirst => do
    if ← accept .flowSequenceEnd then return []
    if !isFirst then
      if !(← accept .flowItem) then refuse
    if ← accept .flowSequenceEnd then return []
    let item ←
      if ← accept .key then
        let pair ← flowPair fuel .flowSequenceEnd
        make ⟨.mapping, .mapping [pair]⟩
      else node fuel false false
    return item :: (← flowItems fuel false)

/-- The entries of a mapping in braces from here on. An entry without a colon has no value. -/
def flowEntries : (fuel : Nat) → (isFirst : Bool) → Assemble (List (Nat × Nat))
  | 0, _ => refuse
  | fuel + 1, isFirst => do
    if ← accept .flowMappingEnd then return []
    if !isFirst then
      if !(← accept .flowItem) then refuse
    if ← accept .flowMappingEnd then return []
    let pair ←
      if ← accept .key then flowPair fuel .flowMappingEnd
      else do
        let key ← node fuel false false
        pure (key, ← makeEmpty)
    return pair :: (← flowEntries fuel false)

end

/-! ## Documents -/

/-- What the handles of tags stand for where nothing is declared. -/
def defaultHandles : List (String × String) :=
  [("!", "!"), ("!!", tagSpace)]

/-- Reads the directives in front of a document. Each may stand once, and the version must be 1. -/
def readDirectives : (fuel : Nat) → (hasVersion : Bool) → (declared : List (String × String)) →
    Assemble (List (String × String))
  | 0, _, _ => refuse
  | fuel + 1, hasVersion, declared => do
    match ← peek with
    | .directive d =>
      advance
      match d with
      | .version major =>
        if hasVersion || major ≠ 1 then refuse
        readDirectives fuel true declared
      | .tag handle start =>
        if (declared.lookup handle).isSome then refuse
        readDirectives fuel hasVersion ((handle, start) :: declared)
      | .other => readDirectives fuel hasVersion declared
    | _ => return declared

/-- Moves over the marks of the end of a document. -/
def skipEnds : (fuel : Nat) → Assemble Unit
  | 0 => return
  | fuel + 1 => do
    if ← accept .documentEnd then skipEnds fuel

/-- Refuses a document that follows another one, when its beginning is read. -/
def refuseMore (fuel : Nat) : Assemble Unit := do
  skipEnds fuel
  if !(← isNext [.streamEnd]) then
    let _ ← readDirectives fuel false []
    refuse

/-- The outermost node of the only document of a text, if there is one. -/
def document (fuel : Nat) : Assemble (Option Nat) := do
  match ← peek with
  | .streamEnd => return none
  | .directive _ | .documentStart =>
    let declared ← readDirectives fuel false []
    modify fun s => { s with handles := declared ++ defaultHandles }
    if !(← accept .documentStart) then refuse
    let isEmpty := match ← peek with
      | .directive _ | .documentStart | .documentEnd | .streamEnd => true
      | _ => false
    let root ← if isEmpty then makeEmpty else node fuel true false
    refuseMore fuel
    return some root
  | _ =>
    let root ← node fuel true false
    refuseMore fuel
    return some root

end Assemble

/-- The nodes that the tokens of a text describe. Every step moves over a token or goes down to a part
of what it makes, so twice the count of tokens bounds them. -/
def NodeGraph.ofTokens (ts : TokenStream) : Except ReadError NodeGraph := do
  let start : Assembly :=
    ⟨ts.tokens, ts.fault.getD .malformed, #[], [], Assemble.defaultHandles⟩
  let (root, s) ← (Assemble.document (2 * ts.tokens.length + 4)).run start
  return ⟨s.nodes, root⟩

end RouteBinding.Yaml
