import RouteBinding.Data.Graph
import RouteBinding.Step
import RouteBinding.Text.Digit

/-!
# Pointers into a document

A pointer is `#/` and the keys that lead to a value, joined with slashes. In a key, `~` is written
`~0` and `/` is written `~1`. In a list, a segment is read as a whole number; a negative one counts
from the end.
-/

namespace RouteBinding

namespace Pointer

/-- One character of a key in a pointer. -/
def escapeChar (c : Char) : List Char :=
  if c = '~' then ['~', '0'] else if c = '/' then ['~', '1'] else [c]

/-- A key as it is written in a pointer. -/
def escape (key : String) : String :=
  String.ofList (key.toList.flatMap escapeChar)

/-- The characters that a segment of a pointer stands for. -/
def unescapeChars : List Char → List Char
  | '~' :: '1' :: rest => '/' :: unescapeChars rest
  | '~' :: '0' :: rest => '~' :: unescapeChars rest
  | c :: rest => c :: unescapeChars rest
  | [] => []

/-- The key that a segment of a pointer stands for. -/
def unescape (segment : String) : String :=
  String.ofList (unescapeChars segment.toList)

/-- Reading gives back every key that was written. -/
theorem unescapeChars_flatMap_escapeChar (s : List Char) :
    unescapeChars (s.flatMap escapeChar) = s := by
  induction s with
  | nil => rfl
  | cons c rest ih =>
    by_cases h0 : c = '~'
    · subst h0
      simp [escapeChar, unescapeChars, ih]
    · by_cases h1 : c = '/'
      · subst h1
        simp [escapeChar, unescapeChars, ih]
      · simp [escapeChar, unescapeChars, ih, h0, h1]

theorem unescape_escape (key : String) : unescape (escape key) = key := by
  simp [unescape, escape, unescapeChars_flatMap_escapeChar]

/-- A pointer with one more segment. -/
def child (pointer segment : String) : String :=
  pointer ++ "/" ++ segment

/-- What every pointer into the document starts with. -/
def root : String := "#/"

/-- What every pointer to a component schema starts with. -/
def componentHead : String := "#/components/schemas/"

/-- The pointer to a component schema. -/
def component (name : String) : String :=
  componentHead ++ escape name

/-- The name of the component that a pointer names, if it names a whole component. -/
def componentName? (pointer : String) : Option String := do
  let rest ← Text.dropHead? componentHead pointer
  if rest = "" || rest.toList.contains '/' then none else some (unescape rest)

/-- The keys of an internal pointer. -/
def keys? (pointer : String) : Option (List String) :=
  (Text.dropHead? root pointer).map fun rest => (Text.split '/' rest).map unescape

end Pointer

namespace Graph

/-- The item at a place of a list; a negative place counts from the end. -/
def itemAt? (items : List Value) (place : Int) : Option Value :=
  if place ≥ 0 then items[place.toNat]?
  else if place + items.length ≥ 0 then items[(place + items.length).toNat]? else none

/-- One step from a value to the value under a key. -/
def step (g : Graph) (v : Value) (key : String) : Except ReferenceFault Value :=
  match g.shape v with
  | .mapping _ entries =>
    match valueAt? key entries with
    | some value => .ok value
    | none => .error (.missingKey key)
  | .list _ items =>
    match (Text.readInt? key).bind (itemAt? items) with
    | some value => .ok value
    | none => .error (.invalidIndex key)
  | _ => .error (.notNavigable (g.typeName v))

/-- The value that a way of keys leads to. -/
def walk (g : Graph) (v : Value) : List String → Except ReferenceFault Value
  | [] => .ok v
  | key :: rest =>
    match g.step v key with
    | .ok next => g.walk next rest
    | .error fault => .error fault

end Graph

namespace Document

/-- The value that a pointer leads to. -/
def find (d : Document) (pointer : String) : Except CompileError Value :=
  match Pointer.keys? pointer with
  | none => .error (.unresolvedReference pointer .notInternal)
  | some keys =>
    match d.graph.walk d.root keys with
    | .ok value => .ok value
    | .error fault => .error (.unresolvedReference pointer fault)

/-- The halt at a reference that is no text and so leads nowhere. -/
def misreference (d : Document) (reference : Value) : Halt :=
  Halt.showing (fun shown => .unresolvedReference shown .notInternal) (d.graph.display? reference)

/-- The value that a reference leads to; only a text can be one. -/
def follow (d : Document) (reference : Value) : Except Halt Value :=
  match reference with
  | .scalar (.text pointer) => (d.find pointer).mapError .error
  | other => .error (d.misreference other)

end Document

end RouteBinding
