import RouteBinding.Data.Graph
import RouteBinding.Route.Basic
import RouteBinding.Route.Shorthand
import RouteBinding.Step

/-!
# Tables of routes

The routes in a file, as data: a list of entries, or a mapping that holds routes under `routes` and
groups of them under `modules`. Groups nest; the handlers in a group have the names of its modules
in front, from the outermost to the innermost, each with a dot behind it. An entry is a mapping with
a method, a path and a handler, or a shorthand.
-/

namespace RouteBinding

/-- Why a table gives no routes: it is refused, or reading it does not come to an end. -/
inductive RouteTableFailure
  | refused (e : RouteError)
  | breakdown (b : Breakdown)
deriving DecidableEq, Inhabited

namespace RouteTable

/-- The part of an entry under a key, if it is there and is not null, false, zero or empty. -/
def part? (g : Graph) (entries : List (Scalar × Value)) (key : String) : Option Value :=
  (valueAt? key entries).filter g.isTruthy

/-- A value as a part of a declaration, unless it has no text to be shown as. -/
def given? (g : Graph) (v : Value) : Option Given :=
  match g.shape v with
  | .scalar (.text s) => some (.text s)
  | .scalar (.bytes bs) => some (.bytes bs)
  | _ => (g.display? v).map .other

/-- The outcome of a step that can only refuse. -/
def refuse {α : Type} : Except RouteError α → Except RouteTableFailure α
  | .ok a => .ok a
  | .error e => .error (.refused e)

/-- The route of one entry in the modules `owner`. -/
def readEntry (g : Graph) (owner place : String) (entry : Value) : Except RouteTableFailure Route :=
  match g.shape entry with
  | .scalar (.text s) =>
    match Shorthand.read? s with
    | some line =>
      refuse (Route.declare (.text line.method) (.text line.path) (.text (owner ++ line.handler)))
    | none => .error (.refused (.notShorthand place s))
  | .mapping _ entries =>
    match part? g entries "method", part? g entries "path", part? g entries "handler" with
    | some method, some path, some handler => do
      let path ← spelled .breakdown (g.display? path)
      let handler ← spelled .breakdown (g.display? handler)
      let method ← spelled .breakdown (given? g method)
      refuse (Route.declare method (.text path) (.text (owner ++ handler)))
    | _, _, _ =>
      let parts := ["method", "path", "handler"].filter fun key => (part? g entries key).isNone
      .error (.refused (.missingParts place parts))
  | _ => .error (.refused (.notEntry place (g.typeName entry)))

/-- The routes of a list of entries, the first of which is the entry `index`. -/
def readEntries (g : Graph) (owner place : String) :
    (index : Nat) → List Value → Except RouteTableFailure (List Route)
  | _, [] => .ok []
  | index, entry :: rest => do
    let route ← readEntry g owner s!"{place}[{index}]" entry
    let routes ← readEntries g owner place (index + 1) rest
    return route :: routes

/-- The keys of a mapping that mean nothing, in the order of their texts, if each has one. -/
def unknownKeys? (entries : List (Scalar × Value)) : Option (List String) :=
  let keys := entries.map (·.1)
  let unknown := keys.filter fun k => k ≠ .text "routes" && k ≠ .text "modules"
  (unknown.mapM Scalar.display?).map fun texts => texts.mergeSort fun a b => decide (a ≤ b)

/-- The routes of a table in the modules `owner`; `depth` bounds how far its mappings nest. -/
def readWithin (g : Graph) :
    (depth : Nat) → (owner place : String) → Value → Except RouteTableFailure (List Route)
  | 0, _, _, _ => .error (.breakdown .endlessRoutes)
  | depth + 1, owner, place, v =>
    match g.shape v with
    | .list _ items => readEntries g owner place 0 items
    | .mapping _ entries => do
      let unknown ← spelled .breakdown (unknownKeys? entries)
      if !unknown.isEmpty then throw (.refused (.unknownKeys place unknown))
      let routes ←
        match part? g entries "routes" with
        | some inner => readWithin g depth owner (place ++ ".routes") inner
        | none => .ok []
      let groups ←
        match part? g entries "modules" with
        | some modules =>
          match g.entries? modules with
          | some groups => pure groups
          | none => throw (.refused (.modulesNotMapping place))
        | none => pure []
      let grouped ← groups.mapM fun group => do
        let name ← spelled .breakdown group.1.display?
        readWithin g depth (owner ++ name ++ ".") (place ++ ".modules." ++ name) group.2
      return routes ++ grouped.flatten
    | _ => .error (.refused (.notRoutes place))

/-- The routes of a table. A way through nested mappings that is longer than there are containers
meets one of them twice, and so has no end. -/
def read (document : Document) : Except RouteTableFailure (List Route) :=
  readWithin document.graph (document.graph.size + 1) "" "routes" document.root

end RouteTable

end RouteBinding
