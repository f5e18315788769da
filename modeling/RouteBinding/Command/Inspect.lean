import RouteBinding.Command.Check

/-!
# Looking into a description

The commands that show what a description compiles to: its types, its operations and one type.
-/

namespace RouteBinding.Command

/-- A description compiled, with what was noticed in it reported. -/
def inspected (c : Console) (spec : String) : Action CompiledApi := do
  let api ← compileSource c spec
  c.report api.diagnostics
  return api

/-- The row of a type: its name, its kind and its shape in one line. -/
def typeRow : TypeDef → List String
  | .alias name target => [name, "alias", target.describe]
  | .object name fields =>
    let shapes := fields.map fun f =>
      f.name ++ (if f.optional then "?: " else ": ") ++ f.type.describe
    [name, "object", listCell shapes]
  | .union name variants =>
    let shapes := variants.map fun v => v.name ++ "(" ++ v.type.describe ++ ")"
    [name, "union", Text.join " | " shapes]

/-- Lists the types of a description. -/
def inspectTypes (c : Console) (spec : String) : Action Unit := do
  let api ← inspected c spec
  let rows := api.types.definitions.map fun d => typeRow d.2
  if rows.isEmpty then c.info "No named types in this document."
  else c.showTable s!"Types ({rows.length})" ["Type", "Kind", "Shape"] rows

/-- A parameter in one line, with a star if it is required. -/
def parameterCell (p : Parameter) : String :=
  p.location.name ++ ":" ++ p.name ++ (if p.required then "*: " else ": ") ++ p.type.describe

/-- The entries of a body in one line. -/
def bodyCell (b : BodyContract) : String :=
  Text.join ", " (b.entries.map fun e =>
    e.1 ++ " (" ++ (e.2.type.map TypeRef.describe).getD "opaque" ++ ")")

/-- The row of an operation. -/
def operationRow (op : Operation) : List String :=
  [op.method.label, op.path, op.name, listCell (op.parameters.map parameterCell),
    (op.body.map bodyCell).getD "-"]

/-- Lists the operations of a description. -/
def inspectOperations (c : Console) (spec : String) : Action Unit := do
  let api ← inspected c spec
  let rows := api.operations.map operationRow
  c.showTable s!"Operations ({rows.length})" ["Method", "Path", "Operation", "Parameters", "Body"]
    rows

/-- Shows one type of a description. -/
def inspectType (c : Console) (spec name : String) : Action Unit := do
  let api ← inspected c spec
  match api.types.get? name with
  | some d => c.showData d.tree
  | none => Action.fail (.unknownType name)

end RouteBinding.Command
