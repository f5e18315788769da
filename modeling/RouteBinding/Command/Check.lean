import RouteBinding.Command.Binding
import RouteBinding.Route.Data

/-!
# Checking and writing contracts

The commands on a table of routes: one lists what every route is bound to, the other writes the contracts
as data for other programs.
-/

namespace RouteBinding.Command

/-- A list of names as a cell of a table; a dash where there is nothing to write. -/
def listCell (names : List String) : String :=
  let text := Text.join ", " names
  if text = "" then "-" else text

/-- The row of a contract: what is asked for, who handles it and what is taken from the request. -/
def contractRow (b : BindingContract) : List String :=
  let op := b.operation
  let fields := b.parameters.map (·.field)
  let body := (b.body.map fun body => Text.join ", " body.contract.contentTypes).getD "-"
  [op.method.label, op.path, b.handler, listCell fields, body]

/-- Checks a table of routes and lists its contracts. -/
def check (c : Console) (spec routes : String) (bodySlot : Option String) (strict : Option Bool) :
    Action Unit := do
  let b ← bindSources c spec routes ⟨bodySlot, strict, none⟩
  c.report b.diagnostics
  let warnings := b.diagnostics.filter (·.level = .warning)
  if b.config.compiler.failOnWarnings && !warnings.isEmpty then
    Action.fail (.warnings warnings.length)
  let contracts := b.report.contracts
  c.showTable s!"Routes ({contracts.length})" ["Method", "Path", "Handler", "Parameters", "Body"]
    (contracts.map contractRow)
  c.success s!"{contracts.length} route(s) match the document."

/-- The types and the contracts of a table of routes as data. -/
def contractsTree (b : Bound) : Tree :=
  .record [("openapi_version", .textOrNull b.api.version), ("types", b.api.types.tree),
    ("contracts", .list (b.report.contracts.map BindingContract.tree))]

/-- Writes the contracts of a table of routes, to a file if one is named. -/
def contracts (c : Console) (spec routes : String) (bodySlot file : Option String) :
    Action Unit := do
  let b ← bindSources c spec routes ⟨bodySlot, none, none⟩
  c.report b.diagnostics
  match file.filter (· ≠ "") with
  | none => c.showData (contractsTree b)
  | some path =>
    Console.writeFile path (contractsTree b)
    c.info s!"Wrote {b.report.contracts.length} contract(s) to {path}"
    c.suggest ("Validate again any time with: specbind check " ++ spec ++ " --routes " ++ routes)

end RouteBinding.Command
