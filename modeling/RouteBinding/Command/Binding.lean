import RouteBinding.Config.Store
import RouteBinding.Console
import RouteBinding.Document.Source
import RouteBinding.Operation.Compiler
import RouteBinding.Route.Binding

/-!
# From sources to bindings

What the commands have in common: a description is loaded and compiled, and a table of routes is bound to
it. Of several faults the first one counts: in the configuration, in the description, in the table, in the
binding.
-/

namespace RouteBinding.Command

/-- Compiles the description at a source. -/
def compileSource (c : Console) (source : String) : Action CompiledApi := do
  let d ← Document.loadSpec source
  let version ← Action.ofExcept id d.version
  c.debug ("Loaded OpenAPI " ++ version ++ " document from " ++ source)
  match compile d (some version) with
  | .error (.errors es) => Action.fail (.compile es)
  | .error (.breakdown b) => Action.fail (.breakdown b)
  | .ok api =>
    c.debug s!"Compiled {api.types.size} type(s) and {api.operations.length} operation(s)"
    return api

/-- A table of routes bound to a description, and the configuration in force. -/
structure Bound where
  config : Config
  api : CompiledApi
  report : BindingReport

/-- What was noticed in the description and in the table. -/
def Bound.diagnostics (b : Bound) : List Diagnostic :=
  b.api.diagnostics ++ b.report.diagnostics

/-- Binds the table of routes at a source to the description at another. -/
def bindSources (c : Console) (spec routes : String) (settings : Settings) : Action Bound := do
  let config ← ConfigStore.loadResolved settings
  let api ← compileSource c spec
  let table ← Document.loadRoutes routes
  let bound := api.bindRoutes table config.compiler.bodySlot config.compiler.warnUnbound
  let report ← Action.ofExcept .compile bound
  return ⟨config, api, report⟩

end RouteBinding.Command
