import RouteBinding.Naming
import RouteBinding.Operation.Basic
import RouteBinding.PathTemplate
import RouteBinding.Route.Basic

/-!
# Binding routes to operations

Every route is paired with the operation of its method and path, and gets a contract that says
which field each parameter is bound to and where the request body goes. Paths are compared as they
are written: a placeholder's name becomes a field. One field name is reserved for the body.
-/

namespace RouteBinding

/-! ## Groups -/

/-- Puts a value into the group of its key: at the end of the group, or as a new group at the end. -/
def putInGroup {κ α : Type} [DecidableEq κ] (key : κ) (value : α) :
    List (κ × List α) → List (κ × List α)
  | [] => [(key, [value])]
  | (k, values) :: rest =>
    if k = key then (k, values ++ [value]) :: rest else (k, values) :: putInGroup key value rest

/-- Groups the values of a list by a key, in the order in which the keys first come. -/
def groupBy {κ α : Type} [DecidableEq κ] (key : α → κ) (l : List α) : List (κ × List α) :=
  l.foldl (fun groups a => putInGroup (key a) a groups) []

/-! ## Contracts -/

/-- How one parameter reaches the handler. -/
structure ParameterBinding where
  parameter : Parameter
  field : String
deriving DecidableEq, Inhabited

/-- How the request body reaches the handler. -/
structure BodyBinding where
  slot : String
  contract : BodyContract
deriving DecidableEq, Inhabited

/-- A route with its operation and the rules by which values are taken from a request. -/
structure BindingContract where
  operation : Operation
  handler : String
  parameters : List ParameterBinding
  body : Option BodyBinding
deriving DecidableEq, Inhabited

/-- The entry that a request with a content type is decoded by. -/
def BindingContract.bodyFor (c : BindingContract) (contentType : String) :
    Except CompileError BodyEntry :=
  match c.body with
  | some body => body.contract.select contentType (some c.operation.label)
  | none => .error (.unsupportedContentType contentType [] (some c.operation.label))

/-- One contract for every declared route, and what was noticed. -/
structure BindingReport where
  contracts : List BindingContract
  diagnostics : List Diagnostic
deriving DecidableEq, Inhabited

/-- The first contract with a handler. -/
def BindingReport.forHandler? (r : BindingReport) (handler : String) : Option BindingContract :=
  r.contracts.find? (·.handler = handler)

namespace Operation

/-- The field that each parameter is bound to. -/
def bindings (op : Operation) : List ParameterBinding :=
  op.parameters.map fun p => ⟨p, Naming.fieldName p.name⟩

/-- The names of the parameters that are bound to each field, in the order in which the fields first
come. -/
def byField (bs : List ParameterBinding) : List (String × List String) :=
  (groupBy (·.field) bs).map fun g => (g.1, g.2.map (·.parameter.name))

/-- The clashes of an operation's parameters: those with the field of the body, and then every field
that several others share. -/
def clashes (op : Operation) (slot : String) : List CompileError :=
  let (reserved, free) := op.bindings.partition (·.field = slot)
  let reservedErrors := reserved.map fun b => CompileError.reservedName b.parameter.name op.label
  let shared := (byField free).filter fun e => 1 < e.2.length
  reservedErrors ++ shared.map fun e => .bindingCollision e.1 e.2 op.label

/-- The contract of an operation and a handler, or every clash of its parameters. The body slot is
kept free also where there is no body, so that a body added later renames no field. -/
def bind (op : Operation) (handler slot : String) : Except (List CompileError) BindingContract :=
  match op.clashes slot with
  | [] => .ok ⟨op, handler, op.bindings, op.body.map fun body => ⟨slot, body⟩⟩
  | errors => .error errors

end Operation

/-! ## Tables of routes -/

namespace CompiledApi

/-- What a route is found by. -/
abbrev RouteKey := Method × String

/-- The method and the path of a route. -/
def routeKey (r : Route) : RouteKey := (r.method, r.path)

/-- The method and the path of an operation. -/
def operationKey (op : Operation) : RouteKey := (op.method, op.path)

/-- The operation that is known under a method and a path; of two under one key the later counts. -/
def operationOf? (api : CompiledApi) (key : RouteKey) : Option Operation :=
  api.operations.reverse.find? (operationKey · = key)

/-- The error of every method and path that is declared more than once, in the order in which they
first come. -/
def duplicateErrors (routes : List Route) : List CompileError :=
  (groupBy routeKey routes).filterMap fun (key, group) =>
    if 1 < group.length then some (.duplicateRoute key.1 key.2 (group.map (·.handler))) else none

/-- Why a route has no operation: a placeholder that an operation of the same shape names otherwise,
else a method that the path does not have, else an unknown path. -/
def missingError (api : CompiledApi) (r : Route) : CompileError :=
  let renamed := api.operations.findSome? fun op =>
    if op.method = r.method then
      (PathTemplate.mismatch? r.path op.path).map fun names =>
        CompileError.templateMismatch names.1 r.label (.renamed names.2 op.method op.path)
    else none
  match renamed with
  | some e => e
  | none =>
    match (api.operations.filter (·.path = r.path)).map (·.method) with
    | [] => .unknownRoute r.method r.path .unknownPath
    | methods => .unknownRoute r.method r.path (.unknownMethod methods)

/-- The warning for an operation that no route names. -/
def unboundWarning (op : Operation) : Diagnostic :=
  ⟨.warning, "Operation " ++ op.label ++ " has no declared route", some op.label⟩

/-- What has come of the routes so far: the methods and paths that were met, those among them that have
an operation, the contracts and the errors. -/
structure Matching where
  seen : List RouteKey
  bound : List RouteKey
  contracts : List BindingContract
  errors : List CompileError

/-- Takes up the next route. One whose method and path were met before is passed over. -/
def matchRoute (api : CompiledApi) (slot : String) (m : Matching) (r : Route) : Matching :=
  let key := routeKey r
  if m.seen.contains key then m
  else
    let seen := m.seen ++ [key]
    match api.operationOf? key with
    | none => { m with seen := seen, errors := m.errors ++ [api.missingError r] }
    | some op =>
      let bound := m.bound ++ [key]
      match op.bind r.handler slot with
      | .ok contract =>
        { m with seen := seen, bound := bound, contracts := m.contracts ++ [contract] }
      | .error errors => { m with seen := seen, bound := bound, errors := m.errors ++ errors }

/-- Binds a table of routes: one contract for every route in order, or every error. The errors of
routes that are declared twice come first. -/
def bindRoutes (api : CompiledApi) (routes : List Route) (slot : String) (warnUnbound : Bool) :
    Except (List CompileError) BindingReport :=
  let start : Matching := ⟨[], [], [], duplicateErrors routes⟩
  let m := routes.foldl (api.matchRoute slot) start
  if m.errors.isEmpty then
    let unbound := api.operations.filter fun op => !m.bound.contains (operationKey op)
    .ok ⟨m.contracts, if warnUnbound then unbound.map unboundWarning else []⟩
  else .error m.errors

end CompiledApi

end RouteBinding
