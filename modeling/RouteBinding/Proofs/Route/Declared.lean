import RouteBinding.Proofs.Operation.Inventory
import RouteBinding.Proofs.Route.Matching

/-!
# Routes for operations

A route can be declared for an operation unless the operation is one of tracing, or its path does not start with a
slash (`Operation.declare_eq_ok`). A table with a route for every other operation binds each of them, and leaves
those that no route can be declared for without one (`exists_bindRoutes_of_declare`).
-/

namespace RouteBinding

open CompiledApi (operationKey routeKey)

theorem Method.ofName?_name (m : Method) : ofName? m.name = some m := by
  cases m <;> decide

/-- A declaration is a route exactly if each of its parts is one of a route. -/
theorem Route.declare_eq_ok {method path handler : Given} {r : Route} :
    declare method path handler = .ok r ↔
      readMethod method = .ok r.method ∧ readPath path = .ok r.path ∧ readHandler handler = .ok r.handler := by
  obtain ⟨m, p, h⟩ := r
  unfold declare
  split
  · rename_i hmethod hpath hhandler
    simp [hmethod, hpath, hhandler]
  · rename_i hnone
    simp only [reduceCtorEq, false_iff]
    rintro ⟨hmethod, hpath, hhandler⟩
    exact hnone _ _ _ hmethod hpath hhandler

namespace Operation

variable {op : Operation} {handler slot : String} {r : Route}

/-- Declares the route of an operation. -/
def declare (op : Operation) (handler : String) : Except RouteError Route :=
  Route.declare (.text op.method.name) (.text op.path) (.text handler)

/-- Whether a route can be declared for an operation. -/
def isDeclarable (op : Operation) : Bool :=
  op.method.isRoutable && Text.startsWith op.path "/"

/-- The route of an operation. -/
def route (op : Operation) (handler : String) : Route :=
  ⟨op.method, op.path, handler⟩

/-- The route of an operation is declared, if one can be. -/
theorem declare_eq_ok : op.declare handler = .ok r ↔ op.isDeclarable ∧ op.route handler = r := by
  obtain ⟨method, path, handler'⟩ := r
  rw [declare, Route.declare_eq_ok, Route.readMethod, Route.readPath, Route.readHandler, Given.method?,
    Method.ofName?_name, isDeclarable, route]
  cases hmethod : op.method.isRoutable <;> cases hpath : Text.startsWith op.path "/" <;> simp [hmethod]

theorem exists_declare_iff : (∃ r, op.declare handler = .ok r) ↔ op.isDeclarable := by
  simp [declare_eq_ok]

theorem isDeclarable_iff : op.isDeclarable ↔ op.method ≠ .trace ∧ Text.startsWith op.path "/" = true := by
  rw [isDeclarable, Method.isRoutable, Bool.and_eq_true, decide_eq_true_eq]

theorem bind_of_clashes (h : op.clashes slot = []) : ∃ contract, op.bind handler slot = .ok contract := by
  rw [bind, h]
  exact ⟨_, rfl⟩

end Operation

namespace CompiledApi

variable {api : CompiledApi} {slot : String} {handler : Operation → String} {routes : List Route}

/-- The operations that a route can be declared for. -/
def declarable (api : CompiledApi) : List Operation :=
  api.operations.filter (·.isDeclarable)

/-- The operations that no route can be declared for. -/
def undeclarable (api : CompiledApi) : List Operation :=
  api.operations.filter fun op => !op.isDeclarable

/-- A table declares the operations of an API: each one that can be, in order. -/
def Declares (api : CompiledApi) (handler : Operation → String) (routes : List Route) : Prop :=
  List.Forall₂ (fun op r => op.declare (handler op) = .ok r) api.declarable routes

theorem Declares.eq (h : api.Declares handler routes) :
    routes = api.declarable.map fun op => op.route (handler op) := by
  have heq : List.Forall₂ (fun op r => op.route (handler op) = r) api.declarable routes :=
    h.imp fun op r hr => (Operation.declare_eq_ok.1 hr).2
  have hmap := List.forall₂_map_left_iff.2 heq
  rw [List.forall₂_eq_eq_eq] at hmap
  exact hmap.symm

theorem exists_declares (api : CompiledApi) (handler : Operation → String) :
    ∃ routes, api.Declares handler routes := by
  refine ⟨api.declarable.map fun op => op.route (handler op), List.forall₂_map_right_iff.2 ?_⟩
  refine List.forall₂_same.2 fun op hop => Operation.declare_eq_ok.2 ⟨?_, rfl⟩
  exact (List.mem_filter.1 hop).2

/-- Such a table is bound if its operations can be, and what is left without a route is what no route can be declared
for. -/
theorem Declares.exists_bindRoutes (h : api.Declares handler routes)
    (hdistinct : (api.operations.map operationKey).Nodup)
    (hbinds : ∀ op ∈ api.operations, ∃ contract, op.bind (handler op) slot = .ok contract) (warnUnbound : Bool) :
    ∃ report, api.bindRoutes routes slot warnUnbound = .ok report ∧
      List.Forall₂ (fun op contract => op.bind (handler op) slot = .ok contract) api.declarable report.contracts ∧
      report.diagnostics = if warnUnbound then api.undeclarable.map unboundWarning else [] := by
  obtain rfl := h.eq
  have hkeys : (api.declarable.map fun op => op.route (handler op)).map routeKey = api.declarable.map operationKey := by
    rw [List.map_map]
    rfl
  have hmem {op : Operation} (hop : op ∈ api.declarable) : op ∈ api.operations := (List.mem_filter.1 hop).1
  have hbindable : api.Bindable slot (api.declarable.map fun op => op.route (handler op)) := by
    constructor
    · rw [hkeys]
      exact hdistinct.sublist (List.filter_sublist.map _)
    · rw [List.forall_mem_map]
      exact fun op hop => ⟨op, hmem hop, rfl, rfl⟩
    · rw [List.forall_mem_map]
      intro op hop found hfound
      obtain ⟨contract, hcontract⟩ := hbinds found (operationOf?_eq_some hfound).1
      exact Operation.bind_of_clashes (bind_ok hcontract).1
  obtain ⟨report, hreport⟩ := exists_bindRoutes_iff.2 hbindable
  obtain ⟨hcontracts, hdiagnostics⟩ := reports_of_bindRoutes hreport
  refine ⟨report, hreport, ?_, ?_⟩
  · have hpairs := (List.forall₂_and_left _ _).2
      ⟨fun op (hop : op ∈ api.declarable) => hop, List.forall₂_map_left_iff.1 hcontracts⟩
    refine hpairs.imp fun op contract hpair => ?_
    obtain ⟨hop, hcontract⟩ := hpair
    -- no other operation has the method and the path of the route
    have hsame : contract.operation = op :=
      List.inj_on_of_nodup_map hdistinct hcontract.operation (hmem hop) (Prod.ext hcontract.method hcontract.path)
    have hbind := hcontract.binding
    rw [hsame] at hbind
    exact hbind
  · have hleft : (api.operations.filter fun op => operationKey op ∉ api.declarable.map operationKey) =
        api.undeclarable := by
      refine List.filter_congr fun op hop => ?_
      have hdeclared : operationKey op ∈ api.declarable.map operationKey ↔ op.isDeclarable := by
        constructor
        · intro hkey
          obtain ⟨op', hop', heq⟩ := List.mem_map.1 hkey
          obtain rfl := List.inj_on_of_nodup_map hdistinct (hmem hop') hop heq
          exact (List.mem_filter.1 hop').2
        · intro hdeclarable
          exact List.mem_map_of_mem (List.mem_filter.2 ⟨hop, hdeclarable⟩)
      cases hdeclarable : op.isDeclarable <;> simp [hdeclared, hdeclarable]
    rw [hdiagnostics, hkeys, hleft]

end CompiledApi

end RouteBinding
