import Mathlib.Data.List.Forall2
import RouteBinding.Proofs.Route.Group

/-!
# Matching routes with operations

What binding a table of routes comes to (`bindRoutes_correct`). The routes are taken up one after the other, with
what was met before at hand; what comes out is said without that, route by route: every method and path counts
where it first stands, and its errors are its own.
-/

namespace RouteBinding.CompiledApi

variable {api : CompiledApi} {slot : String} {routes : List Route} {r : Route}

/-! ## What a table should give -/

/-- The errors of the methods and paths that several routes have, in the order of their first places: each
with the handlers of all its routes. -/
def repeatedErrors (routes : List Route) : List CompileError :=
  (firstKeys routeKey routes).filterMap fun key =>
    let handlers := (routes.filter (routeKey · = key)).map (·.handler)
    if 1 < handlers.length then some (.duplicateRoute key.1 key.2 handlers) else none

/-- The errors that a route has by itself: that no operation has its method and path, or else those of its
binding. -/
def ownErrors (api : CompiledApi) (slot : String) (r : Route) : List CompileError :=
  match api.operationOf? (routeKey r) with
  | none => [api.missingError r]
  | some op =>
    match op.bind r.handler slot with
    | .ok _ => []
    | .error errors => errors

/-- The contract that a route has by itself. -/
def ownContract? (api : CompiledApi) (slot : String) (r : Route) : Option BindingContract :=
  (api.operationOf? (routeKey r)).bind fun op => (op.bind r.handler slot).toOption

/-! ## One route -/

/-- An operation that is found is one of the description, with the key it was asked for. -/
theorem operationOf?_eq_some {key : RouteKey} {op : Operation} (h : api.operationOf? key = some op) :
    op ∈ api.operations ∧ operationKey op = key := by
  have hkey := List.find?_some h
  exact ⟨List.mem_reverse.1 (List.mem_of_find?_eq_some h), of_decide_eq_true hkey⟩

/-- An operation is found if one has the key. -/
theorem isSome_operationOf? {key : RouteKey} :
    (api.operationOf? key).isSome ↔ key ∈ api.operations.map operationKey := by
  simp [operationOf?, List.find?_isSome, List.mem_map]

/-- A binding that fails has errors, and they are the same for every handler. -/
theorem bind_error {op : Operation} {handler : String} {errors : List CompileError}
    (h : op.bind handler slot = .error errors) : errors = op.clashes slot ∧ errors ≠ [] := by
  unfold Operation.bind at h
  split at h
  · cases h
  · rename_i hne
    cases h
    exact ⟨rfl, hne⟩

/-- An operation is bound if nothing clashes. -/
theorem bind_ok {op : Operation} {handler : String} {contract : BindingContract}
    (h : op.bind handler slot = .ok contract) :
    op.clashes slot = [] ∧ contract.operation = op ∧ contract.handler = handler := by
  unfold Operation.bind at h
  split at h
  · rename_i hnil
    cases h
    exact ⟨hnil, rfl, rfl⟩
  · cases h

/-- A route to an operation has the errors of its clashes. -/
theorem ownErrors_of_operationOf? {op : Operation} (h : api.operationOf? (routeKey r) = some op) :
    api.ownErrors slot r = op.clashes slot := by
  unfold ownErrors
  rw [h]
  dsimp only
  cases hbind : op.bind r.handler slot with
  | ok contract => exact (bind_ok hbind).1.symm
  | error errors => exact (bind_error hbind).1

/-- The errors of a route hang on its method and its path only. -/
theorem ownErrors_congr {r' : Route} (h : routeKey r = routeKey r') :
    api.ownErrors slot r = api.ownErrors slot r' := by
  obtain ⟨method, path, handler⟩ := r
  obtain ⟨method', path', handler'⟩ := r'
  cases h
  cases hop : api.operationOf? (method, path) with
  | none => simp only [ownErrors, routeKey, hop, missingError, Route.label]
  | some op => rw [ownErrors_of_operationOf? hop, ownErrors_of_operationOf? hop]

/-- A route has no errors exactly when it has a contract. -/
theorem ownErrors_eq_nil_iff :
    api.ownErrors slot r = [] ↔ (api.ownContract? slot r).isSome := by
  unfold ownErrors ownContract?
  cases api.operationOf? (routeKey r) with
  | none => simp
  | some op =>
    rw [Option.bind_some]
    dsimp only
    cases hbind : op.bind r.handler slot with
    | ok contract => simp [Except.toOption]
    | error errors => simpa [Except.toOption] using (bind_error hbind).2

/-- The contract of a route binds the operation that the route names. -/
theorem ownContract?_eq_some {contract : BindingContract}
    (h : api.ownContract? slot r = some contract) :
    ∃ op, api.operationOf? (routeKey r) = some op ∧ op.bind r.handler slot = .ok contract := by
  obtain ⟨op, hop, hbind⟩ := Option.bind_eq_some_iff.1 h
  refine ⟨op, hop, ?_⟩
  cases hresult : op.bind r.handler slot with
  | ok contract' => rw [hresult] at hbind; rw [Option.some.inj hbind]
  | error errors => rw [hresult] at hbind; cases hbind

/-! ## The routes one after the other -/

/-- What has come of some routes, where `before` are the errors that were there at the start. -/
structure Matched (api : CompiledApi) (slot : String) (before : List CompileError)
    (routes : List Route) (m : Matching) : Prop where
  seen : ∀ key, key ∈ m.seen ↔ key ∈ routes.map routeKey
  bound : ∀ key, key ∈ m.bound ↔
    key ∈ routes.map routeKey ∧ key ∈ api.operations.map operationKey
  contracts : m.contracts = (firstOfEach routeKey routes).filterMap (api.ownContract? slot)
  errors : m.errors = before ++ (firstOfEach routeKey routes).flatMap (api.ownErrors slot)

/-- A route whose key was seen changes nothing. -/
theorem matchRoute_of_mem {m : Matching} (h : routeKey r ∈ m.seen) : api.matchRoute slot m r = m := by
  have hseen : m.seen.contains (routeKey r) := List.contains_iff_mem.2 h
  simp only [matchRoute, hseen, if_true]

/-- A route that is met for the first time adds what it has by itself. -/
theorem matchRoute_of_notMem {m : Matching} (h : routeKey r ∉ m.seen) :
    api.matchRoute slot m r =
      ⟨m.seen ++ [routeKey r],
        if (api.operationOf? (routeKey r)).isSome then m.bound ++ [routeKey r] else m.bound,
        m.contracts ++ (api.ownContract? slot r).toList, m.errors ++ api.ownErrors slot r⟩ := by
  have hseen : ¬ m.seen.contains (routeKey r) := fun hc => h (List.contains_iff_mem.1 hc)
  unfold matchRoute ownContract? ownErrors
  rw [if_neg hseen]
  cases api.operationOf? (routeKey r) with
  | none => simp
  | some op =>
    rw [Option.bind_some]
    dsimp only
    cases op.bind r.handler slot with
    | ok contract => simp [Except.toOption]
    | error errors => simp [Except.toOption]

/-- One more route is taken up. -/
theorem Matched.step {before : List CompileError} {m : Matching}
    (h : Matched api slot before routes m) (r : Route) :
    Matched api slot before (routes ++ [r]) (api.matchRoute slot m r) := by
  have hkeys (key : RouteKey) :
      key ∈ (routes ++ [r]).map routeKey ↔ key ∈ routes.map routeKey ∨ key = routeKey r := by
    simp
  by_cases hmet : routeKey r ∈ routes.map routeKey
  · -- a method and a path that were met leave everything as it is
    have hkeys' (key : RouteKey) :
        key ∈ (routes ++ [r]).map routeKey ↔ key ∈ routes.map routeKey := by
      rw [hkeys]
      exact or_iff_left_of_imp fun heq => heq ▸ hmet
    have hfirst : firstOfEach routeKey (routes ++ [r]) = firstOfEach routeKey routes := by
      rw [firstOfEach_concat, if_pos hmet]
    rw [matchRoute_of_mem ((h.seen _).2 hmet)]
    constructor
    · intro key
      rw [hkeys', h.seen]
    · intro key
      rw [hkeys', h.bound]
    · rw [hfirst, h.contracts]
    · rw [hfirst, h.errors]
  · have hfirst : firstOfEach routeKey (routes ++ [r]) = firstOfEach routeKey routes ++ [r] := by
      rw [firstOfEach_concat, if_neg hmet]
    rw [matchRoute_of_notMem fun hseen => hmet ((h.seen _).1 hseen)]
    constructor
    · intro key
      rw [hkeys, List.mem_append, h.seen, List.mem_singleton]
    · intro key
      have hbound : key ∈ (if (api.operationOf? (routeKey r)).isSome then m.bound ++ [routeKey r]
          else m.bound) ↔
          key ∈ m.bound ∨ key = routeKey r ∧ key ∈ api.operations.map operationKey := by
        split_ifs with hop
        · rw [isSome_operationOf?] at hop
          rw [List.mem_append, List.mem_singleton]
          exact or_congr_right (iff_self_and.2 fun heq => heq ▸ hop)
        · rw [isSome_operationOf?] at hop
          refine (or_iff_left_of_imp ?_).symm
          rintro ⟨rfl, hmem⟩
          exact absurd hmem hop
      rw [hkeys, hbound, h.bound]
      exact or_and_right.symm
    · rw [hfirst, List.filterMap_append, h.contracts]
      cases hown : api.ownContract? slot r <;> simp [hown]
    · rw [hfirst, List.flatMap_append, h.errors, List.append_assoc, List.flatMap_singleton]

/-- All routes are taken up, by induction on the routes from the last one back. -/
theorem matched_foldl (api : CompiledApi) (slot : String) (before : List CompileError)
    (routes : List Route) :
    Matched api slot before routes (routes.foldl (api.matchRoute slot) ⟨[], [], [], before⟩) := by
  induction routes using List.reverseRecOn with
  | nil =>
    refine ⟨fun key => Iff.rfl, fun key => ?_, rfl, (List.append_nil before).symm⟩
    simp
  | append_singleton routes r ih =>
    rw [List.foldl_append]
    exact ih.step r

/-! ## Routes that are declared twice -/

theorem duplicateErrors_eq (routes : List Route) :
    duplicateErrors routes = repeatedErrors routes := by
  rw [duplicateErrors, repeatedErrors, groupBy_eq, List.filterMap_map]
  refine List.filterMap_congr fun key _ => ?_
  simp only [Function.comp_apply, List.length_map]

/-- There are no such errors exactly when no method and path comes twice. -/
theorem repeatedErrors_eq_nil_iff : repeatedErrors routes = [] ↔ (routes.map routeKey).Nodup := by
  rw [repeatedErrors, List.filterMap_eq_nil_iff, nodup_map_iff]
  refine forall₂_congr fun key _ => ?_
  dsimp only
  rw [List.length_map]
  split_ifs with h
  · simp [h]
  · simpa using h

/-! ## Whole tables -/

/-- Routes are bound if none repeats another and none has an error of its own. -/
theorem bindRoutes_eq (api : CompiledApi) (routes : List Route) (slot : String) (warnUnbound : Bool) :
    api.bindRoutes routes slot warnUnbound =
      match repeatedErrors routes ++ (firstOfEach routeKey routes).flatMap (api.ownErrors slot) with
      | [] => .ok ⟨(firstOfEach routeKey routes).filterMap (api.ownContract? slot),
          if warnUnbound then
            (api.operations.filter fun op => operationKey op ∉ routes.map routeKey).map unboundWarning
          else []⟩
      | errors => .error errors := by
  have hmatched := matched_foldl api slot (duplicateErrors routes) routes
  unfold bindRoutes
  dsimp only
  generalize routes.foldl (api.matchRoute slot) ⟨[], [], [], duplicateErrors routes⟩ = m at hmatched
  have hunbound : (api.operations.filter fun op => !m.bound.contains (operationKey op)) =
      api.operations.filter fun op => operationKey op ∉ routes.map routeKey := by
    refine List.filter_congr fun op hop => ?_
    have hbound : operationKey op ∈ m.bound ↔ operationKey op ∈ routes.map routeKey := by
      rw [hmatched.bound]
      exact and_iff_left (List.mem_map_of_mem hop)
    by_cases hmem : operationKey op ∈ routes.map routeKey
    · simp [hmem, hbound.2 hmem]
    · simp [hmem, mt hbound.1 hmem]
  rw [hunbound, ← hmatched.contracts, ← duplicateErrors_eq, ← hmatched.errors]
  cases m.errors <;> rfl

/-- What a table must be like to be bound: no two routes have one method and path, every route has those of an
operation, as they are written, and the operation that is known under them can be bound. -/
structure Bindable (api : CompiledApi) (slot : String) (routes : List Route) : Prop where
  distinct : (routes.map routeKey).Nodup
  known : ∀ r ∈ routes, ∃ op ∈ api.operations, op.method = r.method ∧ op.path = r.path
  binds : ∀ r ∈ routes, ∀ op, api.operationOf? (routeKey r) = some op →
    ∃ contract, op.bind r.handler slot = .ok contract

/-- A contract is that of a route: of the operation that is known under its method and path, and of its handler. -/
structure ContractFor (api : CompiledApi) (slot : String) (r : Route) (contract : BindingContract) :
    Prop where
  known : api.operationOf? (routeKey r) = some contract.operation
  operation : contract.operation ∈ api.operations
  method : contract.operation.method = r.method
  path : contract.operation.path = r.path
  handler : contract.handler = r.handler
  binding : contract.operation.bind r.handler slot = .ok contract

/-- A report on a table: the contract of every route, in order, and if asked for a warning for every operation
that no route names, in order. -/
structure Reports (api : CompiledApi) (slot : String) (warnUnbound : Bool) (routes : List Route)
    (report : BindingReport) : Prop where
  contracts : List.Forall₂ (api.ContractFor slot) routes report.contracts
  diagnostics : report.diagnostics =
    if warnUnbound then
      (api.operations.filter fun op => operationKey op ∉ routes.map routeKey).map unboundWarning
    else []

/-- The contract of a route is one for it. -/
theorem contractFor_of_ownContract? {contract : BindingContract}
    (h : api.ownContract? slot r = some contract) : api.ContractFor slot r contract := by
  obtain ⟨op, hop, hbind⟩ := ownContract?_eq_some h
  obtain ⟨hmem, hkey⟩ := operationOf?_eq_some hop
  obtain ⟨-, hoperation, hhandler⟩ := bind_ok hbind
  have hmethod : op.method = r.method := congrArg Prod.fst hkey
  have hpath : op.path = r.path := congrArg Prod.snd hkey
  subst hoperation
  exact ⟨hop, hmem, hmethod, hpath, hhandler, hbind⟩

/-- A table without errors is one that can be bound. -/
theorem bindable_iff : api.Bindable slot routes ↔
    repeatedErrors routes ++ (firstOfEach routeKey routes).flatMap (api.ownErrors slot) = [] := by
  have hknown (r : Route) : (∃ op ∈ api.operations, op.method = r.method ∧ op.path = r.path) ↔
      (api.operationOf? (routeKey r)).isSome := by
    simp [isSome_operationOf?, operationKey, routeKey]
  rw [List.append_eq_nil_iff, repeatedErrors_eq_nil_iff]
  constructor
  · intro h
    refine ⟨h.distinct, ?_⟩
    rw [firstOfEach_eq_self h.distinct, List.flatMap_eq_nil_iff]
    intro r hr
    obtain ⟨op, hop⟩ := Option.isSome_iff_exists.1 ((hknown r).1 (h.known r hr))
    obtain ⟨contract, hbind⟩ := h.binds r hr op hop
    rw [ownErrors_of_operationOf? hop]
    exact (bind_ok hbind).1
  · rintro ⟨hdistinct, hown⟩
    rw [firstOfEach_eq_self hdistinct, List.flatMap_eq_nil_iff] at hown
    have hcontract : ∀ r ∈ routes, ∃ op contract, api.operationOf? (routeKey r) = some op ∧
        op.bind r.handler slot = .ok contract := by
      intro r hr
      obtain ⟨contract, hc⟩ := Option.isSome_iff_exists.1 (ownErrors_eq_nil_iff.1 (hown r hr))
      obtain ⟨op, hop⟩ := ownContract?_eq_some hc
      exact ⟨op, contract, hop⟩
    refine ⟨hdistinct, fun r hr => ?_, fun r hr op hop => ?_⟩
    · obtain ⟨op, contract, hop, -⟩ := hcontract r hr
      rw [hknown, hop]
      rfl
    · obtain ⟨op', contract, hop', hbind⟩ := hcontract r hr
      rw [hop] at hop'
      cases hop'
      exact ⟨contract, hbind⟩

/-- Routes without errors have all their contracts. -/
theorem forall₂_ownContract? (h : ∀ r ∈ routes, api.ownErrors slot r = []) :
    List.Forall₂ (api.ContractFor slot) routes (routes.filterMap (api.ownContract? slot)) := by
  induction routes with
  | nil => exact .nil
  | cons r rest ih =>
    have hsome := ownErrors_eq_nil_iff.1 (h r List.mem_cons_self)
    obtain ⟨contract, hcontract⟩ := Option.isSome_iff_exists.1 hsome
    rw [List.filterMap_cons_some hcontract]
    have hrest := ih fun r' hr' => h r' (List.mem_cons_of_mem r hr')
    exact .cons (contractFor_of_ownContract? hcontract) hrest

/-- What is reported is what the routes ask for. -/
theorem reports_of_bindRoutes {warnUnbound : Bool} {report : BindingReport}
    (h : api.bindRoutes routes slot warnUnbound = .ok report) :
    api.Reports slot warnUnbound routes report := by
  rw [bindRoutes_eq] at h
  split at h
  · rename_i hnil
    cases h
    obtain ⟨hrepeated, hown⟩ := List.append_eq_nil_iff.1 hnil
    have hself : firstOfEach routeKey routes = routes :=
      firstOfEach_eq_self (repeatedErrors_eq_nil_iff.1 hrepeated)
    rw [hself] at hown ⊢
    exact ⟨forall₂_ownContract? (List.flatMap_eq_nil_iff.1 hown), rfl⟩
  · cases h

/-- There is a report if the routes can be bound. -/
theorem exists_bindRoutes_iff {warnUnbound : Bool} :
    (∃ report, api.bindRoutes routes slot warnUnbound = .ok report) ↔ api.Bindable slot routes := by
  rw [bindable_iff, bindRoutes_eq]
  split
  · exact iff_of_true ⟨_, rfl⟩ ‹_›
  · refine iff_of_false ?_ ‹_›
    rintro ⟨report, hreport⟩
    cases hreport

/-- The errors are those of the repeated routes and then those of each route. -/
theorem errors_of_bindRoutes {warnUnbound : Bool} {errors : List CompileError}
    (h : api.bindRoutes routes slot warnUnbound = .error errors) :
    errors = repeatedErrors routes ++ (firstOfEach routeKey routes).flatMap (api.ownErrors slot) := by
  rw [bindRoutes_eq] at h
  split at h
  · cases h
  · exact (Except.error.inj h).symm

/-- The errors of an outcome. -/
def errorsOf {α : Type} : Except (List CompileError) α → List CompileError
  | .ok _ => []
  | .error errors => errors

/-- What a route adds to the errors of a table are the errors of the table that holds it alone. -/
theorem ownErrors_eq (api : CompiledApi) (slot : String) (warnUnbound : Bool) (r : Route) :
    api.ownErrors slot r = errorsOf (api.bindRoutes [r] slot warnUnbound) := by
  have hdistinct : ([r].map routeKey).Nodup := List.nodup_singleton _
  have hrepeated : repeatedErrors [r] = [] := repeatedErrors_eq_nil_iff.2 hdistinct
  rw [bindRoutes_eq, hrepeated, firstOfEach_eq_self hdistinct, List.nil_append,
    List.flatMap_singleton]
  cases api.ownErrors slot r <;> rfl

/-- Binding a table of routes succeeds exactly when the table can be bound, and then gives the report on it.
Otherwise it gives the errors of the methods and paths that come twice, and after them those of every method and
path by itself: what a route adds there are the errors of the table that holds it alone, whatever its handler. -/
theorem bindRoutes_correct (api : CompiledApi) (routes : List Route) (slot : String)
    (warnUnbound : Bool) :
    ((∃ report, api.bindRoutes routes slot warnUnbound = .ok report) ↔ api.Bindable slot routes) ∧
      (∀ report, api.bindRoutes routes slot warnUnbound = .ok report →
        api.Reports slot warnUnbound routes report) ∧
      (∀ errors, api.bindRoutes routes slot warnUnbound = .error errors → errors =
        repeatedErrors routes ++ (firstOfEach routeKey routes).flatMap (api.ownErrors slot)) ∧
      ∀ r, api.ownErrors slot r = errorsOf (api.bindRoutes [r] slot warnUnbound) ∧
        ∀ r', routeKey r' = routeKey r → api.ownErrors slot r' = api.ownErrors slot r := by
  refine ⟨exists_bindRoutes_iff, ?_, ?_, fun r => ⟨ownErrors_eq api slot warnUnbound r, ?_⟩⟩
  · intro report hreport
    exact reports_of_bindRoutes hreport
  · intro errors herrors
    exact errors_of_bindRoutes herrors
  · intro r' hkey
    exact ownErrors_congr hkey

/-- A route that is declared twice, and between its two places one that no operation has. -/
example :
    CompiledApi.bindRoutes ⟨.empty, [⟨.get, "/a", "GetA", none, none, [], none, []⟩], [], none⟩
        [⟨.get, "/a", "first"⟩, ⟨.get, "/b", "other"⟩, ⟨.get, "/a", "second"⟩] "body" true =
      .error [.duplicateRoute .get "/a" ["first", "second"],
        .unknownRoute .get "/b" .unknownPath] := by
  decide

end RouteBinding.CompiledApi
