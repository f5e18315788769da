import RouteBinding.Proofs.Route.Declared
import RouteBinding.Route.Registry

/-!
# Registries after any calls

Routes are added to a registry by calls, some of which are refused. A call that is refused leaves the registry as it
was (`Call.run_eq`). What a registry holds can then be told from its calls alone (`calls_register`): its routes are
those of the calls that succeed, in the order of the calls, and under an identity it has the callable of the last call
that succeeds with such a callable, whatever is added before or after by that identity as a text.
-/

namespace RouteBinding.Registry

open CompiledApi (ContractFor)

variable {κ : Type}

/-! ## Calls -/

/-- A call that adds a route to a registry: with a handler of either kind, or with a callable by a decorator, which is
given a method as data or is that of a method. -/
inductive Call (κ : Type)
  | add (method path : Given) (handler : Handler κ)
  | decorate (method path : Given) (c : κ)
  | decorateFor (method : Method) (path : Given) (c : κ)
deriving DecidableEq

namespace Call

/-- The method that a call is given. -/
def method : Call κ → Given
  | add method .. => method
  | decorate method .. => method
  | decorateFor method .. => .text method.name

/-- The path that a call is given. -/
def path : Call κ → Given
  | add _ path _ => path
  | decorate _ path _ => path
  | decorateFor _ path _ => path

/-- The handler that a call is given. -/
def handler : Call κ → Handler κ
  | add _ _ handler => handler
  | decorate _ _ c => .callable c
  | decorateFor _ _ c => .callable c

variable [HasIdentity κ]

/-- What a call does to a registry. -/
def run : Call κ → Registering κ Unit
  | add method path handler => do let _ ← adding method path handler
  | decorate method path c => do let _ ← decorating method path c
  | decorateFor method path c => do let _ ← decorating (.text method.name) path c

/-- The route that a call declares, or why it is refused. -/
def declared (call : Call κ) : Except RouteError Route :=
  Route.declare call.method call.path (.text call.handler.text)

/-- The route of a call that succeeds. -/
def route? (call : Call κ) : Option Route :=
  call.declared.toOption

/-- The callable of a call that succeeds and is given one. -/
def callable? (call : Call κ) : Option κ :=
  match call.declared, call.handler with
  | .ok _, .callable c => some c
  | _, _ => none

end Call

variable [HasIdentity κ] {calls : List (Call κ)} {identity : String} {c : κ}

/-- The registry after some calls. -/
def after (calls : List (Call κ)) : Registry κ :=
  calls.foldl (fun r call => (call.run r).2) empty

/-- A callable is that of the last call among those that succeed with a callable of an identity. -/
def LastUnder (identity : String) (calls : List (Call κ)) (c : κ) : Prop :=
  ∃ before call behind, calls = before ++ call :: behind ∧
    call.callable? = some c ∧ HasIdentity.identity c = identity ∧
    ∀ call' ∈ behind, ∀ c', call'.callable? = some c' → HasIdentity.identity c' ≠ identity

/-! ## One call -/

/-- The registry with a route, and with its handler if that is a callable. -/
def including (r : Registry κ) (route : Route) : Handler κ → Registry κ
  | .identity _ => ⟨r.routes ++ [route], r.callables⟩
  | .callable c => ⟨r.routes ++ [route], (HasIdentity.identity c, c) :: r.callables⟩

theorem adding_apply (method path : Given) (handler : Handler κ) (r : Registry κ) :
    adding method path handler r =
      match Route.declare method path (.text handler.text) with
      | .ok route => (.ok route, r.including route handler)
      | .error e => (.error e, r) := by
  unfold adding
  cases Route.declare method path (.text handler.text) with
  | error e => rfl
  | ok route => cases handler <;> rfl

theorem decorating_apply (method path : Given) (c : κ) (r : Registry κ) :
    decorating method path c r =
      match Route.declare method path (.text (HasIdentity.identity c)) with
      | .ok route => (.ok c, r.including route (.callable c))
      | .error e => (.error e, r) := by
  rw [decorating, Step.bind_apply, adding_apply, Handler.text]
  cases Route.declare method path (.text (HasIdentity.identity c)) <;> rfl

/-- A call adds the route that it declares, or is refused and changes nothing. -/
theorem Call.run_eq (call : Call κ) (r : Registry κ) :
    call.run r =
      match call.declared with
      | .ok route => (.ok (), r.including route call.handler)
      | .error e => (.error e, r) := by
  cases call with
  | add m p h =>
    rw [run, Step.bind_apply, adding_apply, declared, method, path, handler]
    cases Route.declare m p (.text h.text) <;> rfl
  | decorate m p c =>
    rw [run, Step.bind_apply, decorating_apply, declared, method, path, handler, Handler.text]
    cases Route.declare m p (.text (HasIdentity.identity c)) <;> rfl
  | decorateFor m p c =>
    rw [run, Step.bind_apply, decorating_apply, declared, method, path, handler, Handler.text]
    cases Route.declare (.text m.name) p (.text (HasIdentity.identity c)) <;> rfl

theorem Call.run_of_refused {call : Call κ} {e : RouteError} (h : call.declared = .error e) (r : Registry κ) :
    call.run r = (.error e, r) := by
  rw [run_eq, h]

theorem Call.run_of_declared {call : Call κ} {route : Route} (h : call.declared = .ok route) (r : Registry κ) :
    call.run r = (.ok (), r.including route call.handler) := by
  rw [run_eq, h]

/-! ## Any calls -/

theorem after_concat (calls : List (Call κ)) (call : Call κ) :
    after (calls ++ [call]) = (call.run (after calls)).2 := by
  rw [after, List.foldl_append]
  rfl

/-- What a registry holds after some calls, by induction on the calls from the last one back: their routes in order, and
their callables, the last one first. -/
theorem after_eq (calls : List (Call κ)) :
    after calls =
      ⟨calls.filterMap Call.route?,
        (calls.filterMap Call.callable?).reverse.map fun c => (HasIdentity.identity c, c)⟩ := by
  induction calls using List.reverseRecOn with
  | nil => rfl
  | append_singleton calls call ih =>
    rw [after_concat, ih, List.filterMap_append, List.filterMap_append, List.filterMap_cons, List.filterMap_cons,
      List.filterMap_nil, List.filterMap_nil]
    cases hdeclared : call.declared with
    | error e =>
      have hroute : call.route? = none := by rw [Call.route?, hdeclared]; rfl
      have hcallable : call.callable? = none := by rw [Call.callable?, hdeclared]
      rw [Call.run_of_refused hdeclared, hroute, hcallable]
      simp
    | ok route =>
      have hroute : call.route? = some route := by rw [Call.route?, hdeclared]; rfl
      rw [Call.run_of_declared hdeclared, hroute]
      cases hhandler : call.handler with
      | identity text =>
        have hcallable : call.callable? = none := by rw [Call.callable?, hdeclared, hhandler]
        simp [including, hcallable]
      | callable c =>
        have hcallable : call.callable? = some c := by rw [Call.callable?, hdeclared, hhandler]
        simp [including, hcallable]

theorem lookup_identity (cs : List κ) (identity : String) :
    (cs.map fun c => (HasIdentity.identity c, c)).lookup identity =
      cs.find? (HasIdentity.identity · = identity) := by
  induction cs with
  | nil => rfl
  | cons c rest ih =>
    rw [List.map_cons, List.lookup_cons, List.find?_cons, ih]
    by_cases h : HasIdentity.identity c = identity
    · simp [h]
    · have hne : (identity == HasIdentity.identity c) = false := beq_false_of_ne (Ne.symm h)
      simp [h, hne]

/-- Under an identity stands the callable of the last call that succeeds with such a callable. -/
theorem callable?_after_eq_some : (after calls).callable? identity = some c ↔ LastUnder identity calls c := by
  rw [after_eq, Registry.callable?, lookup_identity, List.find?_eq_some_iff_append]
  constructor
  · rintro ⟨hidentity, as, bs, hsplit, hbehind⟩
    have hcalls := congrArg List.reverse hsplit
    rw [List.reverse_reverse, List.reverse_append, List.reverse_cons, List.append_assoc,
      List.singleton_append] at hcalls
    obtain ⟨front, rest, rfl, -, hrest⟩ := List.filterMap_eq_append_iff.1 hcalls
    obtain ⟨skipped, call, behind, rfl, -, hcall, hlast⟩ := List.filterMap_eq_cons_iff.1 hrest
    refine ⟨front ++ skipped, call, behind, by simp, hcall, of_decide_eq_true hidentity, ?_⟩
    intro call' hcall' c' hc'
    have hmem : c' ∈ behind.filterMap Call.callable? := List.mem_filterMap.2 ⟨call', hcall', hc'⟩
    rw [hlast, List.mem_reverse] at hmem
    simpa using hbehind c' hmem
  · rintro ⟨before, call, behind, rfl, hcall, hidentity, hbehind⟩
    refine ⟨decide_eq_true hidentity, (behind.filterMap Call.callable?).reverse,
      (before.filterMap Call.callable?).reverse, ?_, fun c' hc' => ?_⟩
    · rw [List.filterMap_append, List.filterMap_cons_some hcall]
      simp
    · obtain ⟨call', hcall', hc''⟩ := List.mem_filterMap.1 (List.mem_reverse.1 hc')
      simpa using hbehind call' hcall' c' hc''

theorem callable?_after_eq_none :
    (after calls).callable? identity = none ↔
      ∀ call ∈ calls, ∀ c, call.callable? = some c → HasIdentity.identity c ≠ identity := by
  rw [after_eq, Registry.callable?, lookup_identity, List.find?_eq_none]
  simp only [List.mem_reverse, List.mem_filterMap, decide_eq_true_eq]
  exact ⟨fun h call hcall c hc => h c ⟨call, hcall, hc⟩, fun h c ⟨call, hcall, hc⟩ => h call hcall c hc⟩

/-- A call that is refused leaves a registry as it was, and one that succeeds adds the route that it declares. So after
any calls the routes are those of the calls that succeed, in order. Under an identity there is the callable of the last
call that succeeds with such a callable, and none exactly if there is no such call. To bind the registry is to bind
those routes, and each contract is then that of the route in its place. -/
theorem calls_register (calls : List (Call κ)) (api : CompiledApi) (config : Option CompilerConfig) :
    (∀ (call : Call κ) (r : Registry κ),
      (∀ e, (call.run r).1 = .error e → (call.run r).2 = r ∧ call.route? = none) ∧
        ((call.run r).1 = .ok () →
          ∃ route, call.route? = some route ∧ (call.run r).2.routes = r.routes ++ [route])) ∧
    (after calls).routes = calls.filterMap Call.route? ∧
    (∀ identity, (∀ c, (after calls).callable? identity = some c ↔ LastUnder identity calls c) ∧
      ((after calls).callable? identity = none ↔
        ∀ call ∈ calls, ∀ c, call.callable? = some c → HasIdentity.identity c ≠ identity)) ∧
    (after calls).bind api config = api.bindTable (calls.filterMap Call.route?) config ∧
    ∀ report, (after calls).bind api config = .ok report →
      List.Forall₂ (api.ContractFor (config.getD .default).bodySlot) (calls.filterMap Call.route?)
        report.contracts := by
  have hroutes : (after calls).routes = calls.filterMap Call.route? := by rw [after_eq]
  have hbind : (after calls).bind api config = api.bindTable (calls.filterMap Call.route?) config := by
    rw [bind, hroutes]
  refine ⟨fun call r => ?_, hroutes, fun identity => ⟨fun c => callable?_after_eq_some, callable?_after_eq_none⟩,
    hbind, fun report hreport => ?_⟩
  · cases hdeclared : call.declared with
    | error e =>
      rw [Call.run_of_refused hdeclared, Call.route?, hdeclared]
      exact ⟨fun _ _ => ⟨rfl, rfl⟩, nofun⟩
    | ok route =>
      rw [Call.run_of_declared hdeclared, Call.route?, hdeclared]
      exact ⟨nofun, fun _ => ⟨route, rfl, by cases call.handler <;> rfl⟩⟩
  · rw [hbind] at hreport
    exact (CompiledApi.reports_of_bindRoutes hreport).contracts

/-- A callable stays found where the same identity is added as a text, and where one of its own calls is refused. -/
example :
    after (κ := Callable) [.add (.text "get") (.text "/a") (.callable ⟨"m", "f"⟩),
        .decorate (.text "trace") (.text "/b") ⟨"m", "f"⟩, .add (.text "put") (.text "/a") (.identity "m:f")] =
      ⟨[⟨.get, "/a", "m:f"⟩, ⟨.put, "/a", "m:f"⟩], [("m:f", ⟨"m", "f"⟩)]⟩ := by
  decide

end RouteBinding.Registry
