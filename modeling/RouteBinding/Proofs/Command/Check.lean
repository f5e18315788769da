import RouteBinding.Command.Check
import RouteBinding.Proofs.Console
import RouteBinding.Proofs.Operation.Collected
import RouteBinding.Proofs.Route.Declared

/-!
# Checks that pass

A description is bound as far as routes can be declared for its operations. Where that is all of them a strict check of
such a table passes on every console that writes plainly (`compile_declarable`).
-/

namespace RouteBinding

open CompiledApi (operationKey unboundWarning)

namespace Command

variable {c : Console} {spec source : String} {settings : Settings} {h h₁ h₂ h₃ : Host} {config : Config}
  {api : CompiledApi} {routes : List Route} {report : BindingReport}

/-! ## A check -/

/-- Sources are bound one after the other: the configuration, the description and the table of routes. -/
theorem bindSources_of_ok (hconfig : ConfigStore.loadResolved settings h = (.ok config, h₁))
    (hapi : compileSource c spec h₁ = (.ok api, h₂))
    (hroutes : Document.loadRoutes source h₂ = (.ok routes, h₃))
    (hreport : api.bindRoutes routes config.compiler.bodySlot config.compiler.warnUnbound = .ok report) :
    bindSources c spec source settings h = (.ok ⟨config, api, report⟩, h₃) := by
  rw [bindSources, Action.bind_of_ok hconfig, Action.bind_of_ok hapi, Action.bind_of_ok hroutes, hreport]
  rfl

theorem not_bracket_mem_repr (n : Nat) : '[' ∉ (toString n).toList := by
  intro hmem
  have hdigit := Nat.isDigit_of_mem_toDigits (by decide) (by decide) (Nat.toList_repr ▸ hmem)
  revert hdigit
  decide

/-- A check on a console that writes plainly passes if nothing was noticed but what informs. -/
theorem check_of_bindSources {bodySlot : Option String} {strict : Option Bool} {b : Bound} (hc : c.WritesPlainly)
    (hb : bindSources c spec source ⟨bodySlot, strict, none⟩ h = (.ok b, h₁))
    (hfindings : ∀ d ∈ b.diagnostics, d.level = .info) : (check c spec source bodySlot strict h).1 = .ok () := by
  have hwarnings : b.diagnostics.filter (·.level = .warning) = [] := by
    refine List.filter_eq_nil_iff.2 fun d hd => ?_
    rw [hfindings d hd]
    decide
  obtain ⟨⟨⟩, h₂, hreport⟩ := Console.total_report hc hfindings h₁
  rw [check, Action.bind_of_ok hb, Action.bind_of_ok hreport]
  simp only [hwarnings, List.isEmpty_nil, Bool.not_true, Bool.and_false, Bool.false_eq_true, if_false]
  -- what is left to do is to write
  have hmessage : '[' ∉ (s!"{b.report.contracts.length} route(s) match the document.").toList := by
    rw [String.toList_append, List.mem_append, not_or]
    exact ⟨not_bracket_mem_repr _, by decide⟩
  obtain ⟨⟨⟩, h₃, hdone⟩ := ((Console.total_showTable hc _ _ _).bind fun _ => Console.total_success hmessage) h₂
  exact congrArg Prod.fst hdone

end Command

/-! ## Whole descriptions -/

/-- No two operations of a compiled description have one method and path. -/
theorem Compilation.nodup_operationKey_of_compile {d : Document} {version : Option String} {api : CompiledApi}
    (hd : d.graph.DistinctKeys) (h : compile d version = .ok api) : (api.operations.map operationKey).Nodup := by
  obtain ⟨r, nodes, c, hr, -, -, hoperations⟩ := operations_of_compile h
  have hforall : List.Forall₂ (fun op key => operationKey op = key) api.operations r.operationKeys :=
    hoperations.flip.imp fun op key hop => hop.1
  have hkeys := List.forall₂_map_left_iff.2 hforall
  rw [List.forall₂_eq_eq_eq] at hkeys
  rw [hkeys]
  exact Resolver.nodup_operationKeys (Resolver.document_of_ofDocument hr ▸ hd)

/-- A strict check of a table passes on every console that writes plainly, wherever the configuration has a body slot,
the description is the compiled one and the table is the one that is loaded. -/
def PassesStrictly (api : CompiledApi) (slot : String) (routes : List Route) : Prop :=
  ∀ (c : Console) (spec source : String) (bodySlot : Option String) (h h₁ h₂ h₃ : Host) (config : Config),
    c.WritesPlainly →
    ConfigStore.loadResolved ⟨bodySlot, some true, none⟩ h = (.ok config, h₁) →
    config.compiler.bodySlot = slot →
    Command.compileSource c spec h₁ = (.ok api, h₂) →
    Document.loadRoutes source h₂ = (.ok routes, h₃) →
      (Command.check c spec source bodySlot (some true) h).1 = .ok ()

/-- A route is declared for each operation of a compiled description but those of tracing and those whose path does not
start with a slash. If every operation can be bound, the routes that are declared are bound, each to its operation, and
there is a warning for every operation that is left. Where none is left a strict check passes on every console that
writes plainly. -/
theorem compile_declarable {d : Document} {version : Option String} {api : CompiledApi} {slot : String}
    {handler : Operation → String} (hd : d.graph.DistinctKeys) (h : compile d version = .ok api)
    (hbinds : ∀ op ∈ api.operations, ∃ contract, op.bind (handler op) slot = .ok contract) :
    (∀ op ∈ api.operations, (∃ r, op.declare (handler op) = .ok r) ↔
      op.method ≠ .trace ∧ Text.startsWith op.path "/" = true) ∧
    ∃ routes, api.Declares handler routes ∧
      (∀ warnUnbound, ∃ report, api.bindRoutes routes slot warnUnbound = .ok report ∧
        List.Forall₂ (fun op contract => op.bind (handler op) slot = .ok contract) api.declarable report.contracts ∧
        report.diagnostics = if warnUnbound then api.undeclarable.map unboundWarning else []) ∧
      (api.undeclarable = [] → PassesStrictly api slot routes) := by
  have hdistinct := Compilation.nodup_operationKey_of_compile hd h
  obtain ⟨routes, hroutes⟩ := api.exists_declares handler
  have hbound := hroutes.exists_bindRoutes hdistinct hbinds
  refine ⟨fun op _ => ?_, routes, hroutes, hbound, ?_⟩
  · rw [← Operation.isDeclarable_iff]
    exact Operation.exists_declare_iff
  · intro hnone c spec source bodySlot host host₁ host₂ host₃ config hc hconfig hslot hapi htable
    obtain ⟨report, hreport, -, hdiagnostics⟩ := hbound config.compiler.warnUnbound
    rw [← hslot] at hreport
    refine Command.check_of_bindSources hc (Command.bindSources_of_ok hconfig hapi htable hreport) ?_
    have hempty : report.diagnostics = [] := by
      rw [hdiagnostics, hnone]
      split_ifs <;> rfl
    rw [Command.Bound.diagnostics, hempty, List.append_nil]
    exact level_of_compile h

theorem exists_bind_of_all {api : CompiledApi} {slot : String} {handler : Operation → String}
    (h : (api.operations.all fun op => (op.bind (handler op) slot).toOption.isSome) = true) :
    ∀ op ∈ api.operations, ∃ contract, op.bind (handler op) slot = .ok contract := by
  intro op hop
  obtain ⟨contract, hcontract⟩ := Option.isSome_iff_exists.1 (List.all_eq_true.1 h op hop)
  exact ⟨contract, toOption_eq_some.1 hcontract⟩

theorem compile_declarable_ordersDocument : ordersDocument.graph.DistinctKeys ∧
    ∃ api, compile ordersDocument none = .ok api ∧
      (∀ op ∈ api.operations, ∃ contract, op.bind op.name "body" = .ok contract) ∧ api.undeclarable = [] ∧
      ∃ routes, api.Declares Operation.name routes ∧ PassesStrictly api "body" routes := by
  have hcompiled : (compile ordersDocument none).toOption.map (fun api =>
      (api.operations.all fun op => (op.bind op.name "body").toOption.isSome, api.undeclarable)) = some (true, []) := by
    decide +kernel
  obtain ⟨api, hapi, hfacts⟩ := Option.map_eq_some_iff.1 hcompiled
  obtain ⟨hall, hnone⟩ := Prod.mk.inj hfacts
  have h := toOption_eq_some.1 hapi
  have hbinds := exists_bind_of_all hall
  obtain ⟨-, routes, hroutes, -, hpasses⟩ := compile_declarable distinctKeys_ordersDocument h hbinds
  exact ⟨distinctKeys_ordersDocument, api, h, hbinds, hnone, routes, hroutes, hpasses hnone⟩

/-- A description of two operations, one of tracing and one whose path does not start with a slash. -/
def tracedDocument : Document where
  graph := ⟨#[
    .mapping [(.text "paths", .container 1)],
    .mapping [(.text "/a", .container 2), (.text "b", .container 3)],
    .mapping [(.text "trace", .container 4)],
    .mapping [(.text "get", .container 4)],
    .mapping []]⟩
  root := .container 0

/-- Both operations compile and can be bound, and a route can be declared for neither. -/
theorem not_declarable_tracedDocument :
    ∃ api, compile tracedDocument none = .ok api ∧
      (∀ op ∈ api.operations, ∃ contract, op.bind op.name "body" = .ok contract) ∧
      api.operations.map (fun op => op.declare op.name) =
        [.error (.invalid "trace" "/a" [.notRoutable .trace]), .error (.invalid "get" "b" [.relativePath "b"])] := by
  have hcompiled : (compile tracedDocument none).toOption.map (fun api =>
      (api.operations.all fun op => (op.bind op.name "body").toOption.isSome,
        api.operations.map fun op => op.declare op.name)) =
      some (true, [.error (.invalid "trace" "/a" [.notRoutable .trace]),
        .error (.invalid "get" "b" [.relativePath "b"])]) := by
    decide +kernel
  obtain ⟨api, hapi, hfacts⟩ := Option.map_eq_some_iff.1 hcompiled
  obtain ⟨hall, hdeclared⟩ := Prod.mk.inj hfacts
  exact ⟨api, toOption_eq_some.1 hapi, exists_bind_of_all hall, hdeclared⟩

end RouteBinding
