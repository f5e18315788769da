import RouteBinding.Command.Check
import RouteBinding.Proofs.Operation.Closed
import RouteBinding.Proofs.Route.Matching

/-!
# Names in written contracts

The data that is written for a table of routes names only types that it defines (`compile_closed`).
-/

namespace RouteBinding

/-! ## Names in data -/

namespace Tree

/-- A type is named somewhere in a tree. -/
inductive Names (name : String) : Tree → Prop
  | here : Names name (TypeRef.named name).tree
  | item {t : Tree} {items : List Tree} (ht : t ∈ items) (h : Names name t) :
    Names name (.list items)
  | entry {e : Scalar × Tree} {entries : List (Scalar × Tree)} (he : e ∈ entries)
    (h : Names name e.2) : Names name (.mapping entries)

variable {name : String}

@[simp] theorem not_names_scalar {s : Scalar} : ¬ Names name (.scalar s) := by
  intro h
  cases h

@[simp] theorem not_names_text {s : String} : ¬ Names name (.text s) := not_names_scalar

@[simp] theorem not_names_bool {b : Bool} : ¬ Names name (.bool b) := not_names_scalar

@[simp] theorem not_names_null : ¬ Names name .null := not_names_scalar

@[simp] theorem not_names_textOrNull {s : Option String} : ¬ Names name (.textOrNull s) := by
  cases s <;> exact not_names_scalar

/-- A list names what one of its items names. -/
theorem names_list {items : List Tree} : Names name (.list items) ↔ ∃ t ∈ items, Names name t := by
  constructor
  · intro h
    cases h with
    | item ht h => exact ⟨_, ht, h⟩
  · rintro ⟨t, ht, h⟩
    exact .item ht h

/-- A record names a type in a field, or it is itself the name of one. -/
theorem names_record {fields : List (String × Tree)} : Names name (.record fields) ↔
    (∃ f ∈ fields, Names name f.2) ∨ fields = [("kind", .text "named"), ("name", .text name)] := by
  constructor
  · intro h
    generalize hrecord : Tree.record fields = t at h
    cases h with
    | here =>
      have hinjective : Function.Injective fun f : String × Tree => (Scalar.text f.1, f.2) := by
        rintro ⟨key, t⟩ ⟨key', t'⟩ heq
        simpa using heq
      exact .inr (List.map_injective_iff.2 hinjective (Tree.mapping.inj hrecord))
    | item ht h => cases hrecord
    | entry he h =>
      rw [← Tree.mapping.inj hrecord] at he
      obtain ⟨f, hf, rfl⟩ := List.mem_map.1 he
      exact .inl ⟨f, hf, h⟩
  · rintro (⟨f, hf, h⟩ | rfl)
    · exact .entry (List.mem_map_of_mem hf) h
    · exact .here

/-- A record of which no field is a text names a type in a field. -/
theorem names_record_map {α : Type} {g : α → String × Tree} {l : List α}
    (hg : ∀ a ∈ l, ∀ s, (g a).2 ≠ .text s) :
    Names name (.record (l.map g)) ↔ ∃ a ∈ l, Names name (g a).2 := by
  rw [names_record]
  constructor
  · rintro (⟨f, hf, h⟩ | heq)
    · obtain ⟨a, ha, rfl⟩ := List.mem_map.1 hf
      exact ⟨a, ha, h⟩
    · obtain ⟨a, rest, rfl, ha, -⟩ := List.map_eq_cons_iff.1 heq
      exact absurd (congrArg Prod.snd ha) (hg a List.mem_cons_self _)
  · rintro ⟨a, ha, h⟩
    exact .inl ⟨g a, List.mem_map_of_mem ha, h⟩

theorem text_inj {s t : String} : Tree.text s = .text t ↔ s = t := by
  simp [Tree.text]

end Tree

open RouteBinding.Tree (Names)

variable {name : String}

/-! ## Names in types and operations -/

/-- A type is not written as a mere text. -/
theorem TypeRef.tree_ne_text (t : TypeRef) (s : String) : t.tree ≠ .text s := by
  cases t <;> exact Tree.noConfusion

/-- The data of a type names what the type mentions. -/
theorem TypeRef.names_tree {t : TypeRef} : Names name t.tree ↔ t.Mentions name := by
  induction t with
  | primitive kind => simp [TypeRef.tree, Tree.names_record, Mentions, Tree.text_inj]
  | array item ih => simp [TypeRef.tree, Tree.names_record, Mentions, Tree.text_inj, ih]
  | named n => simp [TypeRef.tree, Tree.names_record, Mentions, Tree.text_inj]

/-- A definition names the types that it mentions. -/
theorem TypeDef.names_tree {d : TypeDef} :
    Names name d.tree ↔ ∃ t ∈ d.types, t.Mentions name := by
  rcases d with ⟨own, target⟩ | ⟨own, fields⟩ | ⟨own, variants⟩
  · simp [TypeDef.tree, Tree.names_record, types, TypeRef.names_tree]
  · simp [TypeDef.tree, Tree.names_record, Tree.names_list, types, Field.tree, TypeRef.names_tree]
  · simp [TypeDef.tree, Tree.names_record, Tree.names_list, types, Variant.tree,
      TypeRef.names_tree]

/-- A model names the types that its definitions mention. -/
theorem TypeModel.names_tree {m : TypeModel} :
    Tree.Names name m.tree ↔ ∃ d ∈ m.definitions, ∃ t ∈ d.2.types, t.Mentions name := by
  rw [TypeModel.tree, Tree.names_record_map]
  · simp only [TypeDef.names_tree]
  · intro d _ s
    cases d.2 <;> exact Tree.noConfusion

/-- A body names the types that its entries mention. -/
theorem BodyContract.names_tree {b : BodyContract} :
    Names name b.tree ↔ ∃ e ∈ b.entries, ∃ t ∈ e.2.type, t.Mentions name := by
  have hentries : Names name (.record (b.entries.map fun e => (e.1, e.2.tree))) ↔
      ∃ e ∈ b.entries, ∃ t ∈ e.2.type, t.Mentions name := by
    rw [Tree.names_record_map fun e _ s => Tree.noConfusion]
    refine exists_congr fun e => and_congr_right fun _ => ?_
    rw [BodyEntry.tree]
    cases e.2.type <;> simp [Tree.names_record, TypeRef.names_tree]
  simp [BodyContract.tree, Tree.names_record, hentries]

/-- An operation names the types that it mentions. -/
theorem Operation.names_tree {op : Operation} :
    Names name op.tree ↔ ∃ t ∈ op.types, t.Mentions name := by
  have hparameters : Names name (.list (op.parameters.map Parameter.tree)) ↔
      ∃ p ∈ op.parameters, p.type.Mentions name := by
    simp [Tree.names_list, Parameter.tree, Tree.names_record, TypeRef.names_tree]
  have hresponses : Names name (.record (op.responses.map fun e => (e.1, e.2.tree))) ↔
      ∃ e ∈ op.responses, e.2.Mentions name := by
    rw [Tree.names_record_map fun e _ s => e.2.tree_ne_text s]
    simp only [TypeRef.names_tree]
  have hbody : Names name ((op.body.map BodyContract.tree).getD .null) ↔
      ∃ t ∈ ((op.body.map (·.entries)).getD []).filterMap (·.2.type), t.Mentions name := by
    cases op.body with
    | none => simp
    | some body =>
      simp only [Option.map_some, Option.getD_some, BodyContract.names_tree, List.mem_filterMap]
      constructor
      · rintro ⟨e, he, t, ht, hname⟩
        exact ⟨t, ⟨e, he, ht⟩, hname⟩
      · rintro ⟨t, ⟨e, he, ht⟩, hname⟩
        exact ⟨e, he, t, ht, hname⟩
  have hfields : Names name op.tree ↔
      Names name (.list (op.parameters.map Parameter.tree)) ∨
        Names name ((op.body.map BodyContract.tree).getD .null) ∨
        Names name (.record (op.responses.map fun e => (e.1, e.2.tree))) := by
    simp [Operation.tree, Tree.names_record]
  -- both sides are a choice among parameters, body and responses
  rw [hfields, hparameters, hbody, hresponses]
  simp only [types, List.mem_append, List.mem_map]
  constructor
  · rintro (⟨p, hp, hname⟩ | ⟨t, ht, hname⟩ | ⟨e, he, hname⟩)
    · exact ⟨p.type, .inl (.inl ⟨p, hp, rfl⟩), hname⟩
    · exact ⟨t, .inl (.inr ht), hname⟩
    · exact ⟨e.2, .inr ⟨e, he, rfl⟩, hname⟩
  · rintro ⟨t, (⟨p, hp, rfl⟩ | ht) | ⟨e, he, rfl⟩, hname⟩
    · exact .inl ⟨p, hp, hname⟩
    · exact .inr (.inl ⟨t, ht, hname⟩)
    · exact .inr (.inr ⟨e, he, hname⟩)

/-! ## Names in contracts -/

/-- A contract names what its operation mentions. -/
theorem Operation.mentions_of_bind {op : Operation} {handler slot : String} {c : BindingContract}
    (h : op.bind handler slot = .ok c) (hname : Names name c.tree) :
    ∃ t ∈ op.types, t.Mentions name := by
  unfold bind at h
  split at h
  · cases h
    simp only [BindingContract.tree, Tree.names_record, Tree.names_list, List.mem_cons,
      List.not_mem_nil, or_false, exists_eq_or_imp, exists_eq_left, List.mem_map, bindings,
      Tree.not_names_text, false_or, exists_exists_and_eq_and, List.cons.injEq, Prod.mk.injEq,
      reduceCtorEq, String.reduceEq, false_and, or_false] at hname
    rcases hname with hname | ⟨p, hp, hname⟩ | hname
    · exact names_tree.1 hname
    · have hmentions : p.type.Mentions name := by
        simpa [ParameterBinding.tree, Tree.names_record, TypeRef.names_tree] using hname
      refine ⟨p.type, ?_, hmentions⟩
      exact List.mem_append_left _ (List.mem_append_left _ (List.mem_map_of_mem hp))
    · cases hbody : op.body with
      | none =>
        rw [hbody] at hname
        exact absurd hname Tree.not_names_null
      | some body =>
        have hcontract : Names name body.tree := by
          simpa [hbody, BodyBinding.tree, Tree.names_record] using hname
        obtain ⟨e, he, t, ht, hmentions⟩ := BodyContract.names_tree.1 hcontract
        refine ⟨t, List.mem_append_left _ (List.mem_append_right _ ?_), hmentions⟩
        rw [hbody]
        exact List.mem_filterMap.2 ⟨e, he, ht⟩
  · cases h

/-- A contract that is reported binds one of the operations. -/
theorem CompiledApi.bind_of_mem_contracts {api : CompiledApi} {routes : List Route} {slot : String}
    {warnUnbound : Bool} {report : BindingReport}
    (h : api.bindRoutes routes slot warnUnbound = .ok report) {c : BindingContract}
    (hc : c ∈ report.contracts) :
    ∃ op ∈ api.operations, ∃ handler, op.bind handler slot = .ok c := by
  obtain ⟨route, -, hcontract⟩ := exists_of_forall₂ (reports_of_bindRoutes h).contracts.flip hc
  exact ⟨c.operation, hcontract.operation, route.handler, hcontract.binding⟩

/-- In the data of a model, the definitions stand under their names. -/
theorem TypeModel.isSome_get?_tree {m : TypeModel} :
    (m.tree.get? name).isSome = m.contains name := by
  have hentries (l : List (String × TypeDef)) :
      (valueAt? name ((l.map fun d => (d.1, d.2.tree)).map fun f => (Scalar.text f.1, f.2))).isSome =
        (l.lookup name).isSome := by
    induction l with
    | nil => rfl
    | cons d rest ih =>
      rw [List.map_cons, List.map_cons, valueAt?, List.lookup_cons]
      by_cases hname : name = d.1
      · simp [hname]
      · have hkey : ¬ Scalar.text d.1 = .text name := by simpa using Ne.symm hname
        rw [if_neg hkey, beq_false_of_ne hname]
        exact ih
  exact hentries m.definitions

/-- Where everything that is mentioned is defined, so it is in the data of the contracts. -/
theorem CompiledApi.mentions_of_names {api : CompiledApi} {routes : List Route} {slot : String}
    {warnUnbound : Bool} {report : BindingReport} {config : Config}
    (h : api.bindRoutes routes slot warnUnbound = .ok report)
    (hname : Names name (Command.contractsTree ⟨config, api, report⟩)) : api.Mentions name := by
  have hparts : Names name api.types.tree ∨ ∃ c ∈ report.contracts, Names name c.tree := by
    simpa [Command.contractsTree, Tree.names_record, Tree.names_list] using hname
  rcases hparts with htypes | ⟨c, hc, hcontract⟩
  · exact .inl (TypeModel.names_tree.1 htypes)
  · obtain ⟨op, hop, handler, hbind⟩ := CompiledApi.bind_of_mem_contracts h hc
    exact .inr ⟨op, hop, Operation.mentions_of_bind hbind hcontract⟩

/-- A compiled description defines every name that it mentions, and the data of contracts that are bound to it
names only types that stand there. -/
theorem compile_closed {d : Document} {version : Option String} {api : CompiledApi}
    (h : compile d version = .ok api) :
    (∀ name, api.Mentions name → api.types.contains name) ∧
      ∀ routes slot warnUnbound report config name,
        api.bindRoutes routes slot warnUnbound = .ok report →
        Names name (Command.contractsTree ⟨config, api, report⟩) →
        ∃ types, (Command.contractsTree ⟨config, api, report⟩).get? "types" = some types ∧
          (types.get? name).isSome := by
  obtain ⟨r, nodes, c, -, hcompiled⟩ := Compilation.compiled_of_compile h
  refine ⟨fun name hname => hcompiled.contains_of_mentions hname, ?_⟩
  intro routes slot warnUnbound report config name hbound hname
  refine ⟨api.types.tree, rfl, ?_⟩
  rw [TypeModel.isSome_get?_tree]
  exact hcompiled.contains_of_mentions (CompiledApi.mentions_of_names hbound hname)

/-- A type that refers to itself is mentioned and defined. -/
theorem compile_closed_nodesDocument : ∃ api, compile nodesDocument none = .ok api ∧
    api.Mentions "Node" ∧ api.types.contains "Node" := by
  have hresponses : (compile nodesDocument none).toOption.map
      (fun api => api.operations.map (·.responses)) = some [[("200", .named "Node")]] := by
    decide +kernel
  cases h : compile nodesDocument none with
  | error e => rw [h] at hresponses; cases hresponses
  | ok api =>
    rw [h] at hresponses
    obtain ⟨op, rest, hops, hop, -⟩ := List.map_eq_cons_iff.1 (Option.some.inj hresponses)
    have hmentions : api.Mentions "Node" := by
      refine .inr ⟨op, hops ▸ List.mem_cons_self, .named "Node", ?_, rfl⟩
      exact List.mem_append_right _ (List.mem_map.2 ⟨_, hop ▸ List.mem_cons_self, rfl⟩)
    exact ⟨api, rfl, hmentions, (compile_closed h).1 "Node" hmentions⟩

end RouteBinding
