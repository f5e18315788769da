import RouteBinding.Proofs.Schema.Known

/-!
# The components of a document without errors

If the component schemas resolve and leave no errors, there is a node for each of them, in their order; it
carries the name of the component, shows its schema, and no chain of references among the nodes loops
(`complete_of_resolveComponents`). The state that is left is coherent, and all its nodes show schemas.
-/

namespace RouteBinding.Resolver

open Course (Runs)

variable {r : Resolver} {s t : State} {components : List (String × SchemaNode)}

/-! ## Coherence -/

theorem runs_resolveComponent (hs : Coherent s) (r : Resolver) (key : Scalar) (raw : Value) :
    resolution.Runs (r.resolveComponent key raw) s fun _ _ => True := by
  unfold resolveComponent
  cases key with
  | text name =>
    refine Runs.bind (Runs.attempt (runs_expandWithin hs r _ [] ⟨raw, _⟩)) fun outcome t ht _ h => ?_
    cases outcome with
    | error e =>
      refine (Course.runs_modify ?_ ?_).mono fun _ _ _ _ _ => trivial
      · exact ht.of_subset (List.Subset.refl _) (List.Subset.refl _) (Nat.le_refl _)
      · exact ⟨List.Subset.refl _, List.Subset.refl _⟩
    | ok node =>
      obtain ⟨id, hmem⟩ := h node rfl
      have hnode : Ready t node := (Known.stored hmem).ready ht
      have hstore : ∀ n u, Coherent u → Ready u n → resolution.Runs
          (modify fun s => { s with components := s.components ++ [(name, n)] } : Resolve PUnit) u
          fun _ _ => True := by
        intro n u hu hn
        refine (Course.runs_modify ?_ ?_).mono fun _ _ _ _ _ => trivial
        · refine hu.add hn rfl (fun p hp => .inl hp) fun c hc => ?_
          rcases List.mem_append.1 hc with hc | hc
          · exact .inl hc
          · rw [List.mem_singleton.1 hc]
            exact .inr rfl
        · exact ⟨List.Subset.refl _, List.subset_append_left _ _⟩
      dsimp only
      split_ifs
      · exact Runs.bind (Course.runs_pure ht hnode) fun n u hu _ hn => hstore n u hu hn
      · exact Runs.bind (runs_asComponent ht name hnode) fun n u hu _ hn => hstore n u hu hn
  | _ =>
    refine Runs.bind (Course.runs_ofOutcome hs) fun _ t _ _ ⟨_, ht⟩ => ?_
    rw [ht]
    refine (Course.runs_modify ?_ ?_).mono fun _ _ _ _ _ => trivial
    · exact hs.of_subset (List.Subset.refl _) (List.Subset.refl _) (Nat.le_refl _)
    · exact ⟨List.Subset.refl _, List.Subset.refl _⟩

theorem coherent_resolveComponents (hs : Coherent s) (r : Resolver) :
    Coherent (r.resolveComponents s).2 := by
  cases hdone : s.componentsDone with
  | true => rwa [resolveComponents_of_done hdone]
  | false =>
    have hbegin : Coherent { s with componentsDone := true } :=
      hs.of_subset (List.Subset.refl _) (List.Subset.refl _) (Nat.le_refl _)
    have hloop : Coherent ((r.schemas.forM fun e => r.resolveComponent e.1 e.2)
        { s with componentsDone := true }).2 :=
      (Course.runs_forM hbegin fun (e : Scalar × Value) _ t ht _ =>
        runs_resolveComponent ht r e.1 e.2).1
    rw [resolveComponents]
    simp only [Step.bind_apply, Step.get_apply, Step.modify_apply, hdone, Bool.false_eq_true,
      if_false, Step.pure_apply]
    rcases hrun : (r.schemas.forM fun e => r.resolveComponent e.1 e.2)
      { s with componentsDone := true } with ⟨outcome, t⟩
    rw [hrun] at hloop
    cases outcome with
    | error halt => exact hloop
    | ok _ => exact hloop.of_subset (List.Subset.refl _) (List.filter_subset_self _) (Nat.le_refl _)

/-! ## Completeness -/

/-- The node of one entry of the component schemas. -/
structure Resolves (r : Resolver) (e : Scalar × Value) (c : String × SchemaNode) : Prop where
  key : e.1 = .text c.1
  component : c.2.info.component = some c.1
  shows : r.Shows e.2 c.2

/-- Every component schema has its node, and no chain of references loops. -/
structure Complete (r : Resolver) (components : List (String × SchemaNode)) : Prop where
  resolves : List.Forall₂ r.Resolves r.schemas components
  noLoops : ∀ c ∈ components, aliasError? components c.1 = none

theorem resolves_of_entry {e : Scalar × Value} {c : String × SchemaNode}
    (h : r.entry e = .ok (c.1, c.2.form)) : r.Resolves e c := by
  rcases e with ⟨key, raw⟩
  cases key with
  | text name =>
    rw [entry_text] at h
    cases hsearch : r.search raw (Pointer.component name) with
    | error halt => rw [hsearch] at h; cases h
    | ok form =>
      rw [hsearch] at h
      simp only [Except.map, Except.ok.injEq, Prod.mk.injEq] at h
      obtain ⟨hname, hform⟩ := h
      refine ⟨by rw [hname], ?_, form, search_eq_ok_iff.1 hsearch, ?_⟩
      · have hinfo := congrArg (fun n => n.info.component) hform
        simp only [named, info_withInfo, SchemaNode.info_form] at hinfo
        rw [← hname, hinfo]
        rfl
      · rw [← hform, named, SchemaNode.layer_withInfo]
  | _ => cases h

theorem forall₂_of_filterMap {α β γ : Type} {f : α → Option β} {g : γ → β} {l : List α}
    {k : List γ} (hsome : ∀ a ∈ l, (f a).isSome) (h : k.map g = l.filterMap f) :
    List.Forall₂ (fun a c => f a = some (g c)) l k := by
  induction l generalizing k with
  | nil =>
    rw [List.filterMap_nil, List.map_eq_nil_iff] at h
    rw [h]
    exact .nil
  | cons a rest ih =>
    obtain ⟨b, hb⟩ := Option.isSome_iff_exists.1 (hsome a List.mem_cons_self)
    rw [List.filterMap_cons_some hb, List.map_eq_cons_iff] at h
    obtain ⟨c, k', rfl, hc, hk⟩ := h
    exact .cons (hc ▸ hb) (ih (fun a' ha' => hsome a' (List.mem_cons_of_mem a ha')) hk)

/-- If the components resolve and leave no errors, nothing is missing. -/
theorem complete_of_resolveComponents (hrun : r.resolveComponents .initial = (.ok components, t))
    (herrors : t.errors = []) : r.Complete components ∧ t.components = components := by
  obtain ⟨-, -, hall⟩ := resolveComponents_spec (r := r) sound_initial rfl
  have hresolved : r.ResolvesAll .initial t components := by
    have h := hall components rfl (by rw [hrun])
    rwa [hrun] at h
  have hunbroken : ¬ r.BreaksOff :=
    (exists_resolveComponents_iff sound_initial rfl).1 ⟨components, by rw [hrun]⟩
  obtain ⟨hentries, hforms⟩ := hresolved.entries rfl
  -- no errors: no entry has one of its own and no chain loops, so every entry is kept
  rw [herrors, eq_comm, List.append_eq_nil_iff] at hentries
  have hkept : ∀ e ∈ r.schemas, (r.kept? e).isSome := by
    intro e he
    have hown : r.ownError? e = none := List.filterMap_eq_nil_iff.1 hentries.1 e he
    have hloop : r.loopError? e = none := List.filterMap_eq_nil_iff.1 hentries.2 e he
    have hone := exactly_one hunbroken he
    rw [hown, hloop] at hone
    cases hk : r.kept? e with
    | none => rw [hk] at hone; cases hone
    | some c => rfl
  have hagree : List.Forall₂ (fun e c => r.kept? e = some (c.1, c.2.form)) r.schemas components :=
    forall₂_of_filterMap hkept hforms
  have hresolvedForms : r.resolvedForms = componentForms components := by
    rw [hforms, resolvedForms]
    refine List.filterMap_congr fun e he => ?_
    obtain ⟨c, hc⟩ := Option.isSome_iff_exists.1 (hkept e he)
    rw [hc]
    exact (Option.filter_eq_some_iff.1 hc).1
  refine ⟨⟨hagree.imp fun e c h => ?_, fun c hc => ?_⟩, hresolved.returned⟩
  · have hentry := (Option.filter_eq_some_iff.1 h).1
    refine resolves_of_entry ?_
    cases hr : r.entry e with
    | error halt => rw [hr] at hentry; cases hentry
    | ok c' => rw [hr] at hentry; rw [Option.some.inj hentry]
  · have hmem : (c.1, c.2.form) ∈ componentForms components := List.mem_map_of_mem hc
    rw [hresolved.forms, List.mem_filter, hresolvedForms, aliasError?_componentForms] at hmem
    exact Option.isNone_iff_eq_none.1 hmem.2

end RouteBinding.Resolver
