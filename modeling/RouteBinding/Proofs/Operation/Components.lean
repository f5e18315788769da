import RouteBinding.Proofs.Operation.Schema
import RouteBinding.Proofs.Schema.Complete

/-!
# The components of a resolver

The node of a component carries its name. It is the node that is remembered for the schema of the component or, if that
is another component, a copy of it (`Resolver.Carries`). Whatever a resolver is asked for, with success or without, this
stays so, and it forgets nothing that it has given (`Resolver.prepared_resolve`, `Resolver.prepared_resolveComponents`).
-/

namespace RouteBinding.Resolver

open Course (Runs)

variable {r : Resolver} {s t u : State} {nodes nodes' : List (Nat × SchemaNode)} {v : Value}

/-! ## Nodes under names -/

/-- The node of a component carries its name, and says what the node says that is remembered for its schema; it is that
node, unless that is another component or none. -/
structure Carries (r : Resolver) (nodes : List (Nat × SchemaNode)) (c : String × SchemaNode) : Prop where
  component : c.2.info.component = some c.1
  origin : ∃ v n, (Scalar.text c.1, v) ∈ r.schemas ∧ nodeOf? nodes v = some n ∧ c.2.layer = n.layer ∧
    (c.2 = n ∨ n.info.component ≠ some c.1)

theorem Carries.mono {c : String × SchemaNode} (h : Remembered nodes nodes') (hc : Carries r nodes c) :
    Carries r nodes' c := by
  obtain ⟨v, n, hmem, hn, hlayer, hsame⟩ := hc.origin
  exact ⟨hc.component, v, n, hmem, h.nodeOf? hn, hlayer, hsame⟩

/-- The node of a component shows a schema. -/
theorem Carries.shows {c : String × SchemaNode} (hs : r.Sound s) (hc : Carries r s.nodes c) : ∃ v, r.Shows v c.2 := by
  obtain ⟨v, n, -, hn, hlayer, -⟩ := hc.origin
  refine ⟨v, n.form, hs.hasForm_of_nodeOf? hn, ?_⟩
  rw [SchemaNode.layer_form, SchemaNode.layer_form, hlayer]

/-- The states of a resolver that resolves its components. -/
def carrying (r : Resolver) : Course State where
  inv s := r.Sound s ∧ Records r s.nodes ∧ ∀ c ∈ s.components, Carries r s.nodes c
  le s t := Remembered s.nodes t.nodes ∧ t.componentsDone = s.componentsDone
  refl _ := ⟨fun _ _ h => h, rfl⟩
  trans h h' := ⟨fun id n hn => h'.1 id n (h.1 id n hn), h'.2.trans h.2⟩

theorem carrying_resolve (hs : (carrying r).inv s) (raw : Value) (pointer : String) :
    (carrying r).Runs (r.resolve raw pointer) s fun n t => nodeOf? t.nodes raw = some n := by
  obtain ⟨hsound, hrecords, hcarried⟩ := hs
  obtain ⟨⟨hrecords', -⟩, ⟨hremembered, hcomponents⟩, hnode⟩ := recording_resolve hrecords raw pointer
  have hext := extends_resolve hsound raw pointer
  refine ⟨⟨hext.sound, hrecords', fun c hc => ?_⟩, ⟨hremembered, hext.componentsDone⟩, hnode⟩
  rw [hcomponents] at hc
  exact (hcarried c hc).mono hremembered

theorem carrying_store (hs : (carrying r).inv s) {name : String} {n : SchemaNode}
    (hn : Carries r s.nodes (name, n)) :
    (carrying r).Runs (modify fun s => { s with components := s.components ++ [(name, n)] } : Resolve PUnit) s
      fun _ _ => True := by
  refine ⟨⟨hs.1, hs.2.1, fun c hc => ?_⟩, (carrying r).refl s, fun _ _ => trivial⟩
  rcases List.mem_append.1 hc with hc | hc
  · exact hs.2.2 c hc
  · rw [List.mem_singleton.1 hc]
    exact hn

theorem carrying_resolveComponent (hs : (carrying r).inv s) {key : Scalar} (hmem : (key, v) ∈ r.schemas) :
    (carrying r).Runs (r.resolveComponent key v) s fun _ _ => True := by
  have hrecord (t : State) (ht : (carrying r).inv t) (e : CompileError) :
      (carrying r).Runs (record e) t fun _ _ => True :=
    ⟨ht, (carrying r).refl t, fun _ _ => trivial⟩
  unfold resolveComponent
  cases key with
  | text name =>
    refine Runs.bind (Runs.attempt (carrying_resolve hs v _)) fun outcome t ht _ h => ?_
    cases outcome with
    | error e => exact hrecord t ht e
    | ok n =>
      have hn := h n rfl
      dsimp only
      split_ifs with hcomponent
      · have hsame : Carries r t.nodes (name, n) := ⟨hcomponent, v, n, hmem, hn, rfl, .inl rfl⟩
        exact Runs.bind (Course.runs_pure ht hsame) fun m u hu _ hm => carrying_store hu hm
      · have hcopy : (carrying r).Runs (asComponent name n) t fun m u => Carries r u.nodes (name, m) := by
          refine ⟨ht, (carrying r).refl t, fun m hm => ?_⟩
          cases hm
          exact ⟨by rw [info_withInfo], v, n, hmem, hn, SchemaNode.layer_withInfo _ n, .inr hcomponent⟩
        exact Runs.bind hcopy fun m u hu _ hm => carrying_store hu hm
  | _ => exact Runs.bind (Course.runs_ofOutcome hs) fun _ t ht _ _ => hrecord t ht _

/-! ## Whatever a resolver is asked for -/

/-- A resolver that was asked for schemas and for its components: what it holds is right, and it has no components
before it was asked for them. -/
structure Prepared (r : Resolver) (s : State) : Prop where
  reliable : r.Reliable s
  carried : ∀ c ∈ s.components, Carries r s.nodes c
  before : s.componentsDone = false → s.components = []

/-- A resolver that holds more than before. -/
structure State.Grows (s t : State) : Prop where
  nodes : s.nodes ⊆ t.nodes
  remembered : Remembered s.nodes t.nodes
  components : s.components ⊆ t.components

theorem State.Grows.refl (s : State) : s.Grows s :=
  ⟨List.Subset.refl _, fun _ _ h => h, List.Subset.refl _⟩

theorem State.Grows.trans (h : s.Grows t) (h' : t.Grows u) : s.Grows u where
  nodes := List.Subset.trans h.nodes h'.nodes
  remembered id n hn := h'.remembered id n (h.remembered id n hn)
  components := List.Subset.trans h.components h'.components

theorem State.Grows.known {n : SchemaNode} (h : s.Grows t) (hn : Known s n) : Known t n :=
  known_mono h.nodes h.components hn

theorem prepared_initial : Prepared r .initial where
  reliable := ⟨sound_initial, coherent_initial, fun _ _ h => by cases h⟩
  carried _ h := by cases h
  before _ := rfl

theorem Prepared.family (h : Prepared r s) : Family (Known s) r.Pending :=
  family_of_coherent h.reliable.sound h.reliable.coherent fun c hc => (h.carried c hc).shows h.reliable.sound

/-- Every known node shows a schema. -/
theorem Prepared.shows (h : Prepared r s) {n : SchemaNode} (hn : Known s n) : ∃ v, r.Shows v n :=
  hn.shows h.reliable.sound fun c hc => (h.carried c hc).shows h.reliable.sound

theorem prepared_resolve (hs : Prepared r s) (raw : Value) (pointer : String) :
    Prepared r (r.resolve raw pointer s).2 ∧ s.Grows (r.resolve raw pointer s).2 := by
  obtain ⟨hreliable, hlater, -⟩ := runs_resolve hs.reliable raw pointer
  have hdone := (extends_resolve hs.reliable.sound raw pointer).componentsDone
  refine ⟨⟨hreliable, fun c hc => ?_, fun h => ?_⟩, hlater.nodes, hlater.remembered, ?_⟩
  · rw [hlater.components] at hc
    exact (hs.carried c hc).mono hlater.remembered
  · rw [hlater.components]
    exact hs.before (hdone.symm.trans h)
  · rw [hlater.components]
    exact List.Subset.refl _

/-- The components may be asked for at any time; those that are given are the components that the resolver holds. -/
theorem prepared_resolveComponents (hs : Prepared r s) :
    Prepared r (r.resolveComponents s).2 ∧ s.Grows (r.resolveComponents s).2 ∧
      ∀ components, (r.resolveComponents s).1 = .ok components → components = (r.resolveComponents s).2.components := by
  cases hdone : s.componentsDone with
  | true =>
    rw [resolveComponents_of_done hdone]
    exact ⟨hs, .refl s, fun components h => by cases h; rfl⟩
  | false =>
    have hempty := hs.before hdone
    have hcoherent : Coherent { s with componentsDone := true } :=
      hs.reliable.coherent.of_subset (List.Subset.refl _) (List.Subset.refl _) (Nat.le_refl _)
    have hbegin : (carrying r).inv { s with componentsDone := true } :=
      ⟨hs.reliable.sound, hs.reliable.records, hs.carried⟩
    obtain ⟨hcoherent', ⟨hnodes, -⟩, -⟩ := Course.runs_forM (l := r.schemas) (f := fun e => r.resolveComponent e.1 e.2)
      hcoherent fun e _ t ht _ => runs_resolveComponent ht r e.1 e.2
    obtain ⟨⟨hsound, hrecords, hcarried⟩, ⟨hremembered, hdone'⟩, -⟩ :=
      Course.runs_forM (l := r.schemas) (f := fun e => r.resolveComponent e.1 e.2)
        hbegin fun e he t ht _ => carrying_resolveComponent ht he
    rw [resolveComponents]
    simp only [Step.bind_apply, Step.get_apply, Step.modify_apply, hdone, Bool.false_eq_true, if_false,
      Step.pure_apply]
    rcases hrun : (r.schemas.forM fun e => r.resolveComponent e.1 e.2) { s with componentsDone := true } with
      ⟨outcome, t⟩
    rw [hrun] at hcoherent' hnodes hsound hrecords hcarried hremembered hdone'
    have hnone : s.components ⊆ t.components := by
      rw [hempty]
      exact List.nil_subset _
    cases outcome with
    | error halt =>
      refine ⟨⟨⟨hsound, hcoherent', hrecords⟩, hcarried, fun h => ?_⟩, ⟨hnodes, hremembered, hnone⟩,
        fun components h => by cases h⟩
      cases hdone'.symm.trans h
    | ok _ =>
      refine ⟨⟨⟨hsound, ?_, hrecords⟩, fun c hc => hcarried c (List.mem_filter.1 hc).1, fun h => ?_⟩,
        ⟨hnodes, hremembered, ?_⟩, fun components h => by cases h; rfl⟩
      · exact hcoherent'.of_subset (List.Subset.refl _) (List.filter_subset_self _) (Nat.le_refl _)
      · cases hdone'.symm.trans h
      · rw [hempty]
        exact List.nil_subset _

end RouteBinding.Resolver
