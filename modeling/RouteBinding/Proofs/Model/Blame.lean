import RouteBinding.Model.Builder
import RouteBinding.Proofs.Schema.Provenance

/-!
# What the building of types points at

A node that cannot be given a type is blamed at the pointer of a node that stands in it, whatever was built before
(`TypeBuilder.keeps_refFor`). Where all those nodes have their schemas in the document, so has the error.
-/

namespace RouteBinding

open Step (Keeps)

variable {d : Document} {base : String → Value → Prop}

/-- At the pointer of every node that stands in a node, something stands in the document. -/
def SchemaNode.Placed (d : Document) (base : String → Value → Prop) (n : SchemaNode) : Prop :=
  ∀ m, n.Holds m → ∃ v, d.Stands base m.info.pointer v

theorem SchemaNode.Placed.inner {n c : SchemaNode} (h : n.Placed d base) (hc : c ∈ n.layer.inner) :
    c.Placed d base :=
  fun m hm => h m (hm.of_inner hc)

theorem Resolver.Traced.placed {r : Resolver} {v : Value} {n : SchemaNode}
    (h : r.Traced (r.document.Stands base) v n) : n.Placed r.document base := by
  intro m hm
  obtain ⟨u, hu, -⟩ := h.mirrored m hm
  exact ⟨u, hu⟩

namespace TypeBuilder

/-- A step of the building halts only with errors that point into the document. -/
def PointsInto (d : Document) (base : String → Value → Prop) {α : Type} (step : Build α) : Prop :=
  Keeps (fun _ => True) step (fun _ => True) fun e _ => d.PointsInto base e

/-! ## Single steps -/

theorem keeps_define (t : TypeDef) (pointer : String) : PointsInto d base (define t pointer) := by
  refine Step.keeps_get_bind fun s _ => ?_
  cases s.model.get? t.name with
  | none => exact (Step.keeps_set trivial).bind fun _ _ => Step.keeps_pure trivial
  | some existing =>
    dsimp only
    split_ifs
    · exact Step.keeps_pure trivial
    · exact Step.keeps_throw fun _ p hp => absurd hp List.not_mem_nil

theorem keeps_remember (serial : Nat) (ref : TypeRef) : PointsInto d base (remember serial ref) :=
  (Step.keeps_modify fun _ _ => trivial).bind fun _ _ => Step.keeps_pure trivial

theorem keeps_aliasOr (info : NodeInfo) (ref : TypeRef) : PointsInto d base (aliasOr info ref) := by
  unfold aliasOr
  cases declaredName? info with
  | none => exact Step.keeps_pure trivial
  | some name => exact keeps_define _ _

/-- A branch has no name if a node that stands in it has none, and at that node it is blamed. -/
theorem exists_unnamed_of_variantName {union : String} {n : SchemaNode} {e : CompileError}
    (h : variantName union n = .error e) : ∃ m, n.Holds m ∧ e = .ambiguousVariant union m.info.pointer .unnamed := by
  have hown (info : NodeInfo) (he : variantName.nameOr union info = .error e) :
      e = .ambiguousVariant union info.pointer .unnamed := by
    unfold variantName.nameOr at he
    split at he <;> cases he
    rfl
  induction n using SchemaNode.induct with
  | primitive info kind => cases h
  | reference info target =>
    rw [variantName] at h
    split at h <;> cases h
  | array info item ih =>
    rw [variantName] at h
    split at h
    · cases h
    · cases hitem : variantName union item with
      | ok name => rw [hitem] at h; cases h
      | error e' =>
        rw [hitem] at h
        cases h
        obtain ⟨m, hm, heq⟩ := ih hitem
        exact ⟨m, hm.of_inner List.mem_cons_self, heq⟩
  | object info properties required _ => exact ⟨_, .self, hown info h⟩
  | oneOf info variants _ => exact ⟨_, .self, hown info h⟩

/-- A branch without a name is blamed at its pointer, or at that of an item of it. -/
theorem pointsInto_of_variantName {union : String} {n : SchemaNode} {e : CompileError}
    (hn : n.Placed d base) (h : variantName union n = .error e) : d.PointsInto base e := by
  obtain ⟨m, hm, rfl⟩ := exists_unnamed_of_variantName h
  obtain ⟨v, hv⟩ := hn m hm
  exact Document.pointsInto_of_pointers rfl hv

theorem keeps_branchName {branch : SchemaNode} (hn : branch.Placed d base) (union : String)
    (taken : List (String × Nat)) (index : Nat) :
    PointsInto d base (branchName union taken index branch) := by
  unfold branchName
  cases hname : variantName union branch with
  | error e => exact Step.keeps_throw fun _ => pointsInto_of_variantName hn hname
  | ok name =>
    obtain ⟨v, hv⟩ := hn branch .self
    refine Keeps.bind (Step.keeps_pure trivial) fun name (_ : True) => ?_
    dsimp only
    cases taken.lookup name with
    | some first => exact Step.keeps_throw fun _ => Document.pointsInto_of_pointers rfl hv
    | none => exact Step.keeps_pure trivial

/-! ## Nodes -/

theorem keeps_fieldsOf {properties : List (String × SchemaNode)}
    (h : ∀ p ∈ properties, ∀ fallback, PointsInto d base (refFor p.2 fallback)) (name : String)
    (required : List String) : PointsInto d base (fieldsOf name required properties) := by
  induction properties with
  | nil =>
    rw [fieldsOf]
    exact Step.keeps_pure trivial
  | cons p rest ih =>
    rw [fieldsOf]
    refine (h p List.mem_cons_self _).bind fun type _ => ?_
    refine Keeps.bind (ih fun p' hp' => h p' (List.mem_cons_of_mem p hp')) fun fields _ => ?_
    exact Step.keeps_pure trivial

theorem keeps_variantsOf {branches : List SchemaNode} (hplaced : ∀ n ∈ branches, n.Placed d base)
    (h : ∀ n ∈ branches, ∀ fallback, PointsInto d base (refFor n fallback)) (union : String)
    (taken : List (String × Nat)) (index : Nat) :
    PointsInto d base (variantsOf union taken index branches) := by
  induction branches generalizing taken index with
  | nil =>
    rw [variantsOf]
    exact Step.keeps_pure trivial
  | cons n rest ih =>
    rw [variantsOf]
    refine (keeps_branchName (hplaced n List.mem_cons_self) union taken index).bind fun name _ => ?_
    refine (h n List.mem_cons_self _).bind fun type _ => ?_
    refine Keeps.bind (ih (fun n' hn' => hplaced n' (List.mem_cons_of_mem n hn'))
      (fun n' hn' => h n' (List.mem_cons_of_mem n hn')) _ _) fun variants _ => ?_
    exact Step.keeps_pure trivial

/-- A node is built once; the rule for its kind is needed only where it was not built before. -/
theorem keeps_unlessBuilt {serial : Nat} {step : Build TypeRef} (h : PointsInto d base step) :
    PointsInto d base (do
      match (← get).built.lookup serial with
      | some ref => return ref
      | none => step) := by
  refine Step.keeps_get_bind fun s _ => ?_
  cases s.built.lookup serial with
  | some ref => exact Step.keeps_pure trivial
  | none => exact h

/-- The building of a node halts only with errors that point into the document, if the nodes that stand in it have
their places there. -/
theorem keeps_refFor {n : SchemaNode} (hn : n.Placed d base) (fallback : String) :
    PointsInto d base (refFor n fallback) := by
  induction n using SchemaNode.induct generalizing fallback with
  | reference info target =>
    rw [refFor]
    exact Step.keeps_pure trivial
  | primitive info kind =>
    rw [refFor]
    exact keeps_unlessBuilt ((keeps_aliasOr _ _).bind fun ref _ => keeps_remember _ ref)
  | array info item ih =>
    rw [refFor]
    refine keeps_unlessBuilt ?_
    refine (ih (hn.inner List.mem_cons_self) _).bind fun item _ => ?_
    exact (keeps_aliasOr _ _).bind fun ref _ => keeps_remember _ ref
  | object info properties required ih =>
    rw [refFor]
    refine keeps_unlessBuilt ?_
    have hproperties : ∀ p ∈ properties, ∀ fallback, PointsInto d base (refFor p.2 fallback) :=
      fun p hp => ih p hp (hn.inner (List.mem_map_of_mem hp))
    refine (keeps_fieldsOf hproperties _ required).bind fun fields _ => ?_
    exact (keeps_define _ _).bind fun ref _ => keeps_remember _ ref
  | oneOf info branches ih =>
    rw [refFor]
    refine keeps_unlessBuilt ?_
    have hplaced : ∀ n ∈ branches, n.Placed d base := fun n hmem => hn.inner hmem
    refine (keeps_variantsOf hplaced (fun n hmem => ih n hmem (hplaced n hmem)) _ [] 0).bind
      fun variants _ => ?_
    exact (keeps_define _ _).bind fun ref _ => keeps_remember _ ref

/-! ## Components -/

theorem keeps_buildComponent {n : SchemaNode} (hn : n.Placed d base) (name : String) :
    PointsInto d base (buildComponent name n) := by
  refine (keeps_refFor hn _).bind fun ref _ => ?_
  split_ifs
  · exact (keeps_define _ _).bind fun _ _ => Step.keeps_pure trivial
  · exact Step.keeps_pure trivial

/-- The errors of components point into the document. -/
theorem pointsInto_buildComponents {components : List (String × SchemaNode)}
    (h : ∀ c ∈ components, c.2.Placed d base) (b : TypeBuilder) :
    ∀ e ∈ (buildComponents components b).1, d.PointsInto base e := by
  induction components generalizing b with
  | nil =>
    intro e he
    cases he
  | cons c rest ih =>
    intro e he
    have hrest := ih (fun c' hc' => h c' (List.mem_cons_of_mem c hc')) (buildComponent c.1 c.2 b).2
    obtain ⟨-, -, herror⟩ := keeps_buildComponent (h c List.mem_cons_self) c.1 b trivial
    rw [buildComponents] at he
    simp only [bind, StateT.bind, ExceptT.run] at he
    rcases hfirst : buildComponent c.1 c.2 b with ⟨outcome, b'⟩
    rw [hfirst] at he hrest herror
    cases outcome with
    | error e' =>
      rcases List.mem_cons.1 he with rfl | he
      · exact herror _ rfl
      · exact hrest e he
    | ok _ => exact hrest e he

end TypeBuilder

end RouteBinding
