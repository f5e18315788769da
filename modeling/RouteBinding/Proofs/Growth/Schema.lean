import RouteBinding.Proofs.Growth.Reading
import RouteBinding.Proofs.Schema.Cycles

/-!
# Resolving schemas in a grown document

The resolution of a schema in a grown document runs alongside that in the document before: it gives the same node,
and it remembers the same nodes, under the names that the containers have now (`Grows.alongside_resolve`). So do the
components resolve (`Grows.alongside_resolveComponents`).
-/

namespace RouteBinding

open Step (Alongside alongside_pure alongside_fail alongside_get_bind alongside_modify)

namespace Resolver

/-- A state of a resolver if containers have other names. -/
def State.rename (ρ : Nat → Nat) (s : State) : State :=
  { s with nodes := s.nodes.map fun n => (ρ n.1, n.2) }

/-- A trail if containers have other names. -/
def Trail.rename (ρ : Nat → Nat) (trail : Trail) : Trail :=
  trail.map fun t => (ρ t.1, t.2)

section Rename

variable {ρ : Nat → Nat}

theorem lookup_map {α : Type} (hρ : Function.Injective ρ) (l : List (Nat × α)) (id : Nat) :
    (l.map fun n => (ρ n.1, n.2)).lookup (ρ id) = l.lookup id := by
  induction l with
  | nil => rfl
  | cons n rest ih =>
    have hbeq : (ρ id == ρ n.1) = (id == n.1) := by
      rw [Bool.eq_iff_iff, beq_iff_eq, beq_iff_eq, hρ.eq_iff]
    rw [List.map_cons, List.lookup_cons, List.lookup_cons, hbeq, ih]

theorem any_rename (hρ : Function.Injective ρ) (trail : Trail) (id : Nat) :
    (trail.rename ρ).any (·.1 = ρ id) = trail.any (·.1 = id) := by
  rw [Trail.rename, List.any_map]
  congr 1
  funext t
  simp only [Function.comp_apply, hρ.eq_iff]

theorem loop_rename (hρ : Function.Injective ρ) (trail : Trail) (id : Nat) (pointer : String) :
    (trail.rename ρ).loop (ρ id) pointer = trail.loop id pointer := by
  have hother : (fun t : Nat × String => decide (t.1 ≠ ρ id)) ∘ (fun t => (ρ t.1, t.2)) =
      fun t : Nat × String => decide (t.1 ≠ id) := by
    funext t
    simp only [Function.comp_apply, ne_eq, hρ.eq_iff]
  unfold Trail.loop Trail.rename
  rw [← List.map_reverse, List.dropWhile_map, hother, List.map_map]
  rfl

theorem located_map (pointer : String) (l : Layer Value) :
    (l.map (Value.rename ρ)).located pointer =
      (l.located pointer).map fun site => ⟨site.value.rename ρ, site.pointer⟩ := by
  cases l with
  | oneOf branches =>
    simp only [Layer.map, Layer.located, List.zipIdx_map, List.map_map]
    rfl
  | object properties required =>
    simp only [Layer.map, Layer.located, List.map_map]
    rfl
  | _ => rfl

end Rename

/-- A container is the component that it was. -/
theorem Widens.owner?_eq {ρ : Nat → Nat} {added : List (Scalar × Value)} {r r' : Resolver}
    (h : Resolver.Widens ρ added r r') (id : Nat) : r'.owner? (ρ id) = r.owner? id := by
  have hamong (schemas : List (Scalar × Value)) (happart : ∀ e ∈ schemas, r.document.Apart e.2) :
      r'.ownerAmong (ρ id) (renameEntries ρ schemas) = r.ownerAmong id schemas := by
    induction schemas with
    | nil => rfl
    | cons e rest ih =>
      obtain ⟨key, value⟩ := e
      obtain ⟨hvalue, hrest⟩ := List.forall_mem_cons.1 happart
      cases key with
      | text name =>
        show r'.ownerAmong (ρ id) ((.text name, value.rename ρ) :: renameEntries ρ rest) = _
        rw [ownerAmong, ownerAmong, h.document.shape_rename hvalue, ih hrest]
        cases r.document.graph.shape value with
        | mapping found entries => simp only [Shape.rename, h.document.injective.eq_iff]
        | _ => rfl
      | _ => exact ih hrest
  unfold owner?
  rw [h.schemas]
  exact hamong _ h.apart

namespace Grows

variable {ρ : Nat → Nat} {added : List (Scalar × Value)} {r r' : Resolver}

/-! ## Nodes -/

theorem alongside_freshInfo (pointer : String) (title : Option String) :
    Alongside (State.rename ρ) Eq (freshInfo pointer title) (freshInfo pointer title) :=
  fun _ => ⟨.ok rfl, rfl⟩

theorem alongside_asComponent (name : String) (node : SchemaNode) :
    Alongside (State.rename ρ) Eq (asComponent name node) (asComponent name node) :=
  fun _ => ⟨.ok rfl, rfl⟩

theorem alongside_assemble (pointer : String) (title : Option String) (layer : Layer SchemaNode) :
    Alongside (State.rename ρ) Eq (assemble pointer title layer) (assemble pointer title layer) := by
  have fresh (f : NodeInfo → SchemaNode) : Alongside (State.rename ρ) Eq
      (do return f (← freshInfo pointer title)) (do return f (← freshInfo pointer title)) := by
    exact (alongside_freshInfo pointer title).bind_eq fun info => alongside_pure rfl
  cases layer with
  | component name => exact fresh (.reference · name)
  | inlined reference node => exact alongside_pure rfl
  | oneOf variants => exact fresh (.oneOf · variants)
  | array item => exact fresh (.array · item)
  | object properties required =>
    cases required with
    | none => exact alongside_fail _
    | some required => exact fresh (.object · properties required)
  | primitive kind => exact fresh (.primitive · kind)

theorem alongside_claim (h : Resolver.Grows ρ added r r') (id : Nat) (node : SchemaNode) :
    Alongside (State.rename ρ) Eq (r.claim id node) (r'.claim (ρ id) node) := by
  unfold claim
  rw [h.owner?_eq]
  cases r.owner? id with
  | none => exact alongside_pure rfl
  | some name =>
    dsimp only
    split_ifs
    · exact alongside_asComponent name node
    · exact alongside_pure rfl

/-! ## Schemas -/

/-- Within every depth, a schema that a pointer may lead to comes to the same node. -/
theorem alongside_expandWithin (h : Resolver.Grows ρ added r r') (depth : Nat) (trail : Trail)
    (site : Site) (hsite : r.document.Referable site.value) :
    Alongside (State.rename ρ) Eq (r.expandWithin depth trail site)
      (r'.expandWithin depth (trail.rename ρ) ⟨site.value.rename ρ, site.pointer⟩) := by
  have hinjective := h.document.injective
  induction depth generalizing trail site with
  | zero => exact alongside_fail _
  | succ depth ih =>
    rw [expandWithin, expandWithin]
    dsimp only
    cases hshape : r.document.graph.shape site.value with
    | mapping id entries =>
      obtain ⟨entries', hshape', hmatches⟩ := h.document.exists_matches hsite hshape
      rw [hshape']
      refine alongside_get_bind fun s => ?_
      have hlookup : (s.rename ρ).nodes.lookup (ρ id) = s.nodes.lookup id :=
        lookup_map hinjective s.nodes id
      rw [hlookup]
      cases s.nodes.lookup id with
      | some node => exact alongside_pure rfl
      | none =>
        dsimp only
        rw [any_rename hinjective, loop_rename hinjective]
        split_ifs
        · exact alongside_fail _
        · have hout : ∀ target, valueAt? "$ref" entries = some (.scalar (.text target)) →
              Pointer.componentName? target = none → ¬ Pointer.Enters added target :=
            fun target htarget _ =>
              h.growth.not_enters hsite (Graph.entries?_eq_some_iff.2 ⟨id, hshape⟩) htarget
          refine (Step.alongside_ofOutcome (h.read_grows hmatches hout)).bind fun reading reading' hr => ?_
          obtain ⟨rfl, hinner⟩ := hr
          dsimp only [Reading.rename]
          rw [located_map, Layer.traverse_map]
          have htraverse : Alongside (State.rename ρ) Eq
              ((reading.layer.located site.pointer).traverse
                (r.expandWithin depth ((id, site.pointer) :: trail)))
              ((reading.layer.located site.pointer).traverse fun next =>
                r'.expandWithin depth ((ρ id, site.pointer) :: trail.rename ρ)
                  ⟨next.value.rename ρ, next.pointer⟩) := by
            refine Layer.alongside_traverse fun next hnext => ?_
            exact ih _ next (hinner _ (Layer.value_mem_of_mem_located hnext))
          refine htraverse.bind_eq fun layer => ?_
          refine (alongside_assemble site.pointer reading.title layer).bind_eq fun n => ?_
          refine (h.alongside_claim id n).bind_eq fun n' => ?_
          exact Alongside.bind_eq (alongside_modify fun s => rfl) fun _ => alongside_pure rfl
    | _ =>
      have happart : r.document.Apart site.value := by
        refine h.document.apart_of_entries?_eq_none hsite ?_
        rw [Graph.entries?, hshape]
      rw [h.document.shape_rename happart, hshape, h.document.typeName_rename hsite]
      exact alongside_fail _

theorem expandWithin_eq_resolve (r : Resolver) (raw : Value) (pointer : String) {depth : Nat}
    (hdepth : r.document.graph.size < depth) :
    r.expandWithin depth [] ⟨raw, pointer⟩ = r.resolve raw pointer :=
  expandWithin_depth (.initial r ⟨raw, pointer⟩ hdepth) (.initial r _ (Nat.lt_succ_self _))

/-- A schema that a pointer may lead to resolves to the same node. -/
theorem alongside_resolve (h : Resolver.Grows ρ added r r') {raw : Value}
    (hraw : r.document.Referable raw) (pointer : String) :
    Alongside (State.rename ρ) Eq (r.resolve raw pointer) (r'.resolve (raw.rename ρ) pointer) := by
  -- one depth that is enough for both documents
  have hlt : r.document.graph.size < r.document.graph.size + r'.document.graph.size + 1 := by omega
  have hlt' : r'.document.graph.size < r.document.graph.size + r'.document.graph.size + 1 := by omega
  rw [← expandWithin_eq_resolve r raw pointer hlt, ← expandWithin_eq_resolve r' _ pointer hlt']
  exact h.alongside_expandWithin _ [] ⟨raw, pointer⟩ hraw

/-! ## Components -/

theorem alongside_record (e : CompileError) :
    Alongside (State.rename ρ) Eq (record e) (record e) :=
  alongside_modify fun _ => rfl

theorem alongside_resolveComponent (h : Resolver.Grows ρ added r r') (key : Scalar) {raw : Value}
    (hraw : r.document.Referable raw) :
    Alongside (State.rename ρ) Eq (r.resolveComponent key raw)
      (r'.resolveComponent key (raw.rename ρ)) := by
  unfold resolveComponent
  cases key with
  | text name =>
    refine (h.alongside_resolve hraw _).attempt_eq.bind_eq fun outcome => ?_
    cases outcome with
    | error e => exact alongside_record e
    | ok node =>
      dsimp only
      split_ifs
      · exact Alongside.bind_eq (alongside_pure rfl) fun n => alongside_modify fun _ => rfl
      · exact (alongside_asComponent name node).bind_eq fun n => alongside_modify fun _ => rfl
  | _ => exact (Step.alongside_ofOutcome (.refl _)).bind_eq fun name => alongside_record _

/-- The components of the grown document are those from before. -/
theorem alongside_resolveComponents (h : Resolver.Grows ρ added r r') :
    Alongside (State.rename ρ) Eq r.resolveComponents r'.resolveComponents := by
  unfold resolveComponents
  refine alongside_get_bind fun s => ?_
  have hdone : (s.rename ρ).componentsDone = s.componentsDone := rfl
  rw [hdone]
  split_ifs
  · exact alongside_get_bind fun s => alongside_pure rfl
  · refine Alongside.bind_eq (alongside_modify fun _ => rfl) fun _ => ?_
    have hall : Alongside (State.rename ρ) Eq
        (r.schemas.forM fun e => r.resolveComponent e.1 e.2)
        (r'.schemas.forM fun e => r'.resolveComponent e.1 e.2) := by
      rw [h.schemas]
      refine Step.alongside_forM ?_
      rw [renameEntries, List.forall₂_map_right_iff]
      exact List.forall₂_same.2 fun e he => h.alongside_resolveComponent e.1 (.inl (h.apart e he))
    refine Alongside.bind_eq hall fun _ => ?_
    refine Alongside.bind_eq (alongside_modify fun _ => rfl) fun _ => ?_
    exact alongside_get_bind fun s => alongside_pure rfl

end Grows

end Resolver

end RouteBinding
