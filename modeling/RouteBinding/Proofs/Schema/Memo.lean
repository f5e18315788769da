import RouteBinding.Proofs.Schema.Search

/-!
# The memory of the resolution

The resolution remembers the node of every container it has read. What it remembers always has the form that
the document gives to the container (`Sound`), whatever was resolved before and whether that went well or
not. So the resolution comes to the same as the search that remembers nothing (`follows_expandWithin`).
-/

namespace RouteBinding.Resolver

open Relation (ReflTransGen TransGen)
open Step (Follows)

variable {r : Resolver} {s₀ : State} {start site : Site} {depth : Nat} {trail : Trail}

/-- Every node that is remembered has the form of its container. -/
def Sound (r : Resolver) (s : State) : Prop :=
  ∀ p ∈ s.nodes, r.HasForm (.container p.1) p.2.form

theorem sound_initial : r.Sound .initial := by
  intro p hp
  cases hp

/-- The memory is sound, and since `s₀` nothing was done but to resolve schemas. -/
structure Extends (r : Resolver) (s₀ s : State) : Prop where
  sound : r.Sound s
  components : s.components = s₀.components
  errors : s.errors = s₀.errors
  componentsDone : s.componentsDone = s₀.componentsDone

theorem Sound.extends {s : State} (hs : r.Sound s) : r.Extends s s :=
  ⟨hs, rfl, rfl, rfl⟩

/-- A serial number that is used up does not matter. -/
theorem Extends.next {s₀ s : State} (hs : r.Extends s₀ s) :
    r.Extends s₀ { s with nextSerial := s.nextSerial + 1 } :=
  ⟨hs.sound, hs.components, hs.errors, hs.componentsDone⟩

theorem Extends.remember {s₀ s : State} (hs : r.Extends s₀ s) {id : Nat} {node : SchemaNode}
    (h : r.HasForm (.container id) node.form) :
    r.Extends s₀ { s with nodes := (id, node) :: s.nodes } := by
  refine ⟨fun p hp => ?_, hs.components, hs.errors, hs.componentsDone⟩
  rcases List.mem_cons.1 hp with rfl | hp
  · exact h
  · exact hs.sound p hp

theorem Sound.hasForm_of_lookup {s : State} (hs : r.Sound s) {id : Nat} {node : SchemaNode}
    (h : s.nodes.lookup id = some node) : r.HasForm (.container id) node.form :=
  hs (id, node) (mem_of_lookup h)

/-! ## New nodes -/

theorem follows_assemble (pointer : String) (title : Option String) (layer : Layer SchemaNode) :
    Follows (r.Extends s₀) SchemaNode.form (assemble pointer title layer)
      (assembleForm pointer title (layer.map SchemaNode.form)) := by
  intro s hs
  cases layer with
  | component name => exact ⟨hs.next, rfl⟩
  | inlined reference node => exact ⟨hs, rfl⟩
  | oneOf variants =>
    refine ⟨hs.next, ?_⟩
    rw [Layer.map, ← SchemaNode.forms_eq_map]
    rfl
  | array item => exact ⟨hs.next, rfl⟩
  | object properties required =>
    refine ⟨?_, ?_⟩
    · cases required with
      | none => exact hs
      | some required => exact hs.next
    · rw [Layer.map, ← SchemaNode.propertyForms_eq_map]
      cases required <;> rfl
  | primitive kind => exact ⟨hs.next, rfl⟩

theorem follows_claim (r : Resolver) (id : Nat) (node : SchemaNode) :
    Follows (r.Extends s₀) SchemaNode.form (r.claim id node) (.ok (r.claimForm id node.form)) := by
  intro s hs
  have hcomponent : node.form.info.component = node.info.component := by
    rw [SchemaNode.info_form]
    rfl
  unfold claim claimForm
  cases r.owner? id with
  | none => exact ⟨hs, rfl⟩
  | some name =>
    dsimp only
    rw [hcomponent]
    split_ifs
    · refine ⟨hs.next, ?_⟩
      rw [SchemaNode.info_form]
      exact congrArg Except.ok (SchemaNode.form_withInfo _ node)
    · exact ⟨hs, rfl⟩

/-! ## The same outcome as without a memory -/

/-- Remembering a node that has the form of its container changes nothing but the memory. -/
theorem follows_remember {id : Nat} {node : SchemaNode} (h : r.HasForm (.container id) node.form) :
    Follows (r.Extends s₀) SchemaNode.form
      (do modify fun s => { s with nodes := (id, node) :: s.nodes }; return node)
      (.ok node.form) :=
  fun _ hs => ⟨hs.remember h, rfl⟩

/-- From every sound memory, the resolution comes to what the search comes to, and keeps the memory sound. A
node that is remembered is what the search would find: its schema has a form, so that no part of it is on the
trail. -/
theorem follows_expandWithin (hunder : r.Underway start depth trail site) :
    Follows (r.Extends s₀) SchemaNode.form (r.expandWithin depth trail site)
      (r.searchWithin depth trail site) := by
  induction depth generalizing trail site with
  | zero => exact absurd rfl hunder.depth_ne_zero
  | succ depth ih =>
    rw [expandWithin]
    cases hshape : r.document.graph.shape site.value with
    | mapping id entries =>
      have hsite := eq_container_of_shape hshape
      refine Follows.get_bind fun s hs => ?_
      cases hlookup : s.nodes.lookup id with
      | some node =>
        -- a schema that has a form is found by the search, whatever is on the trail
        have hform := hs.sound.hasForm_of_lookup hlookup
        rw [← hsite] at hform
        refine ⟨hs, ?_⟩
        rw [searchWithin_of_hasForm hunder hform]
        rfl
      | none =>
        -- what is remembered at the end must have the form of the container
        have hfind (form : SchemaNode) (h : r.searchWithin (depth + 1) trail site = .ok form) :
            r.HasForm (.container id) form := by
          rw [← hsite]
          exact ⟨depth + 1, formWithin_of_searchWithin h⟩
        refine (?_ : Follows (r.Extends s₀) SchemaNode.form _ _) s hs
        rw [searchWithin, hshape] at hfind ⊢
        dsimp only at hfind ⊢
        split_ifs at hfind ⊢ with hid
        · exact Follows.fail _
        · refine Follows.bind (Follows.ofOutcome _) fun reading hread => ?_
          have hreads : r.Reads site.value id reading := .of_read hshape hread
          refine Follows.bind (Layer.follows_traverse fun next hnext =>
            ih (hunder.cons hreads hid hnext)) fun layer hlayer => ?_
          refine Follows.bind (follows_assemble _ _ layer) fun node hnode => ?_
          refine Follows.bind (follows_claim r id node) fun claimed hclaim => ?_
          refine follows_remember (hfind _ ?_)
          refine bind_eq_ok.2 ⟨reading, hread, bind_eq_ok.2 ⟨_, hlayer, bind_eq_ok.2 ⟨_, hnode, ?_⟩⟩⟩
          exact hclaim
    | _ =>
      rw [searchWithin, hshape]
      exact Follows.fail _

section Resolve

variable {s : State} (hs : r.Sound s) (raw : Value) (pointer : String)

include hs

/-- With any sound memory, a schema resolves to what is found without one. -/
theorem form_resolve : (r.resolve raw pointer s).1.map SchemaNode.form = r.search raw pointer :=
  (follows_expandWithin (.initial r ⟨raw, pointer⟩ (Nat.lt_succ_self _)) s hs.extends).2

theorem extends_resolve : r.Extends s (r.resolve raw pointer s).2 :=
  (follows_expandWithin (.initial r ⟨raw, pointer⟩ (Nat.lt_succ_self _)) s hs.extends).1

end Resolve

/-- What a resolver that has resolved nothing yet makes of a schema. -/
def fresh (r : Resolver) (raw : Value) (pointer : String) : Except Halt SchemaNode :=
  (r.resolve raw pointer .initial).1

theorem form_fresh (raw : Value) (pointer : String) :
    (r.fresh raw pointer).map SchemaNode.form = r.search raw pointer :=
  form_resolve sound_initial raw pointer

end RouteBinding.Resolver
