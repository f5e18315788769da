import RouteBinding.Proofs.Schema.History

/-!
# The nodes of a resolution

The nodes that a resolver knows are those it remembers, the components, and all nodes inside them (`Known`).
Of two known nodes with the same serial number there is only one (`Coherent`), and every known node shows a
schema of the document (`Shows`): it says the same about the schemas inside it.
-/

namespace RouteBinding

/-- What a node says by itself. -/
def SchemaNode.layer : SchemaNode → Layer SchemaNode
  | primitive _ kind => .primitive kind
  | reference _ target => .component target
  | array _ item => .array item
  | object _ properties required => .object properties (some required)
  | oneOf _ variants => .oneOf variants

@[simp] theorem SchemaNode.layer_withInfo (info : NodeInfo) (n : SchemaNode) :
    (n.withInfo info).layer = n.layer := by
  cases n <;> rfl

/-- The form of a node has the forms of what is inside. -/
theorem SchemaNode.layer_form (n : SchemaNode) : n.form.layer = n.layer.map form := by
  cases n with
  | object info properties required =>
    rw [form, layer, layer, Layer.map, propertyForms_eq_map]
  | oneOf info variants => rw [form, layer, layer, Layer.map, forms_eq_map]
  | _ => rfl

namespace Resolver

variable {r : Resolver} {s t : State} {v w : Value} {n node : SchemaNode}

/-! ## What a node shows -/

/-- A node shows a schema if it says the same as the form of the schema. It may be another component. -/
def Shows (r : Resolver) (v : Value) (n : SchemaNode) : Prop :=
  ∃ form, r.HasForm v form ∧ form.layer = n.form.layer

/-- What has the form of a node shows it. -/
theorem HasForm.shows (h : r.HasForm v n.form) : r.Shows v n :=
  ⟨n.form, h, rfl⟩

@[simp] theorem layer_claimForm (id : Nat) : (r.claimForm id n).layer = n.layer := by
  unfold claimForm
  cases r.owner? id with
  | none => rfl
  | some name =>
    dsimp only
    split_ifs
    · exact SchemaNode.layer_withInfo _ n
    · rfl

/-- A node that is assembled has the layer it is assembled from, or is the one that was inlined. -/
theorem layer_of_assembleForm {title : Option String} {layer : Layer SchemaNode}
    (h : assembleForm "" title layer = .ok node) :
    (∃ reference, layer = .inlined reference node) ∨ node.layer = layer := by
  cases layer with
  | inlined reference target => cases h; exact .inl ⟨reference, rfl⟩
  | object properties required =>
    cases required with
    | none => exact absurd h refuse_ne_ok
    | some required => cases h; exact .inr rfl
  | _ => cases h; exact .inr rfl

/-- What holds of a schema that says by itself what the node says, and goes back along references, holds of
every schema that the node shows. -/
theorem Shows.induct {P : Value → Prop} (h : r.Shows v n)
    (inlined : ∀ v id reading reference target, r.Reads v id reading →
      reading.layer = .inlined reference target → P target → P v)
    (itself : ∀ v id reading, r.Reads v id reading → Layer.Agree r.Shows reading.layer n.layer →
      P v) : P v := by
  obtain ⟨form, ⟨depth, hform⟩, hlayer⟩ := h
  -- by induction on the depth of the form: each inlined reference takes one step of it
  induction depth generalizing v form with
  | zero => cases hform
  | succ depth ih =>
    obtain ⟨id, reading, layer, node, hreads, hagree, hnode, rfl⟩ := formWithin_succ_iff.1 hform
    rw [layer_claimForm] at hlayer
    rcases layer_of_assembleForm hnode with ⟨reference, rfl⟩ | rfl
    · generalize hl : reading.layer = l at hagree
      cases hagree with
      | inlined reference htarget =>
        exact inlined v id reading reference _ hreads hl (ih node hlayer htarget)
    · rw [hlayer, SchemaNode.layer_form, Layer.Agree.map_right] at hagree
      exact itself v id reading hreads (hagree.mono fun w _ k hk => HasForm.shows ⟨depth, hk⟩)

/-- What stands inside a node shows a schema, if the node does. -/
theorem Shows.inner (h : r.Shows v n) {c : SchemaNode} (hc : c ∈ n.layer.inner) :
    ∃ w, r.Shows w c := by
  refine h.induct (P := fun _ => ∃ w, r.Shows w c) (fun _ _ _ _ _ _ _ hw => hw)
    fun v id reading _ hagree => ?_
  obtain ⟨w, -, hw⟩ := hagree.exists_left hc
  exact ⟨w, hw⟩

/-- A node that is a reference names a component that is declared. -/
theorem Shows.declares {info : NodeInfo} {name : String} (h : r.Shows v (.reference info name)) :
    r.declares name ∧ name ≠ "" := by
  refine h.induct (P := fun _ => r.declares name ∧ name ≠ "") (fun _ _ _ _ _ _ _ hw => hw)
    fun v id reading hreads hagree => ?_
  generalize hl : reading.layer = l at hagree
  cases hagree with
  | component name => exact hreads.declares hl

/-! ## Known nodes -/

/-- The nodes that a state holds, with all nodes inside them. -/
inductive Known (s : State) : SchemaNode → Prop
  | stored {id : Nat} {n : SchemaNode} (h : (id, n) ∈ s.nodes) : Known s n
  | component {name : String} {n : SchemaNode} (h : (name, n) ∈ s.components) : Known s n
  | inner {n c : SchemaNode} (h : Known s n) (hc : c ∈ n.layer.inner) : Known s c

/-- Serial numbers tell known nodes apart, and those to come are new. -/
structure Coherent (s : State) : Prop where
  lt_next : ∀ n, Known s n → n.info.serial < s.nextSerial
  unique : ∀ n n', Known s n → Known s n' → n.info.serial = n'.info.serial → n = n'

/-- A node that is known stays so. -/
theorem known_mono (hnodes : s.nodes ⊆ t.nodes) (hcomponents : s.components ⊆ t.components)
    (h : Known s n) : Known t n := by
  induction h with
  | stored h => exact .stored (hnodes h)
  | component h => exact .component (hcomponents h)
  | inner _ hc ih => exact .inner ih hc

theorem known_next {next : Nat} : Known { s with nextSerial := next } n ↔ Known s n :=
  ⟨known_mono (fun _ h => h) (fun _ h => h), known_mono (fun _ h => h) (fun _ h => h)⟩

/-- A state with fewer nodes, and serial numbers as late, is coherent. -/
theorem Coherent.of_subset (h : Coherent s) (hnodes : t.nodes ⊆ s.nodes)
    (hcomponents : t.components ⊆ s.components) (hnext : s.nextSerial ≤ t.nextSerial) :
    Coherent t where
  lt_next n hn := Nat.lt_of_lt_of_le (h.lt_next n (known_mono hnodes hcomponents hn)) hnext
  unique n n' hn hn' :=
    h.unique n n' (known_mono hnodes hcomponents hn) (known_mono hnodes hcomponents hn')

/-- The first state is coherent. -/
theorem coherent_initial : Coherent .initial := by
  have hnone : ∀ n, ¬ Known .initial n := by
    intro n h
    induction h with
    | stored h => cases h
    | component h => cases h
    | inner _ _ ih => exact ih
  exact ⟨fun n hn => absurd hn (hnone n), fun n _ hn => absurd hn (hnone n)⟩

/-- A node that may be stored: what stands inside it is known, and it is known itself or has a number that
no known node has. -/
structure Ready (s : State) (n : SchemaNode) : Prop where
  inner : ∀ c ∈ n.layer.inner, Known s c
  lt_next : n.info.serial < s.nextSerial
  known_or_new : Known s n ∨ ∀ n', Known s n' → n'.info.serial ≠ n.info.serial

/-- A node that is known is ready to be used. -/
theorem Known.ready (hs : Coherent s) (h : Known s n) : Ready s n :=
  ⟨fun _ hc => h.inner hc, hs.lt_next n h, .inl h⟩

/-- A node with the next serial number may be stored. -/
theorem ready_next (hs : Coherent s) (hinner : ∀ c ∈ n.layer.inner, Known s c)
    (hserial : n.info.serial = s.nextSerial) :
    Ready { s with nextSerial := s.nextSerial + 1 } n where
  inner c hc := known_next.2 (hinner c hc)
  lt_next := hserial ▸ Nat.lt_succ_self _
  known_or_new := by
    right
    intro n' hn' heq
    have hlt := hs.lt_next n' (known_next.1 hn')
    omega

/-- A serial number that is taken leaves the state coherent. -/
theorem Coherent.next (hs : Coherent s) : Coherent { s with nextSerial := s.nextSerial + 1 } :=
  hs.of_subset (List.Subset.refl _) (List.Subset.refl _) (Nat.le_succ _)

/-- A state that holds one more node, which may be stored, stays coherent. -/
theorem Coherent.add (hs : Coherent s) (hn : Ready s n) (hnext : s.nextSerial = t.nextSerial)
    (hnodes : ∀ p ∈ t.nodes, p ∈ s.nodes ∨ p.2 = n)
    (hcomponents : ∀ c ∈ t.components, c ∈ s.components ∨ c.2 = n) : Coherent t := by
  -- what stands inside the new node was known before, so that only the node itself is new
  have hknown : ∀ m, Known t m → Known s m ∨ m = n := by
    intro m hm
    induction hm with
    | stored h =>
      rcases hnodes _ h with h | h
      · exact .inl (.stored h)
      · exact .inr h
    | component h =>
      rcases hcomponents _ h with h | h
      · exact .inl (.component h)
      · exact .inr h
    | inner _ hc ih =>
      rcases ih with h | rfl
      · exact .inl (h.inner hc)
      · exact .inl (hn.inner _ hc)
  have hnew : ∀ m, Known s m → m.info.serial = n.info.serial → m = n := by
    intro m hm heq
    rcases hn.known_or_new with h | h
    · exact hs.unique m n hm h heq
    · exact absurd heq (h m hm)
  constructor
  · intro m hm
    rw [← hnext]
    rcases hknown m hm with h | rfl
    · exact hs.lt_next m h
    · exact hn.lt_next
  · intro m m' hm hm' heq
    rcases hknown m hm with h | rfl <;> rcases hknown m' hm' with h' | rfl
    · exact hs.unique m m' h h' heq
    · exact hnew m h heq
    · exact (hnew m' h' heq.symm).symm
    · rfl

/-! ## The course of a resolution -/

/-- The states of a resolution: they stay coherent and lose nothing. -/
def resolution : Course State where
  inv := Coherent
  le s t := s.nodes ⊆ t.nodes ∧ s.components ⊆ t.components
  refl _ := ⟨List.Subset.refl _, List.Subset.refl _⟩
  trans h h' := ⟨List.Subset.trans h.1 h'.1, List.Subset.trans h.2 h'.2⟩

open Course (Runs)

/-- A node that is assembled of known ones is ready. -/
theorem runs_assemble (hs : Coherent s) (pointer : String) (title : Option String)
    {layer : Layer SchemaNode} (hlayer : ∀ c ∈ layer.inner, Known s c) :
    resolution.Runs (assemble pointer title layer) s fun n t => Ready t n := by
  have fresh (f : NodeInfo → SchemaNode) (hinfo : ∀ info, (f info).info = info)
      (hinner : ∀ info, ∀ c ∈ (f info).layer.inner, Known s c) :
      resolution.Runs (do return f (← freshInfo pointer title)) s fun n t => Ready t n := by
    refine ⟨hs.next, ⟨List.Subset.refl _, List.Subset.refl _⟩, fun n hn => ?_⟩
    cases hn
    exact ready_next hs (hinner _) (by rw [hinfo])
  cases layer with
  | component name => exact fresh (.reference · name) (fun _ => rfl) (fun _ => hlayer)
  | inlined reference node =>
    exact Course.runs_pure hs ((hlayer node List.mem_cons_self).ready hs)
  | oneOf variants => exact fresh (.oneOf · variants) (fun _ => rfl) (fun _ => hlayer)
  | array item => exact fresh (.array · item) (fun _ => rfl) (fun _ => hlayer)
  | object properties required =>
    cases required with
    | none => exact Course.runs_fail hs
    | some required =>
      exact fresh (.object · properties required) (fun _ => rfl) (fun _ => hlayer)
  | primitive kind => exact fresh (.primitive · kind) (fun _ => rfl) (fun _ => hlayer)

@[simp] theorem info_withInfo (info : NodeInfo) (n : SchemaNode) : (n.withInfo info).info = info := by
  cases n <;> rfl

/-- A node that becomes a component is ready. -/
theorem runs_asComponent (hs : Coherent s) (name : String) (hn : Ready s n) :
    resolution.Runs (asComponent name n) s fun n t => Ready t n := by
  refine ⟨hs.next, ⟨List.Subset.refl _, List.Subset.refl _⟩, fun n' hn' => ?_⟩
  cases hn'
  refine ready_next hs (fun c hc => ?_) (by rw [info_withInfo])
  rw [SchemaNode.layer_withInfo] at hc
  exact hn.inner c hc

/-- A node that is claimed for a container is ready. -/
theorem runs_claim (hs : Coherent s) (r : Resolver) (id : Nat) (hn : Ready s n) :
    resolution.Runs (r.claim id n) s fun n t => Ready t n := by
  unfold claim
  cases r.owner? id with
  | none => exact Course.runs_pure hs hn
  | some name =>
    dsimp only
    split_ifs
    · exact runs_asComponent hs name hn
    · exact Course.runs_pure hs hn

/-- A resolution keeps to its course, and the node that it gives is remembered. -/
theorem runs_expandWithin (hs : Coherent s) (r : Resolver) (depth : Nat) (trail : Trail)
    (site : Site) :
    resolution.Runs (r.expandWithin depth trail site) s fun n t => ∃ id, (id, n) ∈ t.nodes := by
  induction depth generalizing trail site s with
  | zero => exact Course.runs_fail hs
  | succ depth ih =>
    rw [expandWithin]
    cases r.document.graph.shape site.value with
    | mapping id entries =>
      refine Course.runs_get_bind ?_
      cases hlookup : s.nodes.lookup id with
      | some node => exact Course.runs_pure hs ⟨id, mem_of_lookup hlookup⟩
      | none =>
        dsimp only
        split_ifs
        · exact Course.runs_fail hs
        · refine Runs.bind (Course.runs_ofOutcome hs) fun reading t ht _ _ => ?_
          have hinner : resolution.Runs ((reading.layer.located site.pointer).traverse
              (r.expandWithin depth ((id, site.pointer) :: trail))) t
              fun layer u => Layer.Agree (fun _ n => ∃ id, (id, n) ∈ u.nodes)
                (reading.layer.located site.pointer) layer := by
            refine Layer.runs_traverse ht (fun _ n u v hle h => ?_) fun next _ u hu _ => ih hu _ next
            exact h.imp fun id hmem => hle.1 hmem
          refine Runs.bind hinner fun layer u hu _ hlayer => ?_
          have hknown : ∀ c ∈ layer.inner, Known u c := by
            intro c hc
            obtain ⟨_, _, id', hmem⟩ := hlayer.exists_left hc
            exact .stored hmem
          refine Runs.bind (runs_assemble hu _ _ hknown) fun n u' hu' _ hn => ?_
          refine Runs.bind (runs_claim hu' r id hn) fun n' v hv _ hn' => ?_
          refine Runs.bind (Course.runs_modify ?_ ?_) fun _ w hw _ heq => ?_
          · refine hv.add hn' rfl (fun p hp => ?_) fun c hc => .inl hc
            rcases List.mem_cons.1 hp with rfl | hp
            · exact .inr rfl
            · exact .inl hp
          · exact ⟨List.subset_cons_self _ _, List.Subset.refl _⟩
          · exact Course.runs_pure hw ⟨id, heq ▸ List.mem_cons_self⟩
    | _ => exact Course.runs_fail hs

end Resolver

end RouteBinding
