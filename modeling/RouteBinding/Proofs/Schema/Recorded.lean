import RouteBinding.Proofs.Schema.Provenance

/-!
# One mapping, one node

A resolver reads every mapping once: the node that it remembers for a mapping it remembers ever after, and what
stands inside that node is what it remembers for the schemas inside the mapping (`Resolver.Recorded`). The node of
a reference that is no component is the node of what the reference leads to; a mapping that is a component has a
node of its own, which carries the name of the component.

How a node comes to be remembered is said once (`Resolver.Made`): what holds of the nodes that are remembered, and
still holds when another one is made, is kept by every resolution (`Resolver.keeping_expandWithin`).
-/

namespace RouteBinding.Resolver

open Course (Runs)

variable {r : Resolver} {s t : State} {trail : Trail} {nodes nodes' : List (Nat × SchemaNode)} {id : Nat}
  {n m : SchemaNode} {v : Value}

/-! ## What is remembered -/

/-- The node that is remembered for a value. -/
def nodeOf? (nodes : List (Nat × SchemaNode)) : Value → Option SchemaNode
  | .container id => nodes.lookup id
  | .scalar _ => none

/-- How the node of a mapping has come about: from the node of what a reference leads to, or from those of the
schemas inside the mapping. -/
inductive Recorded (r : Resolver) (nodes : List (Nat × SchemaNode)) (id : Nat) (n : SchemaNode) : Prop
  | inlined {reading : Reading} {reference : String} {target : Value} {m : SchemaNode}
    (hreads : r.Reads (.container id) id reading) (hl : reading.layer = .inlined reference target)
    (hm : nodeOf? nodes target = some m) (hlayer : n.layer = m.layer) (hsame : r.owner? id = none → n = m)
  | itself {reading : Reading} (hreads : r.Reads (.container id) id reading)
    (hlayer : Layer.Agree (fun v c => nodeOf? nodes v = some c) reading.layer n.layer)
    (hcomponent : n.info.component = r.owner? id)

/-- What one memory holds another one holds as well. -/
def Remembered (nodes nodes' : List (Nat × SchemaNode)) : Prop :=
  ∀ id n, nodes.lookup id = some n → nodes'.lookup id = some n

theorem Remembered.nodeOf? (h : Remembered nodes nodes') (hv : nodeOf? nodes v = some n) :
    nodeOf? nodes' v = some n := by
  cases v with
  | container id => exact h id n hv
  | scalar value => cases hv

/-- A node that was recorded stays so. -/
theorem Recorded.mono (h : Remembered nodes nodes') (hn : Recorded r nodes id n) :
    Recorded r nodes' id n := by
  cases hn with
  | inlined hreads hl hm hlayer hsame => exact .inlined hreads hl (h.nodeOf? hm) hlayer hsame
  | itself hreads hlayer hcomponent =>
    exact .itself hreads (hlayer.mono fun _ _ _ hc => h.nodeOf? hc) hcomponent

/-- Every node that is remembered has come about as it should. -/
def Records (r : Resolver) (nodes : List (Nat × SchemaNode)) : Prop :=
  ∀ id n, nodes.lookup id = some n → Recorded r nodes id n

/-- A new node is recorded for a container that had none. -/
theorem Records.cons (h : Records r nodes) (hnew : nodes.lookup id = none)
    (hn : Recorded r nodes id n) :
    Records r ((id, n) :: nodes) ∧ Remembered nodes ((id, n) :: nodes) := by
  have hremembered : Remembered nodes ((id, n) :: nodes) := by
    intro id' n' hlookup
    have hne : id' ≠ id := by
      rintro rfl
      rw [hnew] at hlookup
      cases hlookup
    rwa [List.lookup_cons, beq_false_of_ne hne]
  refine ⟨fun id' n' hlookup => ?_, hremembered⟩
  rw [List.lookup_cons] at hlookup
  split at hlookup
  · rename_i heq
    rw [eq_of_beq heq]
    rw [← Option.some.inj hlookup]
    exact hn.mono hremembered
  · exact (h id' n' hlookup).mono hremembered

/-! ## Making nodes -/

/-- A node that is assembled takes the place of a reference, or is a new one with the title. -/
def Assembled (layer : Layer SchemaNode) (title : Option String) (n : SchemaNode) : Prop :=
  (∃ reference, layer = .inlined reference n) ∨ n.layer = layer ∧ n.info.component = none ∧ n.info.title = title

/-- A node that is claimed for a mapping stays itself, unless the mapping is a component and the node is none yet. -/
def Claimed (r : Resolver) (id : Nat) (n m : SchemaNode) : Prop :=
  m = n ∧ (r.owner? id = none ∨ n.info.component ≠ none) ∨
    r.owner? id ≠ none ∧ n.info.component = none ∧ m.info.component = r.owner? id ∧ m.layer = n.layer

/-- A node that is claimed keeps its layer. -/
theorem Claimed.layer_eq (h : Claimed r id n m) : m.layer = n.layer := by
  rcases h with ⟨rfl, -⟩ | ⟨-, -, -, hlayer⟩
  · rfl
  · exact hlayer

theorem assembled_of_ok {pointer : String} {title : Option String} {layer : Layer SchemaNode}
    (h : (assemble pointer title layer s).1 = .ok n) : Assembled layer title n := by
  cases layer with
  | inlined reference node => cases h; exact .inl ⟨reference, rfl⟩
  | object properties required =>
    cases required with
    | none => cases h
    | some required => cases h; exact .inr ⟨rfl, rfl, rfl⟩
  | _ => cases h; exact .inr ⟨rfl, rfl, rfl⟩

/-- To assemble a node records nothing. -/
theorem same_assemble (pointer : String) (title : Option String) (layer : Layer SchemaNode) :
    (assemble pointer title layer s).2.nodes = s.nodes ∧
      (assemble pointer title layer s).2.components = s.components := by
  cases layer with
  | object properties required => cases required <;> exact ⟨rfl, rfl⟩
  | _ => exact ⟨rfl, rfl⟩

/-- A node that is claimed is the one it was, or a component. -/
theorem claimed_of_ok (h : (r.claim id n s).1 = .ok m) : Claimed r id n m := by
  unfold claim at h
  cases howner : r.owner? id with
  | none =>
    rw [howner] at h
    cases h
    exact .inl ⟨rfl, .inl howner⟩
  | some name =>
    rw [howner] at h
    dsimp only at h
    split_ifs at h with hcomponent
    · cases h
      refine .inr ⟨?_, Option.isNone_iff_eq_none.1 hcomponent, ?_, SchemaNode.layer_withInfo _ n⟩
      · rw [howner]
        exact Option.some_ne_none name
      · rw [info_withInfo, howner]
    · cases h
      exact .inl ⟨rfl, .inr fun hnone => hcomponent (Option.isNone_iff_eq_none.2 hnone)⟩

theorem same_claim (id : Nat) (n : SchemaNode) :
    (r.claim id n s).2.nodes = s.nodes ∧ (r.claim id n s).2.components = s.components := by
  unfold claim
  cases r.owner? id with
  | none => exact ⟨rfl, rfl⟩
  | some name =>
    dsimp only
    split_ifs <;> exact ⟨rfl, rfl⟩

/-- Where a node comes from that was assembled and claimed for a mapping. -/
theorem Claimed.recorded {reading : Reading} {layer : Layer SchemaNode} (h : Claimed r id n m)
    (hn : Assembled layer reading.title n) (hreads : r.Reads (.container id) id reading)
    (hagree : Layer.Agree (fun v c => nodeOf? nodes v = some c) reading.layer layer) : Recorded r nodes id m := by
  rcases hn with ⟨reference, rfl⟩ | ⟨hn, hnone, -⟩
  · generalize hl : reading.layer = l at hagree
    cases hagree with
    | inlined reference hm =>
      refine .inlined hreads hl hm h.layer_eq fun howner => ?_
      rcases h with ⟨heq, -⟩ | ⟨hne, -⟩
      · exact heq
      · exact absurd howner hne
  · refine .itself hreads (by rwa [h.layer_eq, hn]) ?_
    rcases h with ⟨rfl, howner | hne⟩ | ⟨-, -, hm, -⟩
    · rw [hnone, howner]
    · exact absurd hnone hne
    · exact hm

/-- How a node comes to be remembered for a mapping: what is read from it is assembled of nodes that are remembered, and
claimed for the component that the mapping is. -/
structure Made (r : Resolver) (nodes : List (Nat × SchemaNode)) (id : Nat) (m : SchemaNode) : Prop where
  remembered : Remembered nodes ((id, m) :: nodes)
  made : ∃ reading layer n, r.Reads (.container id) id reading ∧
    Layer.Agree (fun v c => nodeOf? nodes v = some c) reading.layer layer ∧ Assembled layer reading.title n ∧
    Claimed r id n m

/-! ## What a resolution keeps -/

/-- The states of a resolution inside the mappings of a trail, for which nothing is remembered yet. -/
def recording (r : Resolver) (trail : Trail) : Course State where
  inv s := Records r s.nodes ∧ ∀ t ∈ trail, s.nodes.lookup t.1 = none
  le s t := Remembered s.nodes t.nodes ∧ t.components = s.components
  refl _ := ⟨fun _ _ h => h, rfl⟩
  trans h h' := ⟨fun id n hn => h'.1 id n (h.1 id n hn), h'.2.trans h.2⟩

/-- The states of a resolution in which something holds of the nodes that are remembered. -/
def keeping (r : Resolver) (P : List (Nat × SchemaNode) → Prop) (trail : Trail) : Course State where
  inv s := (r.recording trail).inv s ∧ P s.nodes
  le := (r.recording trail).le
  refl := (r.recording trail).refl
  trans := (r.recording trail).trans

section Keeping

variable {P : List (Nat × SchemaNode) → Prop}

/-- What is done inside a mapping is remembered for other mappings only. -/
theorem keeping_within {α : Type} {x : Resolve α} {good : α → State → Prop} {pointer : String}
    (h : (r.keeping P ((id, pointer) :: trail)).Runs x s good) :
    (r.keeping P trail).Runs x s fun a t => good a t ∧ t.nodes.lookup id = none := by
  obtain ⟨⟨⟨hrecords, htrail⟩, hkept⟩, hle, hgood⟩ := h
  exact ⟨⟨⟨hrecords, fun t ht => htrail t (List.mem_cons_of_mem _ ht)⟩, hkept⟩, hle,
    fun a ha => ⟨hgood a ha, htrail _ List.mem_cons_self⟩⟩

/-- A step that leaves what is remembered as it is stays on the course. -/
theorem keeping_of_same {x : Resolve SchemaNode} {good : SchemaNode → Prop} (hs : (r.keeping P trail).inv s)
    (hsame : (x s).2.nodes = s.nodes ∧ (x s).2.components = s.components)
    (hgood : ∀ n, (x s).1 = .ok n → good n) :
    (r.keeping P trail).Runs x s fun n t => t.nodes = s.nodes ∧ good n := by
  obtain ⟨hnodes, hcomponents⟩ := hsame
  have hinv : (r.keeping P trail).inv (x s).2 :=
    ⟨⟨hnodes ▸ hs.1.1, fun t ht => hnodes ▸ hs.1.2 t ht⟩, hnodes ▸ hs.2⟩
  exact ⟨hinv, ⟨fun _ _ h => hnodes ▸ h, hcomponents⟩, fun n hn => ⟨hnodes, hgood n hn⟩⟩

/-- A node that has been made may be remembered for a mapping that is not on the trail. -/
theorem keeping_remember (hs : (r.keeping P trail).inv s) (hany : ¬ trail.any (·.1 = id))
    (hnew : s.nodes.lookup id = none) (hn : Recorded r s.nodes id n) (hP : P ((id, n) :: s.nodes)) :
    (r.keeping P trail).Runs (modify fun s => { s with nodes := (id, n) :: s.nodes } : Resolve PUnit) s
      fun _ t => t.nodes.lookup id = some n := by
  obtain ⟨hrecords, hremembered⟩ := hs.1.1.cons hnew hn
  have htrail : ∀ p ∈ trail, List.lookup p.1 ((id, n) :: s.nodes) = none := by
    intro p hp
    have hne : p.1 ≠ id := fun h => hany (List.any_eq_true.2 ⟨p, hp, by simpa using h⟩)
    rw [List.lookup_cons, beq_false_of_ne hne]
    exact hs.1.2 p hp
  exact ⟨⟨⟨hrecords, htrail⟩, hP⟩, ⟨hremembered, rfl⟩, fun _ _ => List.lookup_cons_self⟩

variable (hP : ∀ nodes id m, P nodes → Made r nodes id m → P ((id, m) :: nodes))

include hP

/-- What is kept whenever a node is remembered for a mapping, is kept by every resolution. -/
theorem keeping_expandWithin (depth : Nat) {site : Site} (hs : (r.keeping P trail).inv s) :
    (r.keeping P trail).Runs (r.expandWithin depth trail site) s fun n t => nodeOf? t.nodes site.value = some n := by
  -- by induction on the depth; a mapping on the trail is not remembered yet, which the inner schemas leave so
  induction depth generalizing trail site s with
  | zero => exact Course.runs_fail hs
  | succ depth ih =>
    rw [expandWithin]
    cases hshape : r.document.graph.shape site.value with
    | mapping id entries =>
      have hself := eq_container_of_shape hshape
      refine Course.runs_get_bind ?_
      cases hlookup : s.nodes.lookup id with
      | some node =>
        refine Course.runs_pure hs ?_
        rw [hself]
        exact hlookup
      | none =>
        dsimp only
        split_ifs with hany
        · exact Course.runs_fail hs
        · refine Runs.bind (Course.runs_ofOutcome hs) fun reading s' _ _ hread => ?_
          obtain ⟨hread, heq⟩ := hread
          subst heq
          have hreads : r.Reads (.container id) id reading := hself ▸ .of_read hshape hread
          have hinv : (r.keeping P ((id, site.pointer) :: trail)).inv s' :=
            ⟨⟨hs.1.1, List.forall_mem_cons.2 ⟨hlookup, hs.1.2⟩⟩, hs.2⟩
          have hinner : (r.keeping P ((id, site.pointer) :: trail)).Runs
              ((reading.layer.located site.pointer).traverse
                (r.expandWithin depth ((id, site.pointer) :: trail))) s'
              fun layer u => Layer.Agree (fun (next : Site) c => nodeOf? u.nodes next.value = some c)
                (reading.layer.located site.pointer) layer :=
            Layer.runs_traverse hinv (fun _ _ _ _ hle hc => hle.1.nodeOf? hc) fun _ _ _ hu _ => ih hu
          refine Runs.bind (keeping_within hinner) fun layer u hu _ hlayer => ?_
          obtain ⟨hlayer, hnew⟩ := hlayer
          have hagree : Layer.Agree (fun v c => nodeOf? u.nodes v = some c) reading.layer layer := by
            rwa [← Layer.map_value_located site.pointer reading.layer, Layer.Agree.map_left]
          refine Runs.bind (keeping_of_same hu (same_assemble _ _ layer) fun _ => assembled_of_ok)
            fun n w hw _ hn => ?_
          refine Runs.bind (keeping_of_same hw (same_claim id n) fun _ => claimed_of_ok) fun m x hx _ hm => ?_
          have hnodes : x.nodes = u.nodes := hm.1.trans hn.1
          rw [← hnodes] at hagree hnew
          have hrecorded := hm.2.recorded hn.2 hreads hagree
          have hmade : Made r x.nodes id m :=
            ⟨(hx.1.1.cons hnew hrecorded).2, reading, layer, n, hreads, hagree, hn.2, hm.2⟩
          refine Runs.bind (keeping_remember hx hany hnew hrecorded (hP _ id m hx.2 hmade))
            fun _ y hy _ hlookup' => ?_
          refine Course.runs_pure hy ?_
          rw [hself]
          exact hlookup'
    | _ => exact Course.runs_fail hs

end Keeping

/-- A resolution remembers the node that it gives, and how it has come about. -/
theorem recording_resolve (hs : Records r s.nodes) (v : Value) (pointer : String) :
    (r.recording []).Runs (r.resolve v pointer) s fun n t => nodeOf? t.nodes v = some n := by
  have hinv : (r.keeping (fun _ => True) []).inv s := ⟨⟨hs, fun _ ht => absurd ht List.not_mem_nil⟩, trivial⟩
  obtain ⟨⟨hrecords, -⟩, hle, hnode⟩ := keeping_expandWithin (fun _ _ _ _ _ => trivial) _ hinv
  exact ⟨hrecords, hle, hnode⟩

/-! ## Components -/

/-- The node of a component says what the node says that is remembered for its schema. -/
def RecordedAs (r : Resolver) (nodes : List (Nat × SchemaNode)) (c : String × SchemaNode) : Prop :=
  ∃ v n, (Scalar.text c.1, v) ∈ r.schemas ∧ nodeOf? nodes v = some n ∧ c.2.layer = n.layer

/-- The states of a resolution of the components. -/
def recordingComponents (r : Resolver) : Course State where
  inv s := Records r s.nodes ∧ ∀ c ∈ s.components, RecordedAs r s.nodes c
  le s t := Remembered s.nodes t.nodes
  refl _ _ _ h := h
  trans h h' id n hn := h' id n (h id n hn)

theorem RecordedAs.mono {c : String × SchemaNode} (h : Remembered nodes nodes')
    (hc : RecordedAs r nodes c) : RecordedAs r nodes' c := by
  obtain ⟨v, n, hmem, hn, hlayer⟩ := hc
  exact ⟨v, n, hmem, h.nodeOf? hn, hlayer⟩

/-- To resolve a component records its nodes. -/
theorem recording_resolveComponent (hs : (recordingComponents r).inv s) {key : Scalar}
    (hmem : (key, v) ∈ r.schemas) :
    (recordingComponents r).Runs (r.resolveComponent key v) s fun _ _ => True := by
  have hkept (t : State) (ht : (recordingComponents r).inv t) (e : CompileError) :
      (recordingComponents r).Runs (record e) t fun _ _ => True :=
    (Course.runs_modify ht fun _ _ h => h).mono fun _ _ _ _ _ => trivial
  unfold resolveComponent
  cases key with
  | text name =>
    have hresolve : (recordingComponents r).Runs (r.resolve v (Pointer.component name)) s
        fun n t => nodeOf? t.nodes v = some n := by
      obtain ⟨⟨hrecords, -⟩, ⟨hremembered, hcomponents⟩, hnode⟩ :=
        recording_resolve hs.1 v (Pointer.component name)
      refine ⟨⟨hrecords, fun c hc => ?_⟩, hremembered, hnode⟩
      rw [hcomponents] at hc
      exact (hs.2 c hc).mono hremembered
    have hstore (m n : SchemaNode) (t : State) (ht : (recordingComponents r).inv t)
        (hn : nodeOf? t.nodes v = some n) (hlayer : m.layer = n.layer) :
        (recordingComponents r).Runs
          (modify fun s => { s with components := s.components ++ [(name, m)] } : Resolve PUnit) t
          fun _ _ => True := by
      have hinv : (recordingComponents r).inv { t with components := t.components ++ [(name, m)] } := by
        refine ⟨ht.1, fun c hc => ?_⟩
        rcases List.mem_append.1 hc with hc | hc
        · exact ht.2 c hc
        · rw [List.mem_singleton.1 hc]
          exact ⟨v, n, hmem, hn, hlayer⟩
      exact (Course.runs_modify hinv fun _ _ h => h).mono fun _ _ _ _ _ => trivial
    refine Runs.bind (Runs.attempt hresolve) fun outcome t ht _ h => ?_
    cases outcome with
    | error e => exact hkept t ht e
    | ok n =>
      have hn := h n rfl
      dsimp only
      split_ifs
      · exact Runs.bind (Course.runs_pure ht hn) fun n t ht _ hn => hstore n n t ht hn rfl
      · have hcopy : (recordingComponents r).Runs (asComponent name n) t fun m u =>
            nodeOf? u.nodes v = some n ∧ m.layer = n.layer := by
          refine ⟨ht, fun _ _ h => h, fun m hm => ?_⟩
          cases hm
          exact ⟨hn, SchemaNode.layer_withInfo _ n⟩
        exact Runs.bind hcopy fun m u hu _ hm => hstore m n u hu hm.1 hm.2
  | _ => exact Runs.bind (Course.runs_ofOutcome hs) fun _ t ht _ _ => hkept t ht _

/-- The resolution of the components remembers how their nodes have come about. -/
theorem records_resolveComponents (r : Resolver) :
    (recordingComponents r).inv (r.resolveComponents .initial).2 := by
  have hbegin : (recordingComponents r).inv { State.initial with componentsDone := true } :=
    ⟨fun _ _ h => (by cases h), fun _ h => (by cases h)⟩
  have hloop : (recordingComponents r).inv ((r.schemas.forM fun e => r.resolveComponent e.1 e.2)
      { State.initial with componentsDone := true }).2 :=
    (Course.runs_forM hbegin fun (e : Scalar × Value) he t ht _ => recording_resolveComponent ht he).1
  rw [resolveComponents]
  simp only [Step.bind_apply, Step.get_apply, Step.modify_apply, State.initial, Bool.false_eq_true,
    if_false, Step.pure_apply] at hloop ⊢
  rcases hrun : (r.schemas.forM fun e => r.resolveComponent e.1 e.2)
    (⟨0, [], [], [], true⟩ : State) with ⟨outcome, t⟩
  rw [hrun] at hloop
  cases outcome with
  | error halt => exact hloop
  | ok _ => exact ⟨hloop.1, fun c hc => hloop.2 c (List.mem_filter.1 hc).1⟩

/-! ## What references lead to -/

/-- A schema is a mapping, or leads to it by references that are not to components and are no components. -/
inductive Reaches (r : Resolver) : Value → Nat → Prop
  | here (id : Nat) : Reaches r (.container id) id
  | step {id next : Nat} {target : Value} {reading : Reading} {reference : String}
    (hreads : r.Reads (.container next) next reading) (hlayer : reading.layer = .inlined reference target)
    (howner : r.owner? next = none) (h : Reaches r target id) : Reaches r (.container next) id

theorem Records.recorded (h : Records r nodes) (hn : nodeOf? nodes v = some n) :
    ∃ id, v = .container id ∧ Recorded r nodes id n := by
  cases v with
  | container id => exact ⟨id, rfl, h id n hn⟩
  | scalar value => cases hn

/-- The node of a schema is the node of every mapping that the schema reaches. -/
theorem Reaches.nodeOf? (h : r.Reaches v id) (hr : Records r nodes)
    (hn : nodeOf? nodes v = some n) : nodeOf? nodes (.container id) = some n := by
  induction h with
  | here id => exact hn
  | step hreads hlayer howner _ ih =>
    cases hr _ n hn with
    | inlined hreads' hl hm _ hsame =>
      obtain ⟨-, rfl⟩ := hreads.unique hreads'
      rw [hlayer] at hl
      cases hl
      obtain rfl := hsame howner
      exact ih hm
    | itself hreads' hagree _ =>
      obtain ⟨-, rfl⟩ := hreads.unique hreads'
      exact absurd hlayer (hagree.ne_inlined _ _)

/-- Where the references of a schema lead to a schema that is none, that says what the node of the first says, and
inside the node are the nodes of what stands inside it. -/
theorem LeadsTo.agree {u : Value} {reading : Reading} (h : r.LeadsTo v u) (hr : Records r nodes)
    (hn : nodeOf? nodes v = some n) (hreads : r.Reads u id reading)
    (hne : ∀ reference target, reading.layer ≠ .inlined reference target) :
    Layer.Agree (fun w c => nodeOf? nodes w = some c) reading.layer n.layer := by
  induction h generalizing n with
  | here v =>
    obtain ⟨_, rfl, hrecorded⟩ := hr.recorded hn
    cases hrecorded with
    | inlined hreads' hl _ _ _ =>
      obtain ⟨-, rfl⟩ := hreads.unique hreads'
      exact absurd hl (hne _ _)
    | itself hreads' hagree _ =>
      obtain ⟨-, rfl⟩ := hreads.unique hreads'
      exact hagree
  | step hreadsv hlayer _ ih =>
    obtain ⟨_, rfl, hrecorded⟩ := hr.recorded hn
    cases hrecorded with
    | inlined hreads' hl hm heq _ =>
      obtain ⟨-, rfl⟩ := hreadsv.unique hreads'
      rw [hlayer] at hl
      cases hl
      rw [heq]
      exact ih hm hreads
    | itself hreads' hagree _ =>
      obtain ⟨-, rfl⟩ := hreadsv.unique hreads'
      exact absurd hlayer (hagree.ne_inlined _ _)

/-- The node of a mapping without a reference is no reference, and it is the component that the mapping is. -/
theorem Records.component_eq (hr : Records r nodes) (hn : nodeOf? nodes (.container id) = some n)
    {entries : List (Scalar × Value)} (hshape : r.document.graph.shape (.container id) = .mapping id entries)
    (href : valueAt? "$ref" entries = none) : n.target? = none ∧ n.info.component = r.owner? id := by
  cases hr id n hn with
  | inlined hreads hl _ _ _ =>
    have hnot := hreads.not_isReference hshape href
    rw [hl] at hnot
    exact absurd trivial hnot
  | @itself reading hreads hagree hcomponent =>
    refine ⟨?_, hcomponent⟩
    have hnot := hreads.not_isReference hshape href
    generalize reading.layer = layer at hagree hnot
    cases n with
    | reference info target =>
      cases hagree
      exact absurd trivial hnot
    | _ => rfl

end RouteBinding.Resolver
