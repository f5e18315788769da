import RouteBinding.Proofs.Blame
import RouteBinding.Proofs.Invariant
import RouteBinding.Proofs.Schema.Known

/-!
# Where nodes come from

The pointer of a node is that of the schema that it was read from, whatever references lead there and however
often the schema was met before: by itself, the schema says what the node says, and the nodes inside come from the
schemas inside (`Resolver.Mirrors`). The memory of a resolver holds only nodes of which this is true, so that it
stays true of all that come (`keeps_expandWithin`, `pointers_faithful`).
-/

namespace RouteBinding

open Step (Keeps)

/-- A node stands in another one, at any depth, or is the node itself. -/
inductive SchemaNode.Holds (n : SchemaNode) : SchemaNode → Prop
  | self : n.Holds n
  | inner {m c : SchemaNode} (h : n.Holds m) (hc : c ∈ m.layer.inner) : n.Holds c

/-- A node holds what a part of it holds. -/
theorem SchemaNode.Holds.of_inner {n m c : SchemaNode} (hm : m ∈ n.layer.inner) (h : m.Holds c) :
    n.Holds c := by
  induction h with
  | self => exact .inner .self hm
  | inner _ hc ih => exact ih.inner hc

/-- What a node holds is the node itself or held by a node inside it. -/
theorem SchemaNode.Holds.cases_inner {n c : SchemaNode} (h : n.Holds c) :
    c = n ∨ ∃ m ∈ n.layer.inner, m.Holds c := by
  induction h with
  | self => exact .inl rfl
  | inner _ hc ih =>
    rcases ih with rfl | ⟨m, hm, hholds⟩
    · exact .inr ⟨_, hc, .self⟩
    · exact .inr ⟨m, hm, hholds.inner hc⟩

/-- What holds of a node if it holds of the nodes inside it holds of every node. -/
theorem SchemaNode.inner_induct {motive : SchemaNode → Prop}
    (h : ∀ n, (∀ c ∈ n.layer.inner, motive c) → motive n) (n : SchemaNode) : motive n := by
  induction n using SchemaNode.induct with
  | primitive info kind => exact h _ fun c hc => absurd hc List.not_mem_nil
  | reference info target => exact h _ fun c hc => absurd hc List.not_mem_nil
  | array info item ih =>
    refine h _ fun c hc => ?_
    rwa [List.mem_singleton.1 hc]
  | object info properties required ih =>
    refine h _ fun c hc => ?_
    obtain ⟨p, hp, rfl⟩ := List.mem_map.1 hc
    exact ih p hp
  | oneOf info variants ih => exact h _ ih

/-- No node inside a node holds it. -/
theorem SchemaNode.not_holds_of_inner {n c : SchemaNode} (hc : c ∈ n.layer.inner) :
    ¬ c.Holds n := by
  induction n using SchemaNode.inner_induct generalizing c with
  | h n ih =>
    intro hholds
    rcases hholds.cases_inner with rfl | ⟨m, hm, hheld⟩
    · exact ih _ hc hc .self
    · exact ih c hc hm (hheld.inner hc)

/-- No reference that is to be followed says by itself what a node says. -/
theorem Layer.Agree.ne_inlined {α : Type} {R : α → SchemaNode → Prop} {layer : Layer α}
    {n : SchemaNode} (h : Layer.Agree R layer n.layer) (reference : String) (target : α) :
    layer ≠ .inlined reference target := by
  rintro rfl
  cases n <;> cases h

namespace Resolver

variable {r : Resolver} {base : String → Value → Prop} {v w : Value} {n : SchemaNode}
  {pointer : String} {entries : List (Scalar × Value)} {reading : Reading} {s : State}

/-! ## Parts of a schema -/

/-- Where a schema with some entries has the schemas inside it from, by the kind of its layer. -/
inductive PartOf (d : Document) (entries : List (Scalar × Value)) : Layer Value → Prop
  | component (name : String) : PartOf d entries (.component name)
  | inlined {reference : String} {target : Value} (hfind : d.find reference = .ok target) :
    PartOf d entries (.inlined reference target)
  | oneOf {list : Value} {id : Nat} {branches : List Value}
    (hlist : valueAt? "oneOf" entries = some list)
    (hbranches : d.graph.shape list = .list id branches) : PartOf d entries (.oneOf branches)
  | array {item : Value} (hitem : valueAt? "items" entries = some item) :
    PartOf d entries (.array item)
  | noProperties (required : Option (List String)) : PartOf d entries (.object [] required)
  | object {mapping : Value} {properties : List (String × Value)} (required : Option (List String))
    (hmapping : valueAt? "properties" entries = some mapping)
    (hproperties : d.graph.entries? mapping = some (properties.map fun p => (.text p.1, p.2))) :
    PartOf d entries (.object properties required)
  | primitive (kind : Primitive) : PartOf d entries (.primitive kind)

/-- The properties that are read are parts of the schema. -/
theorem partOf_of_readProperties {d : Document} {properties : List (String × Value)}
    (required : Option (List String))
    (h : readProperties d.graph entries pointer = .ok properties) :
    PartOf d entries (.object properties required) := by
  unfold readProperties at h
  split_ifs at h
  · exact absurd h refuse_ne_ok
  · split at h
    · cases h
      exact .noProperties required
    · rename_i mapping hmapping
      split at h
      · exact absurd h refuse_ne_ok
      · rename_i found hfound
        rw [readPropertyNames_eq_ok h] at hfound
        exact .object required (Option.filter_eq_some_iff.1 hmapping).1 hfound

/-- The structure that is read is made of parts of the schema. -/
theorem partOf_of_readStructure {d : Document} {layer : Layer Value}
    (h : readStructure d.graph entries pointer = .ok layer) : PartOf d entries layer := by
  unfold readStructure at h
  split at h
  · exact absurd h refuse_ne_ok
  · split at h
    · rename_i branches hbranches
      split at h
      · rename_i id first rest hlist
        cases h
        exact .oneOf hbranches hlist
      · exact absurd h refuse_ne_ok
    · obtain ⟨kind, -, h⟩ := bind_eq_ok.1 h
      cases kind with
      | primitive kind => cases h; exact .primitive kind
      | array =>
        dsimp only at h
        split at h
        · rename_i item hitem
          cases h
          exact .array hitem
        · exact absurd h refuse_ne_ok
      | object =>
        obtain ⟨properties, hproperties, h⟩ := bind_eq_ok.1 h
        cases h
        exact partOf_of_readProperties _ hproperties

/-- A reference has no part inside the schema itself. -/
theorem partOf_of_readReference {reference : Value} {layer : Layer Value}
    (h : r.readReference reference = .ok layer) : PartOf r.document entries layer := by
  unfold readReference at h
  split at h
  · split at h
    · split_ifs at h
      · cases h
        exact .component _
      · exact absurd h refuse_ne_ok
    · split at h
      · rename_i hfind
        cases h
        exact .inlined hfind
      · exact absurd h refuse_ne_ok
  · cases h

/-- What is read of a schema is made of its parts. -/
theorem partOf_of_read (h : r.read entries pointer = .ok reading) :
    PartOf r.document entries reading.layer := by
  unfold read at h
  obtain ⟨title, -, h⟩ := bind_eq_ok.1 h
  split at h
  · obtain ⟨layer, hlayer, h⟩ := bind_eq_ok.1 h
    cases h
    exact partOf_of_readReference hlayer
  · obtain ⟨layer, hlayer, h⟩ := bind_eq_ok.1 h
    cases h
    exact partOf_of_readStructure hlayer

/-- The schemas inside a schema that stands at a pointer stand at the pointers at which they are met. -/
theorem stands_of_mem_located (hbase : ∀ p u, r.document.find p = .ok u → base p u)
    (hv : r.document.Stands base pointer v) (hentries : r.document.graph.entries? v = some entries)
    (hread : r.read entries pointer = .ok reading) {site : Site}
    (hsite : site ∈ (reading.layer.located pointer).inner) :
    r.document.Stands base site.pointer site.value := by
  have hpart := partOf_of_read hread
  generalize reading.layer = layer at hpart hsite
  cases hpart with
  | component name => cases hsite
  | inlined hfind =>
    obtain rfl := List.mem_singleton.1 hsite
    exact .base (hbase _ _ hfind)
  | @oneOf list id branches hlist hbranches =>
    obtain ⟨⟨branch, i⟩, hbranch, rfl⟩ := List.mem_map.1 hsite
    have hitem := List.mem_zipIdx_iff_getElem?.1 hbranch
    have hstands := hv.keyword_item hentries hlist (by decide) hbranches hitem
    exact hstands
  | array hitem =>
    obtain rfl := List.mem_singleton.1 hsite
    exact hv.keyword hentries hitem (by decide)
  | noProperties required => cases hsite
  | object required hmapping hproperties =>
    obtain ⟨site', hmem, rfl⟩ := List.mem_map.1 hsite
    obtain ⟨⟨name, schema⟩, hproperty, rfl⟩ := List.mem_map.1 hmem
    have hmem := List.mem_map_of_mem (f := fun p => (Scalar.text p.1, p.2)) hproperty
    have hstands := hv.keyword_entry hentries hmapping (by decide) hproperties hmem
    exact hstands
  | primitive kind => cases hsite

/-! ## Nodes and the schemas they are read from -/

/-- References that are not to components lead from one value to another, in any number of steps. -/
inductive LeadsTo (r : Resolver) : Value → Value → Prop
  | here (v : Value) : LeadsTo r v v
  | step {v target u : Value} {id : Nat} {reading : Reading} {reference : String}
    (hreads : r.Reads v id reading) (hlayer : reading.layer = .inlined reference target)
    (h : LeadsTo r target u) : LeadsTo r v u

/-- A node comes from a value: at its pointer stands what references lead to from the value. -/
def ComesFrom (r : Resolver) (place : String → Value → Prop) (v : Value) (n : SchemaNode) : Prop :=
  ∃ u, r.LeadsTo v u ∧ place n.info.pointer u

/-- A schema that is no reference to be followed says by itself what a node says: it is of the same kind, with the
same title and the same required names, and each schema inside it is where the node at its position comes from. -/
def Mirrors (r : Resolver) (place : String → Value → Prop) (v : Value) (n : SchemaNode) : Prop :=
  ∃ id reading, r.Reads v id reading ∧
    (∀ reference target, reading.layer ≠ .inlined reference target) ∧
    reading.title = n.info.title ∧ Layer.Agree (r.ComesFrom place) reading.layer n.layer

/-- At the pointer of a node stands a schema that says what the node says. -/
def Mirrored (r : Resolver) (place : String → Value → Prop) (n : SchemaNode) : Prop :=
  ∃ v, place n.info.pointer v ∧ r.Mirrors place v n

/-- A node comes from a value, and all that stands in it is mirrored. -/
structure Traced (r : Resolver) (place : String → Value → Prop) (v : Value) (n : SchemaNode) :
    Prop where
  comes : r.ComesFrom place v n
  mirrored : ∀ m, n.Holds m → r.Mirrored place m

variable {place : String → Value → Prop}

/-- A node is traced if a schema at its pointer says what it says by itself, and the nodes inside it are traced. -/
theorem Traced.of_layer {id : Nat} (hreads : r.Reads v id reading)
    (htitle : reading.title = n.info.title) (hplace : place n.info.pointer v)
    (hlayer : Layer.Agree (r.Traced place) reading.layer n.layer) : r.Traced place v n := by
  have hagree : Layer.Agree (r.ComesFrom place) reading.layer n.layer :=
    hlayer.mono fun w _ c hc => hc.comes
  refine ⟨⟨v, .here v, hplace⟩, fun m hm => ?_⟩
  rcases hm.cases_inner with rfl | ⟨c, hc, hholds⟩
  · exact ⟨v, hplace, id, reading, hreads, hagree.ne_inlined, htitle, hagree⟩
  · obtain ⟨w, -, htraced⟩ := hlayer.exists_left hc
    exact htraced.mirrored m hholds

/-- What comes from the target of a reference comes from the reference. -/
theorem Traced.inlined {target : Value} {id : Nat} {reference : String}
    (h : r.Traced place target n) (hreads : r.Reads v id reading)
    (hlayer : reading.layer = .inlined reference target) : r.Traced place v n := by
  obtain ⟨u, hleads, hplace⟩ := h.comes
  exact ⟨⟨u, .step hreads hlayer hleads, hplace⟩, h.mirrored⟩

/-- A node mirrors a place by its pointer, its title and its layer. -/
theorem Mirrored.congr {n' : SchemaNode} (h : r.Mirrored place n)
    (hpointer : n'.info.pointer = n.info.pointer) (htitle : n'.info.title = n.info.title)
    (hlayer : n'.layer = n.layer) : r.Mirrored place n' := by
  obtain ⟨v, hplace, hmirrors⟩ := h
  refine ⟨v, hpointer ▸ hplace, ?_⟩
  rw [Mirrors, hlayer, htitle]
  exact hmirrors

/-- A copy of a node under another component name is traced as the node is. -/
theorem Traced.congr {n' : SchemaNode} (h : r.Traced place v n)
    (hpointer : n'.info.pointer = n.info.pointer) (htitle : n'.info.title = n.info.title)
    (hlayer : n'.layer = n.layer) : r.Traced place v n' := by
  refine ⟨?_, fun m hm => ?_⟩
  · obtain ⟨u, hleads, hplace⟩ := h.comes
    exact ⟨u, hleads, hpointer ▸ hplace⟩
  · rcases hm.cases_inner with rfl | ⟨c, hc, hholds⟩
    · exact (h.mirrored n .self).congr hpointer htitle hlayer
    · rw [hlayer] at hc
      exact h.mirrored m (hholds.of_inner hc)

/-! ## The memory of a resolution -/

/-- The error of components that are nothing but references to each other: it shows their names as they are
written. -/
def ShowsAliases (r : Resolver) (e : CompileError) : Prop :=
  ∃ chain : List String, chain ≠ [] ∧ (∀ name ∈ chain, ∃ raw, (.text name, raw) ∈ r.schemas) ∧
    e = cyclic (chain.map (Pointer.componentHead ++ ·))

/-- What a resolver remembers is traced: its nodes to the containers that they are remembered for, and the
components to the schemas under their names. The errors point into the document, or show components. -/
structure Remembers (r : Resolver) (base : String → Value → Prop) (s : State) : Prop where
  nodes : ∀ p ∈ s.nodes, r.Traced (r.document.Stands base) (.container p.1) p.2
  components : ∀ c ∈ s.components, ∃ raw, (.text c.1, raw) ∈ r.schemas ∧
    r.Traced (r.document.Stands base) raw c.2
  errors : ∀ e ∈ s.errors, r.document.PointsInto base e ∨ r.ShowsAliases e

theorem remembers_initial : r.Remembers base .initial where
  nodes _ hp := absurd hp List.not_mem_nil
  components _ hc := absurd hc List.not_mem_nil
  errors _ he := absurd he List.not_mem_nil

section Steps

variable {expected : Halt → State → Prop}

theorem keeps_freshSerial :
    Keeps (r.Remembers base) freshSerial (fun _ => True) expected := by
  refine Step.keeps_get_bind fun s hs => ?_
  refine (Step.keeps_set ⟨hs.nodes, hs.components, hs.errors⟩).bind fun _ _ => ?_
  exact Step.keeps_pure trivial

theorem keeps_freshInfo (pointer : String) (title : Option String) :
    Keeps (r.Remembers base) (freshInfo pointer title)
      (fun info => info.pointer = pointer ∧ info.title = title) expected :=
  keeps_freshSerial.bind fun _ _ => Step.keeps_pure ⟨rfl, rfl⟩

/-- A copy of a traced node under a component name is traced. -/
theorem keeps_asComponent (name : String) (hn : r.Traced (r.document.Stands base) v n) :
    Keeps (r.Remembers base) (asComponent name n) (r.Traced (r.document.Stands base) v) expected := by
  refine keeps_freshSerial.bind fun serial _ => Step.keeps_pure (hn.congr ?_ ?_ ?_)
  · rw [info_withInfo]
  · rw [info_withInfo]
  · rw [SchemaNode.layer_withInfo]

/-- A node that is claimed can be traced to its container. -/
theorem keeps_claim (id : Nat) (hn : r.Traced (r.document.Stands base) v n) :
    Keeps (r.Remembers base) (r.claim id n) (r.Traced (r.document.Stands base) v) expected := by
  unfold claim
  cases r.owner? id with
  | none => exact Step.keeps_pure hn
  | some name =>
    dsimp only
    split_ifs
    · exact keeps_asComponent name hn
    · exact Step.keeps_pure hn

/-- The node of a schema that stands at a pointer is traced, if the nodes of the schemas inside it are. -/
theorem keeps_assemble {id : Nat} {layer : Layer SchemaNode}
    (hv : r.document.Stands base pointer v) (hreads : r.Reads v id reading)
    (hlayer : Layer.Agree (r.Traced (r.document.Stands base)) reading.layer layer) :
    Keeps (r.Remembers base) (assemble pointer reading.title layer)
      (r.Traced (r.document.Stands base) v) fun h _ => r.document.Accounts base h := by
  have fresh (f : NodeInfo → SchemaNode) (hinfo : ∀ info, (f info).info = info)
      (hf : ∀ info, (f info).layer = layer) :
      Keeps (r.Remembers base) (do return f (← freshInfo pointer reading.title))
        (r.Traced (r.document.Stands base) v) fun h _ => r.document.Accounts base h := by
    refine (keeps_freshInfo pointer reading.title).bind fun info ⟨hpointer, htitle⟩ => ?_
    refine Step.keeps_pure (.of_layer hreads ?_ ?_ ?_)
    · rw [hinfo, htitle]
    · rwa [hinfo, hpointer]
    · rwa [hf]
  generalize hl : reading.layer = l at hlayer
  cases hlayer with
  | component name => exact fresh (.reference · name) (fun _ => rfl) (fun _ => rfl)
  | inlined reference h => exact Step.keeps_pure (h.inlined hreads hl)
  | oneOf h => exact fresh (.oneOf · _) (fun _ => rfl) (fun _ => rfl)
  | array h => exact fresh (.array · _) (fun _ => rfl) (fun _ => rfl)
  | object required h =>
    cases required with
    | none => exact Step.keeps_fail fun _ => Document.pointsInto_of_pointers rfl hv
    | some required => exact fresh (.object · _ required) (fun _ => rfl) (fun _ => rfl)
  | primitive kind => exact fresh (.primitive · kind) (fun _ => rfl) (fun _ => rfl)

end Steps

/-- What is wrong with a schema that stands at a pointer is accounted for. -/
theorem accounts_of_read (hv : r.document.Stands base pointer v)
    (hentries : r.document.graph.entries? v = some entries) {h : Halt}
    (hread : r.read entries pointer = .error h) : r.document.Accounts base h := by
  cases h with
  | error e => exact Document.pointsInto_of_eq (blames_read e hread) hv
  | breakdown b =>
    exact .schema hentries (read_error hread)

/-- A cycle that begins with the first pointer of a chain points into the document, if the chain does. -/
theorem pointsInto_of_chain {chain : List String} (hne : chain ≠ [])
    (h : ∀ p ∈ chain, ∃ u, r.document.Stands base p u) : r.document.PointsInto base (cyclic chain) := by
  obtain ⟨first, rest, rfl⟩ := List.exists_cons_of_ne_nil hne
  obtain ⟨u, hu⟩ := h first List.mem_cons_self
  exact Document.pointsInto_cyclic hu h

/-- A loop is reported by places that stand in the document. -/
theorem pointsInto_loop {trail : Trail} (id : Nat) (hv : r.document.Stands base pointer v)
    (htrail : ∀ t ∈ trail, ∃ u, r.document.Stands base t.2 u) :
    r.document.PointsInto base (cyclic (trail.loop id pointer)) := by
  refine pointsInto_of_chain (List.append_ne_nil_of_right_ne_nil _ (List.cons_ne_nil _ _)) ?_
  intro p hp
  rcases List.mem_append.1 hp with hp | hp
  · obtain ⟨t, ht, rfl⟩ := List.mem_map.1 hp
    exact htrail t (List.mem_reverse.1 ((List.dropWhile_sublist _).subset ht))
  · rw [List.mem_singleton.1 hp]
    exact ⟨v, hv⟩

/-! ## Resolving -/

section Resolving

variable (hbase : ∀ p u, r.document.find p = .ok u → base p u)

include hbase

/-- The node of a schema that stands at a pointer is traced, and so is all that is remembered on the way. -/
theorem keeps_expandWithin (depth : Nat) {trail : Trail} {site : Site}
    (hsite : r.document.Stands base site.pointer site.value)
    (htrail : ∀ t ∈ trail, ∃ u, r.document.Stands base t.2 u) :
    Keeps (r.Remembers base) (r.expandWithin depth trail site)
      (r.Traced (r.document.Stands base) site.value) fun h _ => r.document.Accounts base h := by
  induction depth generalizing trail site with
  | zero =>
    refine Step.keeps_fail fun _ => Document.pointsInto_cyclic hsite fun p hp => ?_
    rw [List.mem_singleton.1 hp]
    exact ⟨site.value, hsite⟩
  | succ depth ih =>
    rw [expandWithin]
    cases hshape : r.document.graph.shape site.value with
    | mapping id entries =>
      have hentries := Graph.entries?_eq_some_iff.2 ⟨id, hshape⟩
      have hself := eq_container_of_shape hshape
      refine Step.keeps_get_bind fun s hs => ?_
      cases hlookup : s.nodes.lookup id with
      | some node =>
        have hnode := hs.nodes _ (mem_of_lookup hlookup)
        rw [← hself] at hnode
        exact Step.keeps_pure hnode
      | none =>
        dsimp only
        split_ifs
        · exact Step.keeps_fail fun _ => pointsInto_loop id hsite htrail
        · have hread : Keeps (r.Remembers base) (Step.ofOutcome (r.read entries site.pointer))
              (fun reading => r.read entries site.pointer = .ok reading)
              fun h _ => r.document.Accounts base h :=
            Step.keeps_ofOutcome (fun _ h => h) fun _ h _ => accounts_of_read hsite hentries h
          refine hread.bind fun reading hread => ?_
          have hinner : ∀ next ∈ (reading.layer.located site.pointer).inner,
              Keeps (r.Remembers base) (r.expandWithin depth ((id, site.pointer) :: trail) next)
                (r.Traced (r.document.Stands base) next.value) fun h _ => r.document.Accounts base h := by
            intro next hnext
            refine ih (stands_of_mem_located hbase hsite hentries hread hnext) fun t ht => ?_
            rcases List.mem_cons.1 ht with rfl | ht
            · exact ⟨site.value, hsite⟩
            · exact htrail t ht
          refine (Layer.keeps_traverse hinner).bind fun layer hlayer => ?_
          rw [← Layer.Agree.map_left, Layer.map_value_located] at hlayer
          refine (keeps_assemble hsite (.of_read hshape hread) hlayer).bind fun n hn => ?_
          refine (keeps_claim id hn).bind fun n' hn' => ?_
          refine (Step.keeps_modify fun t ht => ?_).bind fun _ _ => Step.keeps_pure hn'
          refine ⟨List.forall_mem_cons.2 ⟨?_, ht.nodes⟩, ht.components, ht.errors⟩
          rwa [← hself]
    | _ => exact Step.keeps_fail fun _ => Document.pointsInto_of_pointers rfl hsite

/-- What is resolved can be traced to where it stands, and what fails is accounted for. -/
theorem keeps_resolve (hv : r.document.Stands base pointer v) :
    Keeps (r.Remembers base) (r.resolve v pointer) (r.Traced (r.document.Stands base) v)
      fun h _ => r.document.Accounts base h :=
  have hsite : r.document.Stands base (Site.mk v pointer).pointer (Site.mk v pointer).value := hv
  keeps_expandWithin hbase _ hsite fun _ ht => absurd ht List.not_mem_nil

end Resolving

end Resolver

end RouteBinding
