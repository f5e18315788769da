import RouteBinding.Proofs.Model.Alias
import RouteBinding.Proofs.Model.Builder
import RouteBinding.Proofs.Schema.Complete

/-!
# Outlines

An outline is what a schema or a type says down to a depth, without names of types. A schema is outlined
straight from the document: every reference is followed, to a component or not. A type is outlined from the
model: names are looked up and aliases seen through. Where every component has its node and its type
(`Linked`), a right type has the outline of the schema that its node shows (`outline_eq`).
-/

namespace RouteBinding

/-- What is said down to a depth. At the depth itself nothing is said. -/
inductive Outline
  | cut
  | primitive (kind : Primitive)
  | array (item : Outline)
  | object (fields : List (String × Bool × Outline))
  | oneOf (branches : List Outline)
deriving Inhabited

namespace Resolver

/-- What a value says as a schema, if it follows the rules. -/
def reading? (r : Resolver) (v : Value) : Option Reading :=
  match r.document.graph.shape v with
  | .mapping _ entries => (r.read entries "").toOption
  | _ => none

/-- What a schema that is a reference leads to. -/
def referent? (r : Resolver) (v : Value) : Option Value := do
  match (← r.reading? v).layer with
  | .inlined _ target => some target
  | .component name => valueAt? name r.schemas
  | _ => none

/-- The schema that references lead to. No way of references without a repetition has more steps than there
are containers. -/
def settle (r : Resolver) (v : Value) : Option Value :=
  lastWithin r.referent? (r.document.graph.size + 1) v

/-- The outline of a schema down to a depth, read from the document. -/
def outline (r : Resolver) : (depth : Nat) → Value → Option Outline
  | 0, _ => some .cut
  | depth + 1, v => do
    let schema ← r.settle v
    let reading ← r.reading? schema
    match reading.layer with
    | .primitive kind => return .primitive kind
    | .array item => return .array (← r.outline depth item)
    | .object properties (some required) =>
      return .object (← properties.mapM fun p =>
        return (p.1, !required.contains p.1, ← r.outline depth p.2))
    | .oneOf branches => return .oneOf (← branches.mapM (r.outline depth))
    | _ => none

end Resolver

/-- The outline of a type down to a depth, read from the model. -/
def TypeModel.outline (m : TypeModel) : (depth : Nat) → TypeRef → Option Outline
  | 0, _ => some .cut
  | depth + 1, ref =>
    match m.unalias ref with
    | .primitive kind => return .primitive kind
    | .array item => return .array (← m.outline depth item)
    | .named name =>
      match m.get? name with
      | some (.object _ fields) =>
        return .object (← fields.mapM fun f =>
          return (f.name, f.optional, ← m.outline depth f.type))
      | some (.union _ variants) => return .oneOf (← variants.mapM fun v => m.outline depth v.type)
      | _ => none

/-! ## The end of the references -/

namespace Resolver

variable {r : Resolver} {v w : Value} {id : Nat} {reading : Reading} {n : SchemaNode}
  {components : List (String × SchemaNode)}

theorem Reads.reading? (h : r.Reads v id reading) : r.reading? v = some reading := by
  obtain ⟨entries, hshape, hread⟩ := h
  simp only [Resolver.reading?, hshape, hread]
  rfl

theorem reads_of_reading? (h : r.reading? v = some reading) : ∃ id, r.Reads v id reading := by
  unfold Resolver.reading? at h
  split at h
  · rename_i id entries hshape
    exact ⟨id, entries, hshape, toOption_eq_some.1 h⟩
  · cases h

/-- Where references end, `settle` finds the end. -/
theorem settle_of_leads {k : Nat} (h : Leads r.referent? k v w) : r.settle v = some w := by
  have hbound : k ≤ ((List.range r.document.graph.size).map Value.container).length := by
    refine h.le_length fun x hx => ?_
    obtain ⟨y, hy⟩ := Option.isSome_iff_exists.1 hx
    obtain ⟨reading, hreading, -⟩ := Option.bind_eq_some_iff.1 hy
    obtain ⟨id, hreads⟩ := reads_of_reading? hreading
    rw [hreads.eq_container]
    exact List.mem_map_of_mem (List.mem_range.2 hreads.lt_size)
  rw [List.length_map, List.length_range] at hbound
  exact h.lastWithin_eq (by omega)

/-- The node that a node refers to among the components. -/
def target? (components : List (String × SchemaNode)) : SchemaNode → Option SchemaNode
  | .reference _ name => components.lookup name
  | _ => none

/-- A declared component has its node. -/
theorem Complete.lookup (h : r.Complete components) {name : String} {raw : Value}
    (hraw : valueAt? name r.schemas = some raw) :
    ∃ node, components.lookup name = some node ∧ r.Resolves (.text name, raw) (name, node) := by
  have hresolves := h.resolves
  clear h
  generalize r.schemas = schemas at hraw hresolves
  induction hresolves with
  | nil => cases hraw
  | @cons e c rest later hec _ ih =>
    rcases e with ⟨key, value⟩
    rcases c with ⟨own, node⟩
    have hkey : key = .text own := hec.key
    subst hkey
    rw [valueAt?] at hraw
    by_cases hname : own = name
    · subst hname
      rw [if_pos rfl] at hraw
      cases hraw
      exact ⟨node, by simp, hec⟩
    · rw [if_neg (by simpa using hname)] at hraw
      obtain ⟨node', hlookup, hresolved⟩ := ih hraw
      refine ⟨node', ?_, hresolved⟩
      rw [List.lookup_cons, beq_false_of_ne (Ne.symm hname)]
      exact hlookup

theorem Complete.lookup_of_reference (h : r.Complete components) {info : NodeInfo} {name : String}
    (hv : r.Shows v (.reference info name)) :
    ∃ raw node, valueAt? name r.schemas = some raw ∧ components.lookup name = some node ∧
      name ≠ "" ∧ r.Resolves (.text name, raw) (name, node) := by
  obtain ⟨hdeclared, hname⟩ := hv.declares
  obtain ⟨raw, hraw⟩ := Option.isSome_iff_exists.1 hdeclared
  obtain ⟨node, hlookup, hresolves⟩ := h.lookup hraw
  exact ⟨raw, node, hraw, hlookup, hname, hresolves⟩

/-- Where no loop is found, references among the components come to an end. `chain` holds the names passed. -/
theorem Complete.leads_of_aliasLoop? (h : r.Complete components) {fuel : Nat}
    {chain : List String} (hv : r.Shows v n)
    (hnone : aliasLoop? components fuel chain (some n) = none) (hnodup : chain.Nodup)
    (hchain : chain ⊆ components.map (·.1)) (hfuel : components.length < fuel + chain.length) :
    ∃ k last, Leads (target? components) k n last ∧ last.target? = none := by
  induction fuel generalizing chain v n with
  | zero =>
    have hlength := (List.subperm_of_subset hnodup hchain).length_le
    rw [List.length_map] at hlength
    omega
  | succ fuel ih =>
    cases n with
    | reference info name =>
      obtain ⟨raw, node, -, hlookup, -, hresolves⟩ := h.lookup_of_reference hv
      rw [aliasLoop?] at hnone
      split_ifs at hnone with hmem
      rw [hlookup] at hnone
      have hnew : name ∉ chain := fun hin => hmem (List.contains_iff_mem.2 hin)
      have hname : name ∈ components.map (·.1) := List.mem_map.2 ⟨_, mem_of_lookup hlookup, rfl⟩
      obtain ⟨k, last, hlead, hlast⟩ := ih hresolves.shows hnone (List.nodup_cons.2 ⟨hnew, hnodup⟩)
        (List.cons_subset.2 ⟨hname, hchain⟩) (by rw [List.length_cons]; omega)
      exact ⟨k + 1, last, .step hlookup hlead, hlast⟩
    | _ => exact ⟨0, _, .done rfl, rfl⟩

/-- From every node, the references among the components come to an end. -/
theorem Complete.exists_leads (h : r.Complete components) (hv : r.Shows v n) :
    ∃ k last, Leads (target? components) k n last ∧ last.target? = none := by
  cases n with
  | reference info name =>
    obtain ⟨raw, node, -, hlookup, -, hresolves⟩ := h.lookup_of_reference hv
    have hmem := mem_of_lookup hlookup
    have hnone := h.noLoops _ hmem
    rw [aliasError?, Option.map_eq_none_iff, hlookup] at hnone
    have hname : [name] ⊆ components.map (·.1) := by
      intro x hx
      rw [List.mem_singleton.1 hx]
      exact List.mem_map.2 ⟨_, hmem, rfl⟩
    obtain ⟨k, last, hlead, hlast⟩ := h.leads_of_aliasLoop? hresolves.shows hnone
      (List.nodup_singleton name) hname (by simp only [List.length_singleton]; omega)
    exact ⟨k + 1, last, .step hlookup hlead, hlast⟩
  | _ => exact ⟨0, _, .done rfl, rfl⟩

theorem Reads.referent?_of_inlined {reference : String} (h : r.Reads v id reading)
    (hl : reading.layer = .inlined reference w) : r.referent? v = some w := by
  simp only [Resolver.referent?, h.reading?, Option.bind_eq_bind, Option.bind_some, hl]

theorem Reads.referent?_of_component {name : String} (h : r.Reads v id reading)
    (hl : reading.layer = .component name) : r.referent? v = valueAt? name r.schemas := by
  simp only [Resolver.referent?, h.reading?, Option.bind_eq_bind, Option.bind_some, hl]

/-- A layer that agrees with that of a node which is no reference ends a way of references. -/
theorem Reads.referent?_eq_none (h : r.Reads v id reading)
    (hagree : Layer.Agree r.Shows reading.layer n.layer) (hn : n.target? = none) :
    r.referent? v = none := by
  simp only [Resolver.referent?, h.reading?, Option.bind_eq_bind, Option.bind_some]
  generalize reading.layer = l at hagree
  cases n with
  | reference info name => cases hn
  | _ => cases hagree; rfl

/-- Where the references of a schema end, a schema stands that says what the node says. -/
def EndsAt (r : Resolver) (v : Value) (n : SchemaNode) : Prop :=
  ∃ k last id reading, Leads r.referent? k v last ∧ r.Reads last id reading ∧
    Layer.Agree r.Shows reading.layer n.layer

theorem EndsAt.back (hw : r.EndsAt w n) (h : r.referent? v = some w) : r.EndsAt v n := by
  obtain ⟨k, last, id, reading, hlead, hend⟩ := hw
  exact ⟨k + 1, last, id, reading, .step h hlead, hend⟩

/-- Where the references of a node end among the components, those of the schema end that it shows. -/
theorem Complete.endsAt (h : r.Complete components) {k : Nat} {last : SchemaNode}
    (hlead : Leads (target? components) k n last) (hv : r.Shows v n) (hlast : last.target? = none) :
    r.EndsAt v last := by
  induction hlead generalizing v with
  | @done last _ =>
    refine hv.induct (P := (r.EndsAt · last)) (fun v id reading reference target hreads hl hw => ?_)
      fun v id reading hreads hagree => ?_
    · exact hw.back (hreads.referent?_of_inlined hl)
    · exact ⟨0, v, id, reading, .done (hreads.referent?_eq_none hagree hlast), hreads, hagree⟩
  | @step k n next last hnext hlead ih =>
    cases n with
    | reference info name =>
      obtain ⟨raw, node, hraw, hlookup, -, hresolves⟩ := h.lookup_of_reference hv
      have heq : some node = some next := hlookup.symm.trans hnext
      cases heq
      have hend := ih hresolves.shows hlast
      refine hv.induct (P := (r.EndsAt · last)) (fun v id reading reference target hreads hl hw => ?_)
        fun v id reading hreads hagree => ?_
      · exact hw.back (hreads.referent?_of_inlined hl)
      · generalize hl : reading.layer = l at hagree
        cases hagree with
        | component name => exact hend.back ((hreads.referent?_of_component hl).trans hraw)
    | _ => cases hnext

end Resolver

/-! ## The end of the aliases -/

/-- A type that is no alias says what a layer says, with the types inside it. -/
inductive TypeModel.Describes {α : Type} (m : TypeModel) (R : α → TypeRef → Prop) :
    Layer α → TypeRef → Prop
  | primitive (kind : Primitive) : m.Describes R (.primitive kind) (.primitive kind)
  | array {item : α} {t : TypeRef} (h : R item t) : m.Describes R (.array item) (.array t)
  | object {name own : String} {properties : List (String × α)} {required : List String}
    {fields : List Field} (hget : m.get? name = some (.object own fields))
    (h : List.Forall₂ (fun p f => f.name = p.1 ∧ R p.2 f.type ∧
      f.optional = !required.contains p.1) properties fields) :
    m.Describes R (.object properties (some required)) (.named name)
  | oneOf {name own : String} {branches : List α} {variants : List Variant}
    (hget : m.get? name = some (.union own variants))
    (h : List.Forall₂ (fun a v => R a v.type) branches variants) :
    m.Describes R (.oneOf branches) (.named name)

namespace TypeModel

variable {m : TypeModel} {ref target : TypeRef} {n : SchemaNode} {info : NodeInfo}

theorem Describes.aliasTarget?_eq_none {α : Type} {R : α → TypeRef → Prop} {l : Layer α}
    (h : m.Describes R l ref) : m.aliasTarget? ref = none := by
  cases h with
  | object hget _ => rw [aliasTarget?, hget]
  | oneOf hget _ => rw [aliasTarget?, hget]
  | _ => rfl

/-- Where the aliases of a type end, a type stands that says what the node says. -/
def EndsAt (m : TypeModel) (ref : TypeRef) (n : SchemaNode) : Prop :=
  ∃ k last, Leads m.aliasTarget? k ref last ∧ m.Describes (Typed m) n.layer last

theorem Describes.endsAt (h : m.Describes (Typed m) n.layer ref) : m.EndsAt ref n :=
  ⟨0, ref, .done h.aliasTarget?_eq_none, h⟩

theorem EndsAt.back (ht : m.EndsAt target n) (h : m.aliasTarget? ref = some target) :
    m.EndsAt ref n := by
  obtain ⟨k, last, hlead, hdescribes⟩ := ht
  exact ⟨k + 1, last, .step h hlead, hdescribes⟩

theorem Aliases.endsAt (h : m.Aliases info ref target) (ht : m.EndsAt target n) :
    m.EndsAt ref n := by
  unfold Aliases at h
  split at h
  · rw [h.1]
    exact ht.back (aliasTarget?_of_get? h.2)
  · rwa [h]

end TypeModel

open TypeModel (EndsAt)

/-- Behind a right type of a node that is no reference stands a type that says the same. -/
theorem Typed.endsAt {m : TypeModel} {n : SchemaNode} {ref : TypeRef} (h : Typed m n ref)
    (hn : n.target? = none) : m.EndsAt ref n := by
  cases n with
  | primitive info kind =>
    rw [Typed] at h
    exact h.endsAt (TypeModel.Describes.primitive kind).endsAt
  | reference info target => cases hn
  | array info item =>
    rw [Typed] at h
    obtain ⟨t, ht, halias⟩ := h
    exact halias.endsAt (TypeModel.Describes.array ht).endsAt
  | object info properties required =>
    rw [Typed] at h
    obtain ⟨name, fields, -, rfl, hget, hfields⟩ := h
    exact (TypeModel.Describes.object hget (typedFields_iff.1 hfields)).endsAt
  | oneOf info branches =>
    rw [Typed] at h
    obtain ⟨name, variants, -, rfl, hget, hvariants⟩ := h
    exact (TypeModel.Describes.oneOf hget (typedVariants_iff.1 hvariants)).endsAt

/-! ## Equal outlines -/

open Resolver (target?)
open TypeBuilder (TypedComponent)

/-- Every component has its node, and every one that has a name has its type. -/
structure Linked (r : Resolver) (components : List (String × SchemaNode)) (m : TypeModel) :
    Prop where
  complete : r.Complete components
  typed : ∀ c ∈ components, c.2.info.component = some c.1 ∧ ∃ ref, TypedComponent m c ref

variable {r : Resolver} {components : List (String × SchemaNode)} {m : TypeModel}

/-- The name of a component leads to the type of its node. -/
theorem TypeBuilder.TypedComponent.endsAt {c : String × SchemaNode} {ref : TypeRef}
    {last : SchemaNode} (h : TypedComponent m c ref) (hname : c.1 ≠ "")
    (hcomponent : c.2.info.component = some c.1) (hend : m.EndsAt ref last) :
    m.EndsAt (.named (Naming.typeName c.1)) last := by
  rcases h.named_or_alias hname hcomponent with ⟨hnamed, -⟩ | halias
  · rwa [← hnamed]
  · exact hend.back (TypeModel.aliasTarget?_of_get? halias)

/-- Where the references of a node end among the components, the aliases of its type end. -/
theorem Linked.endsAt (h : Linked r components m) {k : Nat} {n last : SchemaNode} {v : Value}
    {ref : TypeRef} (hlead : Leads (target? components) k n last) (hv : r.Shows v n)
    (ht : Typed m n ref) (hlast : last.target? = none) : m.EndsAt ref last := by
  induction hlead generalizing v ref with
  | done _ => exact ht.endsAt hlast
  | @step k n next last hnext hlead ih =>
    cases n with
    | reference info name =>
      obtain ⟨raw, node, -, hlookup, hname, hresolves⟩ := h.complete.lookup_of_reference hv
      have heq : some node = some next := hlookup.symm.trans hnext
      cases heq
      obtain ⟨hcomponent, ref', htyped⟩ := h.typed _ (mem_of_lookup hlookup)
      rw [Typed] at ht
      rw [ht]
      exact htyped.endsAt hname hcomponent (ih hresolves.shows htyped.typed hlast)
    | _ => cases hnext

/-- Two lists that agree with one in the middle have equal outlines, one by one. -/
theorem mapM_eq_mapM {α β γ δ : Type} {R : α → β → Prop} {S : β → γ → Prop}
    {f : α → Option δ} {g : γ → Option δ} {l : List α} {middle : List β} {k : List γ}
    (hl : List.Forall₂ R l middle) (hk : List.Forall₂ S middle k)
    (h : ∀ a b c, R a b → S b c → ∃ o, f a = some o ∧ g c = some o) :
    ∃ os, l.mapM f = some os ∧ k.mapM g = some os := by
  induction hl generalizing k with
  | nil =>
    cases hk
    exact ⟨[], rfl, rfl⟩
  | cons hab _ ih =>
    cases hk with
    | cons hbc hk =>
      obtain ⟨o, hf, hg⟩ := h _ _ _ hab hbc
      obtain ⟨os, hfs, hgs⟩ := ih hk
      exact ⟨o :: os, by simp [hf, hfs], by simp [hg, hgs]⟩

/-- A right type of a node has the outline of every schema that the node shows, at every depth. -/
theorem Linked.outline_eq (h : Linked r components m) (depth : Nat) {v : Value} {n : SchemaNode}
    {ref : TypeRef} (hv : r.Shows v n) (ht : Typed m n ref) :
    ∃ o, r.outline depth v = some o ∧ m.outline depth ref = some o := by
  induction depth generalizing v n ref with
  | zero => exact ⟨.cut, rfl, rfl⟩
  | succ depth ih =>
    -- the references of the node end at `last`; there both the schema and the type have come to what
    -- `last` says, and the depth counts what stands inside it
    obtain ⟨k, last, hlead, hlast⟩ := h.complete.exists_leads hv
    obtain ⟨k', schema, id, reading, hschema, hreads, hagree⟩ := h.complete.endsAt hlead hv hlast
    obtain ⟨k'', type, htype, hdescribes⟩ := h.endsAt hlead hv ht hlast
    simp only [Resolver.outline, TypeModel.outline, Resolver.settle_of_leads hschema,
      hreads.reading?, TypeModel.unalias_of_leads htype, Option.bind_eq_bind, Option.bind_some]
    generalize reading.layer = l at hagree
    generalize last.layer = middle at hagree hdescribes
    cases hdescribes with
    | primitive kind =>
      cases hagree
      exact ⟨.primitive kind, rfl, rfl⟩
    | array hitem =>
      cases hagree with
      | array hshows =>
        obtain ⟨o, hr, hm⟩ := ih hshows hitem
        exact ⟨.array o, by simp [hr], by simp [hm]⟩
    | @object name own properties required fields hget hfields =>
      cases hagree with
      | object _ hproperties =>
        have hfield : ∀ (p : String × Value) (q : String × SchemaNode) (f : Field),
            p.1 = q.1 ∧ r.Shows p.2 q.2 →
            f.name = q.1 ∧ Typed m q.2 f.type ∧ f.optional = !required.contains q.1 →
            ∃ o : String × Bool × Outline,
              (do return (p.1, !required.contains p.1, ← r.outline depth p.2)) = some o ∧
              (do return (f.name, f.optional, ← m.outline depth f.type)) = some o := by
          intro p q f hp hf
          obtain ⟨o, hr, hm⟩ := ih hp.2 hf.2.1
          refine ⟨(p.1, !required.contains p.1, o), by simp [hr], ?_⟩
          simp [hm, hf.1, hf.2.2, hp.1]
        obtain ⟨os, hr, hm⟩ := mapM_eq_mapM hproperties hfields hfield
        refine ⟨.object os, Option.bind_eq_some_iff.2 ⟨os, hr, rfl⟩, ?_⟩
        simp only [hget]
        exact Option.bind_eq_some_iff.2 ⟨os, hm, rfl⟩
    | oneOf hget hvariants =>
      cases hagree with
      | oneOf hbranches =>
        obtain ⟨os, hr, hm⟩ := mapM_eq_mapM hbranches hvariants fun _ _ _ hs ht => ih hs ht
        exact ⟨.oneOf os, by simp [hr], by simp [hget, hm]⟩

end RouteBinding
