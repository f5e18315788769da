import Mathlib.Data.List.Forall2
import RouteBinding.Model.Builder
import RouteBinding.Proofs.Schema.Known

/-!
# Types of nodes

`Typed m node ref` says that in the model `m` the type `ref` is a right type of the node: what the node says
is found behind `ref`, with right types for the nodes inside it, and a reference is the name of what it
refers to. Whether that name is defined is left open. A type stays right when the model grows.
-/

namespace RouteBinding

/-! ## What types mention -/

/-- A name stands in a type, at any nesting of arrays. -/
def TypeRef.Mentions (name : String) : TypeRef → Prop
  | primitive _ => False
  | array item => item.Mentions name
  | named n => n = name

/-- The types that a definition is made of. -/
def TypeDef.types : TypeDef → List TypeRef
  | .alias _ target => [target]
  | .object _ fields => fields.map (·.type)
  | .union _ variants => variants.map (·.type)

namespace TypeModel

variable {m m' : TypeModel} {name : String} {d : TypeDef}

/-- A model in which all definitions of another stand first. -/
def Extends (m m' : TypeModel) : Prop :=
  m.definitions <+: m'.definitions

theorem Extends.get? (h : m.Extends m') (hd : m.get? name = some d) : m'.get? name = some d :=
  h.lookup_eq_some hd

theorem Extends.contains (h : m.Extends m') (hd : m.contains name) : m'.contains name := by
  obtain ⟨d, hd⟩ := Option.isSome_iff_exists.1 hd
  exact Option.isSome_iff_exists.2 ⟨d, h.get? hd⟩

theorem contains_of_get? (h : m.get? name = some d) : m.contains name :=
  Option.isSome_iff_exists.2 ⟨d, h⟩

/-- A type that stands for a target: under the name that a node declares, if it declares one. -/
def Aliases (m : TypeModel) (info : NodeInfo) (ref target : TypeRef) : Prop :=
  match TypeBuilder.declaredName? info with
  | some name => ref = .named name ∧ m.get? name = some (.alias name target)
  | none => ref = target

/-- A name that a node may be defined under: the one that it declares, if it declares one. -/
def Names (info : NodeInfo) (name : String) : Prop :=
  ∀ declared, TypeBuilder.declaredName? info = some declared → name = declared

theorem Aliases.mono {info : NodeInfo} {ref target : TypeRef} (hm : m.Extends m')
    (h : m.Aliases info ref target) : m'.Aliases info ref target := by
  unfold Aliases at h ⊢
  split at h
  · exact ⟨h.1, hm.get? h.2⟩
  · exact h

end TypeModel

/-! ## Right types -/

open TypeModel (Names)

mutual

/-- A type is right for a node. -/
def Typed (m : TypeModel) : SchemaNode → TypeRef → Prop
  | .primitive info kind, ref => m.Aliases info ref (.primitive kind)
  | .reference _ target, ref => ref = .named (Naming.typeName target)
  | .array info item, ref => ∃ t, Typed m item t ∧ m.Aliases info ref (.array t)
  | .object info properties required, ref =>
    ∃ name fields, Names info name ∧ ref = .named name ∧
      m.get? name = some (.object name fields) ∧ TypedFields m required properties fields
  | .oneOf info branches, ref =>
    ∃ name variants, Names info name ∧ ref = .named name ∧
      m.get? name = some (.union name variants) ∧ TypedVariants m branches variants

/-- Fields are right for the properties of an object. -/
def TypedFields (m : TypeModel) (required : List String) :
    List (String × SchemaNode) → List Field → Prop
  | [], fields => fields = []
  | (property, node) :: rest, fields =>
    ∃ type later, fields = ⟨property, type, !required.contains property⟩ :: later ∧
      Typed m node type ∧ TypedFields m required rest later

/-- Variants are right for the branches of a union. -/
def TypedVariants (m : TypeModel) : List SchemaNode → List Variant → Prop
  | [], variants => variants = []
  | node :: rest, variants =>
    ∃ name type later, variants = ⟨name, type⟩ :: later ∧ Typed m node type ∧
      TypedVariants m rest later

end

variable {m m' : TypeModel} {ref : TypeRef} {n : SchemaNode}

/-- A field is right for a property. -/
def FieldFor (R : SchemaNode → TypeRef → Prop) (required : List String) (p : String × SchemaNode)
    (f : Field) : Prop :=
  f.name = p.1 ∧ R p.2 f.type ∧ f.optional = !required.contains p.1

theorem typedFields_iff {required : List String} {properties : List (String × SchemaNode)}
    {fields : List Field} :
    TypedFields m required properties fields ↔
      List.Forall₂ (FieldFor (Typed m) required) properties fields := by
  induction properties generalizing fields with
  | nil => rw [TypedFields, List.forall₂_nil_left_iff]
  | cons p rest ih =>
    rw [TypedFields, List.forall₂_cons_left_iff]
    constructor
    · rintro ⟨type, later, rfl, htype, hlater⟩
      exact ⟨_, later, ⟨rfl, htype, rfl⟩, ih.1 hlater, rfl⟩
    · rintro ⟨⟨name, type, optional⟩, later, ⟨hname, htype, hoptional⟩, hlater, rfl⟩
      cases hname
      cases hoptional
      exact ⟨type, later, rfl, htype, ih.2 hlater⟩

theorem typedVariants_iff {branches : List SchemaNode} {variants : List Variant} :
    TypedVariants m branches variants ↔
      List.Forall₂ (fun n v => Typed m n v.type) branches variants := by
  induction branches generalizing variants with
  | nil => rw [TypedVariants, List.forall₂_nil_left_iff]
  | cons n rest ih =>
    rw [TypedVariants, List.forall₂_cons_left_iff]
    constructor
    · rintro ⟨name, type, later, rfl, htype, hlater⟩
      exact ⟨⟨name, type⟩, later, htype, ih.1 hlater, rfl⟩
    · rintro ⟨⟨name, type⟩, later, htype, hlater, rfl⟩
      exact ⟨name, type, later, rfl, htype, ih.2 hlater⟩

/-! ## One layer of a right type -/

variable {R S : SchemaNode → TypeRef → Prop}

/-- A type is right for a node by itself: what `R` says of the types of the nodes inside it is left open. -/
def TypedBy (m : TypeModel) (R : SchemaNode → TypeRef → Prop) : SchemaNode → TypeRef → Prop
  | .primitive info kind, ref => m.Aliases info ref (.primitive kind)
  | .reference _ target, ref => ref = .named (Naming.typeName target)
  | .array info item, ref => ∃ t, R item t ∧ m.Aliases info ref (.array t)
  | .object info properties required, ref =>
    ∃ name fields, Names info name ∧ ref = .named name ∧
      m.get? name = some (.object name fields) ∧ List.Forall₂ (FieldFor R required) properties fields
  | .oneOf info branches, ref =>
    ∃ name variants, Names info name ∧ ref = .named name ∧
      m.get? name = some (.union name variants) ∧ List.Forall₂ (fun n v => R n v.type) branches variants

/-- A type is right if it is right by itself and those inside are right. -/
theorem typed_iff : Typed m n ref ↔ TypedBy m (Typed m) n ref := by
  cases n with
  | object info properties required => simp only [Typed, TypedBy, typedFields_iff]
  | oneOf info branches => simp only [Typed, TypedBy, typedVariants_iff]
  | _ => rw [Typed, TypedBy]

theorem TypedBy.imp (h : TypedBy m R n ref) (hRS : ∀ c ∈ n.layer.inner, ∀ t, R c t → S c t) :
    TypedBy m S n ref := by
  cases n with
  | primitive info kind => exact h
  | reference info target => exact h
  | array info item =>
    obtain ⟨t, ht, halias⟩ := h
    exact ⟨t, hRS item List.mem_cons_self t ht, halias⟩
  | object info properties required =>
    obtain ⟨name, fields, hname, href, hget, hfields⟩ := h
    refine ⟨name, fields, hname, href, hget, ?_⟩
    exact forall₂_mono_of_mem hfields fun p hp f hf =>
      ⟨hf.1, hRS p.2 (List.mem_map_of_mem hp) f.type hf.2.1, hf.2.2⟩
  | oneOf info branches =>
    obtain ⟨name, variants, hname, href, hget, hvariants⟩ := h
    refine ⟨name, variants, hname, href, hget, ?_⟩
    exact forall₂_mono_of_mem hvariants fun c hc v hv => hRS c hc v.type hv

theorem TypedBy.mono (hm : m.Extends m') (h : TypedBy m R n ref) : TypedBy m' R n ref := by
  cases n with
  | primitive info kind => exact TypeModel.Aliases.mono hm h
  | reference info target => exact h
  | array info item =>
    obtain ⟨t, ht, halias⟩ := h
    exact ⟨t, ht, halias.mono hm⟩
  | object info properties required =>
    obtain ⟨name, fields, hname, href, hget, hfields⟩ := h
    exact ⟨name, fields, hname, href, hm.get? hget, hfields⟩
  | oneOf info branches =>
    obtain ⟨name, variants, hname, href, hget, hvariants⟩ := h
    exact ⟨name, variants, hname, href, hm.get? hget, hvariants⟩

/-- Every node inside a node has a type in the type of that. -/
theorem TypedBy.exists_inner (h : TypedBy m R n ref) {c : SchemaNode} (hc : c ∈ n.layer.inner) :
    ∃ t, R c t := by
  cases n with
  | primitive info kind => cases hc
  | reference info target => cases hc
  | array info item =>
    obtain ⟨t, ht, -⟩ := h
    rw [List.mem_singleton.1 hc]
    exact ⟨t, ht⟩
  | object info properties required =>
    obtain ⟨name, fields, -, -, -, hfields⟩ := h
    obtain ⟨p, hp, rfl⟩ := List.mem_map.1 hc
    obtain ⟨f, -, hf⟩ := exists_of_forall₂ hfields hp
    exact ⟨f.type, hf.2.1⟩
  | oneOf info branches =>
    obtain ⟨name, variants, -, -, -, hvariants⟩ := h
    obtain ⟨v, -, hv⟩ := exists_of_forall₂ hvariants hc
    exact ⟨v.type, hv⟩

/-- A right type stays right when the model grows. -/
theorem Typed.mono (hm : m.Extends m') (h : Typed m n ref) : Typed m' n ref := by
  induction n using SchemaNode.induct generalizing ref with
  | primitive info kind =>
    rw [Typed] at h ⊢
    exact h.mono hm
  | reference info target =>
    rw [Typed] at h ⊢
    exact h
  | array info item ih =>
    rw [Typed] at h ⊢
    obtain ⟨t, ht, halias⟩ := h
    exact ⟨t, ih ht, halias.mono hm⟩
  | object info properties required ih =>
    rw [Typed] at h ⊢
    obtain ⟨name, fields, hname, href, hget, hfields⟩ := h
    refine ⟨name, fields, hname, href, hm.get? hget, ?_⟩
    rw [typedFields_iff] at hfields ⊢
    exact forall₂_mono_of_mem hfields fun p hp f hf => ⟨hf.1, ih p hp hf.2.1, hf.2.2⟩
  | oneOf info branches ih =>
    rw [Typed] at h ⊢
    obtain ⟨name, variants, hname, href, hget, hvariants⟩ := h
    refine ⟨name, variants, hname, href, hm.get? hget, ?_⟩
    rw [typedVariants_iff] at hvariants ⊢
    exact forall₂_mono_of_mem hvariants fun n hn v hv => ih n hn hv

/-- If a node declares a name, its type is that name, and the name is defined. -/
theorem Typed.of_declaredName (h : Typed m n ref) {name : String}
    (hname : TypeBuilder.declaredName? n.info = some name) (htarget : n.target? = none) :
    ref = .named name ∧ m.contains name := by
  cases n with
  | primitive info kind =>
    rw [Typed, TypeModel.Aliases, show TypeBuilder.declaredName? info = some name from hname] at h
    exact ⟨h.1, TypeModel.contains_of_get? h.2⟩
  | reference info target => cases htarget
  | array info item =>
    rw [Typed] at h
    obtain ⟨t, -, halias⟩ := h
    rw [TypeModel.Aliases, show TypeBuilder.declaredName? info = some name from hname] at halias
    exact ⟨halias.1, TypeModel.contains_of_get? halias.2⟩
  | object info properties required =>
    rw [Typed] at h
    obtain ⟨name', fields, hname', rfl, hget, -⟩ := h
    cases hname' name hname
    exact ⟨rfl, TypeModel.contains_of_get? hget⟩
  | oneOf info branches =>
    rw [Typed] at h
    obtain ⟨name', variants, hname', rfl, hget, -⟩ := h
    cases hname' name hname
    exact ⟨rfl, TypeModel.contains_of_get? hget⟩

end RouteBinding
