import RouteBinding.Operation.Compiler
import RouteBinding.Proofs.Model.Alias
import RouteBinding.Proofs.Model.Typed

/-!
# Kinds of types

What stands behind a type: a scalar, an array of scalars, or an object. A compilation asks for it while the model
is still growing. Where the aliases of a type end at something settled, nothing that is defined later can change
the answer (`unalias_mono`).

The type of a node can depend on where the node is first met: an object or a union that declares no name is named after
that place. All other types are fixed by what the nodes say (`SchemaNode.fixedType?`), those of scalars and of arrays of
scalars among them (`Typed.isSome_fixedType?`).
-/

namespace RouteBinding.TypeModel

variable {m m' : TypeModel} {ref t : TypeRef} {fuel n : Nat} {seen : List String}

/-! ## Settled types -/

/-- A type that stands for itself: it is no name, or the name of a definition that is no alias. -/
def Settled (m : TypeModel) : TypeRef → Prop
  | .named name => ∃ d, m.get? name = some d ∧ ∀ own target, d ≠ .alias own target
  | _ => True

theorem Settled.aliasTarget? (h : m.Settled t) : m.aliasTarget? t = none := by
  cases t with
  | named name =>
    obtain ⟨d, hget, hne⟩ := h
    rw [TypeModel.aliasTarget?, hget]
    rcases d with ⟨own, target⟩ | _ | _
    · exact absurd rfl (hne own target)
    · rfl
    · rfl
  | _ => rfl

theorem Settled.mono (hm : m.Extends m') (h : m.Settled t) : m'.Settled t := by
  cases t with
  | named name =>
    obtain ⟨d, hget, hne⟩ := h
    exact ⟨d, hm.get? hget, hne⟩
  | _ => exact h

/-- If what was found behind the aliases is settled, the search was not cut short. -/
theorem leads_of_unaliasFrom (h : m.unaliasFrom fuel seen ref = t) (ht : m.Settled t) :
    ∃ n, Leads m.aliasTarget? n ref t := by
  induction fuel generalizing seen ref with
  | zero =>
    have href : ref = t := h
    subst href
    exact ⟨0, .done ht.aliasTarget?⟩
  | succ fuel ih =>
    cases hnext : m.aliasTarget? ref with
    | none =>
      rw [unaliasFrom_of_aliasTarget? hnext] at h
      subst h
      exact ⟨0, .done hnext⟩
    | some target =>
      obtain ⟨name, own, rfl, hget⟩ := aliasTarget?_eq_some hnext
      rw [unaliasFrom] at h
      split_ifs at h with hseen
      · -- a loop of aliases closes at an alias, which is not settled
        subst h
        rw [ht.aliasTarget?] at hnext
        cases hnext
      · rw [hget] at h
        obtain ⟨n, hlead⟩ := ih h
        exact ⟨n + 1, .step hnext hlead⟩

/-- A chain of aliases that ends at a settled type is the same in every larger model. -/
theorem leads_mono (hm : m.Extends m') (ht : m.Settled t) (h : Leads m.aliasTarget? n ref t) :
    Leads m'.aliasTarget? n ref t := by
  induction h with
  | done _ => exact .done (ht.mono hm).aliasTarget?
  | step hnext _ ih =>
    obtain ⟨name, own, rfl, hget⟩ := aliasTarget?_eq_some hnext
    exact .step (aliasTarget?_of_get? (hm.get? hget)) (ih ht)

theorem unalias_mono (hm : m.Extends m') (h : m.Settled (m.unalias ref)) :
    m'.unalias ref = m.unalias ref := by
  obtain ⟨n, hlead⟩ := leads_of_unaliasFrom rfl h
  exact unalias_of_leads (leads_mono hm h hlead)

/-- The name of a definition that is no alias stands for itself. -/
theorem unalias_of_get? {name : String} {d : TypeDef} (h : m.get? name = some d)
    (hd : ∀ own target, d ≠ .alias own target) : m.unalias (.named name) = .named name :=
  unalias_of_leads (.done (Settled.aliasTarget? (t := .named name) ⟨d, h, hd⟩))

/-- Behind a type that stands for a target the target is found, if that is no name. -/
theorem Aliases.unalias {info : NodeInfo} {target : TypeRef} (h : m.Aliases info ref target)
    (htarget : m.aliasTarget? target = none) : m.unalias ref = target := by
  unfold Aliases at h
  split at h
  · rw [h.1]
    exact unalias_of_leads (.step (aliasTarget?_of_get? h.2) (.done htarget))
  · rw [h]
    exact unalias_of_leads (.done htarget)

/-! ## Kinds -/

/-- Behind the aliases of a type stands a scalar. -/
def IsScalar (m : TypeModel) (ref : TypeRef) : Prop :=
  ∃ kind, m.unalias ref = .primitive kind

/-- Behind the aliases of a type stands a scalar, or an array of items behind whose aliases a scalar stands. -/
def IsScalarLike (m : TypeModel) (ref : TypeRef) : Prop :=
  m.IsScalar ref ∨ ∃ item, m.unalias ref = .array item ∧ m.IsScalar item

/-- Behind the aliases of a type stands the name of an object. -/
def IsObject (m : TypeModel) (ref : TypeRef) : Prop :=
  ∃ name own fields, m.unalias ref = .named name ∧ m.get? name = some (.object own fields)

theorem isScalarLike_iff : Compilation.isScalarLike m ref ↔ m.IsScalarLike ref := by
  unfold Compilation.isScalarLike IsScalarLike IsScalar
  cases m.unalias ref with
  | primitive kind => simp
  | named name => simp
  | array item => cases hitem : m.unalias item <;> simp [hitem]

theorem isObject_iff : Compilation.isObject m ref ↔ m.IsObject ref := by
  unfold Compilation.isObject IsObject
  cases m.unalias ref with
  | named name =>
    cases hget : m.get? name with
    | none => simp [hget]
    | some d => cases d <;> simp [hget]
  | _ => simp

theorem IsScalar.mono (hm : m.Extends m') (h : m.IsScalar ref) : m'.IsScalar ref := by
  obtain ⟨kind, hkind⟩ := h
  have hsettled : m.Settled (m.unalias ref) := by
    rw [hkind]
    trivial
  exact ⟨kind, by rw [unalias_mono hm hsettled, hkind]⟩

theorem IsScalarLike.mono (hm : m.Extends m') (h : m.IsScalarLike ref) : m'.IsScalarLike ref := by
  rcases h with h | ⟨item, hitem, hscalar⟩
  · exact .inl (h.mono hm)
  · have hsettled : m.Settled (m.unalias ref) := by
      rw [hitem]
      trivial
    exact .inr ⟨item, by rw [unalias_mono hm hsettled, hitem], hscalar.mono hm⟩

theorem IsObject.mono (hm : m.Extends m') (h : m.IsObject ref) : m'.IsObject ref := by
  obtain ⟨name, own, fields, hname, hget⟩ := h
  have hsettled : m.Settled (m.unalias ref) := by
    rw [hname]
    exact ⟨_, hget, fun _ _ => TypeDef.noConfusion⟩
  exact ⟨name, own, fields, by rw [unalias_mono hm hsettled, hname], hm.get? hget⟩

end RouteBinding.TypeModel

namespace RouteBinding

open TypeBuilder (declaredName?)

/-- The type of a node that is the same wherever the node is met. -/
def SchemaNode.fixedType? : SchemaNode → Option TypeRef
  | .primitive info kind => ((declaredName? info).map .named).or (some (.primitive kind))
  | .reference _ target => some (.named (Naming.typeName target))
  | .array info item => ((declaredName? info).map .named).or (item.fixedType?.map .array)
  | .object info _ _ => (declaredName? info).map .named
  | .oneOf info _ => (declaredName? info).map .named

/-- What a node says fixes its type, whatever its number and place. -/
@[simp] theorem SchemaNode.fixedType?_form (n : SchemaNode) : n.form.fixedType? = n.fixedType? := by
  induction n using induct with
  | array info item ih =>
    rw [form, fixedType?, fixedType?, ih]
    rfl
  | _ => rfl

variable {m : TypeModel} {n : SchemaNode} {t u : TypeRef}

/-- A type that stands for a target is a name or the target, as the node says. -/
theorem TypeModel.Aliases.eq_of_or {info : NodeInfo} {target : TypeRef} {fixed : Option TypeRef}
    (h : m.Aliases info t target) (hu : ((declaredName? info).map .named).or fixed = some u)
    (hfixed : ∀ w, fixed = some w → target = w) : t = u := by
  unfold Aliases at h
  cases hname : declaredName? info with
  | some name =>
    rw [hname] at h hu
    cases hu
    exact h.1
  | none =>
    rw [hname] at h hu
    rw [h]
    exact hfixed u hu

theorem TypeModel.Names.eq_of_map {info : NodeInfo} {name : String} (h : Names info name)
    (hu : (declaredName? info).map TypeRef.named = some u) : .named name = u := by
  obtain ⟨declared, hdeclared, rfl⟩ := Option.map_eq_some_iff.1 hu
  rw [h declared hdeclared]

/-- The type of a node is its fixed one, if it has one. -/
theorem Typed.eq_fixedType (h : Typed m n t) (hu : n.fixedType? = some u) : t = u := by
  induction n using SchemaNode.induct generalizing t u with
  | primitive info kind =>
    rw [Typed] at h
    exact h.eq_of_or hu fun w hw => Option.some.inj hw
  | reference info target =>
    rw [Typed] at h
    exact h.trans (Option.some.inj hu)
  | array info item ih =>
    rw [Typed] at h
    obtain ⟨type, htype, halias⟩ := h
    refine halias.eq_of_or hu fun w hw => ?_
    obtain ⟨v, hv, rfl⟩ := Option.map_eq_some_iff.1 hw
    rw [ih htype hv]
  | object info properties required ih =>
    rw [Typed] at h
    obtain ⟨name, fields, hname, rfl, -⟩ := h
    exact hname.eq_of_map hu
  | oneOf info branches ih =>
    rw [Typed] at h
    obtain ⟨name, variants, hname, rfl, -⟩ := h
    exact hname.eq_of_map hu

/-- Behind a type that is not fixed stands the name of an object or a union, or an array of what is not fixed. -/
theorem Typed.unalias_of_not_fixed (h : Typed m n t) (hn : n.fixedType? = none) :
    (∃ name, m.unalias t = .named name) ∨
      ∃ item type, Typed m item type ∧ item.fixedType? = none ∧ m.unalias t = .array type := by
  cases n with
  | primitive info kind => simp [SchemaNode.fixedType?] at hn
  | reference info target => cases hn
  | array info item =>
    rw [Typed] at h
    obtain ⟨type, htype, halias⟩ := h
    obtain ⟨-, hitem⟩ := Option.or_eq_none_iff.1 hn
    exact .inr ⟨item, type, htype, Option.map_eq_none_iff.1 hitem, halias.unalias rfl⟩
  | object info properties required =>
    rw [Typed] at h
    obtain ⟨name, fields, -, rfl, hget, -⟩ := h
    exact .inl ⟨name, TypeModel.unalias_of_get? hget fun _ _ => TypeDef.noConfusion⟩
  | oneOf info branches =>
    rw [Typed] at h
    obtain ⟨name, variants, -, rfl, hget, -⟩ := h
    exact .inl ⟨name, TypeModel.unalias_of_get? hget fun _ _ => TypeDef.noConfusion⟩

theorem Typed.not_isScalar (h : Typed m n t) (hn : n.fixedType? = none) : ¬ m.IsScalar t := by
  rintro ⟨kind, hkind⟩
  rcases h.unalias_of_not_fixed hn with ⟨name, hname⟩ | ⟨item, type, -, -, harray⟩
  · rw [hname] at hkind
    cases hkind
  · rw [harray] at hkind
    cases hkind

/-- The type of a scalar or of an array of scalars is fixed. -/
theorem Typed.isSome_fixedType? (h : Typed m n t) (ht : m.IsScalarLike t) : n.fixedType?.isSome := by
  rw [Option.isSome_iff_ne_none]
  intro hn
  rcases ht with ht | ⟨type, htype, hscalar⟩
  · exact h.not_isScalar hn ht
  · rcases h.unalias_of_not_fixed hn with ⟨name, hname⟩ | ⟨item, type', hitem, hnone, harray⟩
    · rw [hname] at htype
      cases htype
    · rw [harray] at htype
      cases htype
      exact hitem.not_isScalar hnone hscalar

/-- Nodes of one form have one type in all models, if a scalar or an array of scalars stands behind it. -/
theorem Typed.eq_of_form {m' : TypeModel} {n' : SchemaNode} {t' : TypeRef} (h : Typed m n t)
    (h' : Typed m' n' t') (hform : n.form = n'.form) (ht : m.IsScalarLike t) : t = t' := by
  obtain ⟨u, hu⟩ := Option.isSome_iff_exists.1 (h.isSome_fixedType? ht)
  have hu' : n'.fixedType? = some u := by
    rw [← SchemaNode.fixedType?_form, ← hform, SchemaNode.fixedType?_form, hu]
  rw [h.eq_fixedType hu, h'.eq_fixedType hu']

end RouteBinding
