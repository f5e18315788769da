import Mathlib.Logic.Relation
import RouteBinding.Proofs.Schema.Reading
import RouteBinding.Schema.Resolver

/-!
# The form of a schema

The form of a node is the node without its numbers and places: what is left is what the document says. A
schema that is read again gives another node of the same form.

`Resolver.formWithin` reads the form of a schema straight from the document, with no memory of what was read
before and no regard to what is being read. It gives a form if the schema can be read to its ends, and then
in the same way from every depth that is enough (`formWithin_mono`).
-/

namespace RouteBinding

/-- What all nodes have in common, without number and place. -/
def NodeInfo.bare (info : NodeInfo) : NodeInfo :=
  { info with serial := 0, pointer := "" }

namespace SchemaNode

/-- Everything holds of all nodes that holds of a node whenever it holds of the nodes in it. -/
theorem induct {motive : SchemaNode → Prop}
    (primitive : ∀ info kind, motive (.primitive info kind))
    (reference : ∀ info target, motive (.reference info target))
    (array : ∀ info item, motive item → motive (.array info item))
    (object : ∀ info properties required, (∀ p ∈ properties, motive p.2) →
      motive (.object info properties required))
    (oneOf : ∀ info variants, (∀ n ∈ variants, motive n) → motive (.oneOf info variants)) :
    ∀ n, motive n
  | .primitive info kind => primitive info kind
  | .reference info target => reference info target
  | .array info item => array info item (induct primitive reference array object oneOf item)
  | .object info properties required => object info properties required fun p hp =>
      -- a node of a property is smaller than its entry, which is smaller than the list
      have : sizeOf p.2 < sizeOf properties := by
        have := List.sizeOf_lt_of_mem hp
        rcases p with ⟨name, node⟩
        simp only [Prod.mk.sizeOf_spec] at this
        show sizeOf node < sizeOf properties
        omega
      induct primitive reference array object oneOf p.2
  | .oneOf info variants => oneOf info variants fun n hn =>
      have := List.sizeOf_lt_of_mem hn
      induct primitive reference array object oneOf n
termination_by n => sizeOf n

mutual

/-- The node without its numbers and places. -/
def form : SchemaNode → SchemaNode
  | primitive info kind => primitive info.bare kind
  | reference info target => reference info.bare target
  | array info item => array info.bare item.form
  | object info properties required => object info.bare (propertyForms properties) required
  | oneOf info variants => oneOf info.bare (forms variants)

/-- The nodes of a list without their numbers and places. -/
def forms : List SchemaNode → List SchemaNode
  | [] => []
  | node :: rest => node.form :: forms rest

/-- The nodes of properties without their numbers and places. -/
def propertyForms : List (String × SchemaNode) → List (String × SchemaNode)
  | [] => []
  | (name, node) :: rest => (name, node.form) :: propertyForms rest

end

theorem forms_eq_map (l : List SchemaNode) : forms l = l.map form := by
  induction l with
  | nil => rfl
  | cons node rest ih => rw [forms, List.map_cons, ih]

theorem propertyForms_eq_map (l : List (String × SchemaNode)) :
    propertyForms l = l.map fun p => (p.1, p.2.form) := by
  induction l with
  | nil => rfl
  | cons p rest ih => rw [propertyForms, List.map_cons, ih]

@[simp] theorem info_form (n : SchemaNode) : n.form.info = n.info.bare := by
  cases n <;> rfl

@[simp] theorem target?_form (n : SchemaNode) : n.form.target? = n.target? := by
  cases n <;> rfl

theorem form_withInfo (info : NodeInfo) (n : SchemaNode) :
    (n.withInfo info).form = n.form.withInfo info.bare := by
  cases n <;> rfl

/-- Taking the form twice is taking it once. -/
@[simp] theorem form_form (n : SchemaNode) : n.form.form = n.form := by
  induction n using induct with
  | primitive info kind => rfl
  | reference info target => rfl
  | array info item ih => simp only [form, ih]; rfl
  | object info properties required ih =>
    simp only [form, propertyForms_eq_map, List.map_map]
    congr 1
    exact List.map_congr_left fun p hp => by simp [ih p hp]
  | oneOf info variants ih =>
    simp only [form, forms_eq_map, List.map_map]
    congr 1
    exact List.map_congr_left fun n hn => by simp [ih n hn]

end SchemaNode

namespace Resolver

/-! ## Forms of layers -/

/-- What all nodes of forms have in common that are no components. -/
def bareInfo (title : Option String) : NodeInfo :=
  ⟨0, "", title, none⟩

/-- The form of a schema whose inner schemas have their forms. -/
def assembleForm (pointer : String) (title : Option String) :
    Layer SchemaNode → Except Halt SchemaNode
  | .component name => .ok (.reference (bareInfo title) name)
  | .inlined _ node => .ok node
  | .oneOf variants => .ok (.oneOf (bareInfo title) variants)
  | .array item => .ok (.array (bareInfo title) item)
  | .object properties (some required) => .ok (.object (bareInfo title) properties required)
  | .object _ none => refuse (.malformedSchema .required pointer)
  | .primitive kind => .ok (.primitive (bareInfo title) kind)

/-- The form of the node of a container, under the name of the component that the container is. -/
def claimForm (r : Resolver) (id : Nat) (node : SchemaNode) : SchemaNode :=
  match r.owner? id with
  | some name =>
    if node.info.component.isNone then node.withInfo { node.info with component := some name }
    else node
  | none => node

/-- The form of a schema, read from the document; `none` if it is malformed or nests deeper than
`depth`. -/
def formWithin (r : Resolver) : (depth : Nat) → Value → Option SchemaNode
  | 0, _ => none
  | depth + 1, v =>
    match r.document.graph.shape v with
    | .mapping id entries => do
      let reading ← (r.read entries "").toOption
      let layer ← reading.layer.traverse (r.formWithin depth)
      let node ← (assembleForm "" reading.title layer).toOption
      return r.claimForm id node
    | _ => none

/-! ## Schemas that have forms -/

open Relation (ReflTransGen TransGen)

variable {r : Resolver} {v w : Value}

/-- Where a layer comes to a form, it does so at every pointer. -/
theorem assembleForm_pointer {pointer : String} {title : Option String} {layer : Layer SchemaNode}
    {node : SchemaNode} (h : assembleForm pointer title layer = .ok node) (pointer' : String) :
    assembleForm pointer' title layer = .ok node := by
  cases layer with
  | object properties required =>
    cases required with
    | none => exact absurd h refuse_ne_ok
    | some required => exact h
  | _ => exact h

/-- A layer comes to a form exactly when nothing is missing from it. -/
theorem exists_assembleForm_iff {pointer : String} {title : Option String}
    {layer : Layer SchemaNode} :
    (∃ node, assembleForm pointer title layer = .ok node) ↔ layer.isComplete := by
  cases layer with
  | object properties required => cases required <;> simp [assembleForm, Layer.isComplete]
  | _ => simp [assembleForm, Layer.isComplete]

theorem assembleForm_error {pointer : String} {title : Option String} {layer : Layer SchemaNode}
    {h : Halt} (hform : assembleForm pointer title layer = .error h) : IsPlain h := by
  cases layer with
  | object properties required =>
    cases required <;> cases hform
    trivial
  | _ => cases hform

/-- A schema has a form within a depth exactly when it reads as one, its inner schemas have forms within
the depth below, and nothing is missing. -/
theorem formWithin_succ_iff {depth : Nat} {form : SchemaNode} :
    r.formWithin (depth + 1) v = some form ↔
      ∃ id reading layer node, r.Reads v id reading ∧
        Layer.Agree (fun w k => r.formWithin depth w = some k) reading.layer layer ∧
        assembleForm "" reading.title layer = .ok node ∧ r.claimForm id node = form := by
  constructor
  · intro h
    rw [formWithin] at h
    split at h
    · rename_i id entries hshape
      simp only [Option.bind_eq_bind, Option.bind_eq_some_iff, toOption_eq_some,
        Option.pure_def, Option.some.injEq] at h
      obtain ⟨reading, hread, layer, hlayer, node, hnode, rfl⟩ := h
      exact ⟨id, reading, layer, node, ⟨entries, hshape, hread⟩,
        Layer.traverse_eq_some_iff.1 hlayer, hnode, rfl⟩
    · cases h
  · rintro ⟨id, reading, layer, node, ⟨entries, hshape, hread⟩, hlayer, hnode, rfl⟩
    rw [formWithin, hshape]
    simp [hread, Layer.traverse_eq_some_iff.2 hlayer, hnode, Except.toOption]

/-- A form that is read within a depth is read within every larger depth. -/
theorem formWithin_mono {depth depth' : Nat} {form : SchemaNode} (hle : depth ≤ depth')
    (h : r.formWithin depth v = some form) : r.formWithin depth' v = some form := by
  induction depth generalizing depth' v form with
  | zero => cases h
  | succ depth ih =>
    obtain ⟨depth', rfl⟩ : ∃ d, depth' = d + 1 := ⟨depth' - 1, by omega⟩
    obtain ⟨id, reading, layer, node, hreads, hlayer, hnode, hform⟩ := formWithin_succ_iff.1 h
    refine formWithin_succ_iff.2 ⟨id, reading, layer, node, hreads, ?_, hnode, hform⟩
    exact hlayer.mono fun w _ k hk => ih (by omega) hk

/-- The form of a schema does not depend on the depth within which it is read. -/
theorem formWithin_unique {depth depth' : Nat} {form form' : SchemaNode}
    (h : r.formWithin depth v = some form) (h' : r.formWithin depth' v = some form') :
    form = form' := by
  have hmax := formWithin_mono (Nat.le_max_left depth depth') h
  have hmax' := formWithin_mono (Nat.le_max_right depth depth') h'
  rw [hmax] at hmax'
  exact Option.some.inj hmax'

/-- A schema has a form: it can be read to its ends. -/
def HasForm (r : Resolver) (v : Value) (form : SchemaNode) : Prop :=
  ∃ depth, r.formWithin depth v = some form

theorem HasForm.unique {form form' : SchemaNode} (h : r.HasForm v form) (h' : r.HasForm v form') :
    form = form' := by
  obtain ⟨depth, h⟩ := h
  obtain ⟨depth', h'⟩ := h'
  exact formWithin_unique h h'

/-- What stands inside a schema has its form within a smaller depth. -/
theorem formWithin_inner {depth : Nat} {form : SchemaNode} (h : r.formWithin depth v = some form)
    (hw : r.Inner v w) : ∃ d < depth, ∃ k, r.formWithin d w = some k := by
  cases depth with
  | zero => cases h
  | succ depth =>
    obtain ⟨id, reading, layer, node, hreads, hlayer, -, -⟩ := formWithin_succ_iff.1 h
    obtain ⟨id', reading', hreads', hmem⟩ := hw
    obtain ⟨-, rfl⟩ := hreads.unique hreads'
    obtain ⟨k, -, hk⟩ := hlayer.exists_right hmem
    exact ⟨depth, Nat.lt_succ_self depth, k, hk⟩

theorem formWithin_reachable {depth : Nat} {form : SchemaNode}
    (h : r.formWithin depth v = some form) (hw : TransGen r.Inner v w) :
    ∃ d < depth, ∃ k, r.formWithin d w = some k := by
  induction hw with
  | single hw => exact formWithin_inner h hw
  | tail _ hw ih =>
    obtain ⟨d, hd, k, hk⟩ := ih
    obtain ⟨d', hd', k', hk'⟩ := formWithin_inner hk hw
    exact ⟨d', Nat.lt_trans hd' hd, k', hk'⟩

theorem HasForm.reachable {form : SchemaNode} (h : r.HasForm v form)
    (hw : ReflTransGen r.Inner v w) : ∃ k, r.HasForm w k := by
  obtain ⟨depth, h⟩ := h
  rcases Relation.reflTransGen_iff_eq_or_transGen.1 hw with rfl | hw
  · exact ⟨form, depth, h⟩
  · obtain ⟨d, -, k, hk⟩ := formWithin_reachable h hw
    exact ⟨k, d, hk⟩

/-- A schema with a form follows the rules. -/
theorem HasForm.wellFormed {form : SchemaNode} (h : r.HasForm v form) : r.WellFormed v := by
  obtain ⟨depth, h⟩ := h
  cases depth with
  | zero => cases h
  | succ depth =>
    obtain ⟨id, reading, layer, node, hreads, hlayer, hnode, -⟩ := formWithin_succ_iff.1 h
    refine ⟨id, reading, hreads, ?_⟩
    rw [hlayer.isComplete_eq]
    exact exists_assembleForm_iff.1 ⟨node, hnode⟩

/-- A schema with a form does not hold itself: each way down would need a smaller depth. -/
theorem HasForm.not_cyclic {form : SchemaNode} (h : r.HasForm v form) : ¬ TransGen r.Inner v v := by
  obtain ⟨depth, h⟩ := h
  intro hv
  -- the schema would have a form within a smaller depth, and so on without end
  induction depth using Nat.strongRecOn generalizing form with
  | _ depth ih =>
    obtain ⟨d, hd, k, hk⟩ := formWithin_reachable h hv
    exact ih d hd hk

end Resolver

end RouteBinding
