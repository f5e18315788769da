import RouteBinding.Proofs.Invariant
import RouteBinding.Proofs.Model.Blame
import RouteBinding.Proofs.Model.Builder

/-!
# What definitions are made for

Every definition of a builder is made for a node of the family that it is given: an alias for a scalar or an array that
declares a name or for a component that is only a reference, an object for an object and a union for a union. A node
that a definition was made for has been given its type, so no definition is made for it again
(`TypeBuilder.Composed`). This stays so on every way through the building, with errors as well.

A name is refused only where two nodes may be defined under it. In a family in which each name is claimed by one node
(`TypeBuilder.Separated`) none is refused (`TypeBuilder.buildsComposed`).
-/

namespace RouteBinding

open Step (Keeps)
open TypeModel (Names)

/-- The error of a name that another definition has. -/
def CompileError.IsCollision : CompileError → Prop
  | .nameCollision .. => True
  | _ => False

/-- A node that is always defined under a name. -/
def SchemaNode.IsComposite : SchemaNode → Prop
  | .object .. => True
  | .oneOf .. => True
  | _ => False

namespace TypeBuilder

variable {known : SchemaNode → Prop} {pending : String → Prop} {b c : TypeBuilder} {n : SchemaNode} {name : String}
  {d : TypeDef}

/-! ## Definitions -/

/-- The variants of a union are named after its branches, in their order, and no two of them alike. -/
structure NamesBranches (union : String) (branches : List SchemaNode) (variants : List Variant) : Prop where
  named : List.Forall₂ (fun branch v => variantName union branch = .ok v.name) branches variants
  nodup : (variants.map (·.name)).Nodup

/-- A definition under a name is one that is made for a node. -/
def MadeFor (name : String) (d : TypeDef) : SchemaNode → Prop
  | .primitive info kind => declaredName? info = some name ∧ d = .alias name (.primitive kind)
  | .reference info target =>
    (∃ component, info.component = some component ∧ name = Naming.typeName component) ∧
      d = .alias name (.named (Naming.typeName target))
  | .array info _ => declaredName? info = some name ∧ ∃ item, d = .alias name (.array item)
  | .object info properties _ =>
    Names info name ∧ ∃ fields, d = .object name fields ∧ fields.map (·.name) = properties.map (·.1)
  | .oneOf info branches =>
    Names info name ∧ ∃ variants, d = .union name variants ∧ NamesBranches name branches variants

/-- What the definitions of a builder are made for: each name is defined once, for a node of the family, and that node
has been given its type. -/
structure Composed (known : SchemaNode → Prop) (b : TypeBuilder) : Prop where
  nodup : (b.model.definitions.map (·.1)).Nodup
  made : ∀ p ∈ b.model.definitions, ∃ n, known n ∧ MadeFor p.1 p.2 n ∧
    (n.target? = none → (b.built.lookup n.info.serial).isSome)

theorem composed_empty : Composed known .empty where
  nodup := List.nodup_nil
  made p hp := by cases hp

/-- A builder composed of known nodes is composed of more when more are known. -/
theorem Composed.mono {known' : SchemaNode → Prop} (hb : Composed known b) (hknown : ∀ n, known n → known' n) :
    Composed known' b where
  nodup := hb.nodup
  made p hp := by
    obtain ⟨n, hn, hmade⟩ := hb.made p hp
    exact ⟨n, hknown n hn, hmade⟩

/-- Nothing that was given a type loses it. -/
def Keeping (b c : TypeBuilder) : Prop :=
  ∀ serial, (b.built.lookup serial).isSome → (c.built.lookup serial).isSome

theorem keeping_cons {origins : List (String × String)} {model : TypeModel} (b : TypeBuilder) (serial : Nat)
    (ref : TypeRef) : Keeping b ⟨model, origins, (serial, ref) :: b.built⟩ := by
  intro serial' h
  show (List.lookup serial' ((serial, ref) :: b.built)).isSome
  rw [List.lookup_cons]
  split
  · rfl
  · exact h

/-- A builder is composed by its model and by what was built. -/
theorem Composed.of_model (hb : Composed known b) (hmodel : c.model = b.model) (hbuilt : Keeping b c) :
    Composed known c := by
  refine ⟨hmodel ▸ hb.nodup, fun p hp => ?_⟩
  rw [hmodel] at hp
  obtain ⟨n, hn, hmade, htarget⟩ := hb.made p hp
  exact ⟨n, hn, hmade, fun h => hbuilt _ (htarget h)⟩

/-- A definition under a new name is added, for a node that is then given its type. -/
theorem Composed.add (hb : Composed known b) (hget : b.model.get? d.name = none)
    (hmodel : c.model = ⟨b.model.definitions ++ [(d.name, d)]⟩) (hbuilt : Keeping b c) (hn : known n)
    (hmade : MadeFor d.name d n) (hself : n.target? = none → (c.built.lookup n.info.serial).isSome) :
    Composed known c := by
  constructor
  · rw [hmodel, List.map_append, List.nodup_append]
    refine ⟨hb.nodup, List.nodup_singleton _, fun name hname name' hname' heq => ?_⟩
    obtain ⟨p, hp, rfl⟩ := List.mem_map.1 hname
    have hsome : (b.model.definitions.lookup d.name).isSome :=
      List.lookup_isSome_iff.2 ⟨p, hp, by rw [heq, List.mem_singleton.1 hname']; exact beq_self_eq_true _⟩
    rw [← TypeModel.get?, hget] at hsome
    cases hsome
  · intro p hp
    rw [hmodel] at hp
    rcases List.mem_append.1 hp with hp | hp
    · obtain ⟨m, hm, hmade', htarget⟩ := hb.made p hp
      exact ⟨m, hm, hmade', fun h => hbuilt _ (htarget h)⟩
    · rw [List.mem_singleton.1 hp]
      exact ⟨n, hn, hmade, hself⟩

/-! ## Names that one node claims -/

/-- A name that a node is defined under wherever it stands. -/
def Claims (n : SchemaNode) (name : String) : Prop :=
  match n with
  | .reference info _ => ∃ component, info.component = some component ∧ name = Naming.typeName component
  | _ => declaredName? n.info = some name

/-- Every node that is always defined under a name claims one, and no two nodes claim the same. -/
structure Separated (known : SchemaNode → Prop) : Prop where
  declared : ∀ n, known n → n.IsComposite → ∃ name, declaredName? n.info = some name
  unique : ∀ n m name, known n → known m → Claims n name → Claims m name → n = m

/-- A type that was made for a node has a name that the node claims. -/
theorem MadeFor.claims (h : MadeFor name d n) (hs : Separated known) (hn : known n) : Claims n name := by
  cases n with
  | primitive info kind => exact h.1
  | reference info target => exact h.1
  | array info item => exact h.1
  | object info properties required =>
    obtain ⟨declared, hdeclared⟩ := hs.declared _ hn trivial
    rw [h.1 declared hdeclared]
    exact hdeclared
  | oneOf info branches =>
    obtain ⟨declared, hdeclared⟩ := hs.declared _ hn trivial
    rw [h.1 declared hdeclared]
    exact hdeclared

/-- An error that separated names rule out is none that a step halts with. -/
def Blameless (known : SchemaNode → Prop) (e : CompileError) : Prop :=
  Separated known → ¬ e.IsCollision

/-- Where names are separated, a node that was given no type yet finds its name free or, if it is only a reference,
defined by the same alias. -/
theorem Composed.eq_of_get? (hb : Composed known b) (hs : Separated known) (hn : known n) (hmade : MadeFor d.name d n)
    (hnew : n.target? = none → b.built.lookup n.info.serial = none) {existing : TypeDef}
    (hget : b.model.get? d.name = some existing) : existing = d := by
  obtain ⟨m, hm, hmade', hbuilt⟩ := hb.made _ (mem_of_lookup hget)
  obtain rfl := hs.unique n m d.name hn hm (hmade.claims hs hn) (hmade'.claims hs hm)
  cases htarget : n.target? with
  | none =>
    have hsome := hbuilt htarget
    rw [hnew htarget] at hsome
    cases hsome
  | some target =>
    cases n with
    | reference info target => exact hmade'.2.trans hmade.2.symm
    | _ => cases htarget

/-! ## Single steps -/

/-- What a definition comes to: it is new, it stands there already, or another one has its name. -/
theorem define_cases (d : TypeDef) (pointer : String) (b : TypeBuilder) :
    (b.model.get? d.name = none ∧ define d pointer b = (.ok (.named d.name),
      ⟨⟨b.model.definitions ++ [(d.name, d)]⟩, b.origins ++ [(d.name, pointer)], b.built⟩)) ∨
    define d pointer b = (.ok (.named d.name), b) ∨
    ∃ existing origin, b.model.get? d.name = some existing ∧ existing ≠ d ∧
      define d pointer b = (.error (.nameCollision d.name pointer origin), b) := by
  unfold define
  rw [Step.get_bind_apply]
  cases hget : b.model.get? d.name with
  | none => exact .inl ⟨rfl, rfl⟩
  | some existing =>
    dsimp only
    split_ifs with heq
    · exact .inr (.inl rfl)
    · exact .inr (.inr ⟨existing, _, rfl, heq, rfl⟩)

/-- A run leaves composed definitions behind, and halts with no error that separated names rule out. -/
def Composes {α : Type} (known : SchemaNode → Prop) (run : Except CompileError α × TypeBuilder) : Prop :=
  Composed known run.2 ∧ ∀ e, run.1 = .error e → Blameless known e

/-- The second of two steps runs on what the first has left, if the first gives a value. -/
theorem Composes.bind {α β : Type} {x : Build α} {f : α → Build β} (hx : Composes known (x b))
    (hf : ∀ a c, x b = (.ok a, c) → Composed known c → Composes known (f a c)) : Composes known ((x >>= f) b) := by
  rw [Step.bind_apply]
  rcases hrun : x b with ⟨outcome, c⟩
  rw [hrun] at hx
  cases outcome with
  | error e =>
    refine ⟨hx.1, fun e' he' => ?_⟩
    cases he'
    exact hx.2 e rfl
  | ok a => exact hf a c hrun hx.1

theorem Composed.remember (hb : Composed known b) (serial : Nat) (ref : TypeRef) :
    Composes known (remember serial ref b) :=
  ⟨hb.of_model rfl (keeping_cons b serial ref), fun e he => by cases he⟩

/-- A node that was given no type yet is defined, and given the name as its type. -/
theorem Composed.define (hb : Composed known b) (hn : known n) (hnew : b.built.lookup n.info.serial = none)
    (d : TypeDef) (hmade : MadeFor d.name d n) (pointer : String) :
    Composes known ((do TypeBuilder.remember n.info.serial (← TypeBuilder.define d pointer) : Build TypeRef) b) := by
  rw [Step.bind_apply]
  rcases define_cases d pointer b with ⟨hget, hrun⟩ | hrun | ⟨existing, origin, hget, hne, hrun⟩
  · rw [hrun]
    refine ⟨hb.add hget rfl (keeping_cons b _ _) hn hmade fun _ => ?_, fun e he => by cases he⟩
    show (List.lookup n.info.serial ((n.info.serial, TypeRef.named d.name) :: b.built)).isSome
    rw [List.lookup_cons_self]
    rfl
  · rw [hrun]
    exact hb.remember _ _
  · rw [hrun]
    refine ⟨hb, fun e he hs => ?_⟩
    exact absurd (hb.eq_of_get? hs hn hmade (fun _ => hnew) hget) hne

/-- A node that was given no type yet is given the target as its type, under a name if it declares one. -/
theorem Composed.aliasOr (hb : Composed known b) (hn : known n) (hnew : b.built.lookup n.info.serial = none)
    {target : TypeRef}
    (hmade : ∀ name, declaredName? n.info = some name → MadeFor name (.alias name target) n) :
    Composes known
      ((do TypeBuilder.remember n.info.serial (← TypeBuilder.aliasOr n.info target) : Build TypeRef) b) := by
  unfold TypeBuilder.aliasOr
  cases hdeclared : declaredName? n.info with
  | none => exact hb.remember _ _
  | some name => exact hb.define hn hnew (.alias name target) (hmade name hdeclared) _

/-! ## Inside a node -/

/-- What the building keeps. -/
def Composing (known : SchemaNode → Prop) (pending : String → Prop) (b : TypeBuilder) : Prop :=
  Right known pending b ∧ Composed known b

/-- A node of any family is built from composed definitions to composed definitions. -/
def BuildsComposed (pending : String → Prop) (n : SchemaNode) : Prop :=
  ∀ known : SchemaNode → Prop, Family known pending → known n →
    ∀ (fallback : String) (b : TypeBuilder), Composing known pending b → Composes known (refFor n fallback b)

/-- A node that is built keeps the builder composed, and its errors blame no one wrongly. -/
theorem BuildsComposed.keeps (h : BuildsComposed pending n) (hk : Family known pending) (hn : known n)
    (fallback : String) :
    Keeps (Composing known pending) (refFor n fallback) (fun _ => True) fun e _ => Blameless known e := by
  intro b hb
  obtain ⟨hcomposed, herror⟩ := h known hk hn fallback b hb
  obtain ⟨hright, -⟩ := buildsRight pending n known hk hn fallback b hb.1
  exact ⟨⟨hright, hcomposed⟩, fun _ _ => trivial, herror⟩

section Parts

variable (hk : Family known pending)

include hk

/-- Properties become fields of their names, in order. -/
theorem composing_fieldsOf {properties : List (String × SchemaNode)} (hknown : ∀ p ∈ properties, known p.2)
    (h : ∀ p ∈ properties, BuildsComposed pending p.2) (name : String) (required : List String) :
    Keeps (Composing known pending) (fieldsOf name required properties)
      (fun fields => fields.map (·.name) = properties.map (·.1)) fun e _ => Blameless known e := by
  induction properties with
  | nil =>
    rw [fieldsOf]
    exact Step.keeps_pure rfl
  | cons p rest ih =>
    rw [fieldsOf]
    refine ((h p List.mem_cons_self).keeps hk (hknown p List.mem_cons_self) _).bind fun type _ => ?_
    have hrest := ih (fun p' hp' => hknown p' (List.mem_cons_of_mem p hp'))
      fun p' hp' => h p' (List.mem_cons_of_mem p hp')
    refine hrest.bind fun fields hfields => ?_
    exact Step.keeps_pure (congrArg (p.1 :: ·) hfields)

omit hk in
/-- A branch without a name is not a collision. -/
theorem not_isCollision_of_variantName {union : String} {e : CompileError} (h : variantName union n = .error e) :
    ¬ e.IsCollision := by
  obtain ⟨m, -, rfl⟩ := exists_unnamed_of_variantName h
  exact id

omit hk in
theorem composing_branchName (union : String) (taken : List (String × Nat)) (index : Nat) (branch : SchemaNode) :
    Keeps (Composing known pending) (branchName union taken index branch)
      (fun name => variantName union branch = .ok name ∧ taken.lookup name = none) fun e _ => Blameless known e := by
  unfold branchName
  cases hname : variantName union branch with
  | error e => exact Step.keeps_throw_bind fun _ _ => not_isCollision_of_variantName hname
  | ok name =>
    dsimp only
    rw [pure_bind]
    cases hlookup : taken.lookup name with
    | some first => exact Step.keeps_throw fun _ _ => id
    | none => exact Step.keeps_pure ⟨rfl, hlookup⟩

/-- Branches become variants of different names. -/
theorem composing_variantsOf {branches : List SchemaNode} (hknown : ∀ n ∈ branches, known n)
    (h : ∀ n ∈ branches, BuildsComposed pending n) (union : String) (taken : List (String × Nat)) (index : Nat) :
    Keeps (Composing known pending) (variantsOf union taken index branches)
      (fun variants => NamesBranches union branches variants ∧ ∀ v ∈ variants, taken.lookup v.name = none)
      fun e _ => Blameless known e := by
  induction branches generalizing taken index with
  | nil =>
    rw [variantsOf]
    exact Step.keeps_pure ⟨⟨.nil, List.nodup_nil⟩, fun v hv => absurd hv List.not_mem_nil⟩
  | cons n rest ih =>
    rw [variantsOf]
    refine (composing_branchName union taken index n).bind fun name hname => ?_
    refine ((h n List.mem_cons_self).keeps hk (hknown n List.mem_cons_self) _).bind fun type _ => ?_
    have hrest := ih (fun n' hn' => hknown n' (List.mem_cons_of_mem n hn'))
      (fun n' hn' => h n' (List.mem_cons_of_mem n hn')) ((name, index) :: taken) (index + 1)
    refine hrest.bind fun variants hvariants => ?_
    -- a later branch has neither an earlier name nor that of this branch
    have hlater : ∀ v ∈ variants, v.name ≠ name ∧ taken.lookup v.name = none := by
      intro v hv
      have hlookup := hvariants.2 v hv
      rw [List.lookup_cons] at hlookup
      split at hlookup
      · cases hlookup
      · rename_i hne
        exact ⟨by simpa using hne, hlookup⟩
    refine Step.keeps_pure ⟨⟨.cons hname.1 hvariants.1.named, List.nodup_cons.2 ⟨?_, hvariants.1.nodup⟩⟩, ?_⟩
    · intro hmem
      obtain ⟨v, hv, heq⟩ := List.mem_map.1 hmem
      exact (hlater v hv).1 heq
    · exact List.forall_mem_cons.2 ⟨hname.2, fun v hv => (hlater v hv).2⟩

variable (hn : known n) (htarget : n.target? = none)

include hn htarget

/-- A node that was given no type yet is built from what is made of the nodes inside it; none of that gives the node
itself a type. -/
theorem composes_inside {α : Type} {x : Build α} {f : α → Build TypeRef} {good : α → Prop}
    (hb : Composing known pending b) (hnew : b.built.lookup n.info.serial = none)
    (hinside : ∀ known', Family known' pending → (∀ c ∈ n.layer.inner, known' c) → Right known' pending b →
      (building known' pending).Runs x b fun _ _ => True)
    (hx : Keeps (Composing known pending) x good fun e _ => Blameless known e)
    (hf : ∀ a c, Composed known c → c.built.lookup n.info.serial = none → good a → Composes known (f a c)) :
    Composes known ((x >>= f) b) := by
  obtain ⟨-, -, hlookup⟩ := runs_inside hk hn htarget hb.1 hnew hinside
  obtain ⟨hinv, hgood, herror⟩ := hx b hb
  refine Composes.bind ⟨hinv.2, herror⟩ fun a c hrun hc => ?_
  rw [hrun] at hlookup hgood
  exact hf a c hc (hlookup a rfl).2 (hgood a rfl)

omit hk hn htarget in
/-- A node is built once; the rule for its kind is needed only where it was not built before. -/
theorem composes_unlessBuilt {serial : Nat} {step : Build TypeRef} (hb : Composed known b)
    (h : b.built.lookup serial = none → Composes known (step b)) :
    Composes known ((do
      match (← get).built.lookup serial with
      | some ref => return ref
      | none => step : Build TypeRef) b) := by
  rw [Step.get_bind_apply]
  cases hlookup : b.built.lookup serial with
  | some ref => exact ⟨hb, fun e he => by cases he⟩
  | none => exact h hlookup

end Parts

/-- A node of a family is built from composed definitions to composed definitions, and where names are separated, no
name is refused. -/
theorem buildsComposed (pending : String → Prop) (n : SchemaNode) : BuildsComposed pending n := by
  -- what stands inside a node does not give a type to the node itself, so that it is still new when it is defined
  induction n using SchemaNode.induct with
  | reference info target =>
    intro known _ _ fallback b hb
    rw [refFor]
    exact ⟨hb.2, fun e he => by cases he⟩
  | primitive info kind =>
    intro known hk hn fallback b hb
    rw [refFor]
    refine composes_unlessBuilt hb.2 fun hnew => ?_
    exact hb.2.aliasOr hn hnew fun name hname => ⟨hname, rfl⟩
  | array info item ih =>
    intro known hk hn fallback b hb
    rw [refFor]
    refine composes_unlessBuilt hb.2 fun hnew => ?_
    have hitem := ih.keeps hk (hk.inner _ _ hn List.mem_cons_self) ((declaredName? info).getD fallback ++ "Item")
    refine composes_inside hk (n := .array info item) hn rfl hb hnew (fun known' hk' hinner hb' => ?_) hitem
      fun t c hc hcnew _ => ?_
    · exact (buildsRight pending item known' hk' (hinner item List.mem_cons_self) _ b hb').mono
        fun _ _ _ _ _ => trivial
    · exact hc.aliasOr hn hcnew fun name hname => ⟨hname, t, rfl⟩
  | object info properties required ih =>
    intro known hk hn fallback b hb
    rw [refFor]
    refine composes_unlessBuilt hb.2 fun hnew => ?_
    have hfields := composing_fieldsOf hk (fun p hp => hk.inner _ _ hn (List.mem_map_of_mem hp)) ih
      ((declaredName? info).getD fallback) required
    refine composes_inside hk (n := .object info properties required) hn rfl hb hnew
      (fun known' hk' hinner hb' => ?_) hfields fun fields c hc hcnew hnames => ?_
    · exact (runs_fieldsOf hk' hb' (fun p hp => hinner p.2 (List.mem_map_of_mem hp))
        (fun p _ => buildsRight pending p.2) _ required).mono fun _ _ _ _ _ => trivial
    · exact hc.define hn hcnew (.object ((declaredName? info).getD fallback) fields)
        ⟨names_getD info fallback, fields, rfl, hnames⟩ info.pointer
  | oneOf info branches ih =>
    intro known hk hn fallback b hb
    rw [refFor]
    refine composes_unlessBuilt hb.2 fun hnew => ?_
    have hvariants := composing_variantsOf hk (fun m hm => hk.inner _ _ hn hm) ih ((declaredName? info).getD fallback)
      [] 0
    refine composes_inside hk (n := .oneOf info branches) hn rfl hb hnew (fun known' hk' hinner hb' => ?_) hvariants
      fun variants c hc hcnew hnames => ?_
    · exact (runs_variantsOf hk' hb' hinner (fun m _ => buildsRight pending m) _ [] 0).mono
        fun _ _ _ _ _ => trivial
    · exact hc.define hn hcnew (.union ((declaredName? info).getD fallback) variants)
        ⟨names_getD info fallback, variants, rfl, hnames.1⟩ info.pointer

/-! ## Components -/

/-- A component that is only a reference is defined as an alias of its target. -/
theorem Composed.defineAlias (hb : Composed known b) {info : NodeInfo} {target component : String}
    (hn : known (.reference info target)) (hcomponent : info.component = some component) (pointer : String) :
    Composes known
      (TypeBuilder.define (.alias (Naming.typeName component) (.named (Naming.typeName target))) pointer b) := by
  have hmade : MadeFor (Naming.typeName component)
      (.alias (Naming.typeName component) (.named (Naming.typeName target))) (.reference info target) :=
    ⟨⟨component, hcomponent, rfl⟩, rfl⟩
  rcases define_cases (.alias (Naming.typeName component) (.named (Naming.typeName target))) pointer b with
    ⟨hget, hrun⟩ | hrun | ⟨existing, origin, hget, hne, hrun⟩
  · rw [hrun]
    refine ⟨hb.add hget rfl (fun _ h => h) hn hmade ?_, fun e he => by cases he⟩
    intro h
    cases h
  · rw [hrun]
    exact ⟨hb, fun e he => by cases he⟩
  · rw [hrun]
    refine ⟨hb, fun e he hs => ?_⟩
    exact absurd (hb.eq_of_get? (d := .alias _ _) hs hn hmade (fun h => by cases h) hget) hne

/-- A component that is built keeps the builder composed. -/
theorem composes_buildComponent (hk : Family known pending) {e : String × SchemaNode} (he : known e.2)
    (hcomponent : e.2.info.component = some e.1) (hb : Composing known pending b) :
    Composes known (buildComponent e.1 e.2 b) := by
  refine Composes.bind (buildsComposed pending e.2 known hk he (Naming.typeName e.1) b hb) fun ref c hrun hc => ?_
  split_ifs with htarget
  · obtain ⟨name, node⟩ := e
    cases node with
    | reference info target =>
      rw [refFor] at hrun
      cases hrun
      exact Composes.bind (hc.defineAlias he hcomponent info.pointer) fun _ c' _ hc' =>
        ⟨hc', fun e' he' => by cases he'⟩
    | _ => cases htarget
  · exact ⟨hc, fun e' he' => by cases he'⟩

/-- Components are built from composed definitions to composed definitions, whether each of them fails or not, and where
names are separated, no name is refused. -/
theorem composes_buildComponents (hk : Family known pending) {components : List (String × SchemaNode)}
    (hknown : ∀ e ∈ components, known e.2 ∧ e.2.info.component = some e.1) (hb : Composing known pending b) :
    Composed known (buildComponents components b).2 ∧ ∀ e ∈ (buildComponents components b).1, Blameless known e := by
  induction components generalizing b with
  | nil => exact ⟨hb.2, fun e he => absurd he List.not_mem_nil⟩
  | cons e rest ih =>
    obtain ⟨he, hcomponent⟩ := hknown e List.mem_cons_self
    obtain ⟨hcomposed, herror⟩ := composes_buildComponent hk he hcomponent hb
    obtain ⟨hright, -⟩ := runs_buildComponent hk he hb.1
    have hrest := ih (fun e' he' => hknown e' (List.mem_cons_of_mem e he')) ⟨hright, hcomposed⟩
    rw [buildComponents]
    simp only [bind, StateT.bind, ExceptT.run]
    -- the others are built from what the first leaves, even if it fails
    rcases hfirst : buildComponent e.1 e.2 b with ⟨outcome, c⟩
    rw [hfirst] at herror hrest
    cases outcome with
    | ok _ => exact hrest
    | error error => exact ⟨hrest.1, List.forall_mem_cons.2 ⟨herror error rfl, hrest.2⟩⟩

end TypeBuilder

end RouteBinding
