import RouteBinding.Proofs.Model.Typed
import RouteBinding.Proofs.Schema.Provenance

/-!
# Building right types

The nodes that a builder is given belong to a family: with a node, all nodes inside it, and of two nodes with
one serial number only one. What the builder remembers is then the right type of one node, and so of every
node with that number, however the names of definitions came about; what a node was given once it is given ever
after, and the type of a node is made of those that the nodes inside it were given. Every name that a definition
mentions is defined, or it is pending: the name of a component, which has its turn.
-/

namespace RouteBinding

open Course (Runs)
open TypeModel (Names)

/-- A family of nodes, where a reference names something pending. -/
structure Family (known : SchemaNode → Prop) (pending : String → Prop) : Prop where
  inner : ∀ n c, known n → c ∈ n.layer.inner → known c
  unique : ∀ n n', known n → known n' → n.info.serial = n'.info.serial → n = n'
  pending : ∀ info target, known (.reference info target) → pending (Naming.typeName target)

/-- A name that is defined or pending. -/
def TypeModel.Accounted (m : TypeModel) (pending : String → Prop) (name : String) : Prop :=
  m.contains name ∨ pending name

/-- A name that is accounted for stays so as the model grows. -/
theorem TypeModel.Accounted.mono {m m' : TypeModel} {pending : String → Prop} {name : String}
    (hm : m.Extends m') (h : m.Accounted pending name) : m'.Accounted pending name :=
  h.imp_left hm.contains

/-- A type that mentions only names that are defined or pending. -/
def TypeModel.Closed (m : TypeModel) (pending : String → Prop) (t : TypeRef) : Prop :=
  ∀ name, t.Mentions name → m.Accounted pending name

/-- A right type of a known node mentions only names that are accounted for. -/
theorem Typed.closed {known : SchemaNode → Prop} {pending : String → Prop} {m : TypeModel}
    {n : SchemaNode} {ref : TypeRef} (hk : Family known pending)
    (hn : known n) (h : Typed m n ref) : m.Closed pending ref := by
  have halias {info : NodeInfo} {ref target : TypeRef} (ha : m.Aliases info ref target)
      (ht : m.Closed pending target) : m.Closed pending ref := by
    unfold TypeModel.Aliases at ha
    split at ha
    · rintro name' hmention
      rw [ha.1] at hmention
      cases hmention
      exact .inl (TypeModel.contains_of_get? ha.2)
    · rwa [ha]
  have hdefined {name : String} {d : TypeDef} (hget : m.get? name = some d) :
      m.Closed pending (.named name) := by
    rintro name' hmention
    cases hmention
    exact .inl (TypeModel.contains_of_get? hget)
  induction n using SchemaNode.induct generalizing ref with
  | primitive info kind =>
    rw [Typed] at h
    exact halias h fun name hmention => hmention.elim
  | reference info target =>
    rw [Typed] at h
    rintro name hmention
    rw [h] at hmention
    cases hmention
    exact .inr (hk.pending info target hn)
  | array info item ih =>
    rw [Typed] at h
    obtain ⟨t, ht, ha⟩ := h
    have hitem := ih (hk.inner _ _ hn List.mem_cons_self) ht
    exact halias ha fun name hmention => hitem name hmention
  | object info properties required ih =>
    rw [Typed] at h
    obtain ⟨name, fields, -, rfl, hget, -⟩ := h
    exact hdefined hget
  | oneOf info branches ih =>
    rw [Typed] at h
    obtain ⟨name, variants, -, rfl, hget, -⟩ := h
    exact hdefined hget

/-- An alias whose target is a name stands for a node of the family that is a reference. -/
def TypeDef.Grounded (known : SchemaNode → Prop) : TypeDef → Prop
  | .alias _ (.named name) => ∃ info target, known (.reference info target) ∧ name = Naming.typeName target
  | _ => True

/-- A type that rests on known nodes rests on them when more are known. -/
theorem TypeDef.Grounded.mono {known known' : SchemaNode → Prop} {d : TypeDef} (h : d.Grounded known)
    (hknown : ∀ info target, known (.reference info target) → known' (.reference info target)) :
    d.Grounded known' := by
  rcases d with ⟨own, _ | _ | name⟩ | _ | _
  · trivial
  · trivial
  · obtain ⟨info, target, hn, hname⟩ := h
    exact ⟨info, target, hknown info target hn, hname⟩
  · trivial
  · trivial

namespace TypeBuilder

variable {known : SchemaNode → Prop} {pending : String → Prop} {b c : TypeBuilder} {n : SchemaNode}
  {ref : TypeRef}

/-! ## What a builder holds -/

/-- The type that a node has been given: of a reference the name, and of any other the one that is remembered. -/
def givenType? (built : List (Nat × TypeRef)) (n : SchemaNode) : Option TypeRef :=
  match n.target? with
  | some target => some (.named (Naming.typeName target))
  | none => built.lookup n.info.serial

/-- A node that is no reference has the type that was built for it. -/
theorem givenType?_of_target?_eq_none {built : List (Nat × TypeRef)} (h : n.target? = none) :
    givenType? built n = built.lookup n.info.serial := by
  rw [givenType?, h]

/-- What a builder holds: definitions under their names, whose names are accounted for, and types that are
right for a node of the family and made of the types that the nodes inside it were given. -/
structure Right (known : SchemaNode → Prop) (pending : String → Prop) (b : TypeBuilder) : Prop where
  names : ∀ d ∈ b.model.definitions, d.2.name = d.1
  closed : ∀ d ∈ b.model.definitions, ∀ t ∈ d.2.types, b.model.Closed pending t
  grounded : ∀ d ∈ b.model.definitions, d.2.Grounded known
  built : ∀ p ∈ b.built, ∃ n, known n ∧ n.info.serial = p.1 ∧ n.target? = none ∧
    TypedBy b.model (givenType? b.built · = some ·) n p.2

/-- A builder that comes later: its model has grown, and what nodes were given they are still given. -/
structure Later (b c : TypeBuilder) : Prop where
  model : b.model.Extends c.model
  built : ∀ serial ref, b.built.lookup serial = some ref → c.built.lookup serial = some ref

theorem Later.refl (b : TypeBuilder) : Later b b :=
  ⟨List.prefix_rfl, fun _ _ h => h⟩

theorem Later.trans {d : TypeBuilder} (h : Later b c) (h' : Later c d) : Later b d where
  model := h.model.trans h'.model
  built serial ref hl := h'.built serial ref (h.built serial ref hl)

/-- A node keeps the type it was given. -/
theorem Later.given (h : Later b c) (hn : givenType? b.built n = some ref) :
    givenType? c.built n = some ref := by
  unfold givenType? at hn ⊢
  split at hn
  · exact hn
  · exact h.built _ _ hn

/-- The course of a builder: its model grows, and it forgets nothing. -/
def building (known : SchemaNode → Prop) (pending : String → Prop) : Course TypeBuilder where
  inv := Right known pending
  le := Later
  refl := Later.refl
  trans := Later.trans

/-- Nothing has been built wrong before anything is built. -/
theorem right_empty : Right known pending .empty where
  names d hd := by cases hd
  closed d hd := by cases hd
  grounded d hd := by cases hd
  built p hp := by cases hp

/-- A larger family does no harm. -/
theorem Right.mono {known' : SchemaNode → Prop} (h : Right known pending b)
    (hknown : ∀ n, known n → known' n) : Right known' pending b where
  names := h.names
  closed := h.closed
  grounded d hd := (h.grounded d hd).mono fun _ _ => hknown _
  built p hp := by
    obtain ⟨n, hn, hrest⟩ := h.built p hp
    exact ⟨n, hknown n hn, hrest⟩

/-- The type that a node of the family was given is right by itself. -/
theorem Right.typedBy (hb : Right known pending b) (hk : Family known pending) (hn : known n)
    (h : givenType? b.built n = some ref) : TypedBy b.model (givenType? b.built · = some ·) n ref := by
  cases htarget : n.target? with
  | some target =>
    cases n with
    | reference info target => exact (Option.some.inj h).symm
    | _ => cases htarget
  | none =>
    rw [givenType?_of_target?_eq_none htarget] at h
    obtain ⟨n', hn', hserial, -, htyped⟩ := hb.built _ (mem_of_lookup h)
    rwa [hk.unique n n' hn hn' hserial.symm]

/-- The type that a node of the family was given is right. -/
theorem Right.typed (hb : Right known pending b) (hk : Family known pending) (hn : known n)
    (h : givenType? b.built n = some ref) : Typed b.model n ref := by
  induction n using SchemaNode.inner_induct generalizing ref with
  | h n ih =>
    refine typed_iff.2 ((hb.typedBy hk hn h).imp fun c hc t ht => ?_)
    exact ih c hc (hk.inner n c hn hc) ht

/-- With a node, every node that it holds was given a type. -/
theorem Right.exists_given (hb : Right known pending b) (hk : Family known pending) (hn : known n)
    (h : givenType? b.built n = some ref) {m : SchemaNode} (hm : n.Holds m) :
    known m ∧ ∃ t, givenType? b.built m = some t := by
  induction hm with
  | self => exact ⟨hn, ref, h⟩
  | inner _ hc ih =>
    obtain ⟨hknown, t, ht⟩ := ih
    exact ⟨hk.inner _ _ hknown hc, (hb.typedBy hk hknown ht).exists_inner hc⟩

/-! ## Inside a node -/

/-- What is done inside a node gives no type to the node itself: it can be done with the node left out of the
family, and with it all nodes that hold it. -/
theorem runs_inside {α : Type} {x : Build α} {good : α → TypeBuilder → Prop}
    (hk : Family known pending) (hn : known n) (htarget : n.target? = none)
    (hb : Right known pending b) (hnew : b.built.lookup n.info.serial = none)
    (hx : ∀ known', Family known' pending → (∀ c ∈ n.layer.inner, known' c) →
      Right known' pending b → (building known' pending).Runs x b good) :
    (building known pending).Runs x b fun a c =>
      good a c ∧ c.built.lookup n.info.serial = none := by
  let known' (m : SchemaNode) : Prop := known m ∧ ¬ m.Holds n
  have hreference (info : NodeInfo) (target : String) : ¬ (SchemaNode.reference info target).Holds n := by
    intro hholds
    rcases hholds.cases_inner with rfl | ⟨m, hm, -⟩
    · cases htarget
    · cases hm
  have hk' : Family known' pending :=
    ⟨fun m c hm hc => ⟨hk.inner m c hm.1 hc, fun hholds => hm.2 (.of_inner hc hholds)⟩,
      fun m m' hm hm' => hk.unique m m' hm.1 hm'.1,
      fun info target hm => hk.pending info target hm.1⟩
  have hinner : ∀ c ∈ n.layer.inner, known' c :=
    fun c hc => ⟨hk.inner n c hn hc, SchemaNode.not_holds_of_inner hc⟩
  -- a node that was given a type does not hold the node, which would have been given one, too
  have hb' : Right known' pending b := by
    refine ⟨hb.names, hb.closed, fun d hd => ?_, fun p hp => ?_⟩
    · exact (hb.grounded d hd).mono fun info target hm => ⟨hm, hreference info target⟩
    · obtain ⟨m, hm, hserial, hmtarget, htyped⟩ := hb.built p hp
      refine ⟨m, ⟨hm, fun hholds => ?_⟩, hserial, hmtarget, htyped⟩
      have hsome : (b.built.lookup m.info.serial).isSome :=
        List.lookup_isSome_iff.2 ⟨p, hp, by rw [hserial]; exact beq_self_eq_true _⟩
      obtain ⟨t, ht⟩ := Option.isSome_iff_exists.1 hsome
      rw [← givenType?_of_target?_eq_none hmtarget] at ht
      obtain ⟨-, u, hu⟩ := hb.exists_given hk hm ht hholds
      rw [givenType?_of_target?_eq_none htarget, hnew] at hu
      cases hu
  obtain ⟨hinv, hle, hgood⟩ := hx known' hk' hinner hb'
  refine ⟨hinv.mono fun m hm => hm.1, hle, fun a ha => ⟨hgood a ha, ?_⟩⟩
  refine Option.eq_none_iff_forall_ne_some.2 fun t ht => ?_
  obtain ⟨m, hm, hserial, -⟩ := hinv.built _ (mem_of_lookup ht)
  rw [hk.unique m n hm.1 hn hserial] at hm
  exact hm.2 .self

/-! ## Definitions -/

/-- A new type is found by its name. -/
theorem get?_append_new {m : TypeModel} {d : TypeDef} (h : m.get? d.name = none) :
    (⟨m.definitions ++ [(d.name, d)]⟩ : TypeModel).get? d.name = some d := by
  rw [TypeModel.get?, List.lookup_append]
  rw [TypeModel.get?] at h
  simp [h]

/-- A type that is defined is found by its name, with what it refers to accounted for. -/
theorem runs_define (hb : Right known pending b) (d : TypeDef) (pointer : String)
    (hd : ∀ t ∈ d.types, b.model.Closed pending t) (hgrounded : d.Grounded known) :
    (building known pending).Runs (define d pointer) b fun ref c =>
      ref = .named d.name ∧ c.model.get? d.name = some d ∧ c.built = b.built := by
  unfold define
  refine Course.runs_get_bind ?_
  cases hget : b.model.get? d.name with
  | none =>
    -- the new definition comes last, so that no name gets another meaning
    have hle : b.model.Extends ⟨b.model.definitions ++ [(d.name, d)]⟩ := List.prefix_append _ _
    refine Runs.bind (Course.runs_set ?_ ⟨hle, fun _ _ h => h⟩) fun _ c hc _ hset => ?_
    · refine ⟨fun e he => ?_, fun e he t ht name hmention => ?_, fun e he => ?_, fun p hp => ?_⟩
      · rcases List.mem_append.1 he with he | he
        · exact hb.names e he
        · rw [List.mem_singleton.1 he]
      · rcases List.mem_append.1 he with he | he
        · exact (hb.closed e he t ht name hmention).mono hle
        · rw [List.mem_singleton.1 he] at ht
          exact (hd t ht name hmention).mono hle
      · rcases List.mem_append.1 he with he | he
        · exact hb.grounded e he
        · rwa [List.mem_singleton.1 he]
      · obtain ⟨n, hn, hserial, htarget, htyped⟩ := hb.built p hp
        exact ⟨n, hn, hserial, htarget, htyped.mono hle⟩
    · refine Course.runs_pure hc ⟨rfl, ?_⟩
      rw [hset]
      exact ⟨get?_append_new hget, rfl⟩
  | some existing =>
    dsimp only
    split_ifs with heq
    · exact Course.runs_pure hb ⟨rfl, heq ▸ hget, rfl⟩
    · exact Course.runs_throw hb

/-- A node that declares a name gets an alias of it, and any other the type itself. -/
theorem runs_aliasOr (hb : Right known pending b) (info : NodeInfo) {target : TypeRef}
    (ht : b.model.Closed pending target) (hne : ∀ name, target ≠ .named name) :
    (building known pending).Runs (aliasOr info target) b fun ref c =>
      c.model.Aliases info ref target ∧ c.built = b.built := by
  unfold aliasOr TypeModel.Aliases
  cases declaredName? info with
  | none => exact Course.runs_pure hb ⟨rfl, rfl⟩
  | some name =>
    have hclosed : ∀ t ∈ (TypeDef.alias name target).types, b.model.Closed pending t := fun t hmem => by
      rwa [List.mem_singleton.1 hmem]
    have hgrounded : (TypeDef.alias name target).Grounded known := by
      cases target with
      | named name => exact absurd rfl (hne name)
      | _ => trivial
    exact (runs_define hb _ info.pointer hclosed hgrounded).mono fun ref c _ _ h =>
      ⟨⟨h.1, h.2.1⟩, h.2.2⟩

/-- A node that was given no type yet is given one that is right by itself. -/
theorem runs_remember (hb : Right known pending b) (hn : known n) (htarget : n.target? = none)
    (hnew : b.built.lookup n.info.serial = none)
    (h : TypedBy b.model (givenType? b.built · = some ·) n ref) :
    (building known pending).Runs (remember n.info.serial ref) b fun ref' c =>
      givenType? c.built n = some ref' := by
  have hle : Later b { b with built := (n.info.serial, ref) :: b.built } := by
    refine ⟨List.prefix_rfl, fun serial t hlookup => ?_⟩
    have hne : serial ≠ n.info.serial := by
      rintro rfl
      rw [hnew] at hlookup
      cases hlookup
    rwa [List.lookup_cons, beq_false_of_ne hne]
  refine Runs.bind (Course.runs_modify ⟨hb.names, hb.closed, hb.grounded, fun p hp => ?_⟩ hle)
    fun _ c hc _ hset => ?_
  · rcases List.mem_cons.1 hp with rfl | hp
    · exact ⟨n, hn, rfl, htarget, h.imp fun _ _ _ ht => hle.given ht⟩
    · obtain ⟨m, hm, hserial, hmtarget, htyped⟩ := hb.built p hp
      exact ⟨m, hm, hserial, hmtarget, htyped.imp fun _ _ _ ht => hle.given ht⟩
  · refine Course.runs_pure hc ?_
    rw [hset, givenType?_of_target?_eq_none htarget]
    exact List.lookup_cons_self

/-! ## The type of a node -/

/-- A node of any family is given a type, from every builder and under every fallback name. -/
def BuildsRight (pending : String → Prop) (n : SchemaNode) : Prop :=
  ∀ (known : SchemaNode → Prop), Family known pending → known n →
    ∀ (fallback : String) (b : TypeBuilder), Right known pending b →
      (building known pending).Runs (refFor n fallback) b fun ref c => givenType? c.built n = some ref

section Parts

variable (hk : Family known pending) (hb : Right known pending b)

include hk hb

/-- Properties become fields of the types that their nodes were given. -/
theorem runs_fieldsOf {properties : List (String × SchemaNode)}
    (hknown : ∀ p ∈ properties, known p.2) (h : ∀ p ∈ properties, BuildsRight pending p.2)
    (name : String) (required : List String) :
    (building known pending).Runs (fieldsOf name required properties) b fun fields c =>
      List.Forall₂ (FieldFor (givenType? c.built · = some ·) required) properties fields := by
  induction properties generalizing b with
  | nil =>
    rw [fieldsOf]
    exact Course.runs_pure hb .nil
  | cons p rest ih =>
    rw [fieldsOf]
    have hfirst := h p List.mem_cons_self known hk (hknown p List.mem_cons_self)
    refine Runs.bind (hfirst _ b hb) fun type c hc _ htype => ?_
    have hrest := ih hc (fun p' hp' => hknown p' (List.mem_cons_of_mem p hp'))
      fun p' hp' => h p' (List.mem_cons_of_mem p hp')
    refine Runs.bind hrest fun fields c' hc' hle hfields => ?_
    exact Course.runs_pure hc' (.cons ⟨rfl, hle.given htype, rfl⟩ hfields)

omit hk in
/-- A name for a branch is found without building anything. -/
theorem runs_branchName (union : String) (taken : List (String × Nat)) (index : Nat)
    (branch : SchemaNode) :
    (building known pending).Runs (branchName union taken index branch) b fun _ _ => True := by
  unfold branchName
  cases variantName union branch with
  | error e => exact Course.runs_throw_bind hb
  | ok name =>
    refine Runs.bind (Course.runs_pure hb trivial) fun name c hc _ (_ : True) => ?_
    dsimp only
    cases taken.lookup name with
    | some first => exact Course.runs_throw hc
    | none => exact Course.runs_pure hc trivial

/-- Branches become variants of the types that their nodes were given. -/
theorem runs_variantsOf {branches : List SchemaNode} (hknown : ∀ n ∈ branches, known n)
    (h : ∀ n ∈ branches, BuildsRight pending n) (union : String) (taken : List (String × Nat))
    (index : Nat) :
    (building known pending).Runs (variantsOf union taken index branches) b fun variants c =>
      List.Forall₂ (fun n v => givenType? c.built n = some v.type) branches variants := by
  induction branches generalizing b taken index with
  | nil =>
    rw [variantsOf]
    exact Course.runs_pure hb .nil
  | cons n rest ih =>
    rw [variantsOf]
    refine Runs.bind (runs_branchName hb union taken index n) fun name c hc _ _ => ?_
    have hfirst := h n List.mem_cons_self known hk (hknown n List.mem_cons_self)
    refine Runs.bind (hfirst _ c hc) fun type c' hc' _ htype => ?_
    have hrest := ih hc' (fun n' hn' => hknown n' (List.mem_cons_of_mem n hn'))
      (fun n' hn' => h n' (List.mem_cons_of_mem n hn')) ((name, index) :: taken) (index + 1)
    refine Runs.bind hrest fun variants c'' hc'' hle hvariants => ?_
    exact Course.runs_pure hc'' (.cons (hle.given htype) hvariants)

end Parts

/-- A node is built once; the rule for its kind is needed only where it was not built before. -/
theorem runs_unlessBuilt (hb : Right known pending b) (n : SchemaNode) (htarget : n.target? = none)
    {step : Build TypeRef}
    (h : b.built.lookup n.info.serial = none →
      (building known pending).Runs step b fun ref c => givenType? c.built n = some ref) :
    (building known pending).Runs (do
      match (← get).built.lookup n.info.serial with
      | some ref => return ref
      | none => step) b fun ref c => givenType? c.built n = some ref := by
  refine Course.runs_get_bind ?_
  cases hlookup : b.built.lookup n.info.serial with
  | some ref => exact Course.runs_pure hb ((givenType?_of_target?_eq_none htarget).trans hlookup)
  | none => exact h hlookup

/-- A node is named by its declaration or as it would be without one. -/
theorem names_getD (info : NodeInfo) (fallback : String) :
    Names info ((declaredName? info).getD fallback) := by
  intro declared h
  rw [h]
  rfl

/-- A primitive is built right. -/
theorem buildsRight_primitive (info : NodeInfo) (kind : Primitive) :
    BuildsRight pending (.primitive info kind) := by
  intro known hk hn fallback b hb
  rw [refFor]
  refine runs_unlessBuilt hb (.primitive info kind) rfl fun hnew => ?_
  refine Runs.bind (runs_aliasOr hb info (fun _ hmention => hmention.elim) fun _ => TypeRef.noConfusion)
    fun ref c hc _ halias => ?_
  exact runs_remember hc hn rfl (halias.2 ▸ hnew) halias.1

/-- An array is built right if its items are. -/
theorem buildsRight_array {info : NodeInfo} {item : SchemaNode} (hitem : BuildsRight pending item) :
    BuildsRight pending (.array info item) := by
  intro known hk hn fallback b hb
  rw [refFor]
  refine runs_unlessBuilt hb (.array info item) rfl fun hnew => ?_
  have hinside := runs_inside hk hn rfl hb hnew fun known' hk' hinner hb' =>
    hitem known' hk' (hinner item List.mem_cons_self) ((declaredName? info).getD fallback ++ "Item") b hb'
  refine Runs.bind hinside fun t c hc _ ht => ?_
  obtain ⟨ht, hcnew⟩ := ht
  have hclosed : c.model.Closed pending (.array t) := fun name hmention =>
    (hc.typed hk (hk.inner _ _ hn List.mem_cons_self) ht).closed hk
      (hk.inner _ _ hn List.mem_cons_self) name hmention
  refine Runs.bind (runs_aliasOr hc info hclosed fun _ => TypeRef.noConfusion)
    fun ref c' hc' hle halias => ?_
  exact runs_remember hc' hn rfl (halias.2 ▸ hcnew) ⟨t, hle.given ht, halias.1⟩

/-- An object is built right if its properties are. -/
theorem buildsRight_object {info : NodeInfo} {properties : List (String × SchemaNode)}
    {required : List String} (hproperties : ∀ p ∈ properties, BuildsRight pending p.2) :
    BuildsRight pending (.object info properties required) := by
  intro known hk hn fallback b hb
  rw [refFor]
  refine runs_unlessBuilt hb (.object info properties required) rfl fun hnew => ?_
  have hinside := runs_inside hk hn rfl hb hnew fun known' hk' hinner hb' =>
    runs_fieldsOf hk' hb' (fun p hp => hinner p.2 (List.mem_map_of_mem hp)) hproperties
      ((declaredName? info).getD fallback) required
  refine Runs.bind hinside fun fields c hc _ hfields => ?_
  obtain ⟨hfields, hcnew⟩ := hfields
  have hclosed : ∀ t ∈ (TypeDef.object ((declaredName? info).getD fallback) fields).types,
      c.model.Closed pending t := by
    intro t ht
    obtain ⟨f, hf, rfl⟩ := List.mem_map.1 ht
    obtain ⟨p, hp, hpf⟩ := exists_of_forall₂ hfields.flip hf
    have hknown : known p.2 := hk.inner _ _ hn (List.mem_map_of_mem hp)
    exact (hc.typed hk hknown hpf.2.1).closed hk hknown
  refine Runs.bind (runs_define hc _ info.pointer hclosed trivial) fun ref c' hc' hle hget => ?_
  refine runs_remember hc' hn rfl (hget.2.2 ▸ hcnew) ?_
  refine ⟨_, fields, names_getD info fallback, hget.1, hget.2.1, ?_⟩
  exact hfields.imp fun p f hpf => ⟨hpf.1, hle.given hpf.2.1, hpf.2.2⟩

/-- A union is built right if its branches are. -/
theorem buildsRight_oneOf {info : NodeInfo} {branches : List SchemaNode}
    (hbranches : ∀ n ∈ branches, BuildsRight pending n) :
    BuildsRight pending (.oneOf info branches) := by
  intro known hk hn fallback b hb
  rw [refFor]
  refine runs_unlessBuilt hb (.oneOf info branches) rfl fun hnew => ?_
  have hinside := runs_inside hk hn rfl hb hnew fun known' hk' hinner hb' =>
    runs_variantsOf hk' hb' hinner hbranches ((declaredName? info).getD fallback) [] 0
  refine Runs.bind hinside fun variants c hc _ hvariants => ?_
  obtain ⟨hvariants, hcnew⟩ := hvariants
  have hclosed : ∀ t ∈ (TypeDef.union ((declaredName? info).getD fallback) variants).types,
      c.model.Closed pending t := by
    intro t ht
    obtain ⟨v, hv, rfl⟩ := List.mem_map.1 ht
    obtain ⟨m, hm, hmv⟩ := exists_of_forall₂ hvariants.flip hv
    have hknown : known m := hk.inner _ _ hn hm
    exact (hc.typed hk hknown hmv).closed hk hknown
  refine Runs.bind (runs_define hc _ info.pointer hclosed trivial) fun ref c' hc' hle hget => ?_
  refine runs_remember hc' hn rfl (hget.2.2 ▸ hcnew) ?_
  refine ⟨_, variants, names_getD info fallback, hget.1, hget.2.1, ?_⟩
  exact hvariants.imp fun m v hmv => hle.given hmv

/-- A node of a family is given a type. -/
theorem buildsRight (pending : String → Prop) (n : SchemaNode) : BuildsRight pending n := by
  -- by induction on the node, for all builders and families at once: the parts of a node are built one
  -- after the other, each from what the parts before it have left
  induction n using SchemaNode.induct with
  | reference info target =>
    intro known _ _ fallback b hb
    rw [refFor]
    exact Course.runs_pure hb rfl
  | primitive info kind => exact buildsRight_primitive info kind
  | array info item ih => exact buildsRight_array ih
  | object info properties required ih => exact buildsRight_object ih
  | oneOf info branches ih => exact buildsRight_oneOf ih

/-! ## Components -/

/-- A type is right for the node of a component, and a component that is only a reference is defined as an
alias of it. -/
structure TypedComponent (m : TypeModel) (c : String × SchemaNode) (ref : TypeRef) : Prop where
  typed : Typed m c.2 ref
  defined : c.2.target?.isSome →
    m.get? (Naming.typeName c.1) = some (.alias (Naming.typeName c.1) ref)

/-- A component keeps its type as the model grows. -/
theorem TypedComponent.mono {m m' : TypeModel} {c : String × SchemaNode} {ref : TypeRef}
    (hm : m.Extends m') (h : TypedComponent m c ref) : TypedComponent m' c ref :=
  ⟨h.typed.mono hm, fun htarget => hm.get? (h.defined htarget)⟩

/-- The name of a component is its type, or an alias of it. -/
theorem TypedComponent.named_or_alias {m : TypeModel} {c : String × SchemaNode} {ref : TypeRef}
    (h : TypedComponent m c ref) (hname : c.1 ≠ "") (hcomponent : c.2.info.component = some c.1) :
    (ref = .named (Naming.typeName c.1) ∧ m.contains (Naming.typeName c.1)) ∨
      m.get? (Naming.typeName c.1) = some (.alias (Naming.typeName c.1) ref) := by
  cases htarget : c.2.target? with
  | some target => exact .inr (h.defined (by rw [htarget]; rfl))
  | none =>
    have hdeclared : declaredName? c.2.info = some (Naming.typeName c.1) := by
      simp [declaredName?, hcomponent, Option.filter, hname]
    exact .inl (h.typed.of_declaredName hdeclared htarget)

/-- The types that components are given, one after the other; a component that fails is given none. -/
def componentTypes : List (String × SchemaNode) → TypeBuilder → List (String × TypeRef)
  | [], _ => []
  | (name, node) :: rest, b =>
    let later := componentTypes rest (buildComponent name node b).2
    match (refFor node (Naming.typeName name) b).1 with
    | .ok ref => (name, ref) :: later
    | .error _ => later

/-- The alias of a component that is only a reference stands for that reference. -/
theorem grounded_of_target? (hn : known n) (h : givenType? b.built n = some ref)
    (htarget : n.target?.isSome) (name : String) : (TypeDef.alias name ref).Grounded known := by
  cases n with
  | reference info target =>
    obtain rfl := Option.some.inj h
    exact ⟨info, target, hn, rfl⟩
  | _ => cases htarget

/-- A component gets the type of its node, or an alias of it. -/
theorem runs_buildComponent (hk : Family known pending) {c : String × SchemaNode} (hc : known c.2)
    (hb : Right known pending b) :
    (building known pending).Runs (buildComponent c.1 c.2) b fun _ b' =>
      ∃ ref, (refFor c.2 (Naming.typeName c.1) b).1 = .ok ref ∧ TypedComponent b'.model c ref ∧
        givenType? b'.built c.2 = some ref := by
  have hrun : (building known pending).Runs (refFor c.2 (Naming.typeName c.1)) b fun ref b' =>
      (refFor c.2 (Naming.typeName c.1) b).1 = .ok ref ∧ givenType? b'.built c.2 = some ref := by
    obtain ⟨hinv, hle, hgiven⟩ := buildsRight pending c.2 known hk hc (Naming.typeName c.1) b hb
    exact ⟨hinv, hle, fun ref href => ⟨href, hgiven ref href⟩⟩
  refine Runs.bind hrun fun ref b' hb' _ h => ?_
  have htyped : Typed b'.model c.2 ref := hb'.typed hk hc h.2
  split_ifs with htarget
  · have hclosed : ∀ t ∈ (TypeDef.alias (Naming.typeName c.1) ref).types,
        b'.model.Closed pending t := by
      intro t ht
      rw [List.mem_singleton.1 ht]
      exact htyped.closed hk hc
    have hgrounded := grounded_of_target? hc h.2 htarget (Naming.typeName c.1)
    refine Runs.bind (runs_define hb' _ _ hclosed hgrounded) fun _ b'' hb'' hle hget => ?_
    exact Course.runs_pure hb'' ⟨ref, h.1, ⟨htyped.mono hle.model, fun _ => hget.2.1⟩, hle.given h.2⟩
  · exact Course.runs_pure hb' ⟨ref, h.1, ⟨htyped, fun h' => absurd h' htarget⟩, h.2⟩

/-- Components that leave no errors are all given right types. -/
theorem buildComponents_spec (hk : Family known pending) {components : List (String × SchemaNode)}
    (hknown : ∀ c ∈ components, known c.2) (hb : Right known pending b) :
    let run := buildComponents components b
    Right known pending run.2 ∧ Later b run.2 ∧
      (run.1 = [] → List.Forall₂ (fun c g => g.1 = c.1 ∧ TypedComponent run.2.model c g.2 ∧
        givenType? run.2.built c.2 = some g.2) components (componentTypes components b)) := by
  induction components generalizing b with
  | nil => exact ⟨hb, .refl b, fun _ => .nil⟩
  | cons c rest ih =>
    intro run
    -- a component that fails leaves a right builder behind, from which the others are built
    obtain ⟨hinv, hle, hgood⟩ := runs_buildComponent hk (hknown c List.mem_cons_self) hb
    rcases hfirst : buildComponent c.1 c.2 b with ⟨outcome, b'⟩
    rw [hfirst] at hinv hle hgood
    obtain ⟨hinv', hle', hrest⟩ := ih (fun c' hc' => hknown c' (List.mem_cons_of_mem c hc')) hinv
    cases outcome with
    | error e =>
      have hrun : run = (e :: (buildComponents rest b').1, (buildComponents rest b').2) := by
        show buildComponents (c :: rest) b = _
        rw [buildComponents]
        simp only [bind, StateT.bind, ExceptT.run, hfirst]
        rfl
      rw [hrun]
      exact ⟨hinv', hle.trans hle', fun hnil => (by cases hnil)⟩
    | ok _ =>
      have hrun : run = buildComponents rest b' := by
        show buildComponents (c :: rest) b = _
        rw [buildComponents]
        simp only [bind, StateT.bind, ExceptT.run, hfirst]
        rfl
      rw [hrun]
      refine ⟨hinv', hle.trans hle', fun hnil => ?_⟩
      obtain ⟨ref, href, htyped, hgiven⟩ := hgood () rfl
      rw [componentTypes, href, hfirst]
      exact .cons ⟨rfl, htyped.mono hle'.model, hle'.given hgiven⟩ (hrest hnil)

end TypeBuilder

end RouteBinding
