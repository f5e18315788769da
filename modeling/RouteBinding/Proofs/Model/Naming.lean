import RouteBinding.Proofs.Invariant
import RouteBinding.Proofs.Model.Composed
import RouteBinding.Proofs.Naming.Identifier

/-!
# The names of a type model

Every definition that a builder makes, and every branch of its unions, has a name for generated code, if the names that
it is given for schemas without one are such names. What is put behind a name is a part of one, so that it stays a name
(`keepsNames_refFor`); only the name of a branch may be anything, and it is put behind another one only where more
follows.
-/

namespace RouteBinding

open Naming (IsName isNamePart_namePart)
open Step (Keeps)

/-- The names that generated code has for a model: those of its definitions and of the branches of its unions. -/
def TypeModel.givenNames (m : TypeModel) : List String :=
  m.definitions.flatMap fun p => p.1 :: p.2.variantNames?.getD []

namespace TypeModel

/-- The names of a model are names for generated code. -/
def WellNamed (m : TypeModel) : Prop :=
  ∀ name ∈ m.givenNames, IsName name

theorem WellNamed.add {m : TypeModel} {d : TypeDef} (hm : m.WellNamed) (hname : IsName d.name)
    (hvariants : ∀ name ∈ d.variantNames?.getD [], IsName name) :
    WellNamed ⟨m.definitions ++ [(d.name, d)]⟩ := by
  unfold WellNamed givenNames
  rw [List.flatMap_append, List.flatMap_singleton]
  exact List.forall_mem_append.2 ⟨hm, List.forall_mem_cons.2 ⟨hname, hvariants⟩⟩

end TypeModel

namespace TypeBuilder

variable {info : NodeInfo} {fallback name : String} {n : SchemaNode}

/-! ## Names of nodes -/

theorem isName_of_map {o : Option String} (h : o.map Naming.typeName = some name) : IsName name := by
  obtain ⟨text, -, rfl⟩ := Option.map_eq_some_iff.1 h
  exact (Naming.isName_typeName text).1

theorem isName_getD (h : declaredName? info = none → IsName fallback) :
    IsName ((declaredName? info).getD fallback) := by
  cases hdeclared : declaredName? info with
  | none => exact h hdeclared
  | some declared => exact isName_of_map hdeclared

/-- A node without a title and a component has no name of its own, neither as a definition nor as a branch. -/
theorem declaredName?_eq_none_iff : declaredName? info = none ↔ variantName.named? info = none := by
  unfold declaredName? variantName.named?
  rw [Option.map_eq_none_iff, Option.map_eq_none_iff, Option.or_eq_none_iff, Option.or_eq_none_iff, and_comm]

/-- A name that a node may be given where it declares none. -/
def Suits (n : SchemaNode) (fallback : String) : Prop :=
  n.target? = none → declaredName? n.info = none → IsName fallback

/-- The name that a branch has of its own; the branch is then defined under a name of its own as well. -/
theorem named?_spec (h : variantName.named? info = some name) : IsName name ∧ declaredName? info ≠ none := by
  refine ⟨isName_of_map h, fun hnone => ?_⟩
  rw [declaredName?_eq_none_iff.1 hnone] at h
  cases h

theorem nameOr_spec {union : String} (h : variantName.nameOr union info = .ok name) :
    IsName name ∧ declaredName? info ≠ none := by
  unfold variantName.nameOr at h
  split at h
  · rename_i hnamed
    cases h
    exact named?_spec hnamed
  · cases h

/-- A branch has a name for generated code, and behind that of its union it is one where the branch needs it. -/
theorem variantName_spec {union : String} (h : variantName union n = .ok name) :
    IsName name ∧ ∀ u, IsName u → Suits n (u ++ name) := by
  induction n using SchemaNode.induct generalizing name with
  | primitive info kind =>
    cases h
    cases hnamed : variantName.named? info with
    | some own =>
      obtain ⟨hname, hne⟩ := named?_spec hnamed
      exact ⟨hname, fun u _ _ hnone => absurd hnone hne⟩
    | none =>
      refine ⟨?_, fun u hu _ _ => hu.append (isNamePart_namePart kind.name)⟩
      cases kind <;> exact ⟨by decide, by decide⟩
  | reference info target =>
    rw [variantName] at h
    refine ⟨?_, fun u _ htarget => by cases htarget⟩
    split at h
    · cases h
      exact (Naming.isName_typeName _).1
    · cases h
      exact (Naming.isName_typeName target).1
  | array info item ih =>
    rw [variantName] at h
    have harray : Naming.IsNamePart "Array".toList := Naming.isNamePart_of_all (by decide) (by decide)
    split at h
    · rename_i own hnamed
      cases h
      obtain ⟨hname, hne⟩ := named?_spec hnamed
      exact ⟨hname, fun u _ _ hnone => absurd hnone hne⟩
    · obtain ⟨inner, hinner, rfl⟩ := map_eq_ok.1 h
      obtain ⟨hname, -⟩ := ih hinner
      exact ⟨hname.append harray, fun u hu _ _ => hu.append_name hname harray (by decide)⟩
  | object info properties required _ =>
    obtain ⟨hname, hne⟩ := nameOr_spec h
    exact ⟨hname, fun u _ _ hnone => absurd hnone hne⟩
  | oneOf info branches _ =>
    obtain ⟨hname, hne⟩ := nameOr_spec h
    exact ⟨hname, fun u _ _ hnone => absurd hnone hne⟩

/-! ## Single steps -/

/-- A step of the building that leaves the names of a model names for generated code, whether it fails or not. -/
def KeepsNames {α : Type} (step : Build α) (good : α → Prop) : Prop :=
  Keeps (fun b => b.model.WellNamed) step good fun _ _ => True

theorem keepsNames_define (d : TypeDef) (hname : IsName d.name)
    (hvariants : ∀ name ∈ d.variantNames?.getD [], IsName name) (pointer : String) :
    KeepsNames (define d pointer) fun _ => True := by
  intro b hb
  refine ⟨?_, fun _ _ => trivial, fun _ _ => trivial⟩
  rcases define_cases d pointer b with ⟨-, hrun⟩ | hrun | ⟨_, _, -, -, hrun⟩
  · rw [hrun]
    exact hb.add hname hvariants
  · rwa [hrun]
  · rwa [hrun]

theorem keepsNames_remember (serial : Nat) (ref : TypeRef) : KeepsNames (remember serial ref) fun _ => True := by
  refine Keeps.bind (Step.keeps_modify fun _ hb => ?_) fun _ _ => Step.keeps_pure trivial
  exact hb

theorem keepsNames_aliasOr (info : NodeInfo) (ref : TypeRef) : KeepsNames (aliasOr info ref) fun _ => True := by
  unfold aliasOr
  cases hdeclared : declaredName? info with
  | none => exact Step.keeps_pure trivial
  | some name => exact keepsNames_define (.alias name ref) (isName_of_map hdeclared) (List.forall_mem_nil _) _

theorem keepsNames_branchName (union : String) (taken : List (String × Nat)) (index : Nat) (branch : SchemaNode) :
    KeepsNames (branchName union taken index branch) fun name => variantName union branch = .ok name := by
  unfold branchName
  cases hname : variantName union branch with
  | error e => exact Step.keeps_throw_bind fun _ => trivial
  | ok name =>
    dsimp only
    rw [pure_bind]
    cases taken.lookup name with
    | some first => exact Step.keeps_throw fun _ => trivial
    | none => exact Step.keeps_pure rfl

/-! ## Nodes -/

theorem keepsNames_fieldsOf {properties : List (String × SchemaNode)}
    (h : ∀ p ∈ properties, ∀ fallback, Suits p.2 fallback → KeepsNames (refFor p.2 fallback) fun _ => True)
    (hname : IsName name) (required : List String) :
    KeepsNames (fieldsOf name required properties) fun _ => True := by
  induction properties with
  | nil =>
    rw [fieldsOf]
    exact Step.keeps_pure trivial
  | cons p rest ih =>
    rw [fieldsOf]
    have hproperty : Suits p.2 (name ++ Naming.namePart p.1) := fun _ _ => hname.append (isNamePart_namePart p.1)
    refine (h p List.mem_cons_self _ hproperty).bind fun type _ => ?_
    refine Keeps.bind (ih fun p' hp' => h p' (List.mem_cons_of_mem p hp')) fun fields _ => ?_
    exact Step.keeps_pure trivial

theorem keepsNames_variantsOf {branches : List SchemaNode}
    (h : ∀ n ∈ branches, ∀ fallback, Suits n fallback → KeepsNames (refFor n fallback) fun _ => True)
    (hname : IsName name) (taken : List (String × Nat)) (index : Nat) :
    KeepsNames (variantsOf name taken index branches) fun variants => ∀ v ∈ variants, IsName v.name := by
  induction branches generalizing taken index with
  | nil =>
    rw [variantsOf]
    exact Step.keeps_pure (List.forall_mem_nil _)
  | cons n rest ih =>
    rw [variantsOf]
    refine (keepsNames_branchName name taken index n).bind fun own hown => ?_
    obtain ⟨hisname, hsuits⟩ := variantName_spec hown
    refine (h n List.mem_cons_self _ (hsuits name hname)).bind fun type _ => ?_
    refine Keeps.bind (ih (fun n' hn' => h n' (List.mem_cons_of_mem n hn')) _ _) fun variants hvariants => ?_
    exact Step.keeps_pure (List.forall_mem_cons.2 ⟨hisname, hvariants⟩)

/-- A node is built once; the rule for its kind is needed only where it was not built before. -/
theorem keepsNames_unlessBuilt {serial : Nat} {step : Build TypeRef} (h : KeepsNames step fun _ => True) :
    KeepsNames (do
      match (← get).built.lookup serial with
      | some ref => return ref
      | none => step) fun _ => True := by
  refine Step.keeps_get_bind fun b _ => ?_
  cases b.built.lookup serial with
  | some ref => exact Step.keeps_pure trivial
  | none => exact h

/-- All that is defined for a node has a name for generated code, if the node is given one where it needs it. -/
theorem keepsNames_refFor (hsuits : Suits n fallback) : KeepsNames (refFor n fallback) fun _ => True := by
  induction n using SchemaNode.induct generalizing fallback with
  | reference info target =>
    rw [refFor]
    exact Step.keeps_pure trivial
  | primitive info kind =>
    rw [refFor]
    exact keepsNames_unlessBuilt ((keepsNames_aliasOr _ _).bind fun ref _ => keepsNames_remember _ ref)
  | array info item ih =>
    rw [refFor]
    refine keepsNames_unlessBuilt ?_
    have hitem : Suits item ((declaredName? info).getD fallback ++ "Item") :=
      fun _ _ => (isName_getD (hsuits rfl)).append (Naming.isNamePart_of_all (by decide) (by decide))
    refine (ih hitem).bind fun item _ => ?_
    exact (keepsNames_aliasOr _ _).bind fun ref _ => keepsNames_remember _ ref
  | object info properties required ih =>
    rw [refFor]
    refine keepsNames_unlessBuilt ?_
    have hname : IsName ((declaredName? info).getD fallback) := isName_getD (hsuits rfl)
    refine (keepsNames_fieldsOf (fun p hp _ => ih p hp) hname required).bind fun fields _ => ?_
    refine (keepsNames_define (.object _ fields) hname (List.forall_mem_nil _) _).bind fun ref _ => ?_
    exact keepsNames_remember _ ref
  | oneOf info branches ih =>
    rw [refFor]
    refine keepsNames_unlessBuilt ?_
    have hname : IsName ((declaredName? info).getD fallback) := isName_getD (hsuits rfl)
    refine (keepsNames_variantsOf (fun n hn _ => ih n hn) hname [] 0).bind fun variants hvariants => ?_
    have hnames : ∀ own ∈ variants.map (·.name), IsName own := fun own hown => by
      obtain ⟨v, hv, rfl⟩ := List.mem_map.1 hown
      exact hvariants v hv
    refine (keepsNames_define (.union _ variants) hname hnames _).bind fun ref _ => ?_
    exact keepsNames_remember _ ref

/-! ## Components -/

theorem keepsNames_buildComponent (component : String) (n : SchemaNode) :
    KeepsNames (buildComponent component n) fun _ => True := by
  have hname := (Naming.isName_typeName component).1
  refine (keepsNames_refFor fun _ _ => hname).bind fun ref _ => ?_
  split_ifs
  · exact (keepsNames_define (.alias _ ref) hname (List.forall_mem_nil _) _).bind fun _ _ => Step.keeps_pure trivial
  · exact Step.keeps_pure trivial

/-- What is defined for components has names for generated code, whether each of them fails or not. -/
theorem wellNamed_buildComponents {b : TypeBuilder} (hb : b.model.WellNamed) (components : List (String × SchemaNode)) :
    (buildComponents components b).2.model.WellNamed := by
  induction components generalizing b with
  | nil => exact hb
  | cons e rest ih =>
    obtain ⟨hfirst, -⟩ := keepsNames_buildComponent e.1 e.2 b hb
    have hrest := ih hfirst
    rw [buildComponents]
    simp only [bind, StateT.bind, ExceptT.run]
    rcases hrun : buildComponent e.1 e.2 b with ⟨outcome, c⟩
    rw [hrun] at hrest
    cases outcome <;> exact hrest

end TypeBuilder

end RouteBinding
