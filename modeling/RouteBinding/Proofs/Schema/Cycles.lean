import RouteBinding.Proofs.Schema.History

/-!
# Which schemas resolve

The resolution ends for every document: from one more than the count of containers on, the depth makes no
difference (`expandWithin_depth`). It gives a node exactly if every schema that is reached follows the rules
and none is reached from itself, and what it reports as a cycle is one.
-/

namespace RouteBinding.Resolver

open Relation (ReflTransGen TransGen)

variable {r : Resolver} {start site : Site} {depth depth' : Nat} {trail : Trail}

/-- Every depth that is enough for a trail gives the same step. -/
theorem expandWithin_depth (h : r.Underway start depth trail site)
    (h' : r.Underway start depth' trail site) :
    r.expandWithin depth trail site = r.expandWithin depth' trail site := by
  induction depth generalizing depth' trail site with
  | zero => exact absurd rfl h.depth_ne_zero
  | succ depth ih =>
    cases depth' with
    | zero => exact absurd rfl h'.depth_ne_zero
    | succ depth' =>
      rw [expandWithin, expandWithin]
      cases hshape : r.document.graph.shape site.value with
      | mapping id entries =>
        dsimp only
        by_cases hid : trail.any (·.1 = id)
        · simp only [if_pos hid]
        · simp only [if_neg hid]
          have hinner : ∀ reading, r.read entries site.pointer = .ok reading →
              (reading.layer.located site.pointer).traverse
                  (r.expandWithin depth ((id, site.pointer) :: trail)) =
                (reading.layer.located site.pointer).traverse
                  (r.expandWithin depth' ((id, site.pointer) :: trail)) := by
            intro reading hread
            refine Layer.traverse_congr fun next hnext => ?_
            have hreads : r.Reads site.value id reading := .of_read hshape hread
            exact ih (h.cons hreads hid hnext) (h'.cons hreads hid hnext)
          cases hread : r.read entries site.pointer with
          | error halt => rfl
          | ok reading =>
            simp only [Step.ofOutcome_ok, pure_bind, hinner reading hread]
      | _ => rfl

/-- A mapping refers to a component: it has a reference that names one, and no fault in its title. -/
structure RefersTo (r : Resolver) (v : Value) (target name : String) : Prop where
  exists_entries : ∃ id entries title, r.document.graph.shape v = .mapping id entries ∧
    valueAt? "$ref" entries = some (.scalar (.text target)) ∧
    readTitle r.document.graph entries "" = .ok title
  names : Pointer.componentName? target = some name

/-- The document itself decides what a reference to a component says: nothing stands inside it. -/
theorem RefersTo.not_inner {v w : Value} {target name : String} (h : r.RefersTo v target name) :
    ¬ r.Inner v w := by
  rintro ⟨id, reading, ⟨entries, hshape, hread⟩, hw⟩
  obtain ⟨⟨id', entries', title, hshape', href, htitle⟩, hname⟩ := h
  rw [hshape] at hshape'
  cases hshape'
  rw [read, href] at hread
  simp only [readReference, hname] at hread
  obtain ⟨title', -, hread⟩ := bind_eq_ok.1 hread
  obtain ⟨layer, hlayer, hread⟩ := bind_eq_ok.1 hread
  cases hread
  split_ifs at hlayer
  · cases hlayer
    cases hw
  · cases hlayer

theorem exists_claimForm_reference (r : Resolver) (id : Nat) (info : NodeInfo) (name : String) :
    ∃ info', r.claimForm id (.reference info name) = .reference info' name := by
  unfold claimForm
  cases r.owner? id with
  | none => exact ⟨info, rfl⟩
  | some owner =>
    dsimp only
    split_ifs
    · exact ⟨_, rfl⟩
    · exact ⟨info, rfl⟩

/-- A reference to a component is looked up among the names of the components, and nowhere else. -/
theorem RefersTo.search {v : Value} {target name : String} (h : r.RefersTo v target name)
    (pointer : String) :
    if r.declares name then ∃ info, r.search v pointer = .ok (.reference info name)
    else r.search v pointer = .error (.error (.unresolvedReference target (.unknownSchema name))) := by
  obtain ⟨⟨id, entries, title, hshape, href, htitle⟩, hname⟩ := h
  have hreference : r.readReference (.scalar (.text target)) =
      if r.declares name then .ok (.component name)
      else refuse (.unresolvedReference target (.unknownSchema name)) := by
    simp only [readReference, hname]
  rw [Resolver.search, searchWithin, hshape]
  simp only [List.any_nil, Bool.false_eq_true, if_false]
  rw [read, readTitle_pointer htitle pointer, href]
  split_ifs with hdeclared
  · rw [if_pos hdeclared] at hreference
    obtain ⟨info, hclaim⟩ := r.exists_claimForm_reference id (bareInfo title) name
    refine ⟨info, ?_⟩
    rw [← hclaim]
    dsimp only
    rw [hreference]
    rfl
  · rw [if_neg hdeclared] at hreference
    dsimp only
    rw [hreference]
    rfl

/-! ## Which schemas resolve -/

/-- The node of a resolution and what the search finds are there in the same cases. -/
theorem exists_resolve_iff {s : State} (hs : r.Sound s) (raw : Value) (pointer : String) :
    (∃ node, (r.resolve raw pointer s).1 = .ok node) ↔ ∃ form, r.HasForm raw form := by
  have hform := form_resolve hs raw pointer
  constructor
  · rintro ⟨node, hnode⟩
    rw [hnode] at hform
    exact ⟨node.form, search_eq_ok_iff.1 hform.symm⟩
  · rintro ⟨form, h⟩
    rw [search_eq_ok_iff.2 h] at hform
    cases hrun : (r.resolve raw pointer s).1 with
    | ok node => exact ⟨node, rfl⟩
    | error halt => rw [hrun] at hform; cases hform

theorem resolve_eq_error_iff {s : State} (hs : r.Sound s) (raw : Value) (pointer : String)
    (halt : Halt) :
    (r.resolve raw pointer s).1 = .error halt ↔ r.search raw pointer = .error halt := by
  rw [← form_resolve hs raw pointer]
  cases (r.resolve raw pointer s).1 <;> simp [Except.map]

/-- After any calls on the resolver: a resolution ends, for no depth beyond the count of containers makes a
difference; it gives a node exactly if all that is reached follows the rules and nothing reached stands
inside itself; a reference to a component is not followed, but the component must be declared; and a cycle
is reported only for a way that comes back to a schema on it. -/
theorem resolve_sound_and_complete (r : Resolver) (calls : List Call) (raw : Value)
    (pointer : String) :
    (∀ depth, r.document.graph.size < depth →
      r.expandWithin depth [] ⟨raw, pointer⟩ = r.resolve raw pointer) ∧
    ((∃ node, (r.resolve raw pointer (r.after calls)).1 = .ok node) ↔
      (∀ w, ReflTransGen r.Inner raw w → r.WellFormed w) ∧
        ∀ w, ReflTransGen r.Inner raw w → ¬ TransGen r.Inner w w) ∧
    (∀ target name, r.RefersTo raw target name → (∀ w, ¬ r.Inner raw w) ∧
      if r.declares name then
        ∃ node, (r.resolve raw pointer (r.after calls)).1 = .ok node ∧ node.target? = some name
      else (r.resolve raw pointer (r.after calls)).1 =
        .error (.error (.unresolvedReference target (.unknownSchema name)))) ∧
    ∀ location chain,
      (r.resolve raw pointer (r.after calls)).1 = .error (.error (.cyclicSchema location chain)) →
        location = chain.headD "" ∧ r.ComesBack ⟨raw, pointer⟩ chain := by
  have hs := sound_after r calls
  refine ⟨fun depth hdepth => ?_, ?_, fun target name hrefers => ⟨fun w => hrefers.not_inner, ?_⟩,
    fun location chain herror => ?_⟩
  · exact expandWithin_depth (.initial r _ hdepth) (.initial r _ (Nat.lt_succ_self _))
  · rw [exists_resolve_iff hs, exists_hasForm_iff, ← forall_and]
    simp only [imp_and]
  · have hsearch := hrefers.search pointer
    split_ifs at hsearch ⊢
    · obtain ⟨info, hinfo⟩ := hsearch
      rw [← form_resolve hs raw pointer] at hinfo
      cases hrun : (r.resolve raw pointer (r.after calls)).1 with
      | error halt => rw [hrun] at hinfo; cases hinfo
      | ok node =>
        rw [hrun] at hinfo
        refine ⟨node, rfl, ?_⟩
        rw [← SchemaNode.target?_form, Except.ok.inj hinfo]
        rfl
    · exact (resolve_eq_error_iff hs raw pointer _).2 hsearch
  · generalize hhalt : Halt.error (.cyclicSchema location chain) = halt at herror
    cases fault_of_search ((resolve_eq_error_iff hs raw pointer _).1 herror) with
    | illFormed w hreach hill hplain =>
      rw [← hhalt] at hplain
      exact hplain.elim
    | broken w id entries hreach hill hshape hstops => cases hhalt
    | cycle chain' hloop =>
      cases hhalt
      exact ⟨rfl, hloop⟩

/-- A resolver for a document whose only mapping is an object with itself as its property. -/
def holdingItself : Resolver where
  document :=
    { graph := ⟨#[
        .mapping [(.text "type", .scalar (.text "object")), (.text "properties", .container 1)],
        .mapping [(.text "self", .container 0)]]⟩
      root := .container 0 }
  schemas := []

theorem resolve_holdingItself :
    (holdingItself.resolve (.container 0) "#/a" (holdingItself.after [])).1 =
        .error (.error (.cyclicSchema "#/a" ["#/a", "#/a/properties/self"])) ∧
      "#/a" = ["#/a", "#/a/properties/self"].headD "" ∧
      holdingItself.ComesBack ⟨.container 0, "#/a"⟩ ["#/a", "#/a/properties/self"] := by
  have herror : (holdingItself.resolve (.container 0) "#/a" (holdingItself.after [])).1 =
      .error (.error (.cyclicSchema "#/a" ["#/a", "#/a/properties/self"])) :=
    error?_eq_some_iff.1 (by decide)
  exact ⟨herror, (resolve_sound_and_complete holdingItself [] (.container 0) "#/a").2.2.2 _ _ herror⟩

end RouteBinding.Resolver
