import RouteBinding.Operation.Compiler
import RouteBinding.Proofs.Growth.Schema

/-!
# Compiling parameters in a grown document

The compilation of parameters in a grown document runs alongside that in the document before: the objects that
references lead to say the same, and so the outcomes are the same, with the same errors and findings.
-/

namespace RouteBinding

open Step (Alongside alongside_pure alongside_throw alongside_fail alongside_breakOff alongside_fail_bind
  alongside_breakOff_bind alongside_get_bind alongside_modify alongside_ofExcept)
open Widening (Matches)

/-! ## Objects behind references -/

namespace Widening

/-- The renamed entries of a mapping that is apart. -/
theorem matches_renameEntries {ρ : Nat → Nat} {added : List (Scalar × Value)} {d d' : Document}
    {v : Value} (h : Widening ρ added d d') (hv : d.Apart v)
    {entries : List (Scalar × Value)} (hentries : d.graph.entries? v = some entries) :
    Matches ρ d entries (renameEntries ρ entries) := by
  obtain ⟨id, hshape⟩ := Graph.entries?_eq_some_iff.1 hentries
  obtain ⟨entries', hshape', hmatches⟩ := h.exists_matches (.inl hv) hshape
  rw [h.shape_rename hv, hshape] at hshape'
  cases hshape'
  exact hmatches

/-- Two objects that references lead to, in a tree and with more paths, say the same and were found at the same
pointer. -/
def SameObject (ρ : Nat → Nat) (d : Document) (a b : List (Scalar × Value) × Value × String) : Prop :=
  Matches ρ d a.1 b.1 ∧ b.2.2 = a.2.2

end Widening

open Widening (SameObject)

namespace Growth

open Resolver

variable {ρ : Nat → Nat} {added : List (Scalar × Value)} {d d' : Document} {raw : Value}
  {pointer : String}

/-- References are followed alike in a document that grows. -/
theorem followObject_grows (h : Growth ρ added d d') (fuel : Nat) (chain : List String)
    (hraw : d.Referable raw) :
    SameOutcome (SameObject ρ d) (followObject d fuel chain raw pointer)
      (followObject d' fuel chain (raw.rename ρ) pointer) := by
  induction fuel generalizing chain raw pointer with
  | zero => exact .error _
  | succ fuel ih =>
    rw [followObject, followObject]
    cases hentries : d.graph.entries? raw with
    | none =>
      rw [h.widening.entries?_rename (h.widening.apart_of_entries?_eq_none hraw hentries), hentries]
      exact .error _
    | some entries =>
      obtain ⟨id, hshape⟩ := Graph.entries?_eq_some_iff.1 hentries
      obtain ⟨entries', hshape', hmatches⟩ := h.widening.exists_matches hraw hshape
      rw [Graph.entries?_eq_some_iff.2 ⟨_, hshape'⟩]
      dsimp only
      rw [hmatches.values "$ref" (by decide)]
      cases href : valueAt? "$ref" entries with
      | none => exact .ok ⟨hmatches, rfl⟩
      | some reference =>
        -- what is no text cannot be followed
        have hother : SameOutcome (SameObject ρ d) (.error (d.misreference reference))
            (.error (d'.misreference (reference.rename ρ))) := by
          rw [h.widening.misreference_rename (hmatches.apart_of_valueAt? href)]
          exact .error _
        cases reference with
        | container id => exact hother
        | scalar s =>
          cases s with
          | text target =>
            dsimp only [Option.map_some, Value.rename]
            split_ifs
            · exact .error _
            · have hfind := h.widening.find_rename (h.not_enters hraw hentries href)
              generalize d.find target = found at hfind
              generalize d'.find target = found' at hfind
              cases hfind with
              | ok hnext =>
                obtain ⟨hreferable, rfl⟩ := hnext
                exact ih _ hreferable
              | error e => exact .error (Halt.error e)
          | _ => exact hother

end Growth

namespace Resolver

/-- With enough fuel, following references is resolving them. -/
theorem followObject_eq_resolveObject (r : Resolver) (raw : Value) (pointer : String) {fuel : Nat}
    (hfuel : r.document.graph.size < fuel) :
    followObject r.document fuel [] raw pointer = r.resolveObject raw pointer :=
  followObject_fuel List.nodup_nil (List.nil_subset _) hfuel (Nat.lt_succ_self _)

/-- References lead to an object that says the same. -/
theorem Grows.resolveObject_grows {ρ : Nat → Nat} {added : List (Scalar × Value)} {r r' : Resolver}
    (h : Resolver.Grows ρ added r r') {raw : Value} (hraw : r.document.Apart raw) (pointer : String) :
    SameOutcome (SameObject ρ r.document) (r.resolveObject raw pointer)
      (r'.resolveObject (raw.rename ρ) pointer) := by
  -- one bound that is enough for both documents
  have hlt : r.document.graph.size < r.document.graph.size + r'.document.graph.size + 1 := by omega
  have hlt' : r'.document.graph.size < r.document.graph.size + r'.document.graph.size + 1 := by omega
  rw [← followObject_eq_resolveObject r raw pointer hlt, ← followObject_eq_resolveObject r' _ pointer hlt']
  exact h.growth.followObject_grows _ [] (.inl hraw)

end Resolver

namespace Compilation

variable {ρ : Nat → Nat} {added : List (Scalar × Value)} {r r' : Resolver}

/-- A compilation if containers have other names. -/
def rename (ρ : Nat → Nat) (c : Compilation) : Compilation :=
  { c with resolved := c.resolved.rename ρ }

theorem alongside_record (e : CompileError) : Alongside (rename ρ) Eq (record e) (record e) :=
  alongside_modify fun _ => rfl

/-- What is built does not depend on the document. -/
theorem alongside_building {α : Type} (step : TypeBuilder.Build α) :
    Alongside (rename ρ) Eq (building step) (building step) := by
  unfold building
  refine alongside_get_bind fun c => ?_
  have hbuilder : (rename ρ c).builder = c.builder := rfl
  rw [hbuilder]
  rcases step c.builder with ⟨outcome, builder⟩
  exact Step.alongside_set.bind_eq fun _ => alongside_ofExcept (.refl outcome)

/-- A schema that stands apart is given the same type. -/
theorem alongside_typeOf (h : Resolver.Grows ρ added r r') {raw : Value}
    (hraw : r.document.Apart raw) (pointer context : String) :
    Alongside (rename ρ) Eq (typeOf r raw pointer context)
      (typeOf r' (raw.rename ρ) pointer context) := by
  have hnode : Alongside (rename ρ) Eq (resolveSchema r raw pointer)
      (resolveSchema r' (raw.rename ρ) pointer) :=
    (h.alongside_resolve (.inl hraw) pointer).zoom (fun _ => rfl) fun _ _ => rfl
  exact hnode.bind_eq fun node => alongside_building _

/-- An object is resolved alike in a document that grows. -/
theorem alongside_resolveObject (h : Resolver.Grows ρ added r r') {raw : Value} (hraw : r.document.Apart raw)
    (pointer : String) :
    Alongside (rename ρ) (SameObject ρ r.document) (Step.ofOutcome (r.resolveObject raw pointer))
      (Step.ofOutcome (r'.resolveObject (raw.rename ρ) pointer)) :=
  Step.alongside_ofOutcome (h.resolveObject_grows hraw pointer)

section Texts

variable {entries entries' : List (Scalar × Value)} (h : Resolver.Widens ρ added r r')
  (hm : Matches ρ r.document entries entries')

include h hm

/-- A text of an object stays as the object grows by paths. -/
theorem optionalText_grows {key : String} (hkey : key.toList.head? ≠ some '/') (pointer : String) :
    optionalText r'.document.graph entries' key pointer =
      optionalText r.document.graph entries key pointer := by
  unfold optionalText
  rw [hm.keyword? hkey]
  cases hv : Resolver.keyword? key entries with
  | none => rfl
  | some v =>
    have hliteral := h.document.literal?_rename (hm.apart_of_keyword? hv)
    cases v with
    | container id =>
      dsimp only [Option.map_some, Value.rename] at hliteral ⊢
      rw [hliteral]
    | scalar s => cases s <;> rfl

/-- A text of an entry stays as the object grows by paths. -/
theorem entryText?_grows {key : String} (hkey : key.toList.head? ≠ some '/') (absent : String) :
    entryText? r'.document.graph key absent entries' =
      entryText? r.document.graph key absent entries := by
  unfold entryText?
  rw [hm.values key hkey]
  cases hv : valueAt? key entries with
  | none => rfl
  | some v => exact h.document.display?_rename (hm.apart_of_valueAt? hv)

end Texts

/-! ## Lists of parameters -/

/-- Two parameter objects, before and after growth, say the same and were found at the same pointer. -/
structure RawParameter.Same (ρ : Nat → Nat) (d : Document) (p p' : RawParameter) : Prop where
  pointer : p'.pointer = p.pointer
  entries : Matches ρ d p.entries p'.entries

/-- Same parameters have one key. -/
theorem RawParameter.Same.key?_eq (h : Resolver.Widens ρ added r r') {p p' : RawParameter}
    (hp : p.Same ρ r.document p') :
    p'.key? r'.document.graph = p.key? r.document.graph := by
  unfold key?
  rw [entryText?_grows h hp.entries (by decide), entryText?_grows h hp.entries (by decide)]

/-- A list of parameters is read alike in a document that grows. -/
theorem alongside_readParameters (h : Resolver.Grows ρ added r r') (pointer : String)
    (seen : List (String × String)) (index : Nat) {items : List Value}
    (hitems : ∀ v ∈ items, r.document.Apart v) :
    Alongside (rename ρ) (List.Forall₂ (RawParameter.Same ρ r.document))
      (readParameters r pointer seen index items)
      (readParameters r' pointer seen index (items.map (Value.rename ρ))) := by
  induction items generalizing seen index with
  | nil => exact alongside_pure .nil
  | cons raw rest ih =>
    obtain ⟨hraw, hrest⟩ := List.forall_mem_cons.1 hitems
    rw [List.map_cons, readParameters, readParameters]
    refine (alongside_resolveObject h hraw s!"{pointer}/{index}").attempt.bind fun object object' hsame => ?_
    cases hsame with
    | error e => exact (alongside_record e).bind_eq fun _ => ih seen (index + 1) hrest
    | @ok a b hab =>
      obtain ⟨entries, v, found⟩ := a
      obtain ⟨entries', v', found'⟩ := b
      obtain ⟨hmatches, hfound⟩ := hab
      dsimp only at hmatches hfound
      subst hfound
      have hp : RawParameter.Same ρ r.document ⟨entries, found'⟩ ⟨entries', found'⟩ :=
        ⟨rfl, hmatches⟩
      dsimp only
      rw [hp.key?_eq h.toWidens]
      refine (Step.alongside_ofOutcome (.refl _)).bind_eq fun key => ?_
      split_ifs
      · exact (alongside_record _).bind_eq fun _ => ih seen (index + 1) hrest
      · refine Alongside.bind (ih _ (index + 1) hrest) fun later later' hlater => ?_
        exact alongside_pure (.cons hp hlater)

/-- The parameters of an object are read alike in a document that grows. -/
theorem alongside_declaredParameters (h : Resolver.Grows ρ added r r')
    {entries entries' : List (Scalar × Value)} (hm : Matches ρ r.document entries entries')
    (pointer : String) :
    Alongside (rename ρ) (List.Forall₂ (RawParameter.Same ρ r.document))
      (declaredParameters r entries pointer) (declaredParameters r' entries' pointer) := by
  unfold declaredParameters
  dsimp only
  rw [hm.values _ (by decide), h.document.filter_isTruthy fun v hv => hm.apart_of_valueAt? hv]
  cases hvalue : (valueAt? "parameters" entries).filter r.document.graph.isTruthy with
  | none => exact alongside_pure .nil
  | some value =>
    have hlist := hm.apart_of_valueAt? (Option.filter_eq_some_iff.1 hvalue).1
    dsimp only [Option.map_some]
    rw [h.document.shape_rename hlist]
    cases hshape : r.document.graph.shape value with
    | list id items =>
      exact alongside_readParameters h _ [] 0 (h.document.apart_of_mem_list hlist hshape)
    | _ => exact (alongside_record _).bind_eq fun _ => alongside_pure .nil

/-- Same parameters are merged alike. -/
theorem mergeParameters_grows (h : Resolver.Widens ρ added r r') {ps ps' qs qs' : List RawParameter}
    (hps : List.Forall₂ (RawParameter.Same ρ r.document) ps ps')
    (hqs : List.Forall₂ (RawParameter.Same ρ r.document) qs qs') :
    List.Forall₂ (RawParameter.Same ρ r.document)
      (mergeParameters r.document.graph ps qs) (mergeParameters r'.document.graph ps' qs') := by
  have hown : qs'.map (·.key? r'.document.graph) = qs.map (·.key? r.document.graph) := by
    induction hqs with
    | nil => rfl
    | cons hq _ ih => rw [List.map_cons, List.map_cons, hq.key?_eq h, ih]
  unfold mergeParameters
  dsimp only
  rw [hown]
  refine List.rel_append (List.rel_filter (fun p p' hp => ?_) hps) hqs
  simp only [hp.key?_eq h]

/-- Same parameters have the same names in the path. -/
theorem pathNames?_grows (h : Resolver.Widens ρ added r r') {ps ps' : List RawParameter}
    (hps : List.Forall₂ (RawParameter.Same ρ r.document) ps ps') :
    pathNames? r'.document.graph ps' = pathNames? r.document.graph ps := by
  unfold pathNames?
  induction hps with
  | nil => rfl
  | @cons p p' ps ps' hp _ ih =>
    have hplace : (valueAt? "in" p'.entries = some (.scalar (.text "path"))) ↔
        valueAt? "in" p.entries = some (.scalar (.text "path")) := by
      rw [hp.entries.values _ (by decide)]
      simp only [Option.map_eq_some_iff, Value.rename_eq_scalar, exists_eq_right]
    rw [List.filter_cons, List.filter_cons]
    simp only [hplace]
    split_ifs
    · rw [List.mapM_cons, List.mapM_cons, ih, entryText?_grows h hp.entries (by decide)]
    · exact ih

/-! ## One parameter -/

section Parameter

variable (h : Resolver.Grows ρ added r r') {p p' : RawParameter} (hp : p.Same ρ r.document p')

include h hp

/-- The name of a parameter is read alike in a document that grows. -/
theorem alongside_readName :
    Alongside (rename ρ) Eq (readName r.document.graph p) (readName r'.document.graph p') := by
  unfold readName
  rw [entryText?_grows h.toWidens hp.entries (by decide), hp.entries.values _ (by decide), hp.pointer]
  cases valueAt? "name" p.entries with
  | none => exact alongside_throw _
  | some v =>
    cases v with
    | container id => exact alongside_throw _
    | scalar s =>
      cases s with
      | text name =>
        dsimp only [Option.map_some, Value.rename]
        split_ifs
        · exact alongside_fail _
        · exact alongside_pure rfl
      | _ => exact alongside_throw _

omit h in
theorem alongside_readRequired (name : String) (location : Location) :
    Alongside (rename ρ) Eq (readRequired name location p) (readRequired name location p') := by
  unfold readRequired
  rw [hp.entries.values _ (by decide), hp.pointer]
  cases valueAt? "required" p.entries with
  | none =>
    cases location with
    | path => exact alongside_pure rfl
    | query => exact alongside_pure rfl
  | some v =>
    cases v with
    | container id =>
      cases location with
      | path => exact alongside_fail _
      | query => exact alongside_fail _
    | scalar s =>
      cases location with
      | path =>
        cases s with
        | bool b =>
          cases b with
          | true => exact alongside_pure rfl
          | false => exact alongside_fail _
        | _ => exact alongside_fail _
      | query =>
        cases s with
        | bool b => exact alongside_pure rfl
        | _ => exact alongside_fail _

/-- The style of a parameter is read alike in a document that grows. -/
theorem alongside_readStyle (name : String) (location : Location) :
    Alongside (rename ρ) Eq (readStyle r.document.graph name location p)
      (readStyle r'.document.graph name location p') := by
  unfold readStyle
  rw [hp.entries.values _ (by decide), hp.pointer]
  cases hvalue : valueAt? "style" p.entries with
  | none => exact alongside_pure rfl
  | some value =>
    have happart := hp.entries.apart_of_valueAt? hvalue
    dsimp only [Option.map_some]
    rw [h.document.canBeKey_rename happart, h.document.literal?_rename happart]
    simp only [Value.rename_eq_scalar]
    split_ifs
    · exact alongside_breakOff_bind _
    · cases location.styles.find? fun s => decide (value = .scalar (.text s.name)) with
      | some style => exact alongside_pure rfl
      | none => exact alongside_throw _

omit h in
theorem alongside_readExplode (name : String) (style : Style) :
    Alongside (rename ρ) Eq (readExplode name style p) (readExplode name style p') := by
  unfold readExplode
  rw [hp.entries.keyword? (by decide), hp.pointer]
  cases Resolver.keyword? "explode" p.entries with
  | none => exact alongside_pure rfl
  | some v =>
    cases v with
    | container id => exact alongside_fail _
    | scalar s =>
      cases s with
      | bool b => exact alongside_pure rfl
      | _ => exact alongside_fail _

/-- A parameter is compiled alike in a document that grows. -/
theorem alongside_compileParameter (operation : String) :
    Alongside (rename ρ) Eq (compileParameter r operation p) (compileParameter r' operation p') := by
  unfold compileParameter
  refine (alongside_readName h hp).bind_eq fun name => ?_
  have hplace : (valueAt? "in" p'.entries).getD (.scalar .null) =
      ((valueAt? "in" p.entries).getD (.scalar .null)).rename ρ := by
    rw [hp.entries.values _ (by decide)]
    cases valueAt? "in" p.entries <;> rfl
  have happart : r.document.Apart ((valueAt? "in" p.entries).getD (.scalar .null)) := by
    cases hin : valueAt? "in" p.entries with
    | none => exact .scalar _
    | some place => exact hp.entries.apart_of_valueAt? hin
  rw [hplace]
  generalize (valueAt? "in" p.entries).getD (.scalar .null) = place at happart
  dsimp only
  rw [h.document.canBeMember_rename happart, h.document.literal?_rename happart,
    Value.text?_rename, hp.pointer, hp.entries.values "schema" (by decide)]
  simp only [Value.rename_eq_scalar]
  split_ifs
  · exact alongside_breakOff_bind _
  · cases skippedLocations.find? fun s => decide (place = .scalar (.text s)) with
    | some skipped => exact Alongside.bind_eq (alongside_modify fun _ => rfl) fun _ => alongside_pure rfl
    | none =>
      dsimp only
      cases place.text?.bind Location.ofName? with
      | none => exact alongside_throw _
      | some location =>
        dsimp only
        refine (alongside_readRequired hp name location).bind_eq fun required => ?_
        cases hschema : valueAt? "schema" p.entries with
        | none => exact alongside_fail _
        | some schema =>
          dsimp only [Option.map_some]
          refine (alongside_typeOf h (hp.entries.apart_of_valueAt? hschema) _ _).bind_eq fun type => ?_
          refine alongside_get_bind fun c => ?_
          have hbuilder : (rename ρ c).builder = c.builder := rfl
          rw [hbuilder]
          split_ifs
          · exact alongside_fail_bind _
          · refine (alongside_readStyle h hp name location).bind_eq fun style => ?_
            refine (alongside_readExplode hp name style).bind_eq fun explode => ?_
            rw [optionalText_grows h.toWidens hp.entries (by decide)]
            exact (Step.alongside_ofOutcome (.refl _)).bind_eq fun description => alongside_pure rfl

/-- The outcome of a parameter is the same in a document that grows. -/
theorem alongside_parameterOutcome (operation : String) :
    Alongside (rename ρ) Eq (parameterOutcome r operation p) (parameterOutcome r' operation p') := by
  let remember (outcome : ParameterOutcome) : Compile ParameterOutcome := do
    modify fun s => { s with parameters := s.parameters ++ [(p.pointer, outcome)] }
    return outcome
  have hremember (outcome : ParameterOutcome) :
      Alongside (rename ρ) Eq (remember outcome) (remember outcome) :=
    Alongside.bind_eq (alongside_modify fun _ => rfl) fun _ => alongside_pure rfl
  unfold parameterOutcome
  rw [hp.pointer]
  refine alongside_get_bind fun c => ?_
  have hparameters : (rename ρ c).parameters = c.parameters := rfl
  rw [hparameters]
  cases c.parameters.lookup p.pointer with
  | some outcome => exact alongside_pure rfl
  | none =>
    refine (alongside_compileParameter h hp operation).attempt_eq.bind_eq fun outcome => ?_
    cases outcome with
    | ok o =>
      cases o with
      | none => exact hremember .skipped
      | some q => exact hremember (.bound q)
    | error e => exact (alongside_record e).bind_eq fun _ => hremember .refused

end Parameter

end Compilation

end RouteBinding
