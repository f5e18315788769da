import RouteBinding.Proofs.Growth.Document

/-!
# Reading schemas in a grown document

A mapping that a pointer may lead to reads as the same schema with more paths, unless it is a reference that enters
them: the same title, the same faults, and a layer of the same kind around values that are apart from the paths or led
to (`Resolver.Widens.read_grows`).
-/

namespace RouteBinding

/-- What a mapping says as a schema if containers have other names. -/
def Reading.rename (ρ : Nat → Nat) (reading : Reading) : Reading :=
  ⟨reading.title, reading.layer.map (Value.rename ρ)⟩

/-- A resolver of a tree and one of a document with more paths: the component schemas are the same. -/
structure Resolver.Widens (ρ : Nat → Nat) (added : List (Scalar × Value)) (r r' : Resolver) :
    Prop where
  document : Widening ρ added r.document r'.document
  schemas : r'.schemas = renameEntries ρ r.schemas
  apart : ∀ e ∈ r.schemas, r.document.Apart e.2

/-- A resolver of a document and one of the grown document: the component schemas are the same. -/
structure Resolver.Grows (ρ : Nat → Nat) (added : List (Scalar × Value)) (r r' : Resolver) : Prop
    extends r.Widens ρ added r' where
  growth : Growth ρ added r.document r'.document

open Resolver

namespace Widening

variable {ρ : Nat → Nat} {added : List (Scalar × Value)} {d d' : Document} {v : Value}
  {entries entries' : List (Scalar × Value)} {pointer : String}

/-- What counts as present does so after growth. -/
theorem filter_isTruthy (h : Widening ρ added d d') {x : Option Value} (hx : ∀ v, x = some v → d.Apart v) :
    (x.map (Value.rename ρ)).filter d'.graph.isTruthy =
      (x.filter d.graph.isTruthy).map (Value.rename ρ) := by
  cases x with
  | none => rfl
  | some v =>
    rw [Option.map_some, Option.filter_some, Option.filter_some, h.isTruthy_rename (hx v rfl)]
    split_ifs <;> rfl

/-! ## The component schemas -/

/-- The component schemas are those from before, or they are refused as before. -/
theorem ofDocument_grows (h : Widening ρ added d d') :
    SameOutcome (Resolver.Widens ρ added) (ofDocument d) (ofDocument d') := by
  obtain ⟨top, htop⟩ := h.exists_top
  have htop' : d'.graph.entries? d'.root = some (renameEntries ρ top) := by
    rw [h.entries?_root, htop, Option.map_some]
  have hempty : Resolver.Widens ρ added ⟨d, []⟩ ⟨d', []⟩ :=
    ⟨h, rfl, fun e he => (List.not_mem_nil he).elim⟩
  have hcomponents : ∀ v, valueAt? "components" top = some v → d.Apart v := fun v hv =>
    h.apart_of_top htop (by decide) hv
  unfold ofDocument
  rw [htop, htop']
  dsimp only
  rw [valueAt?_renameEntries, h.filter_isTruthy hcomponents]
  cases hvalue : (valueAt? "components" top).filter d.graph.isTruthy with
  | none => exact .ok hempty
  | some components =>
    have happart := hcomponents _ (Option.filter_eq_some_iff.1 hvalue).1
    dsimp only [Option.map_some]
    rw [h.entries?_rename happart]
    cases hinner : d.graph.entries? components with
    | none => exact .error _
    | some inner =>
      have hschemas : ∀ v, valueAt? "schemas" inner = some v → d.Apart v := fun v hv =>
        h.apart_of_mem (.inl happart) hinner _ (mem_of_valueAt? hv)
      dsimp only [Option.map_some]
      rw [valueAt?_renameEntries, h.filter_isTruthy hschemas]
      cases hfound : (valueAt? "schemas" inner).filter d.graph.isTruthy with
      | none => exact .ok hempty
      | some schemas =>
        have happart' := hschemas _ (Option.filter_eq_some_iff.1 hfound).1
        dsimp only [Option.map_some]
        rw [h.entries?_rename happart']
        cases hentries : d.graph.entries? schemas with
        | none => exact .error _
        | some entries => exact .ok ⟨h, rfl, h.apart_of_mem (.inl happart') hentries⟩

/-! ## Keywords -/

/-- A keyword stands in both of two matching schemas or in neither. -/
theorem Matches.keyword? (hm : Matches ρ d entries entries') {key : String}
    (hkey : key.toList.head? ≠ some '/') :
    keyword? key entries' = (keyword? key entries).map (Value.rename ρ) := by
  unfold Resolver.keyword?
  rw [hm.values key hkey]
  cases valueAt? key entries with
  | none => rfl
  | some v =>
    rw [Option.map_some, Option.filter_some, Option.filter_some]
    simp only [ne_eq, Value.rename_eq_scalar]
    split_ifs <;> rfl

/-- What stands at a keyword is apart from the paths. -/
theorem Matches.apart_of_keyword? (hm : Matches ρ d entries entries') {key : String}
    (hv : Resolver.keyword? key entries = some v) : d.Apart v :=
  hm.apart_of_valueAt? (Option.filter_eq_some_iff.1 hv).1

theorem Matches.isSome_eq (hm : Matches ρ d entries entries') {key : String}
    (hkey : key.toList.head? ≠ some '/') :
    (valueAt? key entries').isSome = (valueAt? key entries).isSome := by
  rw [hm.values key hkey, Option.isSome_map]

/-- A title is read alike in a document that grows. -/
theorem readTitle_grows (h : Widening ρ added d d') (hm : Matches ρ d entries entries') :
    readTitle d'.graph entries' pointer = readTitle d.graph entries pointer := by
  unfold readTitle
  rw [hm.keyword? (by decide)]
  cases hv : Resolver.keyword? "title" entries with
  | none => rfl
  | some v =>
    have hliteral := h.literal?_rename (hm.apart_of_keyword? hv)
    dsimp only [Option.map_some]
    cases v with
    | container id =>
      dsimp only [Value.rename] at hliteral ⊢
      rw [hliteral]
    | scalar s => cases s <;> rfl

theorem refused?_grows (hm : Matches ρ d entries entries') :
    refused? entries' = refused? entries := by
  have hkeyword (c : Construct) :
      (valueAt? c.keyword entries').isSome = (valueAt? c.keyword entries).isSome :=
    hm.isSome_eq (by cases c <;> decide)
  unfold refused?
  simp only [hkeyword]

/-- The declared type is the same, and apart. -/
theorem declaredType_grows (h : Widening ρ added d d') (hm : Matches ρ d entries entries') :
    declaredType d'.graph entries' = (declaredType d.graph entries).map (Value.rename ρ) ∧
      ∀ v, declaredType d.graph entries = some v → d.Apart v := by
  unfold declaredType
  rw [hm.values _ (by decide)]
  cases hv : valueAt? "type" entries with
  | none => exact ⟨rfl, fun v hnone => by cases hnone⟩
  | some v =>
    have happart := hm.apart_of_valueAt? hv
    dsimp only [Option.map_some]
    rw [h.shape_rename happart]
    cases hshape : d.graph.shape v with
    | list id items =>
      refine ⟨?_, fun w hw => ?_⟩
      · dsimp only [Shape.rename]
        rw [List.find?_map]
        have hnull : (fun w : Value => decide (w ≠ .scalar (.text "null"))) ∘ Value.rename ρ =
            fun w : Value => decide (w ≠ .scalar (.text "null")) := by
          funext w
          simp only [Function.comp_apply, ne_eq, Value.rename_eq_scalar]
        rw [hnull]
        cases items.find? fun w => decide (w ≠ .scalar (.text "null")) with
        | none => rfl
        | some w =>
          rw [Option.map_some, Option.filter_some, Option.filter_some]
          simp only [ne_eq, Value.rename_eq_scalar]
          split_ifs <;> rfl
      · have hmem := List.mem_of_find?_eq_some (Option.filter_eq_some_iff.1 hw).1
        exact h.apart_of_mem_list happart hshape w hmem
    | _ =>
      dsimp only [Shape.rename]
      simp only [Value.rename_eq_scalar]
      split_ifs
      · exact ⟨rfl, fun v hnone => by cases hnone⟩
      · exact ⟨rfl, fun w hw => by cases hw; exact happart⟩

/-- A kind is read alike in a document that grows. -/
theorem readKind_grows (h : Widening ρ added d d') (hm : Matches ρ d entries entries') :
    readKind d'.graph entries' pointer = readKind d.graph entries pointer := by
  obtain ⟨htype, happart⟩ := h.declaredType_grows hm
  unfold readKind
  rw [htype]
  cases hv : declaredType d.graph entries with
  | none =>
    dsimp only [Option.map_none]
    rw [hm.isSome_eq (by decide), hm.isSome_eq (by decide)]
  | some v =>
    have hv' := happart v hv
    dsimp only [Option.map_some]
    cases v with
    | container id =>
      have hkey := h.canBeKey_rename hv'
      have hdisplay := h.display?_rename hv'
      dsimp only [Value.rename] at hkey hdisplay ⊢
      rw [hkey, hdisplay]
    | scalar s => cases s <;> rfl

/-- The names of properties are read alike when their values are renamed. -/
theorem readPropertyNames_rename (properties : List (Scalar × Value)) :
    readPropertyNames pointer (renameEntries ρ properties) =
      (readPropertyNames pointer properties).map (List.map fun p => (p.1, p.2.rename ρ)) := by
  induction properties with
  | nil => rfl
  | cons e rest ih =>
    obtain ⟨key, value⟩ := e
    cases key with
    | text name =>
      show (readPropertyNames pointer (renameEntries ρ rest)).map ((name, value.rename ρ) :: ·) = _
      rw [ih, readPropertyNames]
      cases readPropertyNames pointer rest <;> rfl
    | _ => rfl

theorem isOpen_grows (hm : Matches ρ d entries entries') : isOpen entries' = isOpen entries := by
  unfold isOpen
  rw [hm.values _ (by decide)]
  cases valueAt? "additionalProperties" entries with
  | none => rfl
  | some v =>
    cases v with
    | container id => rfl
    | scalar s => cases s <;> rfl

/-- The properties are the same, and apart. -/
theorem readProperties_grows (h : Widening ρ added d d') (hm : Matches ρ d entries entries') :
    SameOutcome (fun a b => b = a.map (fun p => (p.1, p.2.rename ρ)) ∧ ∀ p ∈ a, d.Apart p.2)
      (readProperties d.graph entries pointer) (readProperties d'.graph entries' pointer) := by
  unfold readProperties
  rw [isOpen_grows hm, hm.values _ (by decide),
    h.filter_isTruthy fun v hv => hm.apart_of_valueAt? hv]
  split_ifs
  · exact .error _
  · cases hvalue : (valueAt? "properties" entries).filter d.graph.isTruthy with
    | none => exact .ok ⟨rfl, fun p hp => (List.not_mem_nil hp).elim⟩
    | some value =>
      have happart := hm.apart_of_valueAt? (Option.filter_eq_some_iff.1 hvalue).1
      dsimp only [Option.map_some]
      rw [h.entries?_rename happart]
      cases hproperties : d.graph.entries? value with
      | none => exact .error _
      | some properties =>
        dsimp only [Option.map_some]
        rw [readPropertyNames_rename]
        refine (SameOutcome.of_map _).mono fun a b hok hab => ⟨hab.2, fun p hp => ?_⟩
        have hall := h.apart_of_mem (.inl happart) hproperties
        rw [readPropertyNames_eq_ok hok] at hall
        exact hall _ (List.mem_map_of_mem hp)

theorem readRequired?_grows (h : Widening ρ added d d') (hm : Matches ρ d entries entries') :
    readRequired? d'.graph entries' = readRequired? d.graph entries := by
  have htexts (items : List Value) : textsOf? (items.map (Value.rename ρ)) = textsOf? items := by
    unfold textsOf?
    rw [List.mapM_map]
    congr 1
    funext v
    cases v with
    | container id => rfl
    | scalar s => cases s <;> rfl
  unfold readRequired?
  rw [hm.values _ (by decide), h.filter_isTruthy fun v hv => hm.apart_of_valueAt? hv]
  cases hvalue : (valueAt? "required" entries).filter d.graph.isTruthy with
  | none => rfl
  | some value =>
    have happart := hm.apart_of_valueAt? (Option.filter_eq_some_iff.1 hvalue).1
    dsimp only [Option.map_some]
    rw [h.shape_rename happart]
    cases d.graph.shape value with
    | list id items =>
      dsimp only [Shape.rename]
      rw [htexts]
    | _ => rfl

/-! ## Layers -/

/-- Two layers are the same, around values of which the containers may have other names, and pointers may lead to all
of those. -/
def SameLayer (ρ : Nat → Nat) (d : Document) (l l' : Layer Value) : Prop :=
  l' = l.map (Value.rename ρ) ∧ ∀ v ∈ l.inner, d.Referable v

/-- The structure of a schema is read alike in a document that grows. -/
theorem readStructure_grows (h : Widening ρ added d d') (hm : Matches ρ d entries entries') :
    SameOutcome (SameLayer ρ d) (readStructure d.graph entries pointer)
      (readStructure d'.graph entries' pointer) := by
  unfold readStructure
  rw [refused?_grows hm, hm.values "oneOf" (by decide)]
  cases refused? entries with
  | some construct => exact .error _
  | none =>
    cases hbranches : valueAt? "oneOf" entries with
    | some branches =>
      have happart := hm.apart_of_valueAt? hbranches
      dsimp only [Option.map_some]
      rw [h.shape_rename happart]
      cases hshape : d.graph.shape branches with
      | list id items =>
        cases items with
        | nil => exact .error _
        | cons first rest =>
          exact .ok ⟨rfl, fun v hv => .inl (h.apart_of_mem_list happart hshape v hv)⟩
      | _ => exact .error _
    | none =>
      dsimp only [Option.map_none]
      rw [h.readKind_grows hm, h.readRequired?_grows hm, hm.values "items" (by decide)]
      refine SameOutcome.bind (.refl (readKind d.graph entries pointer)) fun kind kind' hkind => ?_
      subst hkind
      cases kind with
      | object =>
        refine SameOutcome.bind (h.readProperties_grows hm) fun properties properties' hp => ?_
        obtain ⟨rfl, happart⟩ := hp
        refine .ok ⟨rfl, fun v hv => ?_⟩
        obtain ⟨p, hp, rfl⟩ := List.mem_map.1 hv
        exact .inl (happart p hp)
      | array =>
        cases hitems : valueAt? "items" entries with
        | none => exact .error _
        | some items =>
          refine .ok ⟨rfl, fun v hv => ?_⟩
          obtain rfl := List.mem_singleton.1 hv
          exact .inl (hm.apart_of_valueAt? hitems)
      | primitive kind => exact .ok ⟨rfl, fun v hv => (List.not_mem_nil hv).elim⟩

end Widening

/-- The component schemas of a document that grows are those from before, or they are refused as before. -/
theorem Growth.ofDocument_grows {ρ : Nat → Nat} {added : List (Scalar × Value)} {d d' : Document}
    (h : Growth ρ added d d') :
    SameOutcome (Resolver.Grows ρ added) (ofDocument d) (ofDocument d') := by
  have hboth := h.widening.ofDocument_grows
  generalize hr : ofDocument d = found at hboth ⊢
  generalize hr' : ofDocument d' = found' at hboth ⊢
  cases hboth with
  | error halt => exact .error halt
  | ok hwidens =>
    obtain ⟨rfl, -⟩ := ofDocument_eq_ok hr
    obtain ⟨rfl, -⟩ := ofDocument_eq_ok hr'
    exact .ok ⟨hwidens, h⟩

namespace Resolver.Widens

open Widening (Matches SameLayer)

variable {ρ : Nat → Nat} {added : List (Scalar × Value)} {r r' : Resolver} {v : Value}
  {entries entries' : List (Scalar × Value)} {pointer : String}

/-- A document that grows declares the same components. -/
theorem declares_eq (h : Resolver.Widens ρ added r r') (name : String) :
    r'.declares name = r.declares name := by
  unfold declares
  rw [h.schemas, valueAt?_renameEntries, Option.isSome_map]

/-- A reference is read alike in a document that grows, unless it enters what was added. -/
theorem readReference_grows (h : Resolver.Widens ρ added r r') {reference : Value}
    (happart : r.document.Apart reference)
    (hout : ∀ target, reference = .scalar (.text target) → Pointer.componentName? target = none →
      ¬ Pointer.Enters added target) :
    SameOutcome (SameLayer ρ r.document) (r.readReference reference)
      (r'.readReference (reference.rename ρ)) := by
  have hmisreference := h.document.misreference_rename happart
  unfold readReference
  cases reference with
  | container id =>
    dsimp only [Value.rename] at hmisreference ⊢
    rw [hmisreference]
    exact .error _
  | scalar s =>
    cases s with
    | text target =>
      dsimp only [Value.rename]
      cases hname : Pointer.componentName? target with
      | some name =>
        dsimp only
        rw [h.declares_eq]
        split_ifs
        · exact .ok ⟨rfl, fun v hv => (List.not_mem_nil hv).elim⟩
        · exact .error _
      | none =>
        dsimp only
        have hfind := h.document.find_rename (hout target rfl hname)
        generalize r.document.find target = found at hfind
        generalize r'.document.find target = found' at hfind
        cases hfind with
        | ok hvalue =>
          refine .ok ⟨by rw [hvalue.2]; rfl, fun v hv => ?_⟩
          obtain rfl := List.mem_singleton.1 hv
          exact hvalue.1
        | error e => exact .error _
    | _ => exact .error _

/-- A mapping that a pointer may lead to reads as before, if it is no reference that enters what was added. -/
theorem read_grows (h : Resolver.Widens ρ added r r') (hm : Matches ρ r.document entries entries')
    (hout : ∀ target, valueAt? "$ref" entries = some (.scalar (.text target)) →
      Pointer.componentName? target = none → ¬ Pointer.Enters added target) :
    SameOutcome (fun a b => b = a.rename ρ ∧ ∀ v ∈ a.layer.inner, r.document.Referable v)
      (r.read entries pointer) (r'.read entries' pointer) := by
  unfold read
  rw [h.document.readTitle_grows hm, hm.values "$ref" (by decide)]
  refine SameOutcome.bind (.refl (readTitle r.document.graph entries pointer)) fun title title' heq => ?_
  subst heq
  cases href : valueAt? "$ref" entries with
  | some reference =>
    have hreference := h.readReference_grows (hm.apart_of_valueAt? href) fun target heq =>
      hout target (heq ▸ href)
    refine SameOutcome.bind hreference fun layer layer' hlayer => ?_
    obtain ⟨rfl, hinner⟩ := hlayer
    exact .ok ⟨rfl, hinner⟩
  | none =>
    refine SameOutcome.bind (h.document.readStructure_grows hm) fun layer layer' hlayer => ?_
    obtain ⟨rfl, hinner⟩ := hlayer
    exact .ok ⟨rfl, hinner⟩

end Resolver.Widens

end RouteBinding
