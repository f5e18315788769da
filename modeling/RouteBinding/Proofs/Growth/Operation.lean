import RouteBinding.Proofs.Growth.Parameter

/-!
# Compiling operations in a grown document

The compilation of the path items that were there before runs alongside that in the document before, and gives the
same operations (`alongside_compilePathItems`).
-/

namespace RouteBinding.Compilation

open Step (Alongside alongside_pure alongside_fail alongside_breakOff alongside_fail_bind
  alongside_get_bind alongside_modify alongside_ofExcept)
open Widening (Matches)

variable {ρ : Nat → Nat} {added : List (Scalar × Value)} {r r' : Resolver}
  {entries entries' : List (Scalar × Value)}

/-- A mapping under a key is the same mapping with more paths. -/
theorem mapping_grows (h : Widening ρ added r.document r'.document)
    (hm : Matches ρ r.document entries entries') {key : String}
    (hkey : key.toList.head? ≠ some '/') :
    (valueAt? key entries').bind r'.document.graph.entries? =
      ((valueAt? key entries).bind r.document.graph.entries?).map (renameEntries ρ) := by
  rw [hm.values key hkey]
  cases hv : valueAt? key entries with
  | none => rfl
  | some v => exact h.entries?_rename (hm.apart_of_valueAt? hv)

/-- What stands in a mapping under a key is apart. -/
theorem apart_of_mapping (h : Resolver.Grows ρ added r r')
    (hm : Matches ρ r.document entries entries') (key : String) :
    ∀ e ∈ ((valueAt? key entries).bind r.document.graph.entries?).getD [], r.document.Apart e.2 := by
  cases hinner : (valueAt? key entries).bind r.document.graph.entries? with
  | none => exact fun e he => (List.not_mem_nil he).elim
  | some inner =>
    obtain ⟨v, hv, hentries⟩ := Option.bind_eq_some_iff.1 hinner
    exact h.document.apart_of_mem (.inl (hm.apart_of_valueAt? hv)) hentries

/-- Without entries there is nothing to rename. -/
theorem getD_renameEntries (x : Option (List (Scalar × Value))) :
    (x.map (renameEntries ρ)).getD [] = renameEntries ρ (x.getD []) := by
  cases x <;> rfl

/-! ## Request bodies -/

/-- The schema of a media type is the same in a document that grows. -/
theorem schemaOf?_grows (h : Resolver.Grows ρ added r r') {media : Value}
    (hmedia : r.document.Apart media) :
    schemaOf? r'.document.graph (media.rename ρ) =
        (schemaOf? r.document.graph media).map (Value.rename ρ) ∧
      ∀ v, schemaOf? r.document.graph media = some v → r.document.Apart v := by
  unfold schemaOf?
  rw [h.document.entries?_rename hmedia]
  cases hinner : r.document.graph.entries? media with
  | none => exact ⟨rfl, fun v hv => by cases hv⟩
  | some inner =>
    have hmatches := h.document.matches_renameEntries hmedia hinner
    exact ⟨hmatches.keyword? (by decide), fun v hv => hmatches.apart_of_keyword? hv⟩

/-- An entry of a body is compiled alike in a document that grows. -/
theorem alongside_compileBodyEntry (h : Resolver.Grows ρ added r r') {media : Value}
    (hmedia : r.document.Apart media) (operation contentType pointer : String) (several : Bool) :
    Alongside (rename ρ) Eq (compileBodyEntry r operation contentType media pointer several)
      (compileBodyEntry r' operation contentType (media.rename ρ) pointer several) := by
  obtain ⟨hschema, happart⟩ := schemaOf?_grows h hmedia
  unfold compileBodyEntry
  dsimp only
  rw [hschema]
  by_cases hany : MediaType.normalize contentType = MediaType.any
  · rw [if_pos hany, if_pos hany]
    exact alongside_pure rfl
  · rw [if_neg hany, if_neg hany]
    cases hfound : schemaOf? r.document.graph media with
    | none =>
      dsimp only [Option.map_none]
      split_ifs
      · exact alongside_fail _
      · exact alongside_pure rfl
    | some schema =>
      dsimp only [Option.map_some]
      refine (alongside_typeOf h (happart _ hfound) _ _).bind_eq fun type => ?_
      refine alongside_get_bind fun c => ?_
      have hbuilder : (rename ρ c).builder = c.builder := rfl
      rw [hbuilder]
      split_ifs
      · exact alongside_fail_bind _
      · exact alongside_pure rfl

/-- A content is compiled alike in a document that grows. -/
theorem alongside_compileContent (h : Resolver.Grows ρ added r r') (operation pointer : String)
    (several : Bool) (seen : List (String × String)) {content : List (Scalar × Value)}
    (hcontent : ∀ e ∈ content, r.document.Apart e.2) :
    Alongside (rename ρ) Eq (compileContent r operation pointer several seen content)
      (compileContent r' operation pointer several seen (renameEntries ρ content)) := by
  induction content generalizing seen with
  | nil => exact alongside_pure rfl
  | cons e rest ih =>
    obtain ⟨hmedia, hrest⟩ := List.forall_mem_cons.1 hcontent
    obtain ⟨key, media⟩ := e
    cases key with
    | text contentType =>
      show Alongside (rename ρ) Eq _ (compileContent r' operation pointer several seen
        ((.text contentType, media.rename ρ) :: renameEntries ρ rest))
      rw [compileContent, compileContent]
      dsimp only
      cases seen.lookup (MediaType.normalize contentType) with
      | some first => exact (alongside_record _).bind_eq fun _ => ih _ hrest
      | none =>
        have hentry := alongside_compileBodyEntry h hmedia operation contentType
          (pointer ++ "/content/" ++ Pointer.escape contentType) several
        refine hentry.attempt_eq.bind_eq fun outcome => ?_
        cases outcome with
        | ok entry => exact (ih _ hrest).bind_eq fun later => alongside_pure rfl
        | error e => exact (alongside_record e).bind_eq fun _ => ih _ hrest
    | _ => exact alongside_breakOff _

/-- A body is compiled alike in a document that grows. -/
theorem alongside_compileBody (h : Resolver.Grows ρ added r r')
    (hm : Matches ρ r.document entries entries') (operation pointer : String) :
    Alongside (rename ρ) Eq (compileBody r operation entries pointer)
      (compileBody r' operation entries' pointer) := by
  unfold compileBody
  dsimp only
  rw [hm.keyword? (by decide)]
  cases hraw : Resolver.keyword? "requestBody" entries with
  | none => exact alongside_pure rfl
  | some raw =>
    dsimp only [Option.map_some]
    refine (alongside_resolveObject h (hm.apart_of_keyword? hraw) _).attempt.bind fun object object' hsame => ?_
    cases hsame with
    | error e => exact (alongside_record e).bind_eq fun _ => alongside_pure rfl
    | @ok a b hab =>
      obtain ⟨body, v, place⟩ := a
      obtain ⟨body', v', place'⟩ := b
      obtain ⟨hbody, hplace⟩ := hab
      dsimp only at hbody hplace
      subst hplace
      have hcontent := apart_of_mapping h hbody "content"
      have hrequired : (valueAt? "required" body').any r'.document.graph.isTruthy =
          (valueAt? "required" body).any r.document.graph.isTruthy := by
        rw [hbody.values _ (by decide)]
        cases hv : valueAt? "required" body with
        | none => rfl
        | some v => exact h.document.isTruthy_rename (hbody.apart_of_valueAt? hv)
      dsimp only
      rw [mapping_grows h.document hbody (by decide), getD_renameEntries, hrequired]
      generalize ((valueAt? "content" body).bind r.document.graph.entries?).getD [] = content
        at hcontent
      have hempty : (renameEntries ρ content).isEmpty = content.isEmpty := by
        cases content <;> rfl
      have hlength : (renameEntries ρ content).length = content.length := List.length_map _
      rw [hempty, hlength]
      split_ifs
      · exact (alongside_record _).bind_eq fun _ => alongside_pure rfl
      · refine (alongside_compileContent h _ _ _ _ hcontent).bind_eq fun compiled => ?_
        exact alongside_pure rfl

/-! ## Responses -/

/-- The schemas of a content are the same in a document that grows. -/
theorem schemasOf_grows (h : Resolver.Grows ρ added r r') {content : List (Scalar × Value)}
    (hcontent : ∀ e ∈ content, r.document.Apart e.2) :
    schemasOf r'.document.graph (renameEntries ρ content) =
        renameEntries ρ (schemasOf r.document.graph content) ∧
      ∀ e ∈ schemasOf r.document.graph content, r.document.Apart e.2 := by
  induction content with
  | nil => exact ⟨rfl, fun e he => (List.not_mem_nil he).elim⟩
  | cons e rest ih =>
    obtain ⟨contentType, media⟩ := e
    obtain ⟨hmedia, hrest⟩ := List.forall_mem_cons.1 hcontent
    obtain ⟨hlater, happart⟩ := ih hrest
    have hcons (g : Graph) (value : Value) (rest : List (Scalar × Value)) :
        schemasOf g ((contentType, value) :: rest) =
          (((g.entries? value).bind (valueAt? "schema")).map (contentType, ·)).toList ++
            schemasOf g rest := by
      unfold schemasOf
      rw [List.filterMap_cons]
      dsimp only
      cases (g.entries? value).bind (valueAt? "schema") <;> rfl
    show schemasOf r'.document.graph ((contentType, media.rename ρ) :: renameEntries ρ rest) = _ ∧ _
    rw [hcons, hcons, hlater, h.document.entries?_rename hmedia]
    cases hinner : r.document.graph.entries? media with
    | none => exact ⟨rfl, happart⟩
    | some inner =>
      have hmatches := h.document.matches_renameEntries hmedia hinner
      dsimp only [Option.map_some, Option.bind_some]
      rw [valueAt?_renameEntries]
      cases hschema : valueAt? "schema" inner with
      | none => exact ⟨rfl, happart⟩
      | some schema =>
        exact ⟨rfl, List.forall_mem_cons.2 ⟨hmatches.apart_of_valueAt? hschema, happart⟩⟩

/-- Two schemas by which a response may be typed, before and after growth. -/
def SamePick (ρ : Nat → Nat) (d : Document) (a b : Option (String × Value)) : Prop :=
  b = a.map (fun p => (p.1, p.2.rename ρ)) ∧ ∀ p, a = some p → d.Apart p.2

theorem samePick_none {d : Document} : SamePick ρ d none none :=
  ⟨rfl, fun p hp => by cases hp⟩

theorem samePick_some {d : Document} (contentType : String) {schema : Value} (h : d.Apart schema) :
    SamePick ρ d (some (contentType, schema)) (some (contentType, schema.rename ρ)) :=
  ⟨rfl, fun p hp => by cases hp; exact h⟩

/-- The first JSON type is the same in a document that grows. -/
theorem alongside_firstJson? {d : Document} {schemas : List (Scalar × Value)}
    (h : ∀ e ∈ schemas, d.Apart e.2) :
    Alongside (rename ρ) (SamePick ρ d) (firstJson? schemas)
      (firstJson? (renameEntries ρ schemas)) := by
  induction schemas with
  | nil => exact alongside_pure samePick_none
  | cons e rest ih =>
    obtain ⟨key, schema⟩ := e
    obtain ⟨hschema, hrest⟩ := List.forall_mem_cons.1 h
    cases key with
    | text contentType =>
      show Alongside (rename ρ) (SamePick ρ d) _
        (firstJson? ((.text contentType, schema.rename ρ) :: renameEntries ρ rest))
      rw [firstJson?, firstJson?]
      split_ifs
      · exact alongside_pure (samePick_some contentType hschema)
      · exact ih hrest
    | _ => exact alongside_breakOff _

/-- The schema that is picked is the same in a document that grows. -/
theorem alongside_pickSchema (h : Resolver.Grows ρ added r r')
    (hm : Matches ρ r.document entries entries') :
    Alongside (rename ρ) (SamePick ρ r.document) (pickSchema r.document.graph entries)
      (pickSchema r'.document.graph entries') := by
  have hcontent := apart_of_mapping h hm "content"
  unfold pickSchema
  dsimp only
  rw [mapping_grows h.document hm (by decide), getD_renameEntries]
  generalize ((valueAt? "content" entries).bind r.document.graph.entries?).getD [] = content
    at hcontent
  obtain ⟨hschemas, happart⟩ := schemasOf_grows h hcontent
  rw [hschemas]
  generalize schemasOf r.document.graph content = schemas at happart
  refine (alongside_firstJson? happart).bind fun found found' hfound => ?_
  obtain ⟨rfl, hpick⟩ := hfound
  cases found with
  | some p => exact alongside_pure ⟨rfl, hpick⟩
  | none =>
    cases schemas with
    | nil => exact alongside_pure samePick_none
    | cons e rest =>
      obtain ⟨key, schema⟩ := e
      cases key with
      | text contentType =>
        exact alongside_pure (samePick_some contentType (happart _ List.mem_cons_self))
      | _ => exact alongside_pure samePick_none

/-- A response is compiled alike in a document that grows. -/
theorem alongside_compileResponse (h : Resolver.Grows ρ added r r') {raw : Value}
    (hraw : r.document.Apart raw) (operation status pointer : String) :
    Alongside (rename ρ) Eq (compileResponse r operation status raw pointer)
      (compileResponse r' operation status (raw.rename ρ) pointer) := by
  unfold compileResponse
  refine (alongside_resolveObject h hraw _).bind fun a b hab => ?_
  obtain ⟨response, v, place⟩ := a
  obtain ⟨response', v', place'⟩ := b
  obtain ⟨hresponse, hplace⟩ := hab
  dsimp only at hresponse hplace ⊢
  subst hplace
  refine (alongside_pickSchema h hresponse).bind fun picked picked' hpicked => ?_
  obtain ⟨rfl, happart⟩ := hpicked
  cases picked with
  | none => exact alongside_pure rfl
  | some p => exact (alongside_typeOf h (happart p rfl) _ _).bind_eq fun type => alongside_pure rfl

/-- Responses are compiled alike one by one in a document that grows. -/
theorem alongside_compileResponsesFrom (h : Resolver.Grows ρ added r r') (operation pointer : String)
    (done : List (String × TypeRef)) {responses : List (Scalar × Value)}
    (hresponses : ∀ e ∈ responses, r.document.Apart e.2) :
    Alongside (rename ρ) Eq (compileResponsesFrom r operation pointer done responses)
      (compileResponsesFrom r' operation pointer done (renameEntries ρ responses)) := by
  induction responses generalizing done with
  | nil => exact alongside_pure rfl
  | cons e rest ih =>
    obtain ⟨key, raw⟩ := e
    obtain ⟨hraw, hrest⟩ := List.forall_mem_cons.1 hresponses
    show Alongside (rename ρ) Eq _ (compileResponsesFrom r' operation pointer done
      ((key, raw.rename ρ) :: renameEntries ρ rest))
    rw [compileResponsesFrom, compileResponsesFrom]
    refine (Step.alongside_ofOutcome (.refl _)).bind_eq fun status => ?_
    refine (alongside_compileResponse h hraw operation _ pointer).attempt_eq.bind_eq fun outcome => ?_
    cases outcome with
    | ok o =>
      cases o with
      | none => exact ih _ hrest
      | some type => exact ih _ hrest
    | error e => exact (alongside_record e).bind_eq fun _ => ih _ hrest

/-- The responses of an operation are compiled alike in a document that grows. -/
theorem alongside_compileResponses (h : Resolver.Grows ρ added r r')
    (hm : Matches ρ r.document entries entries') (operation pointer : String) :
    Alongside (rename ρ) Eq (compileResponses r operation entries pointer)
      (compileResponses r' operation entries' pointer) := by
  unfold compileResponses
  dsimp only
  rw [mapping_grows h.document hm (by decide), getD_renameEntries]
  exact alongside_compileResponsesFrom h operation pointer [] (apart_of_mapping h hm _)

/-! ## Operations -/

theorem alongside_takeName (name : String) :
    Alongside (rename ρ) Eq (takeName name) (takeName name) := by
  unfold takeName
  exact alongside_get_bind fun c => Step.alongside_set.bind_eq fun _ => alongside_pure rfl

section

variable (h : Resolver.Grows ρ added r r') (path : String) (method : Method) {ofPath ofPath' : List RawParameter}
  (hofPath : List.Forall₂ (RawParameter.Same ρ r.document) ofPath ofPath')
  (hm : Matches ρ r.document entries entries')

include h hofPath hm

/-- An operation with a name is compiled alike in a document that grows. -/
theorem alongside_compileNamed (pointer : String) (operationId summary : Option String) (name : String) :
    Alongside (rename ρ) Eq (compileNamed r path method ofPath entries pointer operationId summary name)
      (compileNamed r' path method ofPath' entries' pointer operationId summary name) := by
  unfold compileNamed
  refine alongside_get_bind fun c => ?_
  have herrors (c : Compilation) : (rename ρ c).errors = c.errors := rfl
  rw [herrors]
  refine (alongside_declaredParameters h hm pointer).bind fun own own' hown => ?_
  have hraw := mergeParameters_grows h.toWidens hofPath hown
  have houtcomes : Alongside (rename ρ) Eq
      ((mergeParameters r.document.graph ofPath own).mapM (parameterOutcome r name))
      ((mergeParameters r'.document.graph ofPath' own').mapM (parameterOutcome r' name)) :=
    Step.alongside_mapM (hraw.imp fun p p' hp => alongside_parameterOutcome h hp name)
  refine houtcomes.bind_eq fun outcomes => ?_
  rw [pathNames?_grows h.toWidens hraw]
  refine (Step.alongside_ofOutcome (.refl _)).bind_eq fun declared => ?_
  have hrecords (es : List CompileError) :
      Alongside (rename ρ) Eq (es.forM record) (es.forM record) :=
    Step.alongside_forM (List.forall₂_same.2 fun e _ => alongside_record e)
  refine (hrecords _).bind_eq fun _ => ?_
  refine (alongside_compileBody h hm name pointer).bind_eq fun body => ?_
  refine (alongside_compileResponses h hm name pointer).bind_eq fun responses => ?_
  refine alongside_get_bind fun c' => ?_
  rw [herrors]
  split_ifs
  · exact alongside_pure rfl
  · cases boundParameters? outcomes with
    | none => exact alongside_pure rfl
    | some parameters => exact alongside_pure rfl

/-- An operation is compiled alike in a document that grows. -/
theorem alongside_compileOperation (pointer : String) :
    Alongside (rename ρ) Eq (compileOperation r path method ofPath entries pointer)
      (compileOperation r' path method ofPath' entries' pointer) := by
  have htexts : operationTexts r'.document.graph entries' pointer =
      operationTexts r.document.graph entries pointer := by
    unfold operationTexts
    rw [optionalText_grows h.toWidens hm (by decide), optionalText_grows h.toWidens hm (by decide)]
  unfold compileOperation
  rw [htexts]
  refine (Step.alongside_ofOutcome (.refl _)).attempt_eq.bind_eq fun texts => ?_
  rcases texts with e | ⟨operationId, summary⟩
  · exact (alongside_record e).bind_eq fun _ => alongside_pure rfl
  · refine (alongside_takeName _).bind_eq fun name => ?_
    exact alongside_compileNamed h path method hofPath hm pointer operationId summary name

/-- The operations of a path are compiled alike in a document that grows. -/
theorem alongside_compileMethods (methods : List Method) :
    Alongside (rename ρ) Eq (compileMethods r path ofPath entries methods)
      (compileMethods r' path ofPath' entries' methods) := by
  induction methods with
  | nil => exact alongside_pure rfl
  | cons method rest ih =>
    rw [compileMethods, compileMethods, mapping_grows h.document hm (by cases method <;> decide)]
    cases hinner : (valueAt? method.name entries).bind r.document.graph.entries? with
    | none => exact ih
    | some inner =>
      obtain ⟨v, hv, hentries⟩ := Option.bind_eq_some_iff.1 hinner
      have hmatches := h.document.matches_renameEntries (hm.apart_of_valueAt? hv) hentries
      refine (alongside_compileOperation h path method hofPath hmatches _).bind_eq fun compiled => ?_
      exact ih.bind_eq fun later => alongside_pure rfl

end

/-- The path items from before give the same operations. -/
theorem alongside_compilePathItems (h : Resolver.Grows ρ added r r') {items : List (Scalar × Value)}
    (hitems : ∀ e ∈ items, r.document.Apart e.2) :
    Alongside (rename ρ) Eq (compilePathItems r items)
      (compilePathItems r' (renameEntries ρ items)) := by
  induction items with
  | nil => exact alongside_pure rfl
  | cons e rest ih =>
    obtain ⟨key, value⟩ := e
    obtain ⟨hvalue, hrest⟩ := List.forall_mem_cons.1 hitems
    cases key with
    | text path =>
      show Alongside (rename ρ) Eq _
        (compilePathItems r' ((.text path, value.rename ρ) :: renameEntries ρ rest))
      rw [compilePathItems, compilePathItems, h.document.entries?_rename hvalue]
      cases hitem : r.document.graph.entries? value with
      | none => exact ih hrest
      | some item =>
        have hmatches := h.document.matches_renameEntries hvalue hitem
        refine (alongside_declaredParameters h hmatches _).bind fun ofPath ofPath' hofPath => ?_
        refine (alongside_compileMethods h path hofPath hmatches _).bind_eq fun operations => ?_
        exact (ih hrest).bind_eq fun later => alongside_pure rfl
    | _ => exact alongside_breakOff _

/-- The component schemas from before give the same types. -/
theorem alongside_compileComponents (h : Resolver.Grows ρ added r r') :
    Alongside (rename ρ) Eq (compileComponents r) (compileComponents r') := by
  unfold compileComponents
  have hcomponents : Alongside (rename ρ) Eq
      (Step.zoom (·.resolved) (fun t s => { s with resolved := t }) r.resolveComponents)
      (Step.zoom (·.resolved) (fun t s => { s with resolved := t }) r'.resolveComponents) :=
    h.alongside_resolveComponents.zoom (fun _ => rfl) fun _ _ => rfl
  refine hcomponents.bind_eq fun components => ?_
  refine alongside_get_bind fun c => ?_
  have hbuilder : (rename ρ c).builder = c.builder := rfl
  rw [hbuilder]
  exact Step.alongside_set.bind_eq fun _ => alongside_pure rfl

end RouteBinding.Compilation
