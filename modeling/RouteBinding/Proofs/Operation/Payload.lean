import RouteBinding.Proofs.Operation.Parameter

/-!
# Compiling bodies and responses

The entries of a request body and the types of responses are right for what the content types say that they
are compiled from, and the entries of a body are checked. Without errors nothing is left out.
-/

namespace RouteBinding.Compilation

open Course (Runs)

variable {r : Resolver} {c : Compilation}

/-! ## Bodies -/

theorem bodySchema?_text (r : Resolver) (contentType : String) (media : Value) :
    bodySchema? r (.text contentType, media) =
      if MediaType.normalize contentType = MediaType.any then none
      else schemaOf? r.document.graph media := by
  simp [bodySchema?, Scalar.text?]

theorem bodyEntryFor_of_type {M : Value → TypeRef → Prop} {contentType : String} {media : Value}
    {type : Option TypeRef} (h : Option.Rel M (bodySchema? r (.text contentType, media)) type) :
    BodyEntryFor r M (.text contentType, media)
      (contentType, ⟨contentType, MediaType.codec contentType, type⟩) where
  key := rfl
  contentType := rfl
  codec := by dsimp only
  type := h

theorem runs_compileBodyEntry (hc : Steady r c) (operation contentType : String) (media : Value)
    (pointer : String) (several : Bool) :
    (steady r).Runs (compileBodyEntry r operation contentType media pointer several) c
      fun entry c' =>
        BodyEntryFor r (Meant r c') (.text contentType, media) (contentType, entry) ∧
          EntryChecked c'.builder.model entry := by
  unfold compileBodyEntry
  dsimp only
  by_cases hany : MediaType.normalize contentType = MediaType.any
  · rw [if_pos hany]
    have hnone : bodySchema? r (.text contentType, media) = none := by
      rw [bodySchema?_text, if_pos hany]
    have hfor : BodyEntryFor r (Meant r c) (.text contentType, media)
        (contentType, ⟨contentType, MediaType.codec contentType, none⟩) :=
      bodyEntryFor_of_type (hnone ▸ .none)
    exact Course.runs_pure hc ⟨hfor, entryChecked_untyped (not_needsSchema_of_any hany)⟩
  · rw [if_neg hany]
    cases hschema : schemaOf? r.document.graph media with
    | none =>
      dsimp only
      split_ifs with hneeds
      · exact Course.runs_fail hc
      · have hnone : bodySchema? r (.text contentType, media) = none := by
          rw [bodySchema?_text, if_neg hany, hschema]
        have hfor : BodyEntryFor r (Meant r c) (.text contentType, media)
            (contentType, ⟨contentType, MediaType.codec contentType, none⟩) :=
          bodyEntryFor_of_type (hnone ▸ .none)
        exact Course.runs_pure hc ⟨hfor, entryChecked_untyped hneeds⟩
    | some schema =>
      dsimp only
      refine Runs.bind (runs_typeOf hc schema _ _) fun type c' hc' _ htype => ?_
      refine Course.runs_get_bind ?_
      split_ifs with hobject
      · exact Course.runs_fail_bind hc'
      · have hsome : bodySchema? r (.text contentType, media) = some schema := by
          rw [bodySchema?_text, if_neg hany, hschema]
        have hfor : BodyEntryFor r (Meant r c') (.text contentType, media)
            (contentType, ⟨contentType, MediaType.codec contentType, some type⟩) :=
          bodyEntryFor_of_type (hsome ▸ .some htype)
        -- the check was passed over unless the codec is that of forms
        have hform (h : MediaType.codec contentType = .form) : c'.builder.model.IsObject type :=
          TypeModel.isObject_iff.1 (by simpa [h] using hobject)
        exact Course.runs_pure hc' ⟨hfor, entryChecked_typed hform⟩

/-- What has been compiled of a content: entries that are checked, no two of them nor one that was seen for one media
type, and without errors one for every entry of the content. -/
structure CompiledContent (r : Resolver) (seen : List (String × String))
    (content : List (Scalar × Value)) (compiled : List (String × BodyEntry)) (c : Compilation) :
    Prop where
  checked : ∀ e ∈ compiled, EntryChecked c.builder.model e.2
  distinct : (compiled.map fun e => MediaType.normalize e.1).Nodup
  fresh : ∀ e ∈ compiled, seen.lookup (MediaType.normalize e.1) = none
  complete : c.errors = [] → List.Forall₂ (BodyEntryFor r (Meant r c)) content compiled

section

variable {seen : List (String × String)} {content : List (Scalar × Value)}
  {compiled : List (String × BodyEntry)} {contentType first mediaType : String} {media : Value}

theorem CompiledContent.nil : CompiledContent r seen [] [] c where
  checked _ he := (List.not_mem_nil he).elim
  distinct := List.nodup_nil
  fresh _ he := (List.not_mem_nil he).elim
  complete _ := .nil

theorem lookup_cons_eq_none :
    ((mediaType, first) :: seen).lookup contentType = none ↔
      contentType ≠ mediaType ∧ seen.lookup contentType = none := by
  by_cases h : contentType = mediaType
  · simp [h]
  · rw [List.lookup_cons, beq_false_of_ne h]
    exact (and_iff_right h).symm

/-- What was compiled with more media types seen is as well compiled with fewer. -/
theorem CompiledContent.unsee (h : CompiledContent r ((mediaType, first) :: seen) content compiled c) :
    CompiledContent r seen content compiled c :=
  ⟨h.checked, h.distinct, fun e he => (lookup_cons_eq_none.1 (h.fresh e he)).2, h.complete⟩

/-- An entry of a content that is passed over leaves an error. -/
theorem CompiledContent.skip {e : Scalar × Value} (h : CompiledContent r seen content compiled c)
    (herror : c.errors ≠ []) : CompiledContent r seen (e :: content) compiled c :=
  ⟨h.checked, h.distinct, h.fresh, fun hnil => absurd hnil herror⟩

/-- One more entry, for a media type that was not seen and that the others were compiled after. -/
theorem CompiledContent.cons {entry : BodyEntry}
    (h : CompiledContent r ((MediaType.normalize contentType, first) :: seen) content compiled c)
    (hseen : seen.lookup (MediaType.normalize contentType) = none)
    (hentry : BodyEntryFor r (Meant r c) (.text contentType, media) (contentType, entry))
    (hchecked : EntryChecked c.builder.model entry) :
    CompiledContent r seen ((.text contentType, media) :: content) ((contentType, entry) :: compiled) c where
  checked := List.forall_mem_cons.2 ⟨hchecked, h.checked⟩
  distinct := by
    refine List.nodup_cons.2 ⟨fun hmem => ?_, h.distinct⟩
    obtain ⟨e, he, heq⟩ := List.mem_map.1 hmem
    exact (lookup_cons_eq_none.1 (h.fresh e he)).1 heq
  fresh := List.forall_mem_cons.2 ⟨hseen, h.unsee.fresh⟩
  complete hnil := .cons hentry (h.complete hnil)

end

theorem runs_compileContent (hc : Steady r c) (operation pointer : String) (several : Bool)
    (seen : List (String × String)) (content : List (Scalar × Value)) :
    (steady r).Runs (compileContent r operation pointer several seen content) c
      fun compiled c' => CompiledContent r seen content compiled c' := by
  -- by induction on the content, for any media types that were seen
  induction content generalizing c seen with
  | nil => exact Course.runs_pure hc .nil
  | cons e rest ih =>
    obtain ⟨key, media⟩ := e
    cases key with
    | text contentType =>
      rw [compileContent]
      dsimp only
      cases hlookup : seen.lookup (MediaType.normalize contentType) with
      | some first =>
        exact runs_record_bind hc _ (fun _ hc' => ih hc' seen) fun _ _ h herror => h.skip herror
      | none =>
        refine Runs.bind (runs_compileBodyEntry hc operation contentType media _ several).attempt
          fun outcome c' hc' _ h => ?_
        cases outcome with
        | error error =>
          -- an entry that is refused is seen by the later ones all the same
          exact runs_record_bind hc' _ (fun _ hc'' => ih hc'' _)
            fun _ _ hrest herror => hrest.unsee.skip herror
        | ok entry =>
          obtain ⟨hentry, hchecked⟩ := h entry rfl
          refine Runs.bind (ih hc' _) fun later c'' hc'' hle hlater => ?_
          have hfor := hentry.mono fun _ _ hm => hm.mono hle
          exact Course.runs_pure hc'' (hlater.cons hlookup hfor (hchecked.mono hle.model))
    | _ => exact Course.runs_breakOff hc

/-- Without errors an operation has a body if it declares one, and the body says what is declared. -/
theorem runs_compileBody (hc : Steady r c) (operation : String) (entries : List (Scalar × Value))
    (pointer : String) :
    (steady r).Runs (compileBody r operation entries pointer) c fun body c' =>
      (∀ b ∈ body, BodyChecked c'.builder.model b) ∧
        (c'.errors = [] →
          Option.Rel (BodyFor r (Meant r c') pointer) (Resolver.keyword? "requestBody" entries) body) := by
  have hrefuse {body : Option Value} {c : Compilation} (hc : Steady r c) (error : CompileError) : (steady r).Runs
      (record error >>= fun _ => pure none : Compile (Option BodyContract)) c
      fun o c' => (∀ b ∈ o, BodyChecked c'.builder.model b) ∧
        (c'.errors = [] → Option.Rel (BodyFor r (Meant r c') pointer) body o) := by
    have hnone (c' : Compilation) (hc' : Steady r c') :
        (steady r).Runs (pure none : Compile (Option BodyContract)) c' fun o _ => o = none :=
      Course.runs_pure hc' rfl
    refine runs_record_bind hc error hnone ?_
    rintro o c' rfl herror
    exact ⟨fun b hb => (Option.not_mem_none b hb).elim, fun hnil => absurd hnil herror⟩
  unfold compileBody
  dsimp only
  cases hbody : Resolver.keyword? "requestBody" entries with
  | none =>
    refine Course.runs_pure hc ⟨fun b hb => (Option.not_mem_none b hb).elim, fun _ => .none⟩
  | some raw =>
    dsimp only
    rw [show pointer ++ "/requestBody" = Pointer.child pointer "requestBody" by
      rw [Pointer.child, String.append_assoc]; rfl]
    refine Runs.bind (Course.runs_ofOutcome hc).attempt fun outcome c' hc' _ hobject => ?_
    cases outcome with
    | error error => exact hrefuse hc' error
    | ok found =>
      obtain ⟨object, v, place⟩ := found
      dsimp only
      split_ifs with hempty
      · exact hrefuse hc' _
      · cases hcontent : (valueAt? "content" object).bind r.document.graph.entries? with
        | none => rw [hcontent] at hempty; exact absurd rfl hempty
        | some content =>
          rw [Option.getD_some]
          refine Runs.bind (runs_compileContent hc' operation place _ [] content)
            fun compiled c'' hc'' _ h => ?_
          refine Course.runs_pure hc'' ⟨fun b hb => ?_, fun hnil => .some ?_⟩
          · obtain rfl := Option.some.inj hb
            refine ⟨h.checked, ?_⟩
            rw [BodyContract.contentTypes, List.map_map]
            exact h.distinct
          · exact ⟨object, v, place, content, (hobject _ rfl).1, hcontent, h.complete hnil, rfl⟩

/-! ## Responses -/

theorem runs_firstJson? (hc : Steady r c) (schemas : List (Scalar × Value)) :
    (steady r).Runs (firstJson? schemas) c fun o _ =>
      o.map (fun e => (Scalar.text e.1, e.2)) =
          schemas.find? (fun e => e.1.text?.map MediaType.codec = some .json) ∧
        (o = none → ∀ e ∈ schemas, ∃ contentType, e.1 = .text contentType) := by
  induction schemas with
  | nil => exact Course.runs_pure hc ⟨rfl, fun _ e he => (by cases he)⟩
  | cons e rest ih =>
    obtain ⟨key, schema⟩ := e
    cases key with
    | text contentType =>
      rw [firstJson?]
      split_ifs with hjson
      · refine Course.runs_pure hc ⟨?_, fun h => (by cases h)⟩
        rw [List.find?_cons_of_pos (by simp [Scalar.text?, hjson])]
        rfl
      · refine ih.mono fun o _ _ _ h => ⟨?_, fun ho e he => ?_⟩
        · rw [List.find?_cons_of_neg (by simp [Scalar.text?, hjson])]
          exact h.1
        · rcases List.mem_cons.1 he with rfl | he
          · exact ⟨contentType, rfl⟩
          · exact h.2 ho e he
    | _ => exact Course.runs_breakOff hc

theorem runs_pickSchema (hc : Steady r c) (g : Graph) (response : List (Scalar × Value)) :
    (steady r).Runs (pickSchema g response) c fun o _ =>
      o.map (fun e => (Scalar.text e.1, e.2)) = typingSchema? g response := by
  unfold pickSchema typingSchema?
  dsimp only
  generalize schemasOf g (((valueAt? "content" response).bind g.entries?).getD []) = schemas
  refine Runs.bind (runs_firstJson? hc schemas) fun o c' hc' _ h => ?_
  cases o with
  | some found =>
    refine Course.runs_pure hc' ?_
    rw [← h.1]
    rfl
  | none =>
    rw [← h.1]
    cases schemas with
    | nil => exact Course.runs_pure hc' rfl
    | cons e rest =>
      obtain ⟨key, schema⟩ := e
      obtain ⟨contentType, hkey⟩ := h.2 rfl _ List.mem_cons_self
      dsimp only at hkey
      subst hkey
      exact Course.runs_pure hc' rfl

theorem runs_compileResponse (hc : Steady r c) (operation pointer : String) {e : Scalar × Value} {status : String}
    (hstatus : e.1.display? = some status) :
    (steady r).Runs (compileResponse r operation status e.2 pointer) c fun type c' =>
      ResponseFor r (Meant r c') pointer e (status, type) := by
  unfold compileResponse
  refine Runs.bind (Course.runs_ofOutcome hc) fun found c₁ hc₁ _ hobject => ?_
  obtain ⟨object, v, place⟩ := found
  have hplace : pointer ++ "/responses/" = Pointer.child pointer "responses" ++ "/" := by
    rw [Pointer.child, String.append_assoc, String.append_assoc]
    rfl
  rw [hplace] at hobject
  dsimp only
  refine Runs.bind (runs_pickSchema hc₁ _ object) fun picked c₂ hc₂ _ hpicked => ?_
  cases picked with
  | none =>
    refine Course.runs_pure hc₂ ⟨hstatus, object, v, place, hobject.1, ?_⟩
    rw [← hpicked]
    exact .none
  | some entry =>
    obtain ⟨contentType, schema⟩ := entry
    dsimp only
    refine Runs.bind (runs_typeOf hc₂ schema _ _) fun type c₃ hc₃ _ htype => ?_
    refine Course.runs_pure hc₃ ⟨hstatus, object, v, place, hobject.1, ?_⟩
    rw [← hpicked]
    exact .some htype

/-- Without errors every response is read, and those that say something are typed. -/
theorem runs_compileResponsesFrom (hc : Steady r c) (operation pointer : String)
    (done : List (String × TypeRef)) (entries : List (Scalar × Value)) :
    (steady r).Runs (compileResponsesFrom r operation pointer done entries) c fun ts c' =>
      c'.errors = [] → ∃ typed, List.Forall₂ (ResponseFor r (Meant r c') pointer) entries typed ∧
        ts = putResponses done typed := by
  induction entries generalizing c done with
  | nil => exact Course.runs_pure hc fun _ => ⟨[], .nil, rfl⟩
  | cons e rest ih =>
    obtain ⟨key, raw⟩ := e
    rw [compileResponsesFrom]
    refine Runs.bind (Course.runs_ofOutcome hc) fun status c₀ hc₀ _ hspelled => ?_
    have hstatus : key.display? = some status := Step.spelled_eq_ok_iff.1 hspelled.1
    refine Runs.bind (runs_compileResponse hc₀ operation pointer (e := (key, raw)) hstatus).attempt
      fun outcome c' hc' _ h => ?_
    -- whether it has a type or not, a response that is read takes its place among the others
    have hnext (type : Option TypeRef) (done' : List (String × TypeRef))
        (htype : ResponseFor r (Meant r c') pointer (key, raw) (status, type))
        (hput : ∀ typed, putResponses done ((status, type) :: typed) = putResponses done' typed) :
        (steady r).Runs (compileResponsesFrom r operation pointer done' rest) c' fun ts c'' =>
          c''.errors = [] → ∃ typed,
            List.Forall₂ (ResponseFor r (Meant r c'') pointer) ((key, raw) :: rest) typed ∧
            ts = putResponses done typed := by
      refine (ih hc' done').mono fun ts c'' _ hle hlater hnil => ?_
      obtain ⟨typed, htyped, hts⟩ := hlater hnil
      refine ⟨(status, type) :: typed, .cons (htype.mono fun _ _ hm => hm.mono hle) htyped, ?_⟩
      rw [hput, hts]
    cases outcome with
    | error error =>
      exact runs_record_bind hc' error (fun _ hc'' => ih hc'' done) fun _ _ _ herror hnil =>
        absurd hnil herror
    | ok type =>
      have htype := h type rfl
      cases type with
      | none => exact hnext none done htype fun typed => by rw [putResponses]
      | some type => exact hnext (some type) _ htype fun typed => by rw [putResponses]

theorem runs_compileResponses (hc : Steady r c) (operation : String)
    (entries : List (Scalar × Value)) (pointer : String) :
    (steady r).Runs (compileResponses r operation entries pointer) c fun ts c' =>
      c'.errors = [] → ∃ typed,
        List.Forall₂ (ResponseFor r (Meant r c') pointer) (responseEntries r entries) typed ∧
        ts = putResponses [] typed :=
  runs_compileResponsesFrom hc operation pointer [] (responseEntries r entries)

end RouteBinding.Compilation
