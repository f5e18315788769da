import RouteBinding.Proofs.Invariant
import RouteBinding.Proofs.Naming.Counter
import RouteBinding.Proofs.Operation.Check
import RouteBinding.Proofs.Operation.Standing

/-!
# What every compilation of operations keeps

The parts of operations that may be refused are attempted, and the error of one that is refused is recorded. So an
invariant is kept all along if it is kept by the few things that change a compilation: an error that is recorded, a
finding, a parameter that is remembered, and a type that is built (`Compilation.Discipline`). Whatever halts, halts with
an error that points into the description and is not about a name, or breaks off with a reason, unless it is a type that
cannot be built. A step that may be refused keeps to a discipline (`MayFail`), and so does the compilation of all
operations, which halts with breakdowns only (`neverFails_compilePaths`).
-/

namespace RouteBinding.Compilation

open Naming (IsName IsNamePart isNamePart_namePart isNamePart_of_all)
open Step (Keeps)

/-- An invariant of compilations, and what is expected of a halt in the state that it leaves behind: any error that
points into the description and is not about a name, any breakdown with a reason, and whatever a type is refused for. An
error that is expected may be recorded. -/
structure Discipline (r : Resolver) where
  inv : Compilation → Prop
  expects : Halt → Compilation → Prop
  error : ∀ {e : CompileError} (c : Compilation), r.document.PointsInto r.Begins e → ¬ e.IsCollision →
    expects (.error e) c
  breakdown : ∀ {b : Breakdown} (c : Compilation), r.document.graph.Breaks b → expects (.breakdown b) c
  record : ∀ (e : CompileError) (c : Compilation), inv c → expects (.error e) c →
    inv { c with errors := c.errors ++ [e] }
  notice : ∀ (d : Diagnostic) (c : Compilation), d.level = .info → inv c →
    inv { c with diagnostics := c.diagnostics ++ [d] }
  remember : ∀ (p : String × ParameterOutcome) (c : Compilation), inv c →
    inv { c with parameters := c.parameters ++ [p] }
  typeOf : ∀ {raw : Value} {pointer context : String}, r.StandsAt pointer raw → IsName context →
    Keeps inv (Compilation.typeOf r raw pointer context) (fun _ => True) expects

namespace Discipline

variable {r : Resolver} (D : Discipline r) {pointer operation : String} {v : Value}
  {entries : List (Scalar × Value)}

/-- A step that may be refused: it keeps the invariant, and halts as is expected. -/
def MayFail {α : Type} (step : Compile α) (good : α → Prop) : Prop :=
  Keeps D.inv step good D.expects

/-- A step that records the errors that come up, and halts with nothing but a breakdown that is expected. -/
def NeverFails {α : Type} (step : Compile α) (good : α → Prop) : Prop :=
  Keeps D.inv step good fun h c => h.BreaksFor fun b => D.expects (.breakdown b) c

/-- An error that shows one pointer is expected where something stands there. -/
theorem expects_of_pointers {e : CompileError} (h : e.pointers = [pointer]) (hv : r.StandsAt pointer v)
    (he : ¬ e.IsCollision) (c : Compilation) : D.expects (.error e) c :=
  D.error c (Document.pointsInto_of_pointers h hv) he

/-- To record an error that is expected does not fail. -/
theorem neverFails_record {e : CompileError} (he : ∀ c, D.expects (.error e) c) :
    D.NeverFails (Compilation.record e) fun _ => True :=
  Step.keeps_modify fun c hc => D.record e c hc (he c)

/-- A step is attempted, and an error that it halts with is recorded. -/
theorem neverFails_attempt {α β : Type} {step : Compile α} {next : Except CompileError α → Compile β}
    {later : Compile β} {good : α → Prop} {goodb : β → Prop} (h : D.MayFail step good)
    (hok : ∀ a, good a → D.NeverFails (next (.ok a)) goodb)
    (herror : ∀ e, next (.error e) = (Compilation.record e >>= fun _ => later))
    (hlater : D.NeverFails later goodb) : D.NeverFails (Step.attempt step >>= next) goodb :=
  Keeps.attempt_record h (fun _ _ hb => hb) hok herror D.record hlater

/-! ## Values that are looked at -/

/-- References lead to an object at its pointer. -/
theorem mayFail_resolveObject (hv : r.StandsAt pointer v) :
    D.MayFail (Step.ofOutcome (r.resolveObject v pointer)) fun found => r.ObjectAt found.2.2 found.1 := by
  refine Step.keeps_ofOutcome (fun _ ha => Resolver.objectAt_of_resolveObject hv ha) fun halt he c => ?_
  cases halt with
  | error e =>
    exact D.error c (Resolver.pointsInto_of_resolveObject he) (Resolver.not_isCollision_of_resolveObject he)
  | breakdown b => exact D.breakdown c (Resolver.breaks_of_resolveObject he)

/-- What is wrong with a text of an object is an error that is expected there. -/
theorem expects_of_optionalText {key : String} {halt : Halt} (h : r.ObjectAt pointer entries)
    (he : optionalText r.document.graph entries key pointer = .error halt) (c : Compilation) :
    D.expects halt c := by
  obtain ⟨v, hv, hentries⟩ := h
  unfold optionalText at he
  split at he
  · cases he
  · cases he
  · rename_i hvalue
    cases he
    exact Step.showing_intro (P := fun h => D.expects h c)
      (fun text => D.expects_of_pointers rfl hv id c) fun hnone =>
        D.breakdown c (Graph.breaks_of_literal? hentries (Option.filter_eq_some_iff.1 hvalue).1 hnone)

/-- The texts of an operation can only fail as expected. -/
theorem mayFail_operationTexts (h : r.ObjectAt pointer entries) :
    D.MayFail (Step.ofOutcome (operationTexts r.document.graph entries pointer)) fun _ => True := by
  refine Step.keeps_ofOutcome (fun _ _ => trivial) fun halt he => ?_
  rcases bind_eq_error.1 he with he | ⟨operationId, -, he⟩
  · exact D.expects_of_optionalText h he
  · rcases bind_eq_error.1 he with he | ⟨summary, -, he⟩
    · exact D.expects_of_optionalText h he
    · cases he

/-- A text that cannot be written is a number that is too long. -/
theorem breaks_of_entryText? {key absent : String} (h : r.ObjectAt pointer entries)
    (hnone : entryText? r.document.graph key absent entries = none) :
    r.document.graph.Breaks .numberTooLong := by
  obtain ⟨v, -, hentries⟩ := h
  unfold entryText? at hnone
  split at hnone
  · rename_i hvalue
    exact Graph.breaks_of_display? hentries hvalue hnone
  · cases hnone

/-- A parameter whose key cannot be written has a number that is too long. -/
theorem breaks_of_key? {p : RawParameter} (h : r.ObjectAt p.pointer p.entries)
    (hnone : p.key? r.document.graph = none) : r.document.graph.Breaks .numberTooLong := by
  unfold RawParameter.key? at hnone
  cases hname : entryText? r.document.graph "name" "" p.entries with
  | none => exact breaks_of_entryText? h hname
  | some name =>
    cases hplace : entryText? r.document.graph "in" "" p.entries with
    | none => exact breaks_of_entryText? h hplace
    | some place =>
      rw [hname, hplace] at hnone
      cases hnone

/-! ## Parameters -/

/-- Parameter objects are read from where they stand. -/
theorem neverFails_readParameters {seen : List (String × String)} {index : Nat} {items : List Value}
    (h : ∀ k raw, items[k]? = some raw → r.StandsAt (Pointer.child pointer (toString (index + k))) raw) :
    D.NeverFails (readParameters r pointer seen index items) fun ps =>
      ∀ p ∈ ps, r.ObjectAt p.pointer p.entries := by
  induction items generalizing seen index with
  | nil => exact Step.keeps_pure fun p hp => absurd hp List.not_mem_nil
  | cons raw rest ih =>
    have hrest : ∀ k raw, rest[k]? = some raw →
        r.StandsAt (Pointer.child pointer (toString (index + 1 + k))) raw := by
      intro k raw' hk
      rw [Nat.add_assoc, Nat.add_comm 1 k]
      exact h (k + 1) raw' hk
    have hraw : r.StandsAt s!"{pointer}/{index}" raw := h 0 raw rfl
    rw [readParameters]
    refine D.neverFails_attempt (D.mayFail_resolveObject hraw) (fun found hp => ?_) (fun e => rfl) (ih hrest)
    obtain ⟨entries, w, place⟩ := found
    refine Keeps.bind (Step.keeps_spelled (fun _ _ => trivial) fun hnone c => ?_) fun key (_ : True) => ?_
    · exact D.breakdown c (breaks_of_key? hp hnone)
    · split_ifs
      · obtain ⟨w, hw, -⟩ := hp
        exact (D.neverFails_record (D.expects_of_pointers rfl hw id)).bind fun _ _ => ih hrest
      · refine Keeps.bind (ih hrest) fun later hlater => Step.keeps_pure ?_
        exact List.forall_mem_cons.2 ⟨hp, hlater⟩

/-- The parameters of an object are read without failing, and each stands at its place. -/
theorem neverFails_declaredParameters (h : r.ObjectAt pointer entries) :
    D.NeverFails (declaredParameters r entries pointer) fun ps =>
      ∀ p ∈ ps, r.ObjectAt p.pointer p.entries := by
  have hnone : ∀ p ∈ ([] : List RawParameter), r.ObjectAt p.pointer p.entries :=
    fun p hp => absurd hp List.not_mem_nil
  unfold declaredParameters
  dsimp only
  split
  · exact Step.keeps_pure hnone
  · rename_i value hvalue
    have hlist := h.keyword (Option.filter_eq_some_iff.1 hvalue).1 (by decide)
    split
    · rename_i id items hshape
      refine D.neverFails_readParameters fun k raw hk => ?_
      rw [Nat.zero_add]
      exact hlist.item hshape hk
    · refine (D.neverFails_record (D.expects_of_pointers rfl hlist id)).bind fun _ _ => ?_
      exact Step.keeps_pure hnone

section Parameter

variable {p : RawParameter} (hp : r.ObjectAt p.pointer p.entries)

include hp

/-- What is wrong with a parameter is expected at its place. -/
theorem expects_invalidParameter (name : String) (fault : ParameterFault) (c : Compilation) :
    D.expects (.error (.invalidParameter name p.pointer fault)) c := by
  obtain ⟨v, hv, -⟩ := hp
  exact D.expects_of_pointers rfl hv id c

/-- The name of a parameter can only fail as expected. -/
theorem mayFail_readName : D.MayFail (readName r.document.graph p) fun _ => True := by
  unfold readName
  split
  · split_ifs
    · exact Step.keeps_fail (D.expects_invalidParameter hp _ _)
    · exact Step.keeps_pure trivial
  · exact Step.keeps_failShowing (fun _ => D.expects_invalidParameter hp _ _) fun hnone c =>
      D.breakdown c (breaks_of_entryText? hp hnone)

/-- Whether a parameter is required can only fail as expected. -/
theorem mayFail_readRequired (name : String) (location : Location) :
    D.MayFail (readRequired name location p) fun _ => True := by
  unfold readRequired
  split
  · exact Step.keeps_pure trivial
  · exact Step.keeps_pure trivial
  · exact Step.keeps_fail (D.expects_invalidParameter hp _ _)
  · exact Step.keeps_pure trivial
  · exact Step.keeps_pure trivial
  · exact Step.keeps_fail (D.expects_invalidParameter hp _ _)

/-- The style of a parameter can only fail as expected. -/
theorem mayFail_readStyle (name : String) (location : Location) :
    D.MayFail (readStyle r.document.graph name location p) fun _ => True := by
  unfold readStyle
  cases hvalue : valueAt? "style" p.entries with
  | none => exact Step.keeps_pure trivial
  | some value =>
    have hentries := hp
    obtain ⟨v, -, hv⟩ := hentries
    dsimp only
    split_ifs with hkey
    · exact Step.keeps_breakOff_bind fun c => D.breakdown c (.place hv (by decide) hvalue (by simpa using hkey))
    · split
      · exact Step.keeps_pure trivial
      · exact Step.keeps_failShowing (fun _ => D.expects_invalidParameter hp _ _) fun hnone c =>
          D.breakdown c (Graph.breaks_of_literal? hv hvalue hnone)

theorem mayFail_readExplode (name : String) (style : Style) :
    D.MayFail (readExplode name style p) fun _ => True := by
  unfold readExplode
  split
  · exact Step.keeps_pure trivial
  · exact Step.keeps_pure trivial
  · exact Step.keeps_fail (D.expects_invalidParameter hp _ _)

variable (hoperation : IsName operation)

include hoperation

/-- A parameter is refused for something that is wrong with its object, or with its schema. -/
theorem mayFail_compileParameter : D.MayFail (compileParameter r operation p) fun _ => True := by
  unfold compileParameter
  refine (D.mayFail_readName hp).bind fun name _ => ?_
  have hentries := hp
  obtain ⟨v, -, hv⟩ := hentries
  dsimp only
  split_ifs with hplace
  · -- an absent location can be looked for, so that there is one
    refine Step.keeps_breakOff_bind fun c => D.breakdown c ?_
    cases hin : valueAt? "in" p.entries with
    | none =>
      rw [hin] at hplace
      simp [Graph.canBeMember, Graph.canBeKey, Graph.canBeKeyWithin, Graph.shape] at hplace
    | some place =>
      rw [hin, Option.getD_some] at hplace
      refine .place hv (by decide) hin ?_
      unfold Graph.canBeMember at hplace
      split at hplace
      · simp at hplace
      · simpa using hplace
  · split
    · refine (Step.keeps_modify fun c hc => ?_).bind fun _ _ => Step.keeps_pure trivial
      exact D.notice _ c rfl hc
    · split
      · rename_i location hlocation
        refine (D.mayFail_readRequired hp name location).bind fun required _ => ?_
        split
        · rename_i schema hschema
          have hcontext : IsName (operation ++ Naming.namePart name ++ "Param") :=
            (hoperation.append (isNamePart_namePart name)).append (isNamePart_of_all (by decide) (by decide))
          refine Keeps.bind (D.typeOf (hp.keyword hschema (by decide)) hcontext) fun type _ => ?_
          refine Step.keeps_get_bind fun c hc => ?_
          split_ifs
          · exact Step.keeps_fail_bind (D.expects_invalidParameter hp _ _)
          · refine (D.mayFail_readStyle hp name location).bind fun style _ => ?_
            refine (D.mayFail_readExplode hp name style).bind fun explode _ => ?_
            refine Keeps.bind (Step.keeps_ofOutcome (fun _ _ => trivial) fun halt he => ?_)
              fun description (_ : True) => Step.keeps_pure trivial
            exact D.expects_of_optionalText hp he
        · exact Step.keeps_fail (D.expects_invalidParameter hp _ _)
      · refine Step.keeps_failShowing (fun _ => D.expects_invalidParameter hp _ _) fun hnone c => D.breakdown c ?_
        cases hin : valueAt? "in" p.entries with
        | none =>
          rw [hin] at hnone
          cases hnone
        | some place =>
          rw [hin] at hnone
          exact Graph.breaks_of_literal? hv hin hnone

/-- The outcome of a parameter is a value, so that it cannot fail. -/
theorem neverFails_parameterOutcome : D.NeverFails (parameterOutcome r operation p) fun _ => True := by
  have hremember (outcome : ParameterOutcome) : D.NeverFails (do
      modify fun s => { s with parameters := s.parameters ++ [(p.pointer, outcome)] }
      return outcome) fun _ => True :=
    (Step.keeps_modify fun c hc => D.remember _ c hc).bind fun _ _ => Step.keeps_pure trivial
  unfold parameterOutcome
  refine Step.keeps_get_bind fun c hc => ?_
  cases c.parameters.lookup p.pointer with
  | some outcome => exact Step.keeps_pure trivial
  | none =>
    refine D.neverFails_attempt (D.mayFail_compileParameter hp hoperation) (fun o _ => ?_) (fun e => rfl)
      (hremember .refused)
    cases o with
    | none => exact hremember .skipped
    | some q => exact hremember (.bound q)

end Parameter

/-! ## Request bodies -/

/-- The content of an object: the mapping under its keyword. -/
def HasContent (r : Resolver) (object content : List (Scalar × Value)) : Prop :=
  ∃ mapping, valueAt? "content" object = some mapping ∧
    r.document.graph.entries? mapping = some content

/-- A media type of a content stands at its place in the document. -/
theorem HasContent.media_at {object content : List (Scalar × Value)} {place contentType : String}
    {media : Value} (h : HasContent r object content) (hobject : r.ObjectAt place object)
    (hmedia : (.text contentType, media) ∈ content) :
    r.StandsAt (place ++ "/content/" ++ Pointer.escape contentType) media := by
  obtain ⟨mapping, hmapping, hcontent⟩ := h
  obtain ⟨v, hv, hobject⟩ := hobject
  have hstands := hv.keyword_entry hobject hmapping (by decide) hcontent hmedia
  exact hstands

/-- A key of a content that is no text breaks the run off with a reason. -/
theorem HasContent.breaks {object content : List (Scalar × Value)} {key : Scalar} {media : Value}
    (h : HasContent r object content) (hmem : (key, media) ∈ content) (hkey : key.text? = none) :
    r.document.graph.Breaks .keyNotText := by
  obtain ⟨mapping, -, hcontent⟩ := h
  exact .key hcontent hmem hkey

/-- The content of an object, where one that is no mapping counts as empty. -/
theorem hasContent_of_mem {object : List (Scalar × Value)} {e : Scalar × Value}
    (h : e ∈ ((valueAt? "content" object).bind r.document.graph.entries?).getD []) :
    HasContent r object (((valueAt? "content" object).bind r.document.graph.entries?).getD []) := by
  cases hcontent : (valueAt? "content" object).bind r.document.graph.entries? with
  | none =>
    rw [hcontent] at h
    exact absurd h List.not_mem_nil
  | some content => exact Option.bind_eq_some_iff.1 hcontent

section Parts

variable (hoperation : IsName operation)

include hoperation

/-- An entry of a body can only fail as expected. -/
theorem mayFail_compileBodyEntry {media : Value} (hmedia : r.StandsAt pointer media)
    (contentType : String) (several : Bool) :
    D.MayFail (compileBodyEntry r operation contentType media pointer several) fun _ => True := by
  unfold compileBodyEntry
  dsimp only
  split
  · exact Step.keeps_pure trivial
  · cases hschema : schemaOf? r.document.graph media with
    | none =>
      dsimp only
      split_ifs
      · exact Step.keeps_fail (D.expects_of_pointers rfl hmedia id)
      · exact Step.keeps_pure trivial
    | some schema =>
      obtain ⟨found, hfound, hkeyword⟩ := Option.bind_eq_some_iff.1 hschema
      have hstands := hmedia.keyword hfound (Option.filter_eq_some_iff.1 hkeyword).1 (by decide)
      have hpart : IsNamePart (if several then Naming.namePart (MediaType.codec contentType).name else "").toList := by
        split_ifs
        · exact isNamePart_namePart _
        · exact Naming.isNamePart_nil
      have hbody : IsNamePart "Body".toList := isNamePart_of_all (by decide) (by decide)
      refine Keeps.bind (D.typeOf hstands ((hoperation.append hpart).append hbody)) fun type _ => ?_
      refine Step.keeps_get_bind fun c hc => ?_
      split_ifs
      · exact Step.keeps_fail_bind (D.expects_of_pointers rfl hmedia id)
      · exact Step.keeps_pure trivial

/-- The errors of a content are recorded, so that it does not fail. -/
theorem neverFails_compileContent {object content : List (Scalar × Value)}
    (hobject : r.ObjectAt pointer object) (hcontent : HasContent r object content) (several : Bool)
    (seen : List (String × String)) {left : List (Scalar × Value)} (hleft : left ⊆ content) :
    D.NeverFails (compileContent r operation pointer several seen left) fun _ => True := by
  -- by induction on the entries that are left, for any media types that were seen
  induction left generalizing seen with
  | nil => exact Step.keeps_pure trivial
  | cons e rest ih =>
    obtain ⟨hmem, hrest⟩ := List.cons_subset.1 hleft
    obtain ⟨key, media⟩ := e
    cases key with
    | text contentType =>
      have hmedia := hcontent.media_at hobject hmem
      rw [compileContent]
      dsimp only
      split
      · refine (D.neverFails_record (D.expects_of_pointers rfl hmedia id)).bind fun _ _ => ?_
        exact ih _ hrest
      · refine D.neverFails_attempt (D.mayFail_compileBodyEntry hoperation hmedia contentType several)
          (fun entry _ => ?_) (fun e => rfl) (ih _ hrest)
        exact Keeps.bind (ih _ hrest) fun later _ => Step.keeps_pure trivial
    | _ => exact Step.keeps_breakOff fun c => D.breakdown c (hcontent.breaks hmem rfl)

/-- The errors of a body are recorded, so that it does not fail. -/
theorem neverFails_compileBody (h : r.ObjectAt pointer entries) :
    D.NeverFails (compileBody r operation entries pointer) fun _ => True := by
  unfold compileBody
  dsimp only
  split
  · rename_i raw hraw
    have hstands := h.keyword (Option.filter_eq_some_iff.1 hraw).1 (by decide)
    refine D.neverFails_attempt (D.mayFail_resolveObject hstands) (fun found hbody => ?_) (fun e => rfl)
      (Step.keeps_pure trivial)
    obtain ⟨body, v, place⟩ := found
    dsimp only
    split_ifs with hempty
    · obtain ⟨w, hw, -⟩ := hbody
      exact (D.neverFails_record (D.expects_of_pointers rfl hw id)).bind fun _ _ => Step.keeps_pure trivial
    · have hne : ((valueAt? "content" body).bind r.document.graph.entries?).getD [] ≠ [] :=
        fun hnil => hempty (by rw [hnil]; rfl)
      obtain ⟨e, he⟩ := List.exists_mem_of_ne_nil _ hne
      refine Keeps.bind (D.neverFails_compileContent hoperation hbody (hasContent_of_mem he) _ []
        (List.Subset.refl _)) fun compiled _ => Step.keeps_pure trivial
  · exact Step.keeps_pure trivial

/-! ## Responses -/

omit hoperation in
/-- What types a response stands in its content. -/
theorem mem_content_of_mem_schemasOf {g : Graph} {content : List (Scalar × Value)} {key : Scalar}
    {schema : Value} (h : (key, schema) ∈ schemasOf g content) :
    ∃ media entries, (key, media) ∈ content ∧ g.entries? media = some entries ∧
      valueAt? "schema" entries = some schema := by
  obtain ⟨⟨key', media⟩, hmem, hschema⟩ := List.mem_filterMap.1 h
  obtain ⟨found, hfound, heq⟩ := Option.map_eq_some_iff.1 hschema
  cases heq
  obtain ⟨entries, hentries, hvalue⟩ := Option.bind_eq_some_iff.1 hfound
  exact ⟨media, entries, hmem, hentries, hvalue⟩

omit hoperation in
/-- The search for a JSON type can only stop at a key that is no text. -/
theorem mayFail_firstJson? {schemas : List (Scalar × Value)}
    (h : ∀ e ∈ schemas, e.1.text? = none → r.document.graph.Breaks .keyNotText) :
    D.MayFail (firstJson? schemas) fun o => ∀ e ∈ o, (.text e.1, e.2) ∈ schemas := by
  induction schemas with
  | nil => exact Step.keeps_pure fun e he => absurd he (Option.not_mem_none e)
  | cons e rest ih =>
    obtain ⟨key, schema⟩ := e
    cases key with
    | text contentType =>
      rw [firstJson?]
      split_ifs
      · refine Step.keeps_pure fun e he => ?_
        rw [← Option.some.inj he]
        exact List.mem_cons_self
      · refine Step.Keeps.imp (ih fun e he => h e (List.mem_cons_of_mem _ he)) fun o ho e he => ?_
        exact List.mem_cons_of_mem _ (ho e he)
    | _ => exact Step.keeps_breakOff fun c => D.breakdown c (h _ List.mem_cons_self rfl)

omit hoperation in
/-- The schema that is picked stands in the content of the object. -/
theorem mayFail_pickSchema {object : List (Scalar × Value)} :
    D.MayFail (pickSchema r.document.graph object) fun o => ∀ e ∈ o,
      ∃ content media entries, HasContent r object content ∧ (.text e.1, media) ∈ content ∧
        r.document.graph.entries? media = some entries ∧ valueAt? "schema" entries = some e.2 := by
  have hmem {key : Scalar} {schema : Value} (h : (key, schema) ∈ schemasOf r.document.graph
      (((valueAt? "content" object).bind r.document.graph.entries?).getD [])) :
      ∃ content media entries, HasContent r object content ∧ (key, media) ∈ content ∧
        r.document.graph.entries? media = some entries ∧
          valueAt? "schema" entries = some schema := by
    obtain ⟨media, entries, hmedia, hentries, hschema⟩ := mem_content_of_mem_schemasOf h
    exact ⟨_, media, entries, hasContent_of_mem hmedia, hmedia, hentries, hschema⟩
  unfold pickSchema
  dsimp only
  refine (D.mayFail_firstJson? fun e he hkey => ?_).bind fun o ho => ?_
  · obtain ⟨content, media, entries, hcontent, hmedia, -⟩ := hmem he
    exact hcontent.breaks hmedia hkey
  · split
    · rename_i found
      exact Step.keeps_pure fun e he => hmem (ho e he)
    · split
      · rename_i contentType schema rest hschemas
        refine Step.keeps_pure fun e he => ?_
        rw [← Option.some.inj he]
        exact hmem (hschemas ▸ List.mem_cons_self)
      · exact Step.keeps_pure fun e he => absurd he (Option.not_mem_none e)

/-- A response can only fail as expected. -/
theorem mayFail_compileResponse {raw : Value} {status : String}
    (h : r.StandsAt (pointer ++ "/responses/" ++ Pointer.escape status) raw) :
    D.MayFail (compileResponse r operation status raw pointer) fun _ => True := by
  have hcontext : IsName (operation ++ "Response" ++ Naming.namePart status) :=
    (hoperation.append (isNamePart_of_all (by decide) (by decide))).append (isNamePart_namePart status)
  unfold compileResponse
  refine (D.mayFail_resolveObject h).bind fun found hfound => ?_
  refine Keeps.bind D.mayFail_pickSchema fun picked hpicked => ?_
  cases picked with
  | none => exact Step.keeps_pure trivial
  | some entry =>
    obtain ⟨content, media, entries, hcontent, hmedia, hentries, hschema⟩ := hpicked entry rfl
    have hstands := (hcontent.media_at hfound hmedia).keyword hentries hschema (by decide)
    exact Keeps.bind (D.typeOf hstands hcontext) fun type _ => Step.keeps_pure trivial

/-- Responses are known by their statuses as they are shown; one that has no text breaks the run off. -/
theorem neverFails_compileResponsesFrom (done : List (String × TypeRef)) {responses : List (Scalar × Value)}
    (h : ∀ e ∈ responses, ∀ shown, e.1.display? = some shown →
      r.StandsAt (pointer ++ "/responses/" ++ Pointer.escape shown) e.2)
    (hnone : ∀ e ∈ responses, e.1.display? = none → r.document.graph.Breaks .numberTooLong) :
    D.NeverFails (compileResponsesFrom r operation pointer done responses) fun _ => True := by
  induction responses generalizing done with
  | nil => exact Step.keeps_pure trivial
  | cons e rest ih =>
    obtain ⟨hfirst, hrest⟩ := List.forall_mem_cons.1 h
    obtain ⟨hbreaks, hnone'⟩ := List.forall_mem_cons.1 hnone
    rw [compileResponsesFrom]
    refine Keeps.bind (Step.keeps_spelled (fun _ hshown => hshown) fun hnone c => D.breakdown c (hbreaks hnone))
      fun status hstatus => ?_
    refine D.neverFails_attempt (D.mayFail_compileResponse hoperation (hfirst status hstatus)) (fun o _ => ?_)
      (fun e => rfl) (ih _ hrest hnone')
    cases o with
    | none => exact ih _ hrest hnone'
    | some type => exact ih _ hrest hnone'

/-- The errors of the responses are recorded, so that they do not fail. -/
theorem neverFails_compileResponses (h : r.Holder pointer entries) :
    D.NeverFails (compileResponses r operation entries pointer) fun _ => True := by
  unfold compileResponses
  dsimp only
  cases hresponses : (valueAt? "responses" entries).bind r.document.graph.entries? with
  | none => exact Step.keeps_pure trivial
  | some responses =>
    obtain ⟨mapping, hmapping, hentries⟩ := Option.bind_eq_some_iff.1 hresponses
    refine D.neverFails_compileResponsesFrom hoperation [] (fun e he shown hshown => ?_) fun e he hnone => ?_
    · exact .base (.response h hmapping hentries he hshown)
    · exact .entry hentries he (.inl (Scalar.display?_eq_none_iff.1 hnone))

/-! ## Operations -/

/-- The parts of an operation that has got a name make the operation of that name. -/
theorem neverFails_compileNamed (h : r.Holder pointer entries) {path : String} {method : Method}
    {ofPath : List RawParameter} (hofPath : ∀ p ∈ ofPath, r.ObjectAt p.pointer p.entries)
    (operationId summary : Option String) :
    D.NeverFails (compileNamed r path method ofPath entries pointer operationId summary operation) fun o =>
      ∀ op ∈ o, op.method = method ∧ op.path = path ∧ op.operationId = operationId ∧ op.name = operation := by
  have hobject := h.objectAt
  unfold compileNamed
  refine Step.keeps_get_bind fun c hc => ?_
  refine Keeps.bind (D.neverFails_declaredParameters hobject) fun own hown => ?_
  have hraw : ∀ p ∈ mergeParameters r.document.graph ofPath own, r.ObjectAt p.pointer p.entries :=
    fun p hp => (mem_mergeParameters hp).elim (hofPath p) (hown p)
  refine Keeps.bind (Step.keeps_mapM fun p hp => D.neverFails_parameterOutcome (hraw p hp) hoperation)
    fun outcomes _ => ?_
  refine Keeps.bind (Step.keeps_spelled (fun _ _ => trivial) fun hnone c => D.breakdown c ?_)
    fun declared (_ : True) => ?_
  · obtain ⟨p, hp, hname⟩ := mapM_eq_none_iff.1 hnone
    exact breaks_of_entryText? (hraw p (List.mem_of_mem_filter hp)) hname
  obtain ⟨v, hv, -⟩ := hobject
  refine Keeps.bind (Step.keeps_forM fun e he => ?_) fun _ _ => ?_
  · obtain ⟨placeholder, fault, rfl⟩ := exists_mismatch_of_mem_templateErrors he
    exact D.neverFails_record (D.expects_of_pointers rfl hv id)
  refine Keeps.bind (D.neverFails_compileBody hoperation h.objectAt) fun body _ => ?_
  refine Keeps.bind (D.neverFails_compileResponses hoperation h) fun responses _ => ?_
  refine Step.keeps_get_bind fun c' hc' => ?_
  split_ifs
  · exact Step.keeps_pure fun op hop => absurd hop (Option.not_mem_none op)
  · split
    · exact Step.keeps_pure fun op hop => absurd hop (Option.not_mem_none op)
    · refine Step.keeps_pure fun op hop => ?_
      cases hop
      exact ⟨rfl, rfl, rfl, rfl⟩

end Parts

section Operations

/-! Names may be taken where a discipline does not look at them. -/

variable (hnames : ∀ (c : Compilation) (names : List String), D.inv c → D.inv { c with names := names })

include hnames

/-- A name is always found. -/
theorem neverFails_takeName {base : String} (hbase : IsName base) : D.NeverFails (takeName base) IsName := by
  intro c hc
  obtain ⟨name, ⟨hname, hstate⟩, hgets⟩ := gives_takeName base c
  rw [hname, hstate]
  refine ⟨hnames c _ hc, fun name' hname' => ?_, fun e he => by cases he⟩
  cases hname'
  exact hgets.isName hbase

/-- The errors of an operation are recorded, so that it does not fail. -/
theorem neverFails_compileOperation (h : r.Holder pointer entries) (path : String) (method : Method)
    {ofPath : List RawParameter} (hofPath : ∀ p ∈ ofPath, r.ObjectAt p.pointer p.entries) :
    D.NeverFails (compileOperation r path method ofPath entries pointer) fun _ => True := by
  unfold compileOperation
  refine D.neverFails_attempt (D.mayFail_operationTexts h.objectAt) (fun texts _ => ?_) (fun e => rfl)
    (Step.keeps_pure trivial)
  obtain ⟨operationId, summary⟩ := texts
  refine Keeps.bind (D.neverFails_takeName hnames (Naming.isName_operationName _ _ _).1) fun name hname => ?_
  exact Step.Keeps.imp (D.neverFails_compileNamed hname h hofPath operationId summary) fun _ _ => trivial

/-- The operations of a path are compiled one by one without failing. -/
theorem neverFails_compileMethods {path : String} {item : List (Scalar × Value)}
    (hitem : r.PathItem path item) {ofPath : List RawParameter}
    (hofPath : ∀ p ∈ ofPath, r.ObjectAt p.pointer p.entries) (methods : List Method) :
    D.NeverFails (compileMethods r path ofPath item methods) fun _ => True := by
  induction methods with
  | nil => exact Step.keeps_pure trivial
  | cons method rest ih =>
    rw [compileMethods]
    cases hentries : (valueAt? method.name item).bind r.document.graph.entries? with
    | none => exact ih
    | some entries =>
      have hholder : r.Holder (Pointer.child (Resolver.itemPointer path) method.name) entries :=
        .operation hitem hentries
      refine Keeps.bind (D.neverFails_compileOperation hnames hholder path method hofPath)
        fun compiled _ => ?_
      exact Keeps.bind ih fun later _ => Step.keeps_pure trivial

/-- The paths of a document are compiled one by one without failing. -/
theorem neverFails_compilePathItems {paths : List (Scalar × Value)} (hpaths : r.paths? = some paths)
    {items : List (Scalar × Value)} (hitems : items ⊆ paths) :
    D.NeverFails (compilePathItems r items) fun _ => True := by
  induction items with
  | nil => exact Step.keeps_pure trivial
  | cons e rest ih =>
    obtain ⟨hmem, hrest⟩ := List.cons_subset.1 hitems
    obtain ⟨key, value⟩ := e
    cases key with
    | text path =>
      rw [compilePathItems]
      cases hitem : r.document.graph.entries? value with
      | none => exact ih hrest
      | some item =>
        have hpath : r.PathItem path item := ⟨paths, value, hpaths, hmem, hitem⟩
        refine Keeps.bind (D.neverFails_declaredParameters hpath.objectAt) fun ofPath hofPath => ?_
        refine Keeps.bind (D.neverFails_compileMethods hnames hpath hofPath Method.all) fun ops _ => ?_
        exact Keeps.bind (ih hrest) fun later _ => Step.keeps_pure trivial
    | _ =>
      obtain ⟨top, -, hrest⟩ := Option.bind_eq_some_iff.1 hpaths
      obtain ⟨mapping, -, hentries⟩ := Option.bind_eq_some_iff.1 hrest
      exact Step.keeps_breakOff fun c => D.breakdown c (.key hentries hmem rfl)

/-- The operations are compiled to the end, unless the run breaks off. -/
theorem neverFails_compilePaths : D.NeverFails (compilePaths r) fun _ => True := by
  unfold compilePaths
  dsimp only
  split
  · exact Step.keeps_pure trivial
  · rename_i value hvalue
    obtain ⟨top, htop, hpaths⟩ := Option.bind_eq_some_iff.1 (Option.filter_eq_some_iff.1 hvalue).1
    split
    · rename_i paths hentries
      have hsome : r.paths? = some paths :=
        Option.bind_eq_some_iff.2 ⟨top, htop, Option.bind_eq_some_iff.2 ⟨value, hpaths, hentries⟩⟩
      exact D.neverFails_compilePathItems hnames hsome (List.Subset.refl paths)
    · have hstands := Resolver.StandsAt.of_find (Resolver.find_paths htop hpaths)
      exact (D.neverFails_record (D.expects_of_pointers rfl hstands id)).bind fun _ _ => Step.keeps_pure trivial

end Operations

end Discipline

end RouteBinding.Compilation
