import RouteBinding.Proofs.Operation.Source

/-!
# What an operation says

When the parts of a compiled operation say what the objects of the description say. When a type is right for a
schema is left open: `M schema type`.
-/

namespace RouteBinding

open Compilation

variable {r : Resolver} {M M' : Value → TypeRef → Prop} {entries : List (Scalar × Value)}

/-! ## Parameters -/

/-- A parameter says what the entries of a parameter object say. -/
structure ParameterFor (r : Resolver) (M : Value → TypeRef → Prop) (entries : List (Scalar × Value))
    (q : Parameter) : Prop where
  name : valueAt? "name" entries = some (.scalar (.text q.name))
  location : valueAt? "in" entries = some (.scalar (.text q.location.name))
  required : q.required =
    (q.location = .path || valueAt? "required" entries = some (.scalar (.bool true)))
  type : ∃ schema, valueAt? "schema" entries = some schema ∧ M schema q.type
  style : q.style ∈ q.location.styles ∧
    valueAt? "style" entries = some (.scalar (.text q.style.name)) ∨
      valueAt? "style" entries = none ∧ q.style = q.location.defaultStyle
  explode : Resolver.keyword? "explode" entries = some (.scalar (.bool q.explode)) ∨
    Resolver.keyword? "explode" entries = none ∧ q.explode = q.style.explodes
  description : ∃ pointer,
    optionalText r.document.graph entries "description" pointer = .ok q.description

/-- What became of a parameter object is right for its entries. -/
inductive OutcomeFor (r : Resolver) (M : Value → TypeRef → Prop) (entries : List (Scalar × Value)) :
    ParameterOutcome → Prop
  | bound {q : Parameter} (h : ParameterFor r M entries q) : OutcomeFor r M entries (.bound q)
  | skipped {place : String} (h : place ∈ skippedLocations)
    (hplace : valueAt? "in" entries = some (.scalar (.text place))) : OutcomeFor r M entries .skipped
  | refused : OutcomeFor r M entries .refused

theorem ParameterFor.mono {q : Parameter} (h : ParameterFor r M entries q)
    (hM : ∀ v t, M v t → M' v t) : ParameterFor r M' entries q where
  name := h.name
  location := h.location
  required := h.required
  type := h.type.imp fun _ hs => ⟨hs.1, hM _ _ hs.2⟩
  style := h.style
  explode := h.explode
  description := h.description

theorem OutcomeFor.mono {outcome : ParameterOutcome} (h : OutcomeFor r M entries outcome)
    (hM : ∀ v t, M v t → M' v t) : OutcomeFor r M' entries outcome := by
  cases h with
  | bound h => exact .bound (h.mono hM)
  | skipped h hplace => exact .skipped h hplace
  | refused => exact .refused

/-- What became of a parameter object that was found at a pointer. -/
def OutcomeAt (r : Resolver) (M : Value → TypeRef → Prop) (pointer : String)
    (outcome : ParameterOutcome) : Prop :=
  ∃ p, r.Declared p ∧ p.pointer = pointer ∧ OutcomeFor r M p.entries outcome

theorem OutcomeAt.mono {pointer : String} {outcome : ParameterOutcome}
    (h : OutcomeAt r M pointer outcome) (hM : ∀ v t, M v t → M' v t) :
    OutcomeAt r M' pointer outcome := by
  obtain ⟨p, hdeclared, hpointer, houtcome⟩ := h
  exact ⟨p, hdeclared, hpointer, houtcome.mono hM⟩

/-- At one pointer there is one parameter object. -/
theorem OutcomeAt.outcomeFor (hd : r.document.graph.DistinctKeys) {p : RawParameter}
    {outcome : ParameterOutcome} (h : OutcomeAt r M p.pointer outcome) (hp : r.Declared p) :
    OutcomeFor r M p.entries outcome := by
  obtain ⟨q, hdeclared, hpointer, houtcome⟩ := h
  rwa [← hdeclared.entries_eq hd hp hpointer]

/-! ## Bodies -/

/-- The schema of an entry of a body. Under the pattern for all media types none counts. -/
def bodySchema? (r : Resolver) (e : Scalar × Value) : Option Value :=
  if e.1.text?.map MediaType.normalize = some MediaType.any then none
  else schemaOf? r.document.graph e.2

/-- An entry of a body says what an entry of the content says. -/
structure BodyEntryFor (r : Resolver) (M : Value → TypeRef → Prop) (e : Scalar × Value)
    (b : String × BodyEntry) : Prop where
  key : e.1 = .text b.1
  contentType : b.2.contentType = b.1
  codec : b.2.codec = MediaType.codec b.1
  type : Option.Rel M (bodySchema? r e) b.2.type

/-- A body says what the request body of an operation says. -/
def BodyFor (r : Resolver) (M : Value → TypeRef → Prop) (pointer : String) (raw : Value)
    (body : BodyContract) : Prop :=
  ∃ object v place content,
    r.resolveObject raw (Pointer.child pointer "requestBody") = .ok (object, v, place) ∧
    (valueAt? "content" object).bind r.document.graph.entries? = some content ∧
    List.Forall₂ (BodyEntryFor r M) content body.entries ∧
    body.required = (valueAt? "required" object).any r.document.graph.isTruthy

theorem optionRel_mono_of_mem {α β : Type} {R S : α → β → Prop} {o : Option α} {t : Option β}
    (h : Option.Rel R o t) (hRS : ∀ a, ∀ b ∈ t, R a b → S a b) : Option.Rel S o t := by
  cases h with
  | some h => exact .some (hRS _ _ rfl h)
  | none => exact .none

theorem optionRel_mono {α β : Type} {R S : α → β → Prop} {o : Option α} {t : Option β}
    (h : Option.Rel R o t) (hRS : ∀ a b, R a b → S a b) : Option.Rel S o t :=
  optionRel_mono_of_mem h fun a b _ => hRS a b

theorem BodyEntryFor.mono {e : Scalar × Value} {b : String × BodyEntry} (h : BodyEntryFor r M e b)
    (hM : ∀ v t, M v t → M' v t) : BodyEntryFor r M' e b :=
  ⟨h.key, h.contentType, h.codec, optionRel_mono h.type hM⟩

theorem BodyFor.mono {pointer : String} {raw : Value} {body : BodyContract}
    (h : BodyFor r M pointer raw body) (hM : ∀ v t, M v t → M' v t) :
    BodyFor r M' pointer raw body := by
  obtain ⟨object, v, place, content, hobject, hcontent, hentries, hrequired⟩ := h
  exact ⟨object, v, place, content, hobject, hcontent, hentries.imp fun e b he => he.mono hM,
    hrequired⟩

/-! ## Responses -/

/-- The entry that types a response: of those with a schema the first that is JSON, else the first. -/
def typingSchema? (g : Graph) (response : List (Scalar × Value)) : Option (Scalar × Value) :=
  let schemas := schemasOf g (((valueAt? "content" response).bind g.entries?).getD [])
  (schemas.find? fun e => e.1.text?.map MediaType.codec = some .json).or schemas.head?

/-- The status of a response is the text of its key, and its type is right for what the response says, where it says
anything. -/
def ResponseFor (r : Resolver) (M : Value → TypeRef → Prop) (pointer : String) (e : Scalar × Value)
    (typed : String × Option TypeRef) : Prop :=
  e.1.display? = some typed.1 ∧ ∃ object v place,
    r.resolveObject e.2 (Pointer.child (Pointer.child pointer "responses")
      (Pointer.escape typed.1)) = .ok (object, v, place) ∧
    Option.Rel M ((typingSchema? r.document.graph object).map (·.2)) typed.2

theorem ResponseFor.mono {pointer : String} {e : Scalar × Value} {typed : String × Option TypeRef}
    (h : ResponseFor r M pointer e typed) (hM : ∀ v t, M v t → M' v t) :
    ResponseFor r M' pointer e typed := by
  obtain ⟨hstatus, object, v, place, hobject, htype⟩ := h
  exact ⟨hstatus, object, v, place, hobject, optionRel_mono htype hM⟩

/-- The types of responses by status: of two responses with one status the later counts. -/
def putResponses (done : List (String × TypeRef)) :
    List (String × Option TypeRef) → List (String × TypeRef)
  | (status, some type) :: rest => putResponses (putResponse status type done) rest
  | (_, none) :: rest => putResponses done rest
  | [] => done

/-- The responses of an operation. -/
def responseEntries (r : Resolver) (entries : List (Scalar × Value)) : List (Scalar × Value) :=
  ((valueAt? "responses" entries).bind r.document.graph.entries?).getD []

/-! ## Operations -/

/-- An operation says what an operation object in a path item says. When an outcome is right for a parameter
object is left open, too: `P p outcome`. -/
structure OperationFor (r : Resolver) (M : Value → TypeRef → Prop)
    (P : RawParameter → ParameterOutcome → Prop) (item entries : List (Scalar × Value))
    (op : Operation) : Prop where
  path : r.PathItem op.path item
  method : r.operation? item op.method = some entries
  parameters : ∃ ofPath own outcomes,
    r.Declares (Resolver.itemPointer op.path) item ofPath ∧
    r.Declares (Pointer.child (Resolver.itemPointer op.path) op.method.name) entries own ∧
    List.Forall₂ P (mergeParameters r.document.graph ofPath own) outcomes ∧
    boundParameters? outcomes = some op.parameters
  body : Option.Rel (BodyFor r M (Pointer.child (Resolver.itemPointer op.path) op.method.name))
    (Resolver.keyword? "requestBody" entries) op.body
  responses : ∃ typed,
    List.Forall₂ (ResponseFor r M (Pointer.child (Resolver.itemPointer op.path) op.method.name))
      (responseEntries r entries) typed ∧
    op.responses = putResponses [] typed

theorem mem_mergeParameters {g : Graph} {ofPath own : List RawParameter} {p : RawParameter}
    (h : p ∈ mergeParameters g ofPath own) : p ∈ ofPath ∨ p ∈ own :=
  (List.mem_append.1 h).imp_left fun h => (List.mem_filter.1 h).1

theorem OperationFor.mono {P P' : RawParameter → ParameterOutcome → Prop}
    {item entries : List (Scalar × Value)} {op : Operation} (h : OperationFor r M P item entries op)
    (hM : ∀ v t, M v t → M' v t) (hP : ∀ p o, r.Declared p → P p o → P' p o) :
    OperationFor r M' P' item entries op where
  path := h.path
  method := h.method
  parameters := by
    obtain ⟨ofPath, own, outcomes, hofPath, hown, houtcomes, hbound⟩ := h.parameters
    refine ⟨ofPath, own, outcomes, hofPath, hown, ?_, hbound⟩
    refine forall₂_mono_of_mem houtcomes fun p hp o => hP p o ?_
    rcases mem_mergeParameters hp with hp | hp
    · exact hofPath.declared (.item h.path) hp
    · exact hown.declared (.operation h.path h.method) hp
  body := optionRel_mono h.body fun _ _ hbody => hbody.mono hM
  responses := by
    obtain ⟨typed, htyped, hresponses⟩ := h.responses
    exact ⟨typed, htyped.imp fun e t he => he.mono hM, hresponses⟩

end RouteBinding
