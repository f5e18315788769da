import RouteBinding.Proofs.Operation.Inventory

/-!
# Typed operations

In a description that compiles every operation is typed by the types that are defined in the end
(`compile_typed`): its parameters can be written as texts in a request, and its body has an entry for every content
type that is declared, with a type where its codec needs one.
-/

namespace RouteBinding

open Compilation

variable {r : Resolver} {m : TypeModel} {M : Value → TypeRef → Prop}

/-! ## What is typed -/

/-- A parameter can be bound: it is required if it is in the path, its style is one of its location, and behind the
aliases of its type stands a scalar or an array of scalars. -/
structure ParameterTyped (m : TypeModel) (q : Parameter) : Prop where
  required : q.location = .path → q.required
  style : q.style ∈ q.location.styles
  type : m.IsScalarLike q.type

/-- An entry of a body can be decoded: a codec that reads values has a type to read them by, that of a form is an
object, and nothing is known of a payload of any media type. -/
structure EntryTyped (m : TypeModel) (e : BodyEntry) : Prop where
  codec : e.codec = MediaType.codec e.contentType
  typed : e.codec = .json ∨ e.codec = .form → e.type.isSome
  object : e.codec = .form → ∃ type, e.type = some type ∧ m.IsObject type
  untyped : MediaType.normalize e.contentType = MediaType.any → e.type = none

/-- A body has an entry for every content type of a content, as it is written and in order, and no two of them are
one media type. -/
structure BodyTyped (m : TypeModel) (content : List (Scalar × Value)) (body : BodyContract) : Prop where
  contentTypes : content.map (·.1) = body.contentTypes.map .text
  keys : ∀ e ∈ body.entries, e.2.contentType = e.1
  distinct : (body.contentTypes.map MediaType.normalize).Nodup
  entries : ∀ e ∈ body.entries, EntryTyped m e.2

/-- The content that a request body has, itself or where its reference leads. -/
def contentOf? (r : Resolver) (raw : Value) (pointer : String) : Option (List (Scalar × Value)) := do
  let (object, _, _) ← (r.resolveObject raw pointer).toOption
  (valueAt? "content" object).bind r.document.graph.entries?

/-- An operation is typed as its operation object declares it. -/
structure OperationTyped (r : Resolver) (m : TypeModel) (entries : List (Scalar × Value))
    (op : Operation) : Prop where
  parameters : ∀ q ∈ op.parameters, ParameterTyped m q
  body : Option.Rel (fun raw body => ∃ content,
      contentOf? r raw (Pointer.child (Pointer.child (Resolver.itemPointer op.path) op.method.name)
        "requestBody") = some content ∧ BodyTyped m content body)
    (Resolver.keyword? "requestBody" entries) op.body

/-! ## Parameters -/

theorem Location.defaultStyle_mem (location : Location) : location.defaultStyle ∈ location.styles := by
  cases location <;> decide

theorem ParameterFor.typed {entries : List (Scalar × Value)} {q : Parameter}
    (h : ParameterFor r M entries q) (htype : m.IsScalarLike q.type) : ParameterTyped m q where
  required hpath := by
    rw [h.required, hpath]
    rfl
  style := by
    rcases h.style with ⟨hstyle, -⟩ | ⟨-, hdefault⟩
    · exact hstyle
    · rw [hdefault]
      exact q.location.defaultStyle_mem
  type := htype

/-! ## Bodies -/

theorem BodyEntryFor.typed {e : Scalar × Value} {b : String × BodyEntry} (h : BodyEntryFor r M e b)
    (hchecked : EntryChecked m b.2) : EntryTyped m b.2 where
  codec := by rw [h.contentType, h.codec]
  typed hcodec := by
    refine hchecked.typed ?_
    unfold Codec.needsSchema
    simpa using hcodec
  object hform := by
    have htyped : b.2.type.isSome := hchecked.typed (by rw [hform]; rfl)
    obtain ⟨type, htype⟩ := Option.isSome_iff_exists.1 htyped
    exact ⟨type, htype, hchecked.object hform type htype⟩
  untyped hany := by
    -- under the pattern for all media types no schema counts
    have hkey : e.1.text?.map MediaType.normalize = some MediaType.any := by
      rw [h.key, ← h.contentType, ← hany]
      rfl
    have htype := h.type
    rw [bodySchema?, if_pos hkey] at htype
    cases hnone : b.2.type with
    | none => rfl
    | some type =>
      rw [hnone] at htype
      cases htype

theorem BodyFor.typed {pointer : String} {raw : Value} {body : BodyContract}
    (h : BodyFor r M pointer raw body) (hchecked : BodyChecked m body) :
    ∃ content, contentOf? r raw (Pointer.child pointer "requestBody") = some content ∧
      BodyTyped m content body := by
  obtain ⟨object, v, place, content, hobject, hcontent, hentries, -⟩ := h
  refine ⟨content, ?_, ?_, ?_, hchecked.distinct, ?_⟩
  · unfold contentOf?
    rw [hobject]
    exact hcontent
  · have hkeys : List.Forall₂ (fun e b => e.1 = Scalar.text b.1) content body.entries :=
      hentries.imp fun e b he => he.key
    rw [BodyContract.contentTypes, List.map_map, ← List.forall₂_eq_eq_eq, List.forall₂_map_left_iff,
      List.forall₂_map_right_iff]
    exact hkeys
  · intro b hb
    obtain ⟨e, -, he⟩ := exists_of_forall₂ hentries.flip hb
    exact he.contentType
  · intro b hb
    obtain ⟨e, -, he⟩ := exists_of_forall₂ hentries.flip hb
    exact he.typed (hchecked.entries b hb)

/-! ## Operations -/

theorem OperationChecked.typed {item entries : List (Scalar × Value)} {op : Operation}
    (hfor : OperationFor r M (fun p => OutcomeAt r M p.pointer) item entries op)
    (hchecked : OperationChecked r m item entries op) : OperationTyped r m entries op where
  parameters q hq := by
    obtain ⟨found, hparameter⟩ := exists_parameterFor hfor hq
    exact hparameter.typed (hchecked.parameters q hq)
  body := optionRel_mono_of_mem hfor.body fun _ body hbody hsays => hsays.typed (hchecked.body body hbody)

/-- Every operation of a description that compiles is typed. The checks were made while types were still being
defined; what they found holds of all types in the end. -/
theorem compile_typed {d : Document} {version : Option String} {api : CompiledApi}
    (h : compile d version = .ok api) :
    ∃ r, Resolver.ofDocument d = .ok r ∧ ∀ op ∈ api.operations, ∃ item entries,
      r.PathItem op.path item ∧ r.operation? item op.method = some entries ∧
        OperationTyped r api.types entries op := by
  obtain ⟨r, c, hr, hoperations⟩ := Compilation.checked_of_compile h
  refine ⟨r, hr, fun op hop => ?_⟩
  obtain ⟨item, entries, hfor, hchecked⟩ := hoperations op hop
  exact ⟨item, entries, hfor.path, hfor.method, hchecked.typed hfor⟩

theorem compile_typed_ordersDocument :
    ∃ api, compile ordersDocument none = .ok api ∧ api.operations.length = 3 ∧
      ∃ r, Resolver.ofDocument ordersDocument = .ok r ∧ ∀ op ∈ api.operations, ∃ item entries,
        r.PathItem op.path item ∧ r.operation? item op.method = some entries ∧
          OperationTyped r api.types entries op := by
  obtain ⟨api, h, hkeys⟩ := exists_compile_ordersDocument
  have hlength : api.operations.length = 3 := by simpa using congrArg List.length hkeys
  exact ⟨api, h, hlength, compile_typed h⟩

end RouteBinding
