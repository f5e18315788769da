import RouteBinding.Proofs.Model.Kind
import RouteBinding.Proofs.Operation.Contract

/-!
# What is checked of an operation

What a compiled operation has been checked for, beside saying what its object says: the parameter objects fit the
path (`Fits`), the entries of the body have the types that their codecs need (`BodyChecked`), and the parameters
have types that can be bound (`OperationChecked`). The checks are made against the types that are defined so far;
they hold as well when more are defined.
-/

namespace RouteBinding

open Compilation
open PathTemplate (placeholders)

variable {g : Graph} {m m' : TypeModel} {path pointer : String}

/-! ## Templates -/

/-- Parameter objects fit a path: no two have one name and location, no placeholder comes twice, and the
placeholders are the names of the objects in the path, which all have a text. -/
structure Fits (g : Graph) (path : String) (ps : List RawParameter) : Prop where
  keys : (ps.map (·.key? g)).Nodup
  placeholders : (placeholders path).Nodup
  names : ∃ declared, pathNames? g ps = some declared ∧
    ∀ name, name ∈ PathTemplate.placeholders path ↔ name ∈ declared

theorem placeholderErrors_eq_nil_iff {declared seen names : List String} :
    placeholderErrors path pointer declared seen names = [] ↔
      names.Nodup ∧ ∀ name ∈ names, name ∉ seen ∧ name ∈ declared := by
  -- by induction on the names, for any that were seen: each name is seen by the later ones
  induction names generalizing seen with
  | nil => simp [placeholderErrors]
  | cons name rest ih =>
    rw [placeholderErrors, List.append_eq_nil_iff, List.append_eq_nil_iff, ih, List.nodup_cons]
    have hseen : ((if seen.contains name then [CompileError.templateMismatch name pointer (.repeated path)]
        else []) = []) ↔ name ∉ seen := by
      simp
    have hdeclared : ((if declared.contains name then []
        else [CompileError.templateMismatch name pointer (.undeclared path)]) = []) ↔
          name ∈ declared := by
      simp
    rw [hseen, hdeclared]
    constructor
    · rintro ⟨⟨hnew, hname⟩, hnodup, hrest⟩
      refine ⟨⟨fun hmem => (hrest name hmem).1 List.mem_cons_self, hnodup⟩, fun n hn => ?_⟩
      rcases List.mem_cons.1 hn with rfl | hn
      · exact ⟨hnew, hname⟩
      · exact ⟨fun hmem => (hrest n hn).1 (List.mem_cons_of_mem _ hmem), (hrest n hn).2⟩
    · rintro ⟨⟨hnotMem, hnodup⟩, hall⟩
      refine ⟨hall name List.mem_cons_self, hnodup, fun n hn => ?_⟩
      obtain ⟨hnew, hname⟩ := hall n (List.mem_cons_of_mem _ hn)
      refine ⟨fun hmem => ?_, hname⟩
      rcases List.mem_cons.1 hmem with rfl | hmem
      · exact hnotMem hn
      · exact hnew hmem

/-- A path and the names of its parameters agree exactly when no placeholder comes twice and the placeholders
are the names. -/
theorem templateErrors_eq_nil_iff {declared : List String} :
    templateErrors path pointer declared = [] ↔
      (placeholders path).Nodup ∧ ∀ name, name ∈ placeholders path ↔ name ∈ declared := by
  have hdeclared : ((declared.filter fun name => !(placeholders path).contains name).map fun name =>
      CompileError.templateMismatch name pointer (.noPlaceholder name path)) = [] ↔
        ∀ name ∈ declared, name ∈ placeholders path := by
    simp
  unfold templateErrors
  dsimp only
  rw [List.append_eq_nil_iff, placeholderErrors_eq_nil_iff, hdeclared]
  constructor
  · rintro ⟨⟨hnodup, hplaceholders⟩, hnames⟩
    exact ⟨hnodup, fun name => ⟨fun h => (hplaceholders name h).2, hnames name⟩⟩
  · rintro ⟨hnodup, hnames⟩
    exact ⟨⟨hnodup, fun name h => ⟨List.not_mem_nil, (hnames name).1 h⟩⟩,
      fun name h => (hnames name).2 h⟩

theorem exists_mismatch_of_mem_placeholderErrors {declared seen names : List String} {e : CompileError}
    (h : e ∈ placeholderErrors path pointer declared seen names) :
    ∃ name fault, e = .templateMismatch name pointer fault := by
  induction names generalizing seen with
  | nil => cases h
  | cons name rest ih =>
    rw [placeholderErrors, List.mem_append, List.mem_append] at h
    rcases h with (h | h) | h
    · split_ifs at h
      · exact ⟨name, _, List.mem_singleton.1 h⟩
      · cases h
    · split_ifs at h
      · cases h
      · exact ⟨name, _, List.mem_singleton.1 h⟩
    · exact ih h

/-- What is wrong with a template is a mismatch of a name, found at the operation. -/
theorem exists_mismatch_of_mem_templateErrors {declared : List String} {e : CompileError}
    (h : e ∈ templateErrors path pointer declared) : ∃ name fault, e = .templateMismatch name pointer fault := by
  rcases List.mem_append.1 h with h | h
  · exact exists_mismatch_of_mem_placeholderErrors h
  · obtain ⟨name, -, rfl⟩ := List.mem_map.1 h
    exact ⟨name, _, rfl⟩

/-- Where no two objects of a path and no two of an operation have one name and location, no two of both
together have. -/
theorem nodup_keys_mergeParameters {ofPath own : List RawParameter}
    (hofPath : (ofPath.map (·.key? g)).Nodup) (hown : (own.map (·.key? g)).Nodup) :
    ((mergeParameters g ofPath own).map (·.key? g)).Nodup := by
  have hkept : ((ofPath.filter fun p => !(own.map (·.key? g)).contains (p.key? g)).map (·.key? g)).Nodup :=
    hofPath.sublist (List.filter_sublist.map _)
  unfold mergeParameters
  rw [List.map_append]
  -- an object of the path is kept only if the operation has none of its key
  refine hkept.append hown fun key hkey hmem => ?_
  obtain ⟨p, hp, rfl⟩ := List.mem_map.1 hkey
  have hnew := (List.mem_filter.1 hp).2
  rw [List.contains_iff_mem.2 hmem] at hnew
  cases hnew

/-! ## Bodies -/

/-- An entry of a body has a type if its codec needs one, and that of a form is an object. -/
structure EntryChecked (m : TypeModel) (e : BodyEntry) : Prop where
  typed : e.codec.needsSchema → e.type.isSome
  object : e.codec = .form → ∀ t ∈ e.type, m.IsObject t

/-- The entries of a body are checked, and no two are for one media type. -/
structure BodyChecked (m : TypeModel) (body : BodyContract) : Prop where
  entries : ∀ e ∈ body.entries, EntryChecked m e.2
  distinct : (body.contentTypes.map MediaType.normalize).Nodup

theorem EntryChecked.mono {e : BodyEntry} (hm : m.Extends m') (h : EntryChecked m e) :
    EntryChecked m' e :=
  ⟨h.typed, fun hform t ht => (h.object hform t ht).mono hm⟩

theorem BodyChecked.mono {body : BodyContract} (hm : m.Extends m') (h : BodyChecked m body) :
    BodyChecked m' body :=
  ⟨fun e he => (h.entries e he).mono hm, h.distinct⟩

theorem entryChecked_untyped {contentType : String} {codec : Codec} (h : ¬ codec.needsSchema) :
    EntryChecked m ⟨contentType, codec, none⟩ where
  typed hneeds := absurd hneeds h
  object _ t ht := (Option.not_mem_none t ht).elim

theorem entryChecked_typed {contentType : String} {codec : Codec} {type : TypeRef}
    (h : codec = .form → m.IsObject type) : EntryChecked m ⟨contentType, codec, some type⟩ where
  typed _ := rfl
  object hform t ht := by
    obtain rfl := Option.some.inj ht
    exact h hform

/-- The pattern for all media types is decoded by no codec that needs a schema. -/
theorem not_needsSchema_of_any {contentType : String}
    (h : MediaType.normalize contentType = MediaType.any) :
    ¬ (MediaType.codec contentType).needsSchema := by
  unfold MediaType.codec
  rw [h]
  decide

/-! ## Operations -/

/-- An operation has been checked: its parameters can be bound, whatever objects it declares fit its path, and its
body is checked. -/
structure OperationChecked (r : Resolver) (m : TypeModel) (item entries : List (Scalar × Value))
    (op : Operation) : Prop where
  parameters : ∀ q ∈ op.parameters, m.IsScalarLike q.type
  fits : ∀ ofPath own, r.Declares (Resolver.itemPointer op.path) item ofPath →
    r.Declares (Pointer.child (Resolver.itemPointer op.path) op.method.name) entries own →
    Fits r.document.graph op.path (mergeParameters r.document.graph ofPath own)
  body : ∀ body ∈ op.body, BodyChecked m body

theorem OperationChecked.mono {r : Resolver} {item entries : List (Scalar × Value)} {op : Operation}
    (hm : m.Extends m') (h : OperationChecked r m item entries op) :
    OperationChecked r m' item entries op :=
  ⟨fun q hq => (h.parameters q hq).mono hm, h.fits, fun body hbody => (h.body body hbody).mono hm⟩

/-- What a path item or an operation declares is one list of objects. -/
theorem Resolver.Declares.unique {r : Resolver} {entries : List (Scalar × Value)}
    {ps qs : List RawParameter} (hp : r.Declares pointer entries ps)
    (hq : r.Declares pointer entries qs) : ps = qs := by
  refine List.right_unique_forall₂' ?_ hp hq
  rintro e ⟨pentries, ppointer⟩ ⟨qentries, qpointer⟩ ⟨v, hv⟩ ⟨w, hw⟩
  rw [hv] at hw
  cases hw
  rfl

end RouteBinding
