import RouteBinding.Proofs.MediaType
import RouteBinding.Proofs.Operation.Typing

/-!
# The body entry of a request

In a description that compiles no two entries of a body are declared for one media type. So a request is decoded by
the one entry of its media type, else by that of its family, else by that of every media type, and each entry is
selected by the spellings of its own content type (`compile_selects`).
-/

namespace RouteBinding

namespace BodyContract

open MediaType (family Spelling)

variable {b : BodyContract} {media request : String} {location : Option String} {e : String × BodyEntry}

/-! ## Declared entries -/

/-- An entry is the one that a body declares for a media type or pattern. -/
structure Declares (b : BodyContract) (media : String) (e : String × BodyEntry) : Prop where
  mem : e ∈ b.entries
  normal : MediaType.normalize e.1 = media
  unique : ∀ d ∈ b.entries, MediaType.normalize d.1 = media → d = e

/-- A body declares no entry for a media type or pattern. -/
def Lacks (b : BodyContract) (media : String) : Prop :=
  ∀ d ∈ b.entries, MediaType.normalize d.1 ≠ media

/-- No two content types of a body have one normal form. -/
def Distinct (b : BodyContract) : Prop :=
  (b.contentTypes.map MediaType.normalize).Nodup

theorem Distinct.declares (h : b.Distinct) (he : e ∈ b.entries) : b.Declares (MediaType.normalize e.1) e := by
  refine ⟨he, rfl, fun d hd heq => ?_⟩
  unfold Distinct contentTypes at h
  rw [List.map_map] at h
  exact List.inj_on_of_nodup_map h hd he heq

theorem Declares.entryFor?_eq (h : b.Declares media e) : b.entryFor? media = some e.2 := by
  unfold entryFor?
  cases hfind : b.entries.reverse.find? fun d => MediaType.normalize d.1 = media with
  | none =>
    have hnone := List.find?_eq_none.1 hfind e (List.mem_reverse.2 h.mem)
    exact absurd (decide_eq_true h.normal) hnone
  | some d =>
    have hd : d ∈ b.entries := List.mem_reverse.1 (List.mem_of_find?_eq_some hfind)
    have hfound := List.find?_some hfind
    rw [h.unique d hd (of_decide_eq_true hfound)]
    rfl

/-- A body declares an entry for a media type, or has none whose content type is it. -/
theorem Distinct.declares_or (h : b.Distinct) (media : String) :
    (∃ e, b.Declares media e) ∨ b.Lacks media := by
  by_cases hsome : ∃ e ∈ b.entries, MediaType.normalize e.1 = media
  · obtain ⟨e, he, hmedia⟩ := hsome
    exact Or.inl ⟨e, hmedia ▸ h.declares he⟩
  · exact Or.inr fun d hd hmedia => hsome ⟨d, hd, hmedia⟩

theorem Lacks.entryFor?_eq (h : b.Lacks media) : b.entryFor? media = none := by
  rw [entryFor?, Option.map_eq_none_iff, List.find?_eq_none]
  intro d hd hmedia
  exact h d (List.mem_reverse.1 hd) (of_decide_eq_true hmedia)

/-! ## Selection -/

/-- What a request with a content type gets: the entry that is declared for its media type, else that for its family,
else that for every media type, else an error that lists the content types of the body. -/
inductive Selects (b : BodyContract) (request : String) (location : Option String) :
    Except CompileError BodyEntry → Prop
  | exact {e : String × BodyEntry} (h : b.Declares (MediaType.normalize request) e) :
      Selects b request location (.ok e.2)
  | family {e : String × BodyEntry} (hexact : b.Lacks (MediaType.normalize request))
      (h : b.Declares (family (MediaType.normalize request)) e) : Selects b request location (.ok e.2)
  | any {e : String × BodyEntry} (hexact : b.Lacks (MediaType.normalize request))
      (hfamily : b.Lacks (family (MediaType.normalize request)))
      (h : b.Declares MediaType.any e) : Selects b request location (.ok e.2)
  | unsupported (hexact : b.Lacks (MediaType.normalize request))
      (hfamily : b.Lacks (family (MediaType.normalize request)))
      (hany : b.Lacks MediaType.any) :
      Selects b request location (.error (.unsupportedContentType request b.contentTypes location))

theorem select_of_declares (h : b.Declares (MediaType.normalize request) e) : b.select request location = .ok e.2 := by
  rw [select, h.entryFor?_eq]

theorem Distinct.selects (h : b.Distinct) (request : String) (location : Option String) :
    b.Selects request location (b.select request location) := by
  rcases h.declares_or (MediaType.normalize request) with ⟨e, he⟩ | hexact
  · rw [select_of_declares he]
    exact .exact he
  rcases h.declares_or (family (MediaType.normalize request)) with ⟨e, he⟩ | hfamily
  · rw [select, hexact.entryFor?_eq, he.entryFor?_eq]
    exact .family hexact he
  rcases h.declares_or MediaType.any with ⟨e, he⟩ | hany
  · rw [select, hexact.entryFor?_eq, hfamily.entryFor?_eq, he.entryFor?_eq]
    exact .any hexact hfamily he
  · rw [select, hexact.entryFor?_eq, hfamily.entryFor?_eq, hany.entryFor?_eq]
    exact .unsupported hexact hfamily hany

/-- An entry is selected by every spelling of its content type. -/
theorem Distinct.select_spelling (h : b.Distinct) (he : e ∈ b.entries) (hspelling : Spelling e.1 request) :
    b.select request location = .ok e.2 := by
  have hdeclares := h.declares he
  rw [← MediaType.normalize_of_spelling hspelling] at hdeclares
  exact select_of_declares hdeclares

end BodyContract

/-! ## Compiled bodies -/

/-- The content that the request body of an operation has in its description. -/
def Operation.HasContent (r : Resolver) (op : Operation) (content : List (Scalar × Value)) : Prop :=
  ∃ item entries raw, r.PathItem op.path item ∧ r.operation? item op.method = some entries ∧
    Resolver.keyword? "requestBody" entries = some raw ∧
      contentOf? r raw (Pointer.child (Pointer.child (Resolver.itemPointer op.path) op.method.name) "requestBody") =
        some content

theorem OperationTyped.body_typed {r : Resolver} {m : TypeModel} {item entries : List (Scalar × Value)}
    {op : Operation} {body : BodyContract} (h : OperationTyped r m entries op) (hpath : r.PathItem op.path item)
    (hmethod : r.operation? item op.method = some entries) (hbody : op.body = some body) :
    ∃ content, op.HasContent r content ∧ BodyTyped m content body := by
  have hrel := h.body
  rw [hbody] at hrel
  cases hraw : Resolver.keyword? "requestBody" entries with
  | none =>
    rw [hraw] at hrel
    cases hrel
  | some raw =>
    rw [hraw] at hrel
    cases hrel with
    | some hcontent =>
      obtain ⟨content, hcontent, htyped⟩ := hcontent
      exact ⟨content, ⟨item, entries, raw, hpath, hmethod, hraw, hcontent⟩, htyped⟩

/-- In a description that compiles a body has an entry for every content type of its content, as it is written and in
order. A request gets the one entry for its media type, else for its family, else for every media type, or an error
that lists them all; every spelling of a content type gets the entry of that content type. -/
theorem compile_selects {d : Document} {version : Option String} {api : CompiledApi}
    (h : compile d version = .ok api) :
    ∃ r, Resolver.ofDocument d = .ok r ∧ ∀ op ∈ api.operations, ∀ body, op.body = some body →
      (∃ content, op.HasContent r content ∧ content.map (·.1) = body.contentTypes.map .text) ∧
      (∀ e ∈ body.entries, e.2.contentType = e.1) ∧
      ∀ request location, body.Selects request location (body.select request location) ∧
        ∀ e ∈ body.entries, MediaType.Spelling e.1 request → body.select request location = .ok e.2 := by
  obtain ⟨r, c, hr, hoperations⟩ := Compilation.checked_of_compile h
  refine ⟨r, hr, fun op hop body hbody => ?_⟩
  obtain ⟨item, entries, hfor, hchecked⟩ := hoperations op hop
  obtain ⟨content, hcontent, htyped⟩ := (hchecked.typed hfor).body_typed hfor.path hfor.method hbody
  have hdistinct : body.Distinct := htyped.distinct
  exact ⟨⟨content, hcontent, htyped.contentTypes⟩, htyped.keys, fun request location =>
    ⟨hdistinct.selects request location, fun e he => hdistinct.select_spelling he⟩⟩

/-- A content type in other capitals, after a blank and with a charset. -/
theorem spelling_json : MediaType.Spelling "application/json" " Application/JSON ; charset=utf-8" := by
  have hrequest : " " ++ "Application/JSON" ++ " " ++ "; charset=utf-8" = " Application/JSON ; charset=utf-8" := by
    decide +kernel
  have hcore : Text.Recased (MediaType.bare "application/json") "Application/JSON" := .lower (by decide +kernel)
  have hblank : Text.isBlankText " " := by decide +kernel
  have hparams : ∀ c ∈ "; charset=utf-8".toList.head?, c = ';' := by simp
  have hspelling := MediaType.Spelling.intro hcore hblank hblank hparams
  rwa [hrequest] at hspelling

/-- The first of three entries is selected by such a spelling of its content type. -/
theorem compile_selects_ordersDocument :
    ∃ api, compile ordersDocument none = .ok api ∧ ∃ op ∈ api.operations, ∃ body, op.body = some body ∧
      body.contentTypes = ["application/json", "application/x-www-form-urlencoded", "*/*"] ∧
      ∃ entry, entry.contentType = "application/json" ∧
        body.select " Application/JSON ; charset=utf-8" none = .ok entry := by
  have hcompiled : (compile ordersDocument none).toOption.map (fun api =>
      api.operations.map fun op => op.body.map (·.contentTypes)) =
      some [none, some ["application/json", "application/x-www-form-urlencoded", "*/*"], none] := by
    decide +kernel
  obtain ⟨api, hapi, hbodies⟩ := Option.map_eq_some_iff.1 hcompiled
  have hmem : some ["application/json", "application/x-www-form-urlencoded", "*/*"] ∈
      api.operations.map fun op => op.body.map (·.contentTypes) := by
    rw [hbodies]
    exact List.mem_cons_of_mem _ List.mem_cons_self
  obtain ⟨op, hop, htypes⟩ := List.mem_map.1 hmem
  obtain ⟨body, hbody, htypes⟩ := Option.map_eq_some_iff.1 htypes
  have h := toOption_eq_some.1 hapi
  obtain ⟨r, -, hselects⟩ := compile_selects h
  obtain ⟨-, hkeys, hselect⟩ := hselects op hop body hbody
  have hdeclared : "application/json" ∈ body.entries.map (·.1) := by
    rw [BodyContract.contentTypes] at htypes
    rw [htypes]
    exact List.mem_cons_self
  obtain ⟨e, he, hjson⟩ := List.mem_map.1 hdeclared
  have hspelling : MediaType.Spelling e.1 " Application/JSON ; charset=utf-8" := hjson ▸ spelling_json
  exact ⟨api, h, op, hop, body, hbody, htypes, e.2, (hkeys e he).trans hjson, (hselect _ none).2 e he hspelling⟩

/-- A description whose one operation has a body of a content type with a letter that has no capital. -/
def streetDocument : Document where
  graph := ⟨#[
    .mapping [(.text "paths", .container 1)],
    .mapping [(.text "/a", .container 2)],
    .mapping [(.text "post", .container 3)],
    .mapping [(.text "requestBody", .container 4)],
    .mapping [(.text "content", .container 5)],
    .mapping [(.text "text/straße", .container 6)],
    .mapping []]⟩
  root := .container 0

/-- The body of its operation. -/
def streetBody : BodyContract :=
  ⟨false, [("text/straße", ⟨"text/straße", .text, none⟩)]⟩

/-- The entry is not selected by its content type in capitals, which has another lower case. -/
theorem not_selected_streetDocument :
    ∃ api, compile streetDocument none = .ok api ∧ ∃ op ∈ api.operations, ∃ body, op.body = some body ∧
      ∃ e ∈ body.entries, Text.upper e.1 = "TEXT/STRASSE" ∧
        body.select (Text.upper e.1) none =
          .error (.unsupportedContentType "TEXT/STRASSE" ["text/straße"] none) := by
  have hcompiled : (compile streetDocument none).toOption.map (fun api => api.operations.map (·.body)) =
      some [some streetBody] := by
    decide +kernel
  have hupper : Text.upper "text/straße" = "TEXT/STRASSE" := by decide +kernel
  obtain ⟨api, hapi, hbodies⟩ := Option.map_eq_some_iff.1 hcompiled
  have hmem : some streetBody ∈ api.operations.map (·.body) := by
    rw [hbodies]
    exact List.mem_cons_self
  obtain ⟨op, hop, hbody⟩ := List.mem_map.1 hmem
  refine ⟨api, toOption_eq_some.1 hapi, op, hop, streetBody, hbody, _, List.mem_cons_self, hupper, ?_⟩
  rw [hupper]
  decide +kernel

end RouteBinding
