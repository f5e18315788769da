import RouteBinding.Proofs.Operation.Collected

/-!
# Where errors point

The pointer that an error shows leads to a value of the description, but for two kinds of pointers. A response is known
by its status as it is shown, and below a status that is no text nothing can be found. And the loops of components are
shown with the names as they are written, which are found only if there is nothing in them to escape
(`compile_points`).
-/

namespace RouteBinding

/-- A pointer is another one, or the other one with more segments. -/
def Pointer.AtOrBelow (pointer below : String) : Prop :=
  below = pointer ∨ ∃ rest, below = child pointer rest

theorem Pointer.AtOrBelow.child {pointer below : String} (h : AtOrBelow pointer below)
    (segment : String) : AtOrBelow pointer (Pointer.child below segment) := by
  rcases h with rfl | ⟨rest, rfl⟩
  · exact .inr ⟨segment, rfl⟩
  · refine .inr ⟨Pointer.child rest segment, ?_⟩
    simp only [Pointer.child, String.append_assoc]

namespace Resolver

variable {r : Resolver} {d : Document} {pointer : String} {v : Value}

/-- A pointer is that of a response, or below, of which the status is no text. -/
def BelowShownStatus (r : Resolver) (p : String) : Prop :=
  ∃ pointer entries mapping responses status shown v, r.Holder pointer entries ∧
    valueAt? "responses" entries = some mapping ∧
    r.document.graph.entries? mapping = some responses ∧ (status, v) ∈ responses ∧
    status.text? = none ∧ status.display? = some shown ∧
    Pointer.AtOrBelow (pointer ++ "/responses/" ++ Pointer.escape shown) p

/-- A pointer is shown for a loop of components, and is made of a component name in which a character would have to be
escaped. -/
def ShowsUnescaped (r : Resolver) (e : CompileError) (p : String) : Prop :=
  r.ShowsAliases e ∧ ∃ name raw, (.text name, raw) ∈ r.schemas ∧ p = Pointer.componentHead ++ name ∧
    ('/' ∈ name.toList ∨ Pointer.unescape name ≠ name)

/-- A response of which the status is a text is found at its pointer. -/
theorem find_response (hd : r.document.graph.DistinctKeys) (hi : r.document.graph.Indexable)
    {entries responses : List (Scalar × Value)} {mapping : Value} {name : String}
    (h : r.Holder pointer entries) (hmapping : valueAt? "responses" entries = some mapping)
    (hresponses : r.document.graph.entries? mapping = some responses)
    (hv : (.text name, v) ∈ responses) :
    r.document.find (pointer ++ "/responses/" ++ Pointer.escape name) = .ok v := by
  obtain ⟨w, hfind, hw⟩ := h.find hd
  have hw' : r.document.Stands (fun p u => r.document.find p = .ok u) pointer w := .base hfind
  have hstands := hw'.keyword_entry hw hmapping (by decide) hresponses hv
  exact hstands.find hd hi fun _ _ h => h

/-- What stands at a pointer of a description is found there, unless it is below a status that is no text. -/
theorem StandsAt.find_or (hd : r.document.graph.DistinctKeys) (hi : r.document.graph.Indexable)
    (h : r.StandsAt pointer v) : r.document.find pointer = .ok v ∨ r.BelowShownStatus pointer := by
  refine Document.Stands.find_or r.BelowShownStatus hd hi (fun p u hbegins => ?_)
    (fun p segment hoff => ?_) h
  · cases hbegins with
    | found h => exact .inl h
    | @response pointer entries responses mapping v status shown h hmapping hresponses hstatus hshown =>
      cases htext : status.text? with
      | none =>
        exact .inr ⟨pointer, entries, mapping, responses, status, shown, u, h, hmapping, hresponses, hstatus,
          htext, hshown, .inl rfl⟩
      | some name =>
        obtain rfl : status = .text name := by
          cases status <;> simp_all [Scalar.text?]
        obtain rfl : name = shown := Option.some.inj hshown
        exact .inl (find_response hd hi h hmapping hresponses hstatus)
  · obtain ⟨pointer, entries, mapping, responses, status, shown, u, h, hmapping, hresponses, hstatus, htext,
      hshown, hbelow⟩ := hoff
    exact ⟨pointer, entries, mapping, responses, status, shown, u, h, hmapping, hresponses, hstatus, htext,
      hshown, hbelow.child segment⟩

/-- A component is found at its name as it is written, if there is nothing to escape in the name. -/
theorem find_componentHead (hd : d.graph.DistinctKeys) (hr : ofDocument d = .ok r) {name : String}
    {raw : Value} (hmem : (.text name, raw) ∈ r.schemas) (hslash : '/' ∉ name.toList)
    (hplain : Pointer.unescape name = name) : d.find (Pointer.componentHead ++ name) = .ok raw := by
  obtain ⟨-, hnil | ⟨v, hfind, hentries⟩⟩ := ofDocument_eq_ok hr
  · rw [hnil] at hmem
    exact absurd hmem List.not_mem_nil
  · have hhead : Pointer.componentHead ++ name = Pointer.child "#/components/schemas" name := rfl
    rw [hhead]
    refine find_entry hfind hentries hslash ?_
    rw [hplain]
    exact valueAt?_of_mem (hd.nodup hentries) hmem

/-- An error that shows components points at components, but for names with something to escape. -/
theorem ShowsAliases.find_or (hd : d.graph.DistinctKeys) (hr : ofDocument d = .ok r)
    {e : CompileError} (h : r.ShowsAliases e) {p : String} (hp : p ∈ e.pointers) :
    (∃ v, d.find p = .ok v) ∨ r.ShowsUnescaped e p := by
  have hshows := h
  obtain ⟨chain, hne, hnames, rfl⟩ := h
  have hmem : p ∈ chain.map (Pointer.componentHead ++ ·) := by
    rcases List.mem_append.1 hp with hp | hp
    · obtain ⟨first, rest, rfl⟩ := List.exists_cons_of_ne_nil hne
      rw [List.mem_singleton.1 hp]
      exact List.mem_cons_self
    · exact hp
  obtain ⟨name, hname, rfl⟩ := List.mem_map.1 hmem
  obtain ⟨raw, hraw⟩ := hnames name hname
  by_cases hescape : '/' ∈ name.toList ∨ Pointer.unescape name ≠ name
  · exact .inr ⟨hshows, name, raw, hraw, rfl, hescape⟩
  · obtain ⟨hslash, hplain⟩ := not_or.1 hescape
    exact .inl ⟨raw, find_componentHead hd hr hraw hslash (not_not.1 hplain)⟩

end Resolver

/-- The pointers that the errors of a compilation show, for a document of which the component schemas can be read. -/
theorem find_or_of_collect {d : Document} {r : Resolver} {c : Collected}
    (hd : d.graph.DistinctKeys) (hi : d.graph.Indexable) (hr : Resolver.ofDocument d = .ok r)
    (h : collect d = .ok c) {e : CompileError} (he : e ∈ c.errors) {p : String}
    (hp : p ∈ e.pointers) :
    (∃ v, d.find p = .ok v) ∨ r.BelowShownStatus p ∨ r.ShowsUnescaped e p := by
  obtain rfl := Resolver.document_of_ofDocument hr
  obtain ⟨typeErrors, operations, s, hrun, rfl⟩ := exists_run_of_collect hr h
  obtain ⟨hlocated, htypes, -⟩ := run_of_ofDocument hr
  rw [hrun] at hlocated htypes
  have hpoints (hinto : r.document.PointsInto r.Begins e) :
      (∃ v, r.document.find p = .ok v) ∨ r.BelowShownStatus p ∨ r.ShowsUnescaped e p := by
    obtain ⟨v, hv⟩ := hinto p hp
    rcases Resolver.StandsAt.find_or hd hi hv with hfind | hbelow
    · exact .inl ⟨v, hfind⟩
    · exact .inr (.inl hbelow)
  rcases List.mem_append.1 he with he | he
  · rcases List.mem_append.1 he with he | he
    · rcases hlocated.resolved.errors e he with hinto | hshows
      · exact hpoints hinto
      · exact (hshows.find_or hd hr hp).imp_right .inr
    · exact hpoints (htypes _ rfl e he)
  · exact hpoints (hlocated.errors e he)

/-- Every pointer that an error of a compilation shows leads to a value of the description, unless it is that of a
response with a status that is no text, or below, or it is shown for a loop of components and has a name in it that is
not escaped. No text is a key twice in a mapping, and no list has places that are too long to be read. -/
theorem compile_points {d : Document} {version : Option String} {errors : List CompileError}
    (hd : d.graph.DistinctKeys) (hi : d.graph.Indexable)
    (h : compile d version = .error (.errors errors)) :
    ∀ e ∈ errors, ∀ p ∈ e.pointers, (∃ v, d.find p = .ok v) ∨
      ∃ r, Resolver.ofDocument d = .ok r ∧ (r.BelowShownStatus p ∨ r.ShowsUnescaped e p) := by
  intro e he p hp
  rw [compile_eq] at h
  cases hcollect : collect d with
  | error b =>
    rw [hcollect] at h
    cases h
  | ok c =>
    rw [hcollect] at h
    dsimp only at h
    split_ifs at h
    cases h
    rcases hr : Resolver.ofDocument d with (e' | b) | r
    · simp only [collect, hr] at hcollect
      cases hcollect
      obtain rfl := List.mem_singleton.1 he
      obtain ⟨rfl, v, hv⟩ := Resolver.ofDocument_eq_error hr
      rw [List.mem_singleton.1 hp]
      exact .inl ⟨v, hv⟩
    · simp only [collect, hr] at hcollect
      cases hcollect
    · exact (find_or_of_collect hd hi hr hcollect he hp).imp_right fun h => ⟨r, rfl, h⟩

/-- A description with a component that is nothing but a reference to itself and has a slash in its name, and with a
response of which the status is a number. -/
def unnamableDocument : Document where
  graph := ⟨#[
    .mapping [(.text "components", .container 1), (.text "paths", .container 4)],
    .mapping [(.text "schemas", .container 2)],
    .mapping [(.text "A/B", .container 3)],
    .mapping [(.text "$ref", .scalar (.text "#/components/schemas/A~1B"))],
    .mapping [(.text "/x", .container 5)],
    .mapping [(.text "get", .container 6)],
    .mapping [(.text "responses", .container 7), (.text "requestBody", .container 9)],
    .mapping [(.int 200, .container 8)],
    .mapping [(.text "content", .container 10)],
    .mapping [],
    .mapping [(.text "text/html", .container 11)],
    .mapping [(.text "schema", .container 9)]]⟩
  root := .container 0

/-- The errors of the description: for the loop, for the body without content, and for the schema of the response. Of
their three pointers, only that of the body is found. -/
theorem compile_points_unnamableDocument :
    unnamableDocument.graph.DistinctKeys ∧ unnamableDocument.graph.Indexable ∧
      ∃ errors, compile unnamableDocument none = .error (.errors errors) ∧
        errors.map CompileError.location = [some "#/components/schemas/A/B",
          some "#/paths/~1x/get/requestBody",
          some "#/paths/~1x/get/responses/200/content/text~1html/schema"] ∧
        ∀ e ∈ errors, ∀ p ∈ e.pointers, (∃ v, unnamableDocument.find p = .ok v) ∨
          ∃ r, Resolver.ofDocument unnamableDocument = .ok r ∧
            (r.BelowShownStatus p ∨ r.ShowsUnescaped e p) := by
  have hd : unnamableDocument.graph.DistinctKeys := by decide +kernel
  have hi : unnamableDocument.graph.Indexable := by decide +kernel
  have hcompile : compile unnamableDocument none = .error (.errors [
      .cyclicSchema "#/components/schemas/A/B"
        ["#/components/schemas/A/B", "#/components/schemas/A/B"],
      .invalidBody .noContent "#/paths/~1x/get/requestBody",
      .malformedSchema .missingType
        "#/paths/~1x/get/responses/200/content/text~1html/schema"]) := by
    decide +kernel
  exact ⟨hd, hi, _, hcompile, rfl, compile_points hd hi hcompile⟩

end RouteBinding
