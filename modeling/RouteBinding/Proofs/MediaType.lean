import RouteBinding.MediaType
import RouteBinding.Proofs.Text.LetterCase
import RouteBinding.Proofs.Text.Split

/-!
# The spellings of a media type

A content type can be spelled with its letters in other cases, with blanks around its media type and with other
parameters. Two content types have one normal form exactly if the one is a spelling of the other (`normalize_eq_iff`).
-/

namespace RouteBinding

namespace Text

/-! ## Letter case -/

/-- A text with the letters of another in other cases: the ASCII ones in any case, or all of them if the lower case
stays the same. -/
inductive Recased (s : String) : String → Prop
  | ascii {t : String} (h : t.toLower = s.toLower) : Recased s t
  | lower {t : String} (h : Text.lower t = Text.lower s) : Recased s t

theorem Recased.lower_eq {s t : String} (h : Recased s t) : Text.lower t = Text.lower s := by
  cases h with
  | ascii h => rw [← lower_toLower t, h, lower_toLower]
  | lower h => exact h

end Text

namespace MediaType

variable {contentType request : String}

/-- The part of a content type that names its media type: what stands before the first semicolon, trimmed. -/
def bare (contentType : String) : String :=
  Text.trim (String.ofList (contentType.toList.takeWhile (· ≠ ';')))

theorem normalize_eq_lower : normalize contentType = Text.lower (bare contentType) :=
  rfl

/-- A spelling of a content type: its media type with its letters in other cases, between blanks, before parameters or
none. -/
inductive Spelling (contentType : String) : String → Prop
  | intro {before core after params : String} (hcore : Text.Recased (bare contentType) core)
      (hbefore : Text.isBlankText before) (hafter : Text.isBlankText after)
      (hparams : ∀ c ∈ params.toList.head?, c = ';') : Spelling contentType (before ++ core ++ after ++ params)

theorem semicolon_not_mem_bare (contentType : String) : ';' ∉ (bare contentType).toList := by
  intro h
  rw [bare, Text.trim, Text.strip, String.toList_ofList] at h
  have htaken := Text.mem_of_mem_stripChars h
  rw [String.toList_ofList] at htaken
  have hne := List.mem_takeWhile_imp htaken
  simp at hne

theorem trimmed_bare (contentType : String) : Text.Trimmed Text.isBlank (bare contentType).toList := by
  rw [bare, Text.trim, Text.strip, String.toList_ofList]
  exact Text.trimmed_stripChars _ _

theorem ne_semicolon_of_isBlank {c : Char} (h : Text.isBlank c) : c ≠ ';' := by
  rintro rfl
  revert h
  decide

/-- Blanks and parameters around the part of a content type that names its media type do not belong to it. -/
theorem bare_append {before core after params : String} (hbefore : Text.isBlankText before)
    (hafter : Text.isBlankText after) (hparams : ∀ c ∈ params.toList.head?, c = ';') (hcore : ';' ∉ core.toList)
    (htrimmed : Text.Trimmed Text.isBlank core.toList) : bare (before ++ core ++ after ++ params) = core := by
  have hblankBefore : ∀ c ∈ before.toList, Text.isBlank c := List.all_eq_true.1 hbefore
  have hblankAfter : ∀ c ∈ after.toList, Text.isBlank c := List.all_eq_true.1 hafter
  have hname : ∀ c ∈ before.toList ++ core.toList ++ after.toList, decide (c ≠ ';') = true := by
    intro c hc
    rw [decide_eq_true_eq]
    simp only [List.mem_append] at hc
    rcases hc with (hc | hc) | hc
    · exact ne_semicolon_of_isBlank (hblankBefore c hc)
    · exact fun heq => hcore (heq ▸ hc)
    · exact ne_semicolon_of_isBlank (hblankAfter c hc)
  have hrest : params.toList.takeWhile (fun c => decide (c ≠ ';')) = [] := by
    cases hlist : params.toList with
    | nil => rfl
    | cons c rest =>
      have hc : c = ';' := hparams c (by rw [hlist]; rfl)
      rw [hc]
      rfl
  rw [bare, String.toList_append, String.toList_append, String.toList_append, List.takeWhile_append_of_pos hname,
    hrest, List.append_nil, Text.trim, Text.strip, String.toList_ofList,
    Text.stripChars_append hblankBefore hblankAfter, Text.stripChars_of_trimmed htrimmed, String.ofList_toList]

theorem exists_eq_append_bare (contentType : String) : ∃ before after params : String,
    Text.isBlankText before ∧ Text.isBlankText after ∧ (∀ c ∈ params.toList.head?, c = ';') ∧
      contentType = before ++ bare contentType ++ after ++ params := by
  let name := contentType.toList.takeWhile (· ≠ ';')
  refine ⟨String.ofList (name.takeWhile Text.isBlank),
    String.ofList ((name.dropWhile Text.isBlank).rtakeWhile Text.isBlank),
    String.ofList (contentType.toList.dropWhile (· ≠ ';')), ?_, ?_, ?_, ?_⟩
  · rw [Text.isBlankText, String.toList_ofList]
    exact List.all_eq_true.2 fun c => List.mem_takeWhile_imp
  · rw [Text.isBlankText, String.toList_ofList]
    exact List.all_eq_true.2 fun c => List.mem_rtakeWhile_imp
  · intro c hc
    have hfirst := List.head?_dropWhile_not (fun c => decide (c ≠ ';')) contentType.toList
    rw [String.toList_ofList] at hc
    rw [hc] at hfirst
    simpa using hfirst
  · have hparts := List.takeWhile_append_dropWhile (p := fun c => decide (c ≠ ';')) (l := contentType.toList)
    have hname := Text.eq_append_stripChars Text.isBlank name
    rw [bare, Text.trim, Text.strip, String.toList_ofList, ← String.ofList_append, ← String.ofList_append, ← hname,
      ← String.ofList_append, hparts, String.ofList_toList]

/-- All spellings of a content type have its normal form. -/
theorem normalize_of_spelling (h : Spelling contentType request) : normalize request = normalize contentType := by
  cases h with
  | @intro before core after params hcore hbefore hafter hparams =>
    have hlower : Text.lower core = normalize contentType := hcore.lower_eq
    have hchars : Text.lowerChars core.toList = Text.lowerChars (bare contentType).toList := by
      have hlists := congrArg String.toList hlower
      rwa [normalize_eq_lower, Text.lower, Text.lower, String.toList_ofList, String.toList_ofList] at hlists
    have hsemicolon : ';' ∉ core.toList := by
      have hany : core.toList.any (· == ';') = (bare contentType).toList.any (· == ';') := by
        rw [← Text.any_lowerChars Text.LetterCase.kept_semicolon, hchars,
          Text.any_lowerChars Text.LetterCase.kept_semicolon]
      intro hmem
      have hfound : (bare contentType).toList.any (· == ';') = true :=
        hany ▸ List.any_eq_true.2 ⟨';', hmem, beq_self_eq_true _⟩
      obtain ⟨c, hc, heq⟩ := List.any_eq_true.1 hfound
      exact semicolon_not_mem_bare contentType (eq_of_beq heq ▸ hc)
    have htrimmed : Text.Trimmed Text.isBlank core.toList := by
      rw [← Text.trimmed_lowerChars, hchars, Text.trimmed_lowerChars]
      exact trimmed_bare contentType
    rw [normalize_eq_lower, bare_append hbefore hafter hparams hsemicolon htrimmed, hlower]

/-- Every content type is a spelling of those with its normal form. -/
theorem spelling_of_normalize_eq (h : normalize request = normalize contentType) : Spelling contentType request := by
  obtain ⟨before, after, params, hbefore, hafter, hparams, hrequest⟩ := exists_eq_append_bare request
  rw [hrequest]
  exact Spelling.intro (Text.Recased.lower h) hbefore hafter hparams

theorem normalize_eq_iff : normalize request = normalize contentType ↔ Spelling contentType request :=
  ⟨spelling_of_normalize_eq, normalize_of_spelling⟩

end MediaType

end RouteBinding
