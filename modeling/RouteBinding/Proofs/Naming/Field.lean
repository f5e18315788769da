import RouteBinding.Proofs.Naming.Identifier

/-!
# Names of fields

A field name is an identifier of small letters, digits and single underscores that is no keyword. Every text has one,
which has the words of the text, and is its own field name (`fieldName_isField`). A field name is made of its words in
one way (`fieldOf`), so that the underscores which are put around them are found again where it is read as a text.
-/

namespace RouteBinding.Naming

open Text

variable {c : Char} {s : List Char} {ws : List (List Char)}

/-! ## Words in small letters -/

/-- Whether a character may stand in a word of a field name: a small letter or a digit of ASCII. -/
def isFieldChar (c : Char) : Bool :=
  isAsciiLower c || isAsciiDigit c

/-- A word of a field name. -/
def IsFieldWord (w : List Char) : Prop :=
  w ≠ [] ∧ ∀ c ∈ w, isFieldChar c

theorem isAsciiAlnum_of_isFieldChar (h : isFieldChar c) : isAsciiAlnum c := by
  rw [isFieldChar, Bool.or_eq_true] at h
  rw [isAsciiAlnum, isAsciiLetter, Bool.or_eq_true, Bool.or_eq_true]
  exact h.imp_left .inr

theorem IsFieldWord.isRun {w : List Char} (h : IsFieldWord w) : IsRun (fun c => !isAsciiAlnum c) w :=
  ⟨h.1, fun c hc => by rw [isAsciiAlnum_of_isFieldChar (h.2 c hc), Bool.not_true]⟩

/-- A text in lower case has its words in small letters. -/
theorem isFieldWord_of_mem_words {w : List Char} (hw : w ∈ words (lowerChars s)) : IsFieldWord w := by
  obtain ⟨hrun, hmem⟩ := mem_runs hw
  refine ⟨hrun.ne_nil, fun c hc => ?_⟩
  have halnum : isAsciiAlnum c := by simpa using hrun.outside c hc
  rwa [isAsciiAlnum, isAsciiLetter, isAsciiUpper_of_mem_lowerChars (hmem c hc), Bool.false_or] at halnum

/-- What may stand in a field name: what may stand in a word, and the underscore between words. -/
def IsFieldText (s : List Char) : Prop :=
  ∀ c ∈ s, isFieldChar c ∨ c = '_'

theorem IsFieldText.lower (h : IsFieldText s) : ∀ c ∈ s, c.toNat < 0x80 ∧ isAsciiUpper c = false := by
  intro c hc
  rcases h c hc with hchar | rfl
  · simp only [isFieldChar, isAsciiLower, isAsciiDigit, Bool.or_eq_true, Bool.and_eq_true, decide_eq_true_eq] at hchar
    simp only [isAsciiUpper, Bool.and_eq_false_iff, decide_eq_false_iff_not]
    omega
  · decide

/-- Without capitals there is no border inside a word. -/
theorem splitCase_of_lower (h : ∀ c ∈ s, isAsciiUpper c = false) : splitCase s = s := by
  induction s with
  | nil => rfl
  | cons a rest ih =>
    cases rest with
    | nil => rfl
    | cons b rest =>
      obtain ⟨-, hrest⟩ := List.forall_mem_cons.1 h
      have hb : isAsciiUpper b = false := hrest b List.mem_cons_self
      rw [splitCase, hb, ih hrest]
      simp

theorem isFieldText_joinChars (h : ∀ w ∈ ws, IsFieldWord w) : IsFieldText (joinChars '_' ws) := by
  intro c hc
  rcases mem_joinChars hc with rfl | ⟨w, hw, hcw⟩
  · exact .inr rfl
  · exact .inl ((h w hw).2 c hcw)

/-! ## Names made of words -/

/-- The words of the field name of a text: its own in small letters, and `param` if it has none. -/
def fieldWords (s : String) : List (List Char) :=
  let ws := words (lowerChars (splitCase s.toList))
  if ws.isEmpty then ["param".toList] else ws

/-- The field name that is made of some words. -/
def fieldOf (ws : List (List Char)) : String :=
  let name := guardDigit (joinChars '_' ws)
  String.ofList (if isKeyword (String.ofList name) then name ++ ['_'] else name)

theorem fieldWords_spec (s : String) : fieldWords s ≠ [] ∧ ∀ w ∈ fieldWords s, IsFieldWord w := by
  unfold fieldWords
  dsimp only
  split_ifs with hempty
  · refine ⟨List.cons_ne_nil _ _, fun w hw => ?_⟩
    rw [List.mem_singleton.1 hw]
    exact ⟨by decide, List.all_eq_true.1 (by decide)⟩
  · exact ⟨by simpa using hempty, fun w hw => isFieldWord_of_mem_words hw⟩

theorem fieldName_eq (s : String) : fieldName s = fieldOf (fieldWords s) := by
  -- a text has no word exactly where nothing is joined
  have hsame : (if (snakeCase s).isEmpty then "param".toList else snakeCase s) = joinChars '_' (fieldWords s) := by
    unfold fieldWords snakeCase
    dsimp only
    by_cases hempty : words (lowerChars (splitCase s.toList)) = []
    · rw [hempty]
      rfl
    · have hne : joinChars '_' (words (lowerChars (splitCase s.toList))) ≠ [] :=
        joinChars_ne_nil hempty fun w hw => (isFieldWord_of_mem_words hw).isRun
      rw [if_neg (by simpa using hne), if_neg (by simpa using hempty)]
  unfold fieldName fieldOf
  dsimp only
  rw [hsame]

/-- A name that can stand for a field: an identifier of small letters, digits and single underscores, but no keyword. -/
structure IsField (name : String) : Prop where
  ne_empty : name ≠ ""
  identifier : isIdentifier name
  notKeyword : isKeyword name = false
  characters : IsFieldText name.toList
  spaced : Spaced '_' name.toList

/-- What a field name is before it is told from the keywords. -/
structure IsFieldBody (s : List Char) : Prop where
  identifier : isIdentifierChars s
  characters : IsFieldText s
  spaced : Spaced '_' s
  last : s.getLast? ≠ some '_'

theorem isIdentifierContinue_of_isFieldText (h : IsFieldText s) : ∀ c ∈ s, isIdentifierContinue c := by
  intro c hc
  rcases h c hc with hchar | rfl
  · exact isIdentifierContinue_of_alnum (isAsciiAlnum_of_isFieldChar hchar)
  · exact isIdentifierContinue_underscore

section Words

variable (hne : ws ≠ []) (h : ∀ w ∈ ws, IsFieldWord w)

include h

theorem words_guardDigit : words (guardDigit (joinChars '_' ws)) = ws := by
  have hjoined : words (joinChars '_' ws) = ws := runs_joinChars rfl fun w hw => (h w hw).isRun
  rw [guardDigit_eq]
  split_ifs
  · exact (runs_cons_of_pos rfl).trans hjoined
  · exact hjoined

include hne

/-- A name that is made of words starts with a small letter, or with an underscore and a digit. -/
theorem isFieldBody_guardDigit : IsFieldBody (guardDigit (joinChars '_' ws)) := by
  have hruns : ∀ w ∈ ws, IsRun (fun c => !isAsciiAlnum c) w := fun w hw => (h w hw).isRun
  have htext : IsFieldText (joinChars '_' ws) := isFieldText_joinChars h
  have hne' : joinChars '_' ws ≠ [] := joinChars_ne_nil hne hruns
  obtain ⟨hspaced, hhead, hlast⟩ : Spaced '_' (joinChars '_' ws) ∧ (joinChars '_' ws).head? ≠ some '_' ∧
      (joinChars '_' ws).getLast? ≠ some '_' := spaced_joinChars rfl hruns
  obtain ⟨c, rest, hjoined⟩ := List.exists_cons_of_ne_nil hne'
  rw [hjoined] at htext hspaced hhead hlast ⊢
  obtain ⟨hc, hrest⟩ := List.forall_mem_cons.1 htext
  have hunderscore : c ≠ '_' := fun heq => hhead (congrArg some heq)
  rw [guardDigit_eq, List.head?_cons, Option.any_some]
  split_ifs with hdigit
  · refine ⟨isIdentifierChars_of_head rfl ?_, List.forall_mem_cons.2 ⟨.inr rfl, htext⟩, hspaced.cons hhead, ?_⟩
    · exact isIdentifierContinue_of_isFieldText (List.forall_mem_cons.2 ⟨.inr rfl, htext⟩)
    · rwa [List.getLast?_cons_of_ne_nil (List.cons_ne_nil c rest)]
  · have hletter : isAsciiLetter c := by
      have hchar := hc.resolve_right hunderscore
      rw [isFieldChar, Bool.or_eq_true] at hchar
      rw [isAsciiLetter, hchar.resolve_right hdigit, Bool.or_true]
    refine ⟨isIdentifierChars_of_head ?_ (isIdentifierContinue_of_isFieldText htext), htext, hspaced, hlast⟩
    exact isIdentifierStart_of_letter hletter

theorem isField_fieldOf : IsField (fieldOf ws) := by
  have hbody := isFieldBody_guardDigit hne h
  have hne_empty {s : List Char} (hs : isIdentifierChars s) : String.ofList s ≠ "" := by
    rintro heq
    rw [String.ofList_eq_empty_iff] at heq
    rw [heq] at hs
    cases hs
  unfold fieldOf
  dsimp only
  split_ifs with hkeyword
  · -- no keyword is another one with an underscore behind it
    have hnone : ∀ k ∈ keywords, isKeyword (k ++ "_") = false := by decide
    have hidentifier := isIdentifierChars_append hbody.identifier (t := ['_'])
      fun c hc => List.mem_singleton.1 hc ▸ isIdentifierContinue_underscore
    refine ⟨hne_empty hidentifier, ?_, ?_, ?_, ?_⟩
    · rwa [isIdentifier, String.toList_ofList]
    · rw [String.ofList_append]
      exact hnone _ (List.contains_iff_mem.1 hkeyword)
    · rw [String.toList_ofList]
      exact List.forall_mem_append.2 ⟨hbody.characters, fun c hc => .inr (List.mem_singleton.1 hc)⟩
    · rw [String.toList_ofList]
      exact hbody.spaced.concat hbody.last
  · refine ⟨hne_empty hbody.identifier, ?_, by simpa using hkeyword, ?_, ?_⟩
    · rw [isIdentifier, String.toList_ofList]
      exact hbody.identifier
    · rw [String.toList_ofList]
      exact hbody.characters
    · rw [String.toList_ofList]
      exact hbody.spaced

omit hne in
theorem words_fieldOf : words (fieldOf ws).toList = ws := by
  have hwords := words_guardDigit h
  unfold fieldOf
  dsimp only
  rw [String.toList_ofList]
  split_ifs
  · exact (runs_concat_of_pos rfl).trans hwords
  · exact hwords

/-- A field name is read as the words that it is made of. -/
theorem fieldName_fieldOf : fieldName (fieldOf ws) = fieldOf ws := by
  have hlower := (isField_fieldOf hne h).characters.lower
  have hwords : fieldWords (fieldOf ws) = ws := by
    unfold fieldWords
    dsimp only
    rw [splitCase_of_lower fun c hc => (hlower c hc).2, lowerChars_of_ascii hlower, words_fieldOf h,
      if_neg (by simpa using hne)]
  rw [fieldName_eq, hwords]

end Words

/-! ## The field name of a text -/

/-- The field name of a text can stand for a field, has the words of the text, and is its own field name. -/
theorem fieldName_isField (s : String) :
    IsField (fieldName s) ∧ words (fieldName s).toList = fieldWords s ∧
      fieldName (fieldName s) = fieldName s := by
  obtain ⟨hne, hwords⟩ := fieldWords_spec s
  rw [fieldName_eq s]
  exact ⟨isField_fieldOf hne hwords, words_fieldOf hwords, fieldName_fieldOf hne hwords⟩

end RouteBinding.Naming
