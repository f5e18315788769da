import Mathlib.Data.List.Basic
import RouteBinding.PathTemplate
import RouteBinding.Proofs.Pointer
import RouteBinding.Proofs.Text.Split

/-!
# Templates that differ in the names of placeholders

A placeholder stands between an opening brace and the next brace, if that one closes, anywhere in a path. Two templates
are compared in another way, by their segments: there only a whole segment between braces is a placeholder, and slashes
at the ends do not count. The two ways agree on templates whose placeholders are whole segments and that have the same
slashes at their ends (`mismatch?_eq`).
-/

namespace RouteBinding.PathTemplate

variable {opened : Option (List Char)} {names : List String} {s t : List Char} {a b : String}

/-! ## Renaming -/

/-- What has been read since an opening brace, with it. -/
def pending : Option (List Char) → List Char
  | some name => '\x7b' :: name.reverse
  | none => []

/-- The rest of a template with its placeholders renamed, each to the next of the names; without a name left its
placeholders are blank. -/
def renameFrom (opened : Option (List Char)) (names : List String) : List Char → List Char
  | [] => pending opened
  | c :: rest =>
    if c = '\x7b' then pending opened ++ renameFrom (some []) names rest
    else if c = '\x7d' then
      match opened with
      | some _ => '\x7b' :: (names.headD "").toList ++ '\x7d' :: renameFrom none names.tail rest
      | none => '\x7d' :: renameFrom none names rest
    else match opened with
      | some name => renameFrom (some (c :: name)) names rest
      | none => c :: renameFrom none names rest

/-- A template with other names for its placeholders, in order. -/
def rename (names : List String) (path : String) : String :=
  String.ofList (renameFrom none names path.toList)

/-- A template with nothing between the braces of its placeholders. -/
def blank (path : String) : String :=
  rename [] path

/-- Whether a character is a brace. -/
def isBrace (c : Char) : Bool :=
  c == '\x7b' || c == '\x7d'

section Equations

variable {c : Char} {name rest : List Char}

/-- The next character of a template being renamed: an opening brace, a closing one or any other. -/
theorem renameFrom_cons : renameFrom opened names (c :: rest) =
    if c = '\x7b' then pending opened ++ renameFrom (some []) names rest
    else if c = '\x7d' then
      match opened with
      | some _ => '\x7b' :: (names.headD "").toList ++ '\x7d' :: renameFrom none names.tail rest
      | none => '\x7d' :: renameFrom none names rest
    else match opened with
      | some name => renameFrom (some (c :: name)) names rest
      | none => c :: renameFrom none names rest :=
  rfl

/-- The next character of a template whose placeholders are being read. -/
theorem placeholdersFrom_cons : placeholdersFrom opened (c :: rest) =
    if c = '\x7b' then placeholdersFrom (some []) rest
    else if c = '\x7d' then
      match opened with
      | some name => String.ofList name.reverse :: placeholdersFrom none rest
      | none => placeholdersFrom none rest
    else placeholdersFrom (opened.map (c :: ·)) rest :=
  rfl

theorem renameFrom_open :
    renameFrom opened names ('\x7b' :: rest) = pending opened ++ renameFrom (some []) names rest :=
  rfl

/-- A closing brace ends a placeholder, which gets the next of the names. -/
theorem renameFrom_close :
    renameFrom (some name) names ('\x7d' :: rest) =
      '\x7b' :: (names.headD "").toList ++ '\x7d' :: renameFrom none names.tail rest :=
  rfl

/-- Outside a placeholder every character stays, but for an opening brace. -/
theorem renameFrom_outside (h : c ≠ '\x7b') : renameFrom none names (c :: rest) = c :: renameFrom none names rest := by
  rw [renameFrom_cons, if_neg h]
  split
  · rename_i hclose
    rw [hclose]
  · rfl

/-- A character between braces waits for the closing one. -/
theorem renameFrom_inside (h : isBrace c = false) :
    renameFrom (some name) names (c :: rest) = renameFrom (some (c :: name)) names rest := by
  simp only [isBrace, Bool.or_eq_false_iff, beq_eq_false_iff_ne] at h
  rw [renameFrom_cons, if_neg h.1, if_neg h.2]

theorem placeholdersFrom_open :
    placeholdersFrom opened ('\x7b' :: rest) = placeholdersFrom (some []) rest :=
  rfl

/-- A closing brace ends a placeholder, whose name is what was read since the opening one. -/
theorem placeholdersFrom_close :
    placeholdersFrom (some name) ('\x7d' :: rest) = String.ofList name.reverse :: placeholdersFrom none rest :=
  rfl

theorem placeholdersFrom_outside (h : c ≠ '\x7b') :
    placeholdersFrom none (c :: rest) = placeholdersFrom none rest := by
  rw [placeholdersFrom_cons, if_neg h]
  split
  · rfl
  · rfl

theorem placeholdersFrom_inside (h : isBrace c = false) :
    placeholdersFrom (some name) (c :: rest) = placeholdersFrom (some (c :: name)) rest := by
  simp only [isBrace, Bool.or_eq_false_iff, beq_eq_false_iff_ne] at h
  rw [placeholdersFrom_cons, if_neg h.1, if_neg h.2, Option.map_some]

end Equations

/-- The characters of a template, one by one: an opening brace, a closing one or neither. -/
theorem brace_cases (c : Char) : c = '\x7b' ∨ c = '\x7d' ∨ isBrace c = false := by
  unfold isBrace
  by_cases hopen : c = '\x7b'
  · exact Or.inl hopen
  by_cases hclose : c = '\x7d'
  · exact Or.inr (Or.inl hclose)
  · exact Or.inr (Or.inr (by simp [hopen, hclose]))

theorem ne_open_of_isBrace {c : Char} (h : isBrace c = false) : c ≠ '\x7b' := by
  rintro rfl
  cases h

/-- With the names that it has, the rest of a template stays as it is. -/
theorem renameFrom_placeholdersFrom :
    renameFrom opened (placeholdersFrom opened s) s = pending opened ++ s := by
  induction s generalizing opened with
  | nil => exact (List.append_nil _).symm
  | cons c rest ih =>
    rcases brace_cases c with rfl | rfl | hc
    · rw [placeholdersFrom_open, renameFrom_open, ih]
      rfl
    · cases opened with
      | none =>
        rw [placeholdersFrom_outside (by decide), renameFrom_outside (by decide), ih]
        rfl
      | some name =>
        rw [placeholdersFrom_close, renameFrom_close, List.tail_cons, ih, List.headD_cons, String.toList_ofList]
        rfl
    · cases opened with
      | none =>
        rw [placeholdersFrom_outside (ne_open_of_isBrace hc), renameFrom_outside (ne_open_of_isBrace hc), ih]
        rfl
      | some name =>
        rw [placeholdersFrom_inside hc, renameFrom_inside hc, ih]
        simp [pending]

/-- Renamed to their own names, the placeholders stay. -/
theorem rename_placeholders (path : String) : rename (placeholders path) path = path := by
  rw [rename, placeholders, renameFrom_placeholdersFrom, pending, List.nil_append, String.ofList_toList]

/-- What holds no opening brace stays. -/
theorem renameFrom_append (h : '\x7b' ∉ s) : renameFrom none names (s ++ t) = s ++ renameFrom none names t := by
  induction s with
  | nil => rfl
  | cons c rest ih =>
    rw [List.mem_cons, not_or] at h
    rw [List.cons_append, renameFrom_outside (Ne.symm h.1), ih h.2]
    rfl

/-- What holds no brace is read into an open placeholder. -/
theorem renameFrom_name {name : List Char} (h : ∀ c ∈ s, isBrace c = false) :
    renameFrom (some name) names (s ++ t) = renameFrom (some (s.reverse ++ name)) names t := by
  induction s generalizing name with
  | nil => rfl
  | cons c rest ih =>
    rw [List.cons_append, renameFrom_inside (h c List.mem_cons_self),
      ih fun d hd => h d (List.mem_cons_of_mem c hd)]
    simp

theorem placeholdersFrom_append (h : '\x7b' ∉ s) : placeholdersFrom none (s ++ t) = placeholdersFrom none t := by
  induction s with
  | nil => rfl
  | cons c rest ih =>
    rw [List.mem_cons, not_or] at h
    rw [List.cons_append, placeholdersFrom_outside (Ne.symm h.1), ih h.2]

/-- What holds no brace is read into the name of an open placeholder. -/
theorem placeholdersFrom_name {name : List Char} (h : ∀ c ∈ s, isBrace c = false) :
    placeholdersFrom (some name) (s ++ t) = placeholdersFrom (some (s.reverse ++ name)) t := by
  induction s generalizing name with
  | nil => rfl
  | cons c rest ih =>
    rw [List.cons_append, placeholdersFrom_inside (h c List.mem_cons_self),
      ih fun d hd => h d (List.mem_cons_of_mem c hd)]
    simp

/-- An opening brace that no closing one has followed is read again as it was. -/
theorem renameFrom_pending (h : ∀ name ∈ opened, ∀ c ∈ name, isBrace c = false) :
    renameFrom none names (pending opened ++ s) = renameFrom opened names s := by
  cases opened with
  | none => rfl
  | some name =>
    have hname : ∀ c ∈ name.reverse, isBrace c = false := fun c hc => h name rfl c (List.mem_reverse.1 hc)
    calc renameFrom none names (pending (some name) ++ s)
        = renameFrom (some []) names (name.reverse ++ s) := rfl
      _ = renameFrom (some name) names s := by
        rw [renameFrom_name hname, List.reverse_reverse, List.append_nil]

/-- Inside a placeholder the brace that opened it is kept. -/
theorem exists_renameFrom_some (name : List Char) (names : List String) (s : List Char) :
    ∃ t, renameFrom (some name) names s = '\x7b' :: t := by
  induction s generalizing name with
  | nil => exact ⟨_, rfl⟩
  | cons c rest ih =>
    rcases brace_cases c with rfl | rfl | hc
    · exact ⟨_, renameFrom_open⟩
    · exact ⟨_, renameFrom_close⟩
    · rw [renameFrom_inside hc]
      exact ih _

/-- Renaming what has been blanked gives the names that renaming the template gives. -/
theorem renameFrom_blank (h : ∀ name ∈ opened, ∀ c ∈ name, isBrace c = false) :
    renameFrom none names (renameFrom opened [] s) = renameFrom opened names s := by
  have hnone : ∀ name ∈ (none : Option (List Char)), ∀ c ∈ name, isBrace c = false := nofun
  have hempty : ∀ name ∈ some ([] : List Char), ∀ c ∈ name, isBrace c = false := by
    rintro name ⟨⟩ c hc
    cases hc
  induction s generalizing opened names with
  | nil =>
    have hpending : renameFrom none names (pending opened ++ []) = renameFrom opened names [] := renameFrom_pending h
    rwa [List.append_nil] at hpending
  | cons c rest ih =>
    rcases brace_cases c with rfl | rfl | hc
    · obtain ⟨t, ht⟩ := exists_renameFrom_some [] [] rest
      rw [renameFrom_open, renameFrom_open, ht, renameFrom_pending h, renameFrom_open, ← ih hempty, ht,
        renameFrom_open]
      rfl
    · cases opened with
      | none =>
        rw [renameFrom_outside (by decide), renameFrom_outside (by decide), renameFrom_outside (by decide), ih hnone]
      | some name =>
        show renameFrom none names ('\x7b' :: '\x7d' :: renameFrom none [] rest) = _
        rw [renameFrom_open, renameFrom_close, renameFrom_close, ih hnone]
        rfl
    · cases opened with
      | none =>
        rw [renameFrom_outside (ne_open_of_isBrace hc), renameFrom_outside (ne_open_of_isBrace hc),
          renameFrom_outside (ne_open_of_isBrace hc), ih hnone]
      | some name =>
        rw [renameFrom_inside hc, renameFrom_inside hc, ih]
        rintro _ ⟨⟩ d hd
        rcases List.mem_cons.1 hd with rfl | hd
        · exact hc
        · exact h name rfl d hd

/-- A template and its blank form have the same renamed forms. -/
theorem rename_blank (names : List String) (path : String) : rename names (blank path) = rename names path := by
  rw [rename, blank, rename, String.toList_ofList, renameFrom_blank (by simp), rename]

/-- If two templates differ only in the names of placeholders, renaming those of the one gives the other. -/
theorem rename_of_blank_eq (h : blank a = blank b) : rename (placeholders b) a = b := by
  rw [← rename_blank, h, rename_blank, rename_placeholders]

/-! ## Segments -/

/-- A segment with nothing between its braces, if it is a placeholder. -/
def blankSegment (segment : String) : String :=
  if isPlaceholder segment then "\x7b\x7d" else segment

/-- The names of the segments that are placeholders. -/
def segmentNames (segments : List String) : List String :=
  (segments.filter isPlaceholder).map inner

/-- The first pair of names that differ at one place of two lists. -/
def firstDifferent? (ours theirs : List String) : Option (String × String) :=
  (ours.zip theirs).find? fun names => names.1 ≠ names.2

/-- A placeholder is what is inside its braces, between them. -/
theorem toList_of_isPlaceholder {segment : String} (h : isPlaceholder segment) :
    segment.toList = '\x7b' :: (inner segment).toList ++ ['\x7d'] := by
  simp only [isPlaceholder, Text.startsWith, Text.endsWith, Bool.and_eq_true, List.isPrefixOf_iff_prefix,
    List.isSuffixOf_iff_suffix] at h
  obtain ⟨⟨t, ht⟩, u, hu⟩ := h
  change '\x7b' :: t = segment.toList at ht
  change u ++ ['\x7d'] = segment.toList at hu
  cases u with
  | nil =>
    rw [← ht] at hu
    cases hu
  | cons c name =>
    rw [← hu, List.cons_append, List.cons.injEq] at ht
    rw [inner, ← hu, String.toList_ofList, ← ht.1]
    simp

variable {ours theirs : String}

/-- Placeholders are the same if they have the same name. -/
theorem inner_inj (hours : isPlaceholder ours) (htheirs : isPlaceholder theirs) :
    inner ours = inner theirs ↔ ours = theirs := by
  refine ⟨fun h => String.toList_injective ?_, congrArg inner⟩
  rw [toList_of_isPlaceholder hours, toList_of_isPlaceholder htheirs, h]

/-- Two segments have one blank form if both are placeholders, or neither is and they are the same. -/
theorem blankSegment_eq_iff : blankSegment ours = blankSegment theirs ↔
    isPlaceholder ours = isPlaceholder theirs ∧ (isPlaceholder ours = false → ours = theirs) := by
  have hbraces : isPlaceholder "\x7b\x7d" = true := by decide
  unfold blankSegment
  by_cases hours : isPlaceholder ours = true
  · by_cases htheirs : isPlaceholder theirs = true
    · simp [hours, htheirs]
    · rw [if_pos hours, if_neg htheirs]
      refine ⟨fun h => absurd (h ▸ hbraces) htheirs, fun h => absurd (h.1 ▸ hours) htheirs⟩
  · by_cases htheirs : isPlaceholder theirs = true
    · rw [if_neg hours, if_pos htheirs]
      refine ⟨fun h => absurd (h ▸ hbraces) hours, fun h => absurd (h.1 ▸ htheirs) hours⟩
    · simp [hours, htheirs]

theorem segmentNames_cons_of_pos {segment : String} {rest : List String} (h : isPlaceholder segment) :
    segmentNames (segment :: rest) = inner segment :: segmentNames rest := by
  rw [segmentNames, List.filter_cons_of_pos h, List.map_cons, segmentNames]

theorem segmentNames_cons_of_neg {segment : String} {rest : List String} (h : ¬isPlaceholder segment) :
    segmentNames (segment :: rest) = segmentNames rest := by
  rw [segmentNames, List.filter_cons_of_neg h, segmentNames]

/-- Two lists of names first differ at their heads or behind them. -/
theorem firstDifferent?_cons {our their : String} {restOurs restTheirs : List String} :
    firstDifferent? (our :: restOurs) (their :: restTheirs) =
      if our = their then firstDifferent? restOurs restTheirs else some (our, their) := by
  unfold firstDifferent?
  rw [List.zip_cons_cons]
  split
  · rename_i heq
    exact List.find?_cons_of_neg (by simp [heq])
  · rename_i hne
    exact List.find?_cons_of_pos (by simp [hne])

/-- Segments that agree but for placeholders first differ here, unless they are the same. -/
theorem firstDifference?_cons {our their : String} {restOurs restTheirs : List String}
    (h : blankSegment our = blankSegment their) :
    firstDifference? (our :: restOurs) (their :: restTheirs) =
      (firstDifference? restOurs restTheirs).map fun later =>
        if our ≠ their then some (inner our, inner their) else later := by
  obtain ⟨hkind, hliteral⟩ := blankSegment_eq_iff.1 h
  have hsame : (isPlaceholder our != isPlaceholder their) = false := by simp [hkind]
  have hequal : (!isPlaceholder our && decide (our ≠ their)) = false := by
    by_cases hour : isPlaceholder our = true
    · simp [hour]
    · simp [hliteral (Bool.eq_false_iff.2 hour)]
  rw [firstDifference?, if_neg (by simp [hsame]), if_neg (by simpa using hequal)]
  cases firstDifference? restOurs restTheirs with
  | none => rfl
  | some later => rfl

/-- Segments that differ in more than the name of a placeholder leave no first difference. -/
theorem firstDifference?_cons_eq_none {our their : String} {restOurs restTheirs : List String}
    (h : blankSegment our ≠ blankSegment their) :
    firstDifference? (our :: restOurs) (their :: restTheirs) = none := by
  rw [Ne, blankSegment_eq_iff, not_and_or] at h
  rw [firstDifference?]
  rcases h with hkind | hliteral
  · rw [if_pos (by simpa using hkind)]
  · rw [Classical.not_imp] at hliteral
    split
    · rfl
    · rw [if_pos (by simpa using hliteral)]

theorem firstDifferent?_segmentNames_cons {our their : String} {restOurs restTheirs : List String}
    (h : blankSegment our = blankSegment their) :
    firstDifferent? (segmentNames (our :: restOurs)) (segmentNames (their :: restTheirs)) =
      if our ≠ their then some (inner our, inner their)
      else firstDifferent? (segmentNames restOurs) (segmentNames restTheirs) := by
  obtain ⟨hkind, hliteral⟩ := blankSegment_eq_iff.1 h
  by_cases hour : isPlaceholder our = true
  · have htheir : isPlaceholder their = true := hkind ▸ hour
    rw [segmentNames_cons_of_pos hour, segmentNames_cons_of_pos htheir, firstDifferent?_cons, ite_not]
    simp only [inner_inj hour htheir]
  · have hsame : our = their := hliteral (Bool.eq_false_iff.2 hour)
    rw [if_neg (by simpa using hsame), segmentNames_cons_of_neg hour, segmentNames_cons_of_neg (hsame ▸ hour)]

/-- Two lists of segments that agree but for placeholders first differ in the names of these that first differ. -/
theorem firstDifference?_eq (ours theirs : List String) : firstDifference? ours theirs =
    if ours.map blankSegment = theirs.map blankSegment then
      some (firstDifferent? (segmentNames ours) (segmentNames theirs)) else none := by
  induction ours generalizing theirs with
  | nil =>
    cases theirs with
    | nil => rfl
    | cons their rest => rfl
  | cons our restOurs ih =>
    cases theirs with
    | nil => rfl
    | cons their restTheirs =>
      rw [List.map_cons, List.map_cons]
      by_cases hhead : blankSegment our = blankSegment their
      · rw [firstDifference?_cons hhead, firstDifferent?_segmentNames_cons hhead, ih]
        by_cases htail : restOurs.map blankSegment = restTheirs.map blankSegment
        · rw [if_pos htail, if_pos (by rw [hhead, htail]), Option.map_some]
        · rw [if_neg htail, if_neg fun h => htail (List.cons.inj h).2, Option.map_none]
      · rw [firstDifference?_cons_eq_none hhead, if_neg fun h => hhead (List.cons.inj h).1]

/-- Segments that agree but for placeholders, and in the names of these, are the same. -/
theorem eq_of_firstDifferent?_eq_none {ours theirs : List String}
    (hshape : ours.map blankSegment = theirs.map blankSegment)
    (hnone : firstDifferent? (segmentNames ours) (segmentNames theirs) = none) : ours = theirs := by
  induction ours generalizing theirs with
  | nil => exact (List.map_eq_nil_iff.1 hshape.symm).symm
  | cons our restOurs ih =>
    cases theirs with
    | nil => cases hshape
    | cons their restTheirs =>
      obtain ⟨hhead, htail⟩ := List.cons.inj hshape
      rw [firstDifferent?_segmentNames_cons hhead] at hnone
      by_cases hsame : our = their
      · rw [if_neg (by simpa using hsame)] at hnone
        rw [hsame, ih htail hnone]
      · rw [if_pos hsame] at hnone
        cases hnone

/-! ## Whole segments -/

/-- A segment is a placeholder without braces inside, or no placeholder starts in it. -/
def WholeSegment (segment : String) : Prop :=
  (isPlaceholder segment ∧ (inner segment).toList.any isBrace = false) ∨ '\x7b' ∉ segment.toList

instance (segment : String) : Decidable (WholeSegment segment) :=
  inferInstanceAs (Decidable ((isPlaceholder segment ∧ (inner segment).toList.any isBrace = false) ∨
    '\x7b' ∉ segment.toList))

/-- The placeholders of a template are whole segments. -/
def Whole (path : String) : Prop :=
  ∀ segment ∈ segments path, WholeSegment segment

instance (path : String) : Decidable (Whole path) :=
  inferInstanceAs (Decidable (∀ segment ∈ segments path, WholeSegment segment))

/-- The slashes at the start and at the end of a path. -/
def ends (path : String) : List Char × List Char :=
  (path.toList.takeWhile (· = '/'), (path.toList.dropWhile (· = '/')).rtakeWhile (· = '/'))

/-- Two templates whose placeholders are whole segments, with the same slashes at their ends. -/
structure Comparable (a b : String) : Prop where
  left : Whole a
  right : Whole b
  ends : ends a = ends b

instance (a b : String) : Decidable (Comparable a b) :=
  decidable_of_iff (Whole a ∧ Whole b ∧ PathTemplate.ends a = PathTemplate.ends b)
    ⟨fun h => ⟨h.1, h.2.1, h.2.2⟩, fun h => ⟨h.left, h.right, h.ends⟩⟩

/-- A path is its segments, with slashes between them and at its ends. -/
theorem toList_eq (path : String) : path.toList =
    (ends path).1 ++ Text.joinChars '/' ((segments path).map String.toList) ++ (ends path).2 := by
  have hsegments : (segments path).map String.toList = Text.splitChars '/' (Text.stripChars (· = '/') path.toList) := by
    rw [segments, Text.split, Text.strip, String.toList_ofList, List.map_map]
    simp [Function.comp_def]
  rw [hsegments, Text.joinChars_splitChars]
  exact Text.eq_append_stripChars (· = '/') path.toList

/-- Without an opening brace a segment is no placeholder. -/
theorem not_isPlaceholder {segment : String} (h : '\x7b' ∉ segment.toList) : ¬isPlaceholder segment := by
  intro hplaceholder
  apply h
  rw [toList_of_isPlaceholder hplaceholder]
  exact List.mem_cons_self

/-- The placeholders of a whole segment are read before those of the rest. -/
theorem WholeSegment.placeholdersFrom_append {segment : String} (h : WholeSegment segment) (rest : List Char) :
    placeholdersFrom none (segment.toList ++ rest) = segmentNames [segment] ++ placeholdersFrom none rest := by
  rcases h with ⟨hplaceholder, hbraces⟩ | hliteral
  · have hname : ∀ c ∈ (inner segment).toList, isBrace c = false := by simpa using hbraces
    calc placeholdersFrom none (segment.toList ++ rest)
        = placeholdersFrom (some []) ((inner segment).toList ++ '\x7d' :: rest) := by
          rw [toList_of_isPlaceholder hplaceholder, List.append_assoc, List.cons_append, placeholdersFrom_open,
            List.singleton_append]
      _ = inner segment :: placeholdersFrom none rest := by
          rw [placeholdersFrom_name hname, List.append_nil, placeholdersFrom_close, List.reverse_reverse,
            String.ofList_toList]
      _ = segmentNames [segment] ++ placeholdersFrom none rest := by
          rw [segmentNames_cons_of_pos hplaceholder]
          rfl
  · rw [PathTemplate.placeholdersFrom_append hliteral, segmentNames_cons_of_neg (not_isPlaceholder hliteral)]
    rfl

/-- A whole segment is blanked on its own. -/
theorem WholeSegment.renameFrom_append {segment : String} (h : WholeSegment segment) (rest : List Char) :
    renameFrom none [] (segment.toList ++ rest) = (blankSegment segment).toList ++ renameFrom none [] rest := by
  rcases h with ⟨hplaceholder, hbraces⟩ | hliteral
  · have hname : ∀ c ∈ (inner segment).toList, isBrace c = false := by simpa using hbraces
    calc renameFrom none [] (segment.toList ++ rest)
        = renameFrom (some []) [] ((inner segment).toList ++ '\x7d' :: rest) := by
          rw [toList_of_isPlaceholder hplaceholder, List.append_assoc, List.cons_append, renameFrom_open,
            List.singleton_append, pending, List.nil_append]
      _ = '\x7b' :: '\x7d' :: renameFrom none [] rest := by
          rw [renameFrom_name hname, renameFrom_close]
          rfl
      _ = (blankSegment segment).toList ++ renameFrom none [] rest := by
          rw [blankSegment, if_pos hplaceholder]
          rfl
  · rw [PathTemplate.renameFrom_append hliteral, blankSegment, if_neg (not_isPlaceholder hliteral)]

/-- The placeholders of whole segments are their names. -/
theorem placeholdersFrom_joinChars {segments : List String} (h : ∀ segment ∈ segments, WholeSegment segment)
    (rest : List Char) : placeholdersFrom none (Text.joinChars '/' (segments.map String.toList) ++ rest) =
      segmentNames segments ++ placeholdersFrom none rest := by
  induction segments with
  | nil => rfl
  | cons segment later ih =>
    obtain ⟨hsegment, hlater⟩ := List.forall_mem_cons.1 h
    cases later with
    | nil => exact hsegment.placeholdersFrom_append rest
    | cons next later =>
      have hnames : segmentNames (segment :: next :: later) =
          segmentNames [segment] ++ segmentNames (next :: later) := by
        rw [segmentNames, segmentNames, segmentNames, ← List.map_append, ← List.filter_append]
        rfl
      rw [List.map_cons, List.map_cons, Text.joinChars, List.append_assoc, hsegment.placeholdersFrom_append,
        List.cons_append, placeholdersFrom_outside (by decide), ← List.map_cons, ih hlater, hnames, List.append_assoc]

/-- Whole segments are blanked one by one. -/
theorem renameFrom_joinChars {segments : List String} (h : ∀ segment ∈ segments, WholeSegment segment)
    (rest : List Char) : renameFrom none [] (Text.joinChars '/' (segments.map String.toList) ++ rest) =
      Text.joinChars '/' ((segments.map blankSegment).map String.toList) ++ renameFrom none [] rest := by
  induction segments with
  | nil => rfl
  | cons segment later ih =>
    obtain ⟨hsegment, hlater⟩ := List.forall_mem_cons.1 h
    cases later with
    | nil => exact hsegment.renameFrom_append rest
    | cons next later =>
      have hrest := ih hlater
      simp only [List.map_cons] at hrest
      simp only [List.map_cons, Text.joinChars, List.append_assoc, List.cons_append]
      rw [hsegment.renameFrom_append, renameFrom_outside (by decide), hrest]

/-- The slashes at the ends of a path hold no brace. -/
theorem open_notMem_ends (path : String) : '\x7b' ∉ (ends path).1 ∧ '\x7b' ∉ (ends path).2 := by
  refine ⟨fun h => ?_, fun h => ?_⟩
  · have hslash := List.mem_takeWhile_imp h
    exact absurd hslash (by decide)
  · have hslash := List.mem_rtakeWhile_imp h
    exact absurd hslash (by decide)

/-- The placeholders of a template are its segments that are placeholders, if it has no others. -/
theorem Whole.placeholders_eq {path : String} (h : Whole path) : placeholders path = segmentNames (segments path) := by
  have hend : placeholdersFrom none (ends path).2 = [] := by
    have hdropped := placeholdersFrom_append (t := []) (open_notMem_ends path).2
    rwa [List.append_nil] at hdropped
  rw [placeholders, toList_eq, List.append_assoc, placeholdersFrom_append (open_notMem_ends path).1,
    placeholdersFrom_joinChars h, hend, List.append_nil]

/-- A template of whole segments is blanked segment by segment. -/
theorem Whole.toList_blank {path : String} (h : Whole path) : (blank path).toList =
    (ends path).1 ++ Text.joinChars '/' (((segments path).map blankSegment).map String.toList) ++ (ends path).2 := by
  have hend : renameFrom none [] (ends path).2 = (ends path).2 := by
    have hkept : renameFrom none [] ((ends path).2 ++ []) = (ends path).2 ++ [] :=
      renameFrom_append (open_notMem_ends path).2
    rwa [List.append_nil] at hkept
  rw [blank, rename, String.toList_ofList, toList_eq, List.append_assoc, renameFrom_append (open_notMem_ends path).1,
    renameFrom_joinChars h, hend, List.append_assoc]

/-! ## Comparison -/

theorem segments_ne_nil (path : String) : segments path ≠ [] := by
  intro h
  exact Text.splitChars_ne_nil _ _ (List.map_eq_nil_iff.1 h)

/-- A blanked segment has no slash. -/
theorem slash_notMem_blankSegment {path segment : String} (h : segment ∈ segments path) :
    '/' ∉ (blankSegment segment).toList := by
  unfold blankSegment
  split
  · decide
  · obtain ⟨piece, hpiece, rfl⟩ := List.mem_map.1 h
    rw [String.toList_ofList]
    exact Text.notMem_of_mem_splitChars piece hpiece

/-- Split again at its slashes, a blanked path has its blanked segments. -/
theorem splitChars_blankSegments (path : String) :
    Text.splitChars '/' (Text.joinChars '/' (((segments path).map blankSegment).map String.toList)) =
      ((segments path).map blankSegment).map String.toList := by
  apply Text.splitChars_joinChars
  · rw [Ne, List.map_eq_nil_iff, List.map_eq_nil_iff]
    exact segments_ne_nil path
  · rw [List.forall_mem_map, List.forall_mem_map]
    exact fun segment hsegment => slash_notMem_blankSegment hsegment

/-- Comparable templates have one blank form if their segments have. -/
theorem blank_eq_iff (h : Comparable a b) :
    blank a = blank b ↔ (segments a).map blankSegment = (segments b).map blankSegment := by
  constructor
  · intro hblank
    have hlists := congrArg String.toList hblank
    rw [h.left.toList_blank, h.right.toList_blank, h.ends, List.append_left_inj, List.append_right_inj] at hlists
    have hpieces := congrArg (Text.splitChars '/') hlists
    rw [splitChars_blankSegments, splitChars_blankSegments] at hpieces
    exact List.map_injective_iff.2 (fun _ _ => String.toList_injective) hpieces
  · intro hshape
    apply String.toList_injective
    rw [h.left.toList_blank, h.right.toList_blank, h.ends, hshape]

/-- The mismatch of comparable templates is the first pair of different names, if they agree but for names. -/
theorem mismatch?_eq (h : Comparable a b) : mismatch? a b =
    if blank a = blank b then firstDifferent? (placeholders a) (placeholders b) else none := by
  rw [mismatch?, firstDifference?_eq, h.left.placeholders_eq, h.right.placeholders_eq]
  by_cases hblank : blank a = blank b
  · rw [if_pos hblank, if_pos ((blank_eq_iff h).1 hblank), Option.join_some]
  · rw [if_neg hblank, if_neg fun hshape => hblank ((blank_eq_iff h).2 hshape), Option.join_none]

/-- Different templates that differ only in the names of placeholders have a first pair of names that differ. -/
theorem exists_firstDifferent? (h : Comparable a b) (hblank : blank a = blank b) (hne : a ≠ b) :
    ∃ names, firstDifferent? (placeholders a) (placeholders b) = some names := by
  rw [← Option.isSome_iff_exists, Option.isSome_iff_ne_none]
  intro hnone
  rw [h.left.placeholders_eq, h.right.placeholders_eq] at hnone
  have hsegments := eq_of_firstDifferent?_eq_none ((blank_eq_iff h).1 hblank) hnone
  apply hne
  apply String.toList_injective
  rw [toList_eq, toList_eq, hsegments, h.ends]

end RouteBinding.PathTemplate
