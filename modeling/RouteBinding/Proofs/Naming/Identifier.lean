import Mathlib.Data.List.Basic
import RouteBinding.Naming
import RouteBinding.Proofs.Text.LetterCase
import RouteBinding.Proofs.Text.Split
import RouteBinding.Text.Digit
import RouteBinding.Text.Identifier

/-!
# Identifiers and names

A text that starts with an ASCII letter or an underscore and goes on with those and digits is an identifier, and so is
every identifier with more of them behind it. All keywords are of small letters behind the first character, which is a
small letter too in all but three: `False`, `None` and `True`.

The names of types, branches and operations are identifiers, whatever they are made from. One is a keyword exactly if
the text that it is made from has a single word and that word is one of the three but for the case of its first letter
(`SpellsConstant`); a type keeps a text that is an identifier and no keyword as its name. A type name is its own type
name.
-/

namespace RouteBinding.Text

variable {c : Char} {s t : List Char}

/-! ## Characters -/

theorem isIdentifierStart_of_letter (h : isAsciiLetter c) : isIdentifierStart c := by
  have hranges : inRanges Identifier.startRanges c.toNat := by
    simp only [isAsciiLetter, isAsciiUpper, isAsciiLower, Bool.or_eq_true, Bool.and_eq_true, decide_eq_true_eq] at h
    rcases h with hupper | hlower
    · exact inRanges_iff.2 ⟨(0x41, 0x5A), List.mem_cons_self, hupper⟩
    · exact inRanges_iff.2 ⟨(0x61, 0x7A), List.mem_cons_of_mem _ List.mem_cons_self, hlower⟩
  rw [isIdentifierStart, hranges, Bool.or_true]

theorem isIdentifierContinue_of_alnum (h : isAsciiAlnum c) : isIdentifierContinue c := by
  rw [isAsciiAlnum, Bool.or_eq_true] at h
  rw [isIdentifierContinue, Bool.or_eq_true]
  rcases h with hletter | hdigit
  · exact .inl (isIdentifierStart_of_letter hletter)
  · right
    simp only [isAsciiDigit, Bool.and_eq_true, decide_eq_true_eq] at hdigit
    exact inRanges_iff.2 ⟨(0x30, 0x39), List.mem_cons_self, hdigit⟩

theorem isIdentifierContinue_underscore : isIdentifierContinue '_' := by
  rw [isIdentifierContinue, isIdentifierStart, decide_eq_true rfl, Bool.true_or, Bool.true_or]

/-! ## Texts -/

/-- What may go on an identifier may follow one. -/
theorem isIdentifierChars_append (h : isIdentifierChars s) (ht : ∀ c ∈ t, isIdentifierContinue c) :
    isIdentifierChars (s ++ t) := by
  cases s with
  | nil => cases h
  | cons c rest =>
    rw [isIdentifierChars, Bool.and_eq_true] at h
    rw [List.cons_append, isIdentifierChars, List.all_append, h.1, h.2, List.all_eq_true.2 ht]
    rfl

/-- Characters that may go on an identifier make one if the first may start one. -/
theorem isIdentifierChars_of_head (hhead : s.head?.any isIdentifierStart) (hs : ∀ c ∈ s, isIdentifierContinue c) :
    isIdentifierChars s := by
  cases s with
  | nil => cases hhead
  | cons c rest =>
    rw [List.head?_cons, Option.any_some] at hhead
    rw [isIdentifierChars, hhead, List.all_eq_true.2 (List.forall_mem_cons.1 hs).2]
    rfl

/-- Every character of an identifier may go on one. -/
theorem isIdentifierContinue_of_mem (h : isIdentifierChars s) (hc : c ∈ s) : isIdentifierContinue c := by
  cases s with
  | nil => cases hc
  | cons d rest =>
    rw [isIdentifierChars, Bool.and_eq_true] at h
    rcases List.mem_cons.1 hc with rfl | hc
    · rw [isIdentifierContinue, h.1, Bool.true_or]
    · exact List.all_eq_true.1 h.2 c hc

/-! ## Keywords -/

/-- The keywords that start with a capital. -/
def capitalKeywords : List String :=
  ["False", "None", "True"]

/-- A keyword starts with a small letter, or is one of the three with a capital; behind its first character it has
small letters only. -/
theorem isKeyword_spec {name : String} (h : isKeyword name) :
    (name.toList.head?.any isAsciiLower = true ∨ name ∈ capitalKeywords) ∧ name.toList.head? ≠ some '_' ∧
      name.toList.tail.all isAsciiLower := by
  have hall : ∀ k ∈ keywords, (k.toList.head?.any isAsciiLower = true ∨ k ∈ capitalKeywords) ∧
      k.toList.head? ≠ some '_' ∧ k.toList.tail.all isAsciiLower := by decide
  exact hall name (List.contains_iff_mem.1 h)

/-- The keywords that do not start with a small letter are few. -/
theorem mem_capitalKeywords {name : String} (h : isKeyword name) (hhead : ¬ name.toList.head?.any isAsciiLower) :
    name ∈ capitalKeywords :=
  (isKeyword_spec h).1.resolve_left hhead

theorem isKeyword_of_mem_capitalKeywords {name : String} (h : name ∈ capitalKeywords) : isKeyword name := by
  have hall : ∀ k ∈ capitalKeywords, isKeyword k := by decide
  exact hall name h

/-- Behind its first letter a keyword is small. -/
theorem isAsciiLower_of_mem_tail {name : String} (h : isKeyword name) (hc : c ∈ name.toList.tail) :
    isAsciiLower c :=
  List.all_eq_true.1 (isKeyword_spec h).2.2 c hc

end RouteBinding.Text

namespace RouteBinding.Naming

open Text

variable {c : Char} {s name part : String}

/-! ## Parts of names -/

/-- A part of a name: letters and digits, of which the first is no small letter. -/
structure IsNamePart (s : List Char) : Prop where
  characters : ∀ c ∈ s, isAsciiAlnum c
  head : ∀ c ∈ s.head?, isAsciiLower c = false

theorem isNamePart_nil : IsNamePart [] :=
  ⟨fun _ hc => (List.not_mem_nil hc).elim, nofun⟩

/-- Letters and digits make a part of a name if no small letter comes first. -/
theorem isNamePart_of_all {s : List Char} (hall : s.all isAsciiAlnum) (hhead : s.head?.any isAsciiLower = false) :
    IsNamePart s := by
  refine ⟨List.all_eq_true.1 hall, fun c hc => ?_⟩
  rw [Option.mem_def.1 hc] at hhead
  exact hhead

/-- Parts of a name make a part. -/
theorem IsNamePart.append {s t : List Char} (hs : IsNamePart s) (ht : IsNamePart t) : IsNamePart (s ++ t) := by
  refine ⟨List.forall_mem_append.2 ⟨hs.characters, ht.characters⟩, ?_⟩
  cases s with
  | nil => exact ht.head
  | cons c rest => exact hs.head

/-- Parts of a name make a part, however many they are. -/
theorem isNamePart_flatMap {α : Type} {f : α → List Char} {l : List α} (h : ∀ a ∈ l, IsNamePart (f a)) :
    IsNamePart (l.flatMap f) := by
  induction l with
  | nil => exact isNamePart_nil
  | cons a rest ih =>
    obtain ⟨ha, hrest⟩ := List.forall_mem_cons.1 h
    rw [List.flatMap_cons]
    exact ha.append (ih hrest)

/-- A letter or digit with a capital has no small letter any more. -/
theorem capital_spec (h : isAsciiAlnum c) : isAsciiAlnum (capital c) ∧ isAsciiLower (capital c) = false := by
  have hascii : c.toNat < 0x80 := by
    simp only [isAsciiAlnum, isAsciiLetter, isAsciiUpper, isAsciiLower, isAsciiDigit, Bool.or_eq_true,
      Bool.and_eq_true, decide_eq_true_eq] at h
    omega
  exact LetterCase.forall_ascii (P := fun c => isAsciiAlnum c →
    isAsciiAlnum (capital c) ∧ isAsciiLower (capital c) = false) (by decide) hascii h

/-- A word with a capital in front is a part of a name. -/
theorem isNamePart_capitalized {w : List Char} (hw : w ∈ words s.toList) :
    IsNamePart (capitalized w) ∧ capitalized w ≠ [] := by
  obtain ⟨hrun, -⟩ := mem_runs hw
  cases w with
  | nil => exact absurd rfl hrun.ne_nil
  | cons c rest =>
    have halnum : ∀ d ∈ c :: rest, isAsciiAlnum d := fun d hd => by simpa using hrun.outside d hd
    obtain ⟨hc, hrest⟩ := List.forall_mem_cons.1 halnum
    obtain ⟨hcapital, hlower⟩ := capital_spec hc
    refine ⟨⟨List.forall_mem_cons.2 ⟨hcapital, hrest⟩, fun d hd => ?_⟩, List.cons_ne_nil _ _⟩
    cases hd
    exact hlower

/-- Any text gives a part of a name. -/
theorem isNamePart_namePart (s : String) : IsNamePart (namePart s).toList := by
  rw [namePart, String.toList_ofList]
  exact isNamePart_flatMap fun w hw => (isNamePart_capitalized hw).1

/-! ## Names with parts behind them -/

/-- A name for generated code: an identifier that is a keyword at most if it is one of the three with a capital. -/
structure IsName (name : String) : Prop where
  identifier : isIdentifier name
  keyword : isKeyword name → name ∈ capitalKeywords

theorem IsName.toList_ne_nil (h : IsName name) : name.toList ≠ [] := by
  intro hnil
  have hidentifier := h.identifier
  rw [isIdentifier, hnil] at hidentifier
  cases hidentifier

/-- No keyword has a capital or a digit behind its first character. -/
theorem not_isKeyword_append (hname : name.toList ≠ []) (hpart : IsNamePart part.toList)
    (hne : part.toList ≠ []) : isKeyword (name ++ part) = false := by
  obtain ⟨c, rest, hc⟩ := List.exists_cons_of_ne_nil hne
  rw [Bool.eq_false_iff]
  intro hkeyword
  have htail : c ∈ (name ++ part).toList.tail := by
    rw [String.toList_append, List.tail_append_of_ne_nil hname, hc]
    exact List.mem_append_right _ List.mem_cons_self
  have hlower := hpart.head c (by rw [hc]; rfl)
  rw [isAsciiLower_of_mem_tail hkeyword htail] at hlower
  cases hlower

/-- An identifier with a part of a name behind it is one. -/
theorem isIdentifier_append (hname : isIdentifier name) (hpart : IsNamePart part.toList) :
    isIdentifier (name ++ part) := by
  rw [isIdentifier, String.toList_append]
  exact isIdentifierChars_append hname fun c hc => isIdentifierContinue_of_alnum (hpart.characters c hc)

/-- A name with a part behind it is a name. -/
theorem IsName.append (h : IsName name) (hpart : IsNamePart part.toList) : IsName (name ++ part) := by
  refine ⟨isIdentifier_append h.identifier hpart, fun hkeyword => ?_⟩
  by_cases hne : part.toList = []
  · rw [String.toList_eq_nil_iff.1 hne, String.append_empty] at hkeyword ⊢
    exact h.keyword hkeyword
  · rw [not_isKeyword_append h.toList_ne_nil hpart hne] at hkeyword
    cases hkeyword

/-- Two names written together may be a keyword, but not with more behind them. -/
theorem IsName.append_name {name' : String} (h : IsName name) (h' : IsName name') (hpart : IsNamePart part.toList)
    (hne : part.toList ≠ []) : IsName (name ++ (name' ++ part)) := by
  have hnames : isIdentifier (name ++ name') := by
    rw [isIdentifier, String.toList_append]
    exact isIdentifierChars_append h.identifier fun c hc => isIdentifierContinue_of_mem h'.identifier hc
  have hcons : (name ++ name').toList ≠ [] := by
    rw [String.toList_append]
    exact List.append_ne_nil_of_left_ne_nil h.toList_ne_nil _
  rw [← String.append_assoc]
  refine ⟨isIdentifier_append hnames hpart, fun hkeyword => ?_⟩
  rw [not_isKeyword_append hcons hpart hne] at hkeyword
  cases hkeyword

/-! ## Texts as names -/

/-- The text has one word, which with a capital in front is one of the keywords that have one. -/
def SpellsConstant (s : String) : Prop :=
  ∃ w, words s.toList = [w] ∧ String.ofList (capitalized w) ∈ capitalKeywords

/-- The part of a name is one of the keywords only if it is made of a single word: another one would put a capital or
a digit behind the first character. -/
theorem spellsConstant_iff : SpellsConstant s ↔ namePart s ∈ capitalKeywords := by
  constructor
  · rintro ⟨w, hwords, hmem⟩
    rw [namePart, hwords, List.flatMap_cons, List.flatMap_nil, List.append_nil]
    exact hmem
  · intro hmem
    have hkeyword := isKeyword_of_mem_capitalKeywords hmem
    cases hwords : words s.toList with
    | nil =>
      rw [namePart, hwords] at hmem
      exact absurd hmem (by decide)
    | cons w rest =>
      have hpart {v : List Char} (hv : v ∈ w :: rest) := isNamePart_capitalized (hwords ▸ hv)
      rw [namePart, hwords, List.flatMap_cons] at hkeyword hmem
      cases rest with
      | nil =>
        rw [List.flatMap_nil, List.append_nil] at hmem
        exact ⟨w, hwords, hmem⟩
      | cons v rest =>
        have hrest : ∀ u ∈ v :: rest, IsNamePart (capitalized u) :=
          fun u hu => (hpart (List.mem_cons_of_mem w hu)).1
        have hne : (v :: rest).flatMap capitalized ≠ [] := by
          rw [List.flatMap_cons]
          exact List.append_ne_nil_of_left_ne_nil
            (hpart (List.mem_cons_of_mem w List.mem_cons_self)).2 _
        have hnot : isKeyword (String.ofList (capitalized w) ++ String.ofList ((v :: rest).flatMap capitalized)) =
            false := by
          refine not_isKeyword_append ?_ ?_ ?_
          · rw [String.toList_ofList]
            exact (hpart List.mem_cons_self).2
          · rw [String.toList_ofList]
            exact isNamePart_flatMap hrest
          · rwa [String.toList_ofList]
        rw [← String.ofList_append, hkeyword] at hnot
        cases hnot

/-- Only what starts with a digit is guarded. -/
theorem guardDigit_eq (s : List Char) : guardDigit s = if s.head?.any isAsciiDigit then '_' :: s else s := by
  cases s <;> rfl

/-- A part that starts with a letter is a name, and one that starts with a digit is one behind an underscore. -/
theorem isName_guardDigit {c : Char} {rest : List Char} (h : IsNamePart (c :: rest)) :
    IsName (String.ofList (guardDigit (c :: rest))) ∧
      (isKeyword (String.ofList (guardDigit (c :: rest))) ↔ String.ofList (c :: rest) ∈ capitalKeywords) := by
  have hcontinue : ∀ d ∈ c :: rest, isIdentifierContinue d :=
    fun d hd => isIdentifierContinue_of_alnum (h.characters d hd)
  rw [guardDigit_eq, List.head?_cons, Option.any_some]
  split_ifs with hdigit
  · -- none of the keywords has the underscore or the digit
    have hnot : isKeyword (String.ofList ('_' :: c :: rest)) = false := by
      rw [Bool.eq_false_iff]
      intro hkeyword
      exact (isKeyword_spec hkeyword).2.1 (by rw [String.toList_ofList]; rfl)
    have hnone : String.ofList (c :: rest) ∉ capitalKeywords := by
      have hhead : ∀ k ∈ capitalKeywords, ¬ k.toList.head?.any isAsciiDigit := by decide
      intro hmem
      exact hhead _ hmem (by rw [String.toList_ofList]; exact hdigit)
    refine ⟨⟨?_, fun hkeyword => ?_⟩, iff_of_false (by rw [hnot]; exact Bool.false_ne_true) hnone⟩
    · rw [isIdentifier, String.toList_ofList]
      exact isIdentifierChars_of_head rfl (List.forall_mem_cons.2 ⟨isIdentifierContinue_underscore, hcontinue⟩)
    · rw [hnot] at hkeyword
      cases hkeyword
  · have hletter : isAsciiLetter c := by
      have hc := h.characters c List.mem_cons_self
      rwa [isAsciiAlnum, Bool.eq_false_iff.2 hdigit, Bool.or_false] at hc
    have hkeyword (hk : isKeyword (String.ofList (c :: rest))) : String.ofList (c :: rest) ∈ capitalKeywords := by
      refine mem_capitalKeywords hk ?_
      rw [String.toList_ofList, List.head?_cons, Option.any_some, h.head c rfl]
      exact Bool.false_ne_true
    refine ⟨⟨?_, hkeyword⟩, hkeyword, isKeyword_of_mem_capitalKeywords⟩
    rw [isIdentifier, String.toList_ofList]
    exact isIdentifierChars_of_head (isIdentifierStart_of_letter hletter) hcontinue

/-- A text as a name of its own is a keyword exactly if it spells one of the three. -/
theorem isName_pascalCase (s : String) :
    IsName (pascalCase s) ∧ (isKeyword (pascalCase s) ↔ SpellsConstant s) := by
  rw [spellsConstant_iff]
  unfold pascalCase
  dsimp only
  split_ifs with hempty
  · rw [hempty]
    exact ⟨⟨by decide, by decide⟩, by decide⟩
  · have hpart := isNamePart_namePart s
    obtain ⟨c, rest, hc⟩ := List.exists_cons_of_ne_nil (String.toList_eq_nil_iff.not.2 hempty)
    have hname := isName_guardDigit (hc ▸ hpart)
    rwa [← hc, String.ofList_toList] at hname

/-- Any text gives a name, and one that is a keyword only if it spells one of the constants. -/
theorem isName_typeName (s : String) :
    IsName (typeName s) ∧
      (isKeyword (typeName s) ↔ SpellsConstant s ∧ ¬ (isIdentifier s ∧ isKeyword s = false)) := by
  unfold typeName
  split_ifs with hkept
  · rw [Bool.and_eq_true, Bool.not_eq_true'] at hkept
    obtain ⟨hidentifier, hkeyword⟩ := hkept
    rw [hkeyword]
    refine ⟨⟨hidentifier, fun h => ?_⟩, iff_of_false Bool.false_ne_true fun h => h.2 ⟨hidentifier, rfl⟩⟩
    rw [hkeyword] at h
    cases h
  · obtain ⟨hname, hiff⟩ := isName_pascalCase s
    rw [Bool.and_eq_true, Bool.not_eq_true'] at hkept
    exact ⟨hname, hiff.trans (and_iff_left hkept).symm⟩

/-- A type name is kept, also one of the three keywords. -/
theorem typeName_of_isName (h : IsName name) : typeName name = name := by
  cases hkeyword : isKeyword name with
  | false =>
    rw [typeName, h.identifier, hkeyword]
    rfl
  | true =>
    have hall : ∀ k ∈ capitalKeywords, typeName k = k := by decide
    exact hall name (h.keyword hkeyword)

/-- The name of an operation from its method and path has at least two parts, and so is no keyword. -/
theorem isName_operationName (method path : String) (operationId : Option String) :
    IsName (operationName method path operationId) ∧
      (isKeyword (operationName method path operationId) ↔ ∃ s ∈ operationId, SpellsConstant s) := by
  unfold operationName
  cases hid : operationId.filter (· ≠ "") with
  | some id =>
    obtain ⟨hsome, -⟩ := Option.filter_eq_some_iff.1 hid
    rw [hsome]
    simpa using isName_pascalCase id
  | none =>
    -- an empty identifier spells nothing
    have hnone : ¬ ∃ s ∈ operationId, SpellsConstant s := by
      rintro ⟨s, hs, hspells⟩
      have hempty : s = "" := by simpa [hs] using Option.filter_eq_none_iff.1 hid s hs
      rw [spellsConstant_iff, hempty] at hspells
      exact absurd hspells (by decide)
    dsimp only
    set parts := String.join (((split '/' path).filter (· ≠ "")).map fun s => namePart (strip isBrace s)) with hparts
    have hpart : IsNamePart (if parts = "" then "Root" else parts).toList ∧
        (if parts = "" then "Root" else parts).toList ≠ [] := by
      split_ifs with hempty
      · exact ⟨isNamePart_of_all (by decide) (by decide), by decide⟩
      · refine ⟨?_, String.toList_eq_nil_iff.not.2 hempty⟩
        rw [hparts, String.toList_join, List.flatMap_map]
        exact isNamePart_flatMap fun s _ => isNamePart_namePart _
    have hname := (isName_pascalCase method).1
    refine ⟨hname.append hpart.1, iff_of_false ?_ hnone⟩
    rw [not_isKeyword_append hname.toList_ne_nil hpart.1 hpart.2]
    exact Bool.false_ne_true

end RouteBinding.Naming
