import Mathlib.Data.List.Basic
import Mathlib.Data.Nat.Digits.Defs
import RouteBinding.Proofs.Text.Split
import RouteBinding.Text.Digit

/-!
# How whole numbers are written

A number that is written in decimal digits reads as itself, if it can be read at all: with more digits than the
limit it cannot (`readInt?_toString`).

A text reads as a whole number if it is digits, which may have single underscores between them, a sign in front, and
blanks around all that (`readInt?_eq_some_iff`). The digits may be of any scripts. Few of these texts are places as they
are written in a pointer (`IsPlace`): one text for each number that is not negative (`isPlace_iff`).
-/

namespace RouteBinding.Text

/-! ## Digits -/

/-- The ASCII digits have their codes in a row. -/
theorem toNat_of_isDigit {c : Char} (h : c.isDigit) : 48 ≤ c.toNat ∧ c.toNat ≤ 57 := by
  rw [Char.isDigit, Bool.and_eq_true, decide_eq_true_eq, decide_eq_true_eq] at h
  exact ⟨h.1, h.2⟩

/-- A digit is no other character. -/
theorem ne_of_isDigit {c d : Char} (h : c.isDigit) (hd : d.isDigit = false) : c ≠ d := by
  rintro rfl
  rw [h] at hd
  cases hd

/-- An ASCII digit stands for its distance from zero. -/
theorem decimalValue?_of_isDigit {c : Char} (h : c.isDigit) : decimalValue? c = some (c.toNat - 48) := by
  obtain ⟨hlow, hhigh⟩ := toNat_of_isDigit h
  unfold decimalValue? zeroCodes
  rw [List.find?_cons_of_pos (by simp [hlow, hhigh])]
  rfl

theorem digitValue?_of_isDigit {c : Char} (h : c.isDigit) :
    digitValue? 10 c = some (c.toNat - 48) := by
  obtain ⟨hlow, hhigh⟩ := toNat_of_isDigit h
  rw [digitValue?, decimalValue?_of_isDigit h, Option.some_or, Option.filter_some_pos]
  rw [decide_eq_true_eq]
  omega

/-- A digit is not blank. -/
theorem isNumberBlank_of_isDigit {c : Char} (h : c.isDigit) : isNumberBlank c = false := by
  obtain ⟨hlow, hhigh⟩ := toNat_of_isDigit h
  have hblank : isBlank c = false := by
    simp only [isBlank, inRanges, blankRanges, List.any_cons, List.any_nil, Bool.or_eq_false_iff,
      Bool.and_eq_false_iff, decide_eq_false_iff_not, and_true]
    omega
  rw [isNumberBlank, hblank, Bool.false_and]

variable {s : List Char}

/-- ASCII digits are read one by one, without groups. -/
theorem groupedDigits?_of_isDigit (hne : s ≠ []) (h : ∀ c ∈ s, c.isDigit) :
    groupedDigits? 10 s = some (s.map fun c => c.toNat - 48) := by
  induction s with
  | nil => exact absurd rfl hne
  | cons c rest ih =>
    have hc := digitValue?_of_isDigit (h c List.mem_cons_self)
    cases rest with
    | nil => simp [groupedDigits?, hc]
    | cons d rest =>
      have hd : d ≠ '_' :=
        ne_of_isDigit (h d (List.mem_cons_of_mem c List.mem_cons_self)) (by decide)
      have hrest := ih (List.cons_ne_nil d rest) fun e he => h e (List.mem_cons_of_mem c he)
      rw [groupedDigits?.eq_4 _ _ _ (by simp) (by simpa using fun h' => absurd h' hd), hc, hrest]
      rfl

/-- ASCII digits give the number that they are read as. -/
theorem ofDigits_map : ofDigits 10 (s.map fun c => c.toNat - 48) = Nat.ofDigitChars 10 s 0 := by
  rw [ofDigits, List.foldl_map, Nat.ofDigitChars_eq_foldl]
  simp only [Nat.mul_comm]
  rfl

/-- There is nothing to strip from digits. -/
theorem stripChars_of_isDigit (h : ∀ c ∈ s, c.isDigit) : stripChars isNumberBlank s = s := by
  have hnone (t : List Char) (ht : ∀ c ∈ t, c.isDigit) : t.dropWhile isNumberBlank = t := by
    cases t with
    | nil => rfl
    | cons c rest =>
      exact List.dropWhile_cons_of_neg (by simp [isNumberBlank_of_isDigit (ht c List.mem_cons_self)])
  rw [stripChars, hnone s h, hnone _ fun c hc => h c (List.mem_reverse.1 hc), List.reverse_reverse]

/-- Digits have no sign. -/
theorem spanSign_of_isDigit (h : ∀ c ∈ s, c.isDigit) : spanSign s = (false, s) := by
  cases s with
  | nil => rfl
  | cons c rest =>
    have hc := h c List.mem_cons_self
    have hminus : c ≠ '-' := ne_of_isDigit hc (by decide)
    have hplus : c ≠ '+' := ne_of_isDigit hc (by decide)
    unfold spanSign
    split
    · rename_i heq
      exact absurd (List.cons.inj heq).1 hminus
    · rename_i heq
      exact absurd (List.cons.inj heq).1 hplus
    · rfl

/-- No base mark stands before the digits of base ten. -/
theorem dropBaseMark_ten (s : List Char) : dropBaseMark 10 s = s := by
  unfold dropBaseMark
  split
  · rw [if_neg (by rw [show baseLetter? 10 = none from rfl]; simp)]
  · rfl

/-! ## Numbers -/

/-- A number is read from its own digits, unless there are more of them than the limit. -/
theorem readInt?_toString (i : Nat) : readInt? (toString i) =
    if digitLimit < (Nat.toDigits 10 i).length then none else some (i : Int) := by
  have hdigits : ∀ c ∈ Nat.toDigits 10 i, c.isDigit := fun c hc =>
    Nat.isDigit_of_mem_toDigits (by omega) (by omega) hc
  have hread : natOfGrouped? 10 (Nat.toDigits 10 i) =
      if digitLimit < (Nat.toDigits 10 i).length then none else some i := by
    rw [natOfGrouped?, groupedDigits?_of_isDigit Nat.toDigits_ne_nil hdigits, Option.bind_eq_bind,
      Option.bind_some, ofDigits_map, Nat.ofDigitChars_ten_toDigits, List.length_map]
    simp only [decide_true, Bool.true_and, decide_eq_true_eq]
  rw [readInt?, readIntIn?, Nat.toString_eq_repr, Nat.toList_repr, stripChars_of_isDigit hdigits,
    spanSign_of_isDigit hdigits]
  dsimp only
  rw [dropBaseMark_ten, hread]
  by_cases hlong : digitLimit < (Nat.toDigits 10 i).length
  · rw [if_pos hlong, if_pos hlong]
    rfl
  · rw [if_neg hlong, if_neg hlong]
    rfl

/-- A number that is read from its own digits is that number. -/
theorem eq_of_readInt?_toString {i : Nat} {j : Int} (h : readInt? (toString i) = some j) :
    j = i := by
  rw [readInt?_toString] at h
  split_ifs at h
  exact (Option.some.inj h).symm

/-- A number below the limit is read from its own digits. -/
theorem readInt?_toString_of_lt {i : Nat} (h : i < 10 ^ digitLimit) :
    readInt? (toString i) = some (i : Int) := by
  have hlength : (Nat.toDigits 10 i).length ≤ digitLimit :=
    Nat.toDigits_length 10 i digitLimit (by decide) h
  rw [readInt?_toString, if_neg (by omega)]

/-- Different numbers are written differently. -/
theorem toString_injective {i j : Nat} (h : toString i = toString j) : i = j := by
  rw [Nat.toString_eq_repr, Nat.toString_eq_repr] at h
  have hdigits := congrArg (fun s => Nat.ofDigitChars 10 s.toList 0) h
  simpa only [Nat.toList_repr, Nat.ofDigitChars_ten_toDigits] using hdigits

end RouteBinding.Text

namespace RouteBinding.Text

variable {c : Char} {d : Nat} {s : List Char} {digits : List Nat} {i : Int}

/-! ## Digits -/

/-- Decimal digits and their values; between two digits may stand an underscore. -/
inductive Digits : List Char → List Nat → Prop
  | last {c : Char} {d : Nat} (hc : decimalValue? c = some d) : Digits [c] [d]
  | cons {c : Char} {d : Nat} {s : List Char} {digits : List Nat} (hc : decimalValue? c = some d)
    (h : Digits s digits) : Digits (c :: s) (d :: digits)
  | apart {c : Char} {d : Nat} {s : List Char} {digits : List Nat} (hc : decimalValue? c = some d)
    (h : Digits s digits) : Digits (c :: '_' :: s) (d :: digits)

/-- A digit is one of the ten that some script begins with its zero. -/
theorem exists_zero_of_decimalValue? (h : decimalValue? c = some d) :
    ∃ first ∈ zeroCodes, first ≤ c.toNat ∧ c.toNat ≤ first + 9 ∧ d = c.toNat - first := by
  obtain ⟨first, hfind, hd⟩ := Option.map_eq_some_iff.1 h
  have hrange := List.find?_some hfind
  rw [Bool.and_eq_true, decide_eq_true_eq, decide_eq_true_eq] at hrange
  exact ⟨first, List.mem_of_find?_eq_some hfind, hrange.1, hrange.2, hd.symm⟩

/-- In base ten only decimal digits count. -/
theorem digitValue?_ten (c : Char) : digitValue? 10 c = decimalValue? c := by
  cases hdecimal : decimalValue? c with
  | some d =>
    obtain ⟨first, -, hlow, hhigh, hd⟩ := exists_zero_of_decimalValue? hdecimal
    rw [digitValue?, hdecimal, Option.some_or, Option.filter_some_pos]
    rw [decide_eq_true_eq]
    omega
  | none =>
    -- an ASCII digit would be a decimal digit, and the letters stand for ten and more
    have hascii : isAsciiDigit c = false := by
      by_contra h
      rw [Bool.not_eq_false, isAsciiDigit, Bool.and_eq_true, decide_eq_true_eq, decide_eq_true_eq] at h
      unfold decimalValue? zeroCodes at hdecimal
      rw [List.find?_cons_of_pos (by simp [h.1, h.2])] at hdecimal
      cases hdecimal
    rw [digitValue?, hdecimal, Option.none_or, Option.filter_eq_none_iff]
    intro d hd
    rw [hexValue?, hascii, if_neg Bool.false_ne_true] at hd
    rw [decide_eq_true_eq]
    split_ifs at hd with hupper hlower
    · rw [Bool.and_eq_true, decide_eq_true_eq, decide_eq_true_eq] at hupper
      cases hd
      omega
    · rw [Bool.and_eq_true, decide_eq_true_eq, decide_eq_true_eq] at hlower
      cases hd
      omega

theorem decimalValue?_underscore : decimalValue? '_' = none := by
  decide

/-- Digits start with one. -/
theorem Digits.head (h : Digits s digits) : ∃ c rest d, s = c :: rest ∧ decimalValue? c = some d := by
  cases h with
  | last hc => exact ⟨_, _, _, rfl, hc⟩
  | cons hc _ => exact ⟨_, _, _, rfl, hc⟩
  | apart hc _ => exact ⟨_, _, _, rfl, hc⟩

/-- Digits end with one. -/
theorem Digits.getLast (h : Digits s digits) : ∃ init c d, s = init ++ [c] ∧ decimalValue? c = some d := by
  induction h with
  | last hc => exact ⟨[], _, _, rfl, hc⟩
  | @cons first _ _ _ _ _ ih =>
    obtain ⟨init, c, d, rfl, hc⟩ := ih
    exact ⟨first :: init, c, d, rfl, hc⟩
  | @apart first _ _ _ _ _ ih =>
    obtain ⟨init, c, d, rfl, hc⟩ := ih
    exact ⟨first :: '_' :: init, c, d, rfl, hc⟩

/-- Digits in groups are read as what they stand for. -/
theorem Digits.groupedDigits?_eq (h : Digits s digits) : groupedDigits? 10 s = some digits := by
  induction h with
  | last hc => rw [groupedDigits?, digitValue?_ten, hc, Option.map_some]
  | @cons c d s digits hc hs ih =>
    obtain ⟨first, rest, e, rfl, hfirst⟩ := hs.head
    have hne : first ≠ '_' := by
      intro h
      rw [h, decimalValue?_underscore] at hfirst
      cases hfirst
    rw [groupedDigits?.eq_4 _ _ _ (by simp) (by simpa using fun h => absurd h hne), digitValue?_ten, hc, ih]
    rfl
  | apart hc _ ih =>
    rw [groupedDigits?, digitValue?_ten, hc, ih]
    rfl

/-- What is read as digits in groups is such. -/
theorem digits_of_groupedDigits? (h : groupedDigits? 10 s = some digits) : Digits s digits := by
  -- along the cases of the reading: nothing, one digit, a digit and an underscore, a digit and more
  induction s using groupedDigits?.induct generalizing digits with
  | case1 => cases h
  | case2 c =>
    rw [groupedDigits?, digitValue?_ten] at h
    obtain ⟨d, hd, rfl⟩ := Option.map_eq_some_iff.1 h
    exact .last hd
  | case3 c rest ih =>
    rw [groupedDigits?, digitValue?_ten] at h
    simp only [Option.bind_eq_bind, Option.bind_eq_some_iff, Option.pure_def, Option.some.injEq] at h
    obtain ⟨d, hd, ds, hds, rfl⟩ := h
    exact .apart hd (ih hds)
  | case4 c rest hne hunderscore ih =>
    rw [groupedDigits?.eq_4 _ _ _ hne hunderscore, digitValue?_ten] at h
    simp only [Option.bind_eq_bind, Option.bind_eq_some_iff, Option.pure_def, Option.some.injEq] at h
    obtain ⟨d, hd, ds, hds, rfl⟩ := h
    exact .cons hd (ih hds)

/-- A decimal number is read from digits in groups, unless there are more than the limit. -/
theorem natOfGrouped?_ten {n : Nat} : natOfGrouped? 10 s = some n ↔
    ∃ digits, Digits s digits ∧ digits.length ≤ digitLimit ∧ n = ofDigits 10 digits := by
  simp only [natOfGrouped?, Option.bind_eq_bind, Option.bind_eq_some_iff]
  apply exists_congr
  intro digits
  constructor
  · intro h
    obtain ⟨hdigits, hlimit⟩ := h
    split_ifs at hlimit with hlong
    refine ⟨digits_of_groupedDigits? hdigits, ?_, (Option.some.inj hlimit).symm⟩
    simpa using hlong
  · intro h
    obtain ⟨hdigits, hlimit, rfl⟩ := h
    refine ⟨hdigits.groupedDigits?_eq, ?_⟩
    rw [if_neg]
    simpa using hlimit

/-! ## Numbers -/

/-- A text is a whole number in base ten: blanks, a sign that may be missing, digits and blanks. -/
def Numeral (s : List Char) (i : Int) : Prop :=
  ∃ before sign body after digits, s = before ++ (sign ++ body) ++ after ∧
    (∀ c ∈ before, isNumberBlank c) ∧ (∀ c ∈ after, isNumberBlank c) ∧
    Digits body digits ∧ digits.length ≤ digitLimit ∧
    (i = ofDigits 10 digits ∧ (sign = [] ∨ sign = ['+']) ∨ i = -(ofDigits 10 digits : Int) ∧ sign = ['-'])

/-- A decimal digit of any script is not blank. -/
theorem isNumberBlank_of_decimalValue? (h : decimalValue? c = some d) : isNumberBlank c = false := by
  obtain ⟨first, hfirst, hlow, hhigh, -⟩ := exists_zero_of_decimalValue? h
  have hapart : ∀ first ∈ zeroCodes, ∀ range ∈ blankRanges, first + 9 < range.1 ∨ range.2 < first := by
    decide
  have hblank : isBlank c = false := by
    by_contra hblank
    rw [Bool.not_eq_false, isBlank, inRanges_iff] at hblank
    obtain ⟨range, hrange, hfrom, hto⟩ := hblank
    have := hapart first hfirst range hrange
    omega
  rw [isNumberBlank, hblank, Bool.false_and]

/-- Neither a sign nor a digit is stripped from a number. -/
theorem Digits.trimmed {sign body : List Char} (h : Digits body digits)
    (hsign : sign = [] ∨ sign = ['+'] ∨ sign = ['-']) : Trimmed isNumberBlank (sign ++ body) := by
  constructor
  · obtain ⟨c, rest, d, rfl, hc⟩ := h.head
    rcases hsign with rfl | rfl | rfl
    · simp [isNumberBlank_of_decimalValue? hc]
    · simp [show isNumberBlank '+' = false by decide]
    · simp [show isNumberBlank '-' = false by decide]
  · obtain ⟨init, c, d, rfl, hc⟩ := h.getLast
    rw [← List.append_assoc, List.getLast?_concat]
    simp [isNumberBlank_of_decimalValue? hc]

/-- Digits in groups have no sign. -/
theorem Digits.spanSign_eq (h : Digits s digits) : spanSign s = (false, s) := by
  obtain ⟨c, rest, d, rfl, hc⟩ := h.head
  unfold spanSign
  split
  · rename_i heq
    cases heq
    cases hc.symm.trans (by decide : decimalValue? '-' = none)
  · rename_i heq
    cases heq
    cases hc.symm.trans (by decide : decimalValue? '+' = none)
  · rfl

/-- What is read as a sign stands in front of the rest. -/
theorem exists_sign (s : List Char) : ∃ sign, s = sign ++ (spanSign s).2 ∧
    ((spanSign s).1 = false ∧ (sign = [] ∨ sign = ['+']) ∨ (spanSign s).1 = true ∧ sign = ['-']) := by
  unfold spanSign
  split
  · exact ⟨['-'], rfl, .inr ⟨rfl, rfl⟩⟩
  · exact ⟨['+'], rfl, .inl ⟨rfl, .inr rfl⟩⟩
  · exact ⟨[], rfl, .inl ⟨rfl, .inl rfl⟩⟩

/-- A numeral is read as its number. -/
theorem Numeral.readInt? {text : String} (h : Numeral text.toList i) : readInt? text = some i := by
  obtain ⟨before, sign, body, after, digits, htext, hbefore, hafter, hdigits, hlimit, hvalue⟩ := h
  have hnat : natOfGrouped? 10 body = some (ofDigits 10 digits) := natOfGrouped?_ten.2 ⟨digits, hdigits, hlimit, rfl⟩
  have hsign : sign = [] ∨ sign = ['+'] ∨ sign = ['-'] := by
    rcases hvalue with ⟨-, h | h⟩ | ⟨-, h⟩
    · exact .inl h
    · exact .inr (.inl h)
    · exact .inr (.inr h)
  have hstrip : stripChars isNumberBlank text.toList = sign ++ body := by
    rw [htext, stripChars_append hbefore hafter, stripChars_of_trimmed (hdigits.trimmed hsign)]
  rw [Text.readInt?, readIntIn?, hstrip]
  rcases hvalue with ⟨rfl, rfl | rfl⟩ | ⟨rfl, rfl⟩
  · simp [hdigits.spanSign_eq, dropBaseMark_ten, hnat]
  · simp [spanSign, dropBaseMark_ten, hnat]
  · simp [spanSign, dropBaseMark_ten, hnat]

/-- What is read as a number is a numeral of it. -/
theorem numeral_of_readInt? {text : String} (h : readInt? text = some i) : Numeral text.toList i := by
  rw [Text.readInt?, readIntIn?] at h
  simp only [dropBaseMark_ten, Option.map_eq_some_iff, Option.bind_eq_bind, Option.bind_eq_some_iff, Option.pure_def,
    Option.some.injEq] at h
  obtain ⟨_, ⟨n, hn, rfl⟩, hi⟩ := h
  obtain ⟨digits, hdigits, hlimit, rfl⟩ := natOfGrouped?_ten.1 hn
  obtain ⟨sign, hinner, hsign⟩ := exists_sign (stripChars isNumberBlank text.toList)
  have htext := eq_append_stripChars isNumberBlank text.toList
  rw [hinner] at htext
  refine ⟨_, sign, _, _, digits, htext, fun c hc => List.mem_takeWhile_imp hc,
    fun c hc => List.mem_rtakeWhile_imp hc, hdigits, hlimit, ?_⟩
  rcases hsign with ⟨hplus, hsign⟩ | ⟨hminus, hsign⟩
  · rw [hplus] at hi
    exact .inl ⟨hi.symm, hsign⟩
  · rw [hminus] at hi
    exact .inr ⟨hi.symm, hsign⟩

/-- The texts that read as whole numbers. -/
theorem readInt?_eq_some_iff {text : String} : readInt? text = some i ↔ Numeral text.toList i :=
  ⟨numeral_of_readInt?, Numeral.readInt?⟩

/-! ## Places -/

/-- The place of an item as it is written in a pointer: ASCII digits, of which the first is a zero only if no other
follows. -/
def IsPlace (text : String) : Prop :=
  text = "0" ∨ text.toList ≠ [] ∧ (∀ c ∈ text.toList, c.isDigit) ∧ text.toList.head? ≠ some '0'

instance : DecidablePred IsPlace := fun text =>
  decidable_of_iff (text = "0" ∨ text.toList ≠ [] ∧ text.toList.all Char.isDigit ∧ text.toList.head? ≠ some '0')
    (by rw [IsPlace, List.all_eq_true])

/-- A digit is written back as it was read. -/
theorem digitChar_of_isDigit (h : c.isDigit) : (c.toNat - 48).digitChar = c := by
  obtain ⟨hlow, hhigh⟩ := toNat_of_isDigit h
  apply Char.toNat_inj.1
  rw [Nat.toNat_digitChar_of_lt_ten (by omega)]
  omega

/-- Digits behind a number that is not zero make another such number. -/
theorem exists_toDigits_append {n : Nat} (hn : 0 < n) (h : ∀ c ∈ s, c.isDigit) :
    ∃ m, 0 < m ∧ Nat.toDigits 10 n ++ s = Nat.toDigits 10 m := by
  induction s generalizing n with
  | nil => exact ⟨n, hn, List.append_nil _⟩
  | cons c rest ih =>
    obtain ⟨hc, hrest⟩ := List.forall_mem_cons.1 h
    obtain ⟨hlow, hhigh⟩ := toNat_of_isDigit hc
    have hdigit : Nat.toDigits 10 (c.toNat - 48) = [c] := by
      rw [Nat.toDigits_of_lt_base (by omega), digitChar_of_isDigit hc]
    obtain ⟨m, hm, hrest⟩ := ih (n := 10 * n + (c.toNat - 48)) (by omega) hrest
    refine ⟨m, hm, ?_⟩
    rw [← hrest, ← Nat.toDigits_append_toDigits (by decide) hn (by omega), hdigit, List.append_assoc,
      List.singleton_append]

/-- A number is written without a leading zero. -/
theorem head?_toDigits {n : Nat} (hn : 0 < n) : (Nat.toDigits 10 n).head? ≠ some '0' := by
  -- the first digit is that of the number without its last one
  induction n using Nat.strong_induction_on with
  | _ n ih =>
    by_cases hsmall : n < 10
    · rw [Nat.toDigits_of_lt_base hsmall, List.head?_cons, Ne, Option.some.injEq, Nat.digitChar_eq_zero]
      omega
    · rw [Nat.toDigits_of_base_le (by decide) (by omega), List.head?_append_of_ne_nil _ Nat.toDigits_ne_nil]
      exact ih (n / 10) (by omega) (by omega)

/-- The places are the numbers that are not negative, each written in one way. -/
theorem isPlace_iff {text : String} : IsPlace text ↔ ∃ n : Nat, text = toString n := by
  constructor
  · rintro (rfl | ⟨hne, hdigits, hhead⟩)
    · exact ⟨0, rfl⟩
    · obtain ⟨c, rest, htext⟩ := List.exists_cons_of_ne_nil hne
      rw [htext] at hdigits hhead
      obtain ⟨hc, hrest⟩ := List.forall_mem_cons.1 hdigits
      obtain ⟨hlow, hhigh⟩ := toNat_of_isDigit hc
      have hfirst : Nat.toDigits 10 (c.toNat - 48) = [c] := by
        rw [Nat.toDigits_of_lt_base (by omega), digitChar_of_isDigit hc]
      have hpos : 0 < c.toNat - 48 := by
        by_contra hzero
        apply hhead
        rw [List.head?_cons, ← digitChar_of_isDigit hc, Nat.eq_zero_of_not_pos hzero]
        rfl
      obtain ⟨n, -, hn⟩ := exists_toDigits_append hpos hrest
      refine ⟨n, String.toList_injective ?_⟩
      rw [htext, Nat.toString_eq_repr, Nat.toList_repr, ← hn, hfirst, List.singleton_append]
  · rintro ⟨n, rfl⟩
    by_cases hn : n = 0
    · exact .inl (by rw [hn]; rfl)
    · right
      rw [Nat.toString_eq_repr, Nat.toList_repr]
      exact ⟨Nat.toDigits_ne_nil, fun c hc => Nat.isDigit_of_mem_toDigits (by omega) (by omega) hc,
        head?_toDigits (Nat.pos_of_ne_zero hn)⟩

end RouteBinding.Text
