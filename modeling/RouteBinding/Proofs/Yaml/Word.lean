import RouteBinding.Proofs.Json.Form
import RouteBinding.Proofs.Number.Sign
import RouteBinding.Proofs.Text.LetterCase
import RouteBinding.Proofs.Text.Numeral
import RouteBinding.Proofs.Text.Split
import RouteBinding.Proofs.Yaml.Scanner
import RouteBinding.Yaml.Value

/-!
# Words of JSON texts

What a word of a JSON text is read as where it is a plain text (`scalarOf_word`): null and the truth values as what they
are, a whole number as that number, and a number with a point as that number too, unless its exponent has no sign.
Every other word is read as a text (`Json.Word.isYaml`).
-/

namespace RouteBinding

namespace Json

open Text (isAsciiDigit)

/-! ## Words that have one meaning -/

/-- Whether a number is written with a point, and its exponent with a sign. -/
def Numeral.isDecimal (n : Numeral) : Bool :=
  !n.fraction.isEmpty && n.exponent.all (·.sign.isSome)

/-- Whether a word means the same as a plain text. -/
def Word.isYaml : Word → Bool
  | .name _ (.float _) _ => false
  | .name .. => true
  | .number n => n.isInt || n.isDecimal

/-- What a word stands for as a plain text. -/
def Word.yamlValue (w : Word) : Scalar :=
  if w.isYaml then w.value else .text (String.ofList w.chars)

namespace Numeral

variable (n : Numeral)

/-! ## What is written -/

/-- What is written behind the digits of the whole part. -/
def tail : List Char :=
  n.fractionChars ++ n.exponentChars

/-- The whole part of a number has a digit. -/
theorem exists_whole : ∃ d ds, n.whole = d :: ds ∧ isAsciiDigit d := by
  obtain ⟨d, ds, h⟩ : ∃ d ds, n.whole = d :: ds := by
    rcases n.leading with h | ⟨d, ds, h, -⟩
    · exact ⟨'0', [], h⟩
    · exact ⟨d, ds, h⟩
  exact ⟨d, ds, h, n.isDigit d (by rw [h]; simp)⟩

/-- An exponent starts with its mark. -/
theorem head_exponentChars : ∀ ch ∈ n.exponentChars.head?, ch = 'e' ∨ ch = 'E' := by
  rw [exponentChars]
  cases n.exponent with
  | none => simp
  | some e => exact fun ch hch => (Option.some.inj hch) ▸ e.isMark

/-- No point starts an exponent. -/
theorem exponentChars_ne_point (rest : List Char) : n.exponentChars ≠ '.' :: rest := by
  intro heq
  have hhead := n.head_exponentChars
  rw [heq] at hhead
  exact absurd (hhead '.' rfl) (by decide)

/-- No digit follows the digits of the whole part. -/
theorem head_tail : ∀ ch ∈ n.tail.head?, ch = '.' ∨ ch = 'e' ∨ ch = 'E' := by
  rw [tail, fractionChars]
  split_ifs
  · exact fun ch hch => .inr (n.head_exponentChars ch hch)
  · exact fun ch hch => .inl (Option.some.inj hch).symm

theorem chars_eq : n.chars = (if n.negative then ['-'] else []) ++ (n.whole ++ n.tail) :=
  rfl

/-- A character of a number. -/
def isNumeralChar (ch : Char) : Bool :=
  isAsciiDigit ch || ch = '.' || ch = 'e' || ch = 'E' || ch = '+' || ch = '-'

theorem isNumeralChar_of_isAsciiDigit {ch : Char} (h : isAsciiDigit ch) : isNumeralChar ch := by
  simp [isNumeralChar, h]

theorem isNumeralChar_of_mem_exponent (e : Exponent) : ∀ ch ∈ e.chars, isNumeralChar ch := by
  have hsign : ∀ ch ∈ signChars e.sign, isNumeralChar ch := by
    rcases e.sign with _ | _ | _ <;> exact List.all_eq_true.1 (by decide)
  refine List.forall_mem_cons.2 ⟨?_, List.forall_mem_append.2
    ⟨hsign, fun ch hch => isNumeralChar_of_isAsciiDigit (e.isDigit ch hch)⟩⟩
  rcases e.isMark with h | h <;> rw [h] <;> decide

theorem isNumeralChar_of_mem_tail : ∀ ch ∈ n.tail, isNumeralChar ch := by
  have hfraction : ∀ ch ∈ n.fractionChars, isNumeralChar ch := by
    unfold fractionChars
    split_ifs
    · simp
    · refine List.forall_mem_cons.2 ⟨by decide, fun ch hch => ?_⟩
      exact isNumeralChar_of_isAsciiDigit (n.isDigit ch (List.mem_append_right _ hch))
  have hexponent : ∀ ch ∈ n.exponentChars, isNumeralChar ch := by
    unfold exponentChars
    cases n.exponent with
    | none => simp
    | some e => exact isNumeralChar_of_mem_exponent e
  exact List.forall_mem_append.2 ⟨hfraction, hexponent⟩

theorem isNumeralChar_of_mem_magnitude : ∀ ch ∈ n.magnitude, isNumeralChar ch :=
  List.forall_mem_append.2 ⟨fun ch hch => isNumeralChar_of_isAsciiDigit
    (n.isDigit ch (List.mem_append_left _ hch)), n.isNumeralChar_of_mem_tail⟩

/-- Every character of a number is a digit, a point, a mark or a sign. -/
theorem isNumeralChar_of_mem : ∀ ch ∈ n.chars, isNumeralChar ch := by
  refine List.forall_mem_append.2 ⟨?_, n.isNumeralChar_of_mem_magnitude⟩
  split_ifs <;> exact List.all_eq_true.1 (by decide)

/-- A character that no number has is in no part of one. -/
theorem notMem_of_isNumeralChar {s : List Char} (hs : ∀ ch ∈ s, isNumeralChar ch) {d : Char}
    (hd : isNumeralChar d = false) : d ∉ s := by
  intro hmem
  rw [hs d hmem] at hd
  cases hd

end Numeral

/-- A number is made of characters that a plain text may have. -/
theorem isWordChar_of_isNumeralChar {ch : Char} (h : Numeral.isNumeralChar ch) : Yaml.isWordChar ch := by
  simp only [Numeral.isNumeralChar, Bool.or_eq_true, decide_eq_true_eq] at h
  rcases h with ((((h | rfl) | rfl) | rfl) | rfl) | rfl
  · simp [Yaml.isWordChar, Text.isAsciiAlnum, h]
  all_goals decide

/-- Words have characters that stand for themselves in a plain text. -/
theorem Word.isWordChar (w : Word) : ∀ ch ∈ w.chars, Yaml.isWordChar ch := by
  cases w with
  | name text value h =>
    have hall : wordValues.all fun w => w.1.toList.all Yaml.isWordChar := by decide
    exact List.all_eq_true.1 (List.all_eq_true.1 hall _ h)
  | number n => exact fun ch hch => isWordChar_of_isNumeralChar (n.isNumeralChar_of_mem ch hch)

/-- A word begins with a letter or a digit, perhaps behind a minus. -/
theorem Word.chars_cases (w : Word) :
    (∃ ch more, w.chars = ch :: more ∧ Text.isAsciiAlnum ch) ∨
      ∃ next more, w.chars = '-' :: next :: more ∧ Text.isAsciiAlnum next := by
  cases w with
  | name text value h =>
    simp only [wordValues, List.mem_cons, Prod.mk.injEq, List.not_mem_nil, or_false] at h
    rcases h with ⟨rfl, -⟩ | ⟨rfl, -⟩ | ⟨rfl, -⟩ | ⟨rfl, -⟩ | ⟨rfl, -⟩ | ⟨rfl, -⟩
    · exact .inl ⟨'n', ['u', 'l', 'l'], rfl, by decide⟩
    · exact .inl ⟨'t', ['r', 'u', 'e'], rfl, by decide⟩
    · exact .inl ⟨'f', ['a', 'l', 's', 'e'], rfl, by decide⟩
    · exact .inl ⟨'N', ['a', 'N'], rfl, by decide⟩
    · exact .inl ⟨'I', _, rfl, by decide⟩
    · exact .inr ⟨'I', _, rfl, by decide⟩
  | number n =>
    obtain ⟨d, ds, hwhole, hd⟩ := n.exists_whole
    have halnum : Text.isAsciiAlnum d := by simp [Text.isAsciiAlnum, hd]
    have hchars : (Word.number n).chars = (if n.negative then ['-'] else []) ++ (d :: ds ++ n.tail) := by
      rw [Word.chars, n.chars_eq, hwhole]
    rw [hchars]
    cases n.negative with
    | true => exact .inr ⟨d, ds ++ n.tail, rfl, halnum⟩
    | false => exact .inl ⟨d, ds ++ n.tail, rfl, halnum⟩

end Json

namespace Yaml

open Json (Numeral Exponent)
open Text (isAsciiDigit)

variable (n : Numeral)

/-! ## Signs -/

theorem ne_of_isAsciiDigit {d e : Char} (h : isAsciiDigit d) (he : isAsciiDigit e = false) : d ≠ e := by
  rintro rfl
  rw [h] at he
  cases he

/-- Without its sign a number is its whole part and what follows it. -/
theorem dropSign_chars : dropSign n.chars = n.whole ++ n.tail := by
  rw [n.chars_eq]
  cases n.negative with
  | true => rfl
  | false =>
    obtain ⟨d, ds, hwhole, hd⟩ := n.exists_whole
    rw [hwhole]
    refine dropSign.eq_3 _ ?_ ?_
    · rintro rest ⟨⟩
      exact absurd hd (by decide)
    · rintro rest ⟨⟩
      exact absurd hd (by decide)

/-- A number without its sign has no other one. -/
theorem spanSign_magnitude : Text.spanSign (n.whole ++ n.tail) = (false, n.whole ++ n.tail) := by
  obtain ⟨d, ds, hwhole, hd⟩ := n.exists_whole
  rw [hwhole]
  refine Text.spanSign.eq_3 _ ?_ ?_
  · rintro rest ⟨⟩
    exact absurd hd (by decide)
  · rintro rest ⟨⟩
    exact absurd hd (by decide)

theorem spanSign_chars : Text.spanSign n.chars = (n.negative, n.whole ++ n.tail) := by
  rw [n.chars_eq]
  cases n.negative with
  | true => rfl
  | false => exact spanSign_magnitude n

/-! ## Kinds -/

/-- An exponent is one of a plain text if its sign is written. -/
theorem isExponent_chars (e : Exponent) : isExponent e.chars = e.sign.isSome := by
  have hmark : (e.mark = 'e' || e.mark = 'E') = true := by simpa using e.isMark
  obtain ⟨d, ds, hdigits⟩ := List.exists_cons_of_ne_nil e.ne_nil
  have hall : e.digits.all isAsciiDigit := List.all_eq_true.2 e.isDigit
  have hd : isAsciiDigit d := e.isDigit d (by rw [hdigits]; simp)
  unfold Exponent.chars
  rcases e.sign with _ | _ | _
  · have hplus : d ≠ '+' := ne_of_isAsciiDigit hd (by decide)
    have hminus : d ≠ '-' := ne_of_isAsciiDigit hd (by decide)
    simp [Json.signChars, hdigits, isExponent, hplus, hminus]
  · simp [Json.signChars, isExponent, hmark, hall, e.ne_nil]
  · simp [Json.signChars, isExponent, hmark, hall, e.ne_nil]

/-- Whether a number may begin with a character. -/
def beginsNumeral (ch : Char) : Bool :=
  isAsciiDigit ch || ch = '-'

/-- Whether a word does not begin as a number. -/
def isApart (word : String) : Bool :=
  word.toList.head?.all fun ch => !beginsNumeral ch

/-- A word that no number can be is not what starts as one. -/
theorem ne_of_isApart {word : String} {s : List Char} {d : Char} {ds : List Char} (hword : isApart word)
    (hs : s = d :: ds) (hd : beginsNumeral d) : s ≠ word.toList := by
  rintro rfl
  rw [isApart, hs] at hword
  simp [hd] at hword

/-- What begins as a number is none of the words that do not. -/
theorem contains_eq_false {words : List String} {s : List Char} {d : Char} {ds : List Char} (hs : s = d :: ds)
    (hd : beginsNumeral d) (hwords : words.all isApart) : words.contains (String.ofList s) = false := by
  rw [List.contains_eq_mem, decide_eq_false_iff_not]
  intro hmem
  exact ne_of_isApart (List.all_eq_true.1 hwords _ hmem) hs hd String.toList_ofList.symm

/-- A number begins with a digit or a minus. -/
theorem exists_chars_eq_cons : ∃ d ds, n.chars = d :: ds ∧ beginsNumeral d := by
  rw [n.chars_eq]
  cases n.negative with
  | true => exact ⟨'-', _, rfl, by decide⟩
  | false =>
    obtain ⟨d, ds, hwhole, hd⟩ := n.exists_whole
    exact ⟨d, ds ++ n.tail, by rw [hwhole]; rfl, by simp [beginsNumeral, hd]⟩

/-- Behind the digits of the whole part and of the fraction stands what is no digit and no underscore. -/
theorem isDigitChar_head {s : List Char} (hs : ∀ ch ∈ s.head?, ch = '.' ∨ ch = 'e' ∨ ch = 'E') :
    ∀ ch ∈ s.head?, (isAsciiDigit ch || ch = '_') = false := by
  intro ch hch
  rcases hs ch hch with rfl | rfl | rfl <;> decide

/-- With digits behind a point, the point comes first behind the whole part. -/
theorem tail_of_fraction (h : n.fraction ≠ []) : n.tail = '.' :: (n.fraction ++ n.exponentChars) := by
  rw [Numeral.tail, Numeral.fractionChars, if_neg (by simpa using h)]
  rfl

theorem tail_of_whole (h : n.fraction = []) : n.tail = n.exponentChars := by
  rw [Numeral.tail, Numeral.fractionChars, h]
  rfl

/-- What follows the point is that of a plain float if the exponent, where there is one, has its sign. -/
theorem isFraction_chars : isFraction (n.fraction ++ n.exponentChars) = n.exponent.all (·.sign.isSome) := by
  have hdigit : ∀ ch ∈ n.fraction, (isAsciiDigit ch || ch = '_') = true := fun ch hch => by
    simp [n.isDigit ch (List.mem_append_right _ hch)]
  have hstop := isDigitChar_head fun ch hch => .inr (n.head_exponentChars ch hch)
  rw [isFraction, dropWhile_append_of_stop hdigit hstop, Numeral.exponentChars]
  cases n.exponent with
  | none => rfl
  | some e => exact isExponent_chars e

theorem isDigits_whole : isDigits n.whole := by
  obtain ⟨d, ds, hwhole, hd⟩ := n.exists_whole
  have hall : ∀ ch ∈ ds, (isAsciiDigit ch || decide (ch = '_')) = true := fun ch hch => by
    simp [n.isDigit ch (by rw [hwhole]; simp [hch])]
  rw [hwhole, isDigits, hd, List.all_eq_true.2 hall]
  rfl

/-- A number has no part in base sixty. -/
theorem splitChars_magnitude : Text.splitChars ':' (n.whole ++ n.tail) = [n.whole ++ n.tail] :=
  Text.splitChars_of_notMem (Numeral.notMem_of_isNumeralChar n.isNumeralChar_of_mem_magnitude (by decide))

/-- A number is a plain float if it has a point, and a sign in its exponent. -/
theorem isFloat_chars : isFloat n.chars = n.isDecimal := by
  have hdigit : ∀ ch ∈ n.whole, (isAsciiDigit ch || ch = '_') = true := fun ch hch => by
    simp [n.isDigit ch (List.mem_append_left _ hch)]
  have hdrop := dropWhile_append_of_stop hdigit (isDigitChar_head n.head_tail)
  obtain ⟨d, ds, hwhole, hd⟩ := n.exists_whole
  obtain ⟨first, more, hchars, hfirst⟩ := exists_chars_eq_cons n
  have hpoint (c : Char) (rest : List Char) : n.chars ≠ '.' :: c :: rest := by
    rw [hchars]
    rintro ⟨⟩
    exact absurd hfirst (by decide)
  have hinfinite : [".inf", ".Inf", ".INF"].contains (String.ofList (n.whole ++ n.tail)) = false :=
    contains_eq_false (by rw [hwhole, List.cons_append]) (by simp [beginsNumeral, hd]) (by decide)
  have hnone : [".nan", ".NaN", ".NAN"].contains (String.ofList n.chars) = false :=
    contains_eq_false hchars hfirst (by decide)
  unfold isFloat
  simp only [dropSign_chars, hdrop, splitChars_magnitude, hinfinite, hnone, Bool.or_false]
  cases hfraction : n.fraction with
  | nil =>
    have htail (rest : List Char) : n.tail ≠ '.' :: rest := by
      rw [tail_of_whole n hfraction]
      exact n.exponentChars_ne_point rest
    split
    · exact absurd ‹_› (htail _)
    · simp [Numeral.isDecimal, hfraction]
  | cons d ds =>
    have htail := tail_of_fraction n (by simp [hfraction])
    have hwhole : ∀ ch ∈ n.whole, decide (ch ≠ '.') = true := fun ch hch =>
      decide_eq_true (ne_of_isAsciiDigit (n.isDigit ch (List.mem_append_left _ hch)) (by decide))
    have htake : (n.whole ++ n.tail).takeWhile (· ≠ '.') = n.whole :=
      takeWhile_append_of_stop hwhole (by rw [htail]; rintro ch ⟨⟩; rfl)
    rw [htake, htail, isDigits_whole]
    show isFraction (n.fraction ++ n.exponentChars) = n.isDecimal
    rw [isFraction_chars, Numeral.isDecimal, hfraction]
    rfl

/-- A number is whole if nothing follows its whole part. -/
theorem tail_eq_nil_iff : n.tail = [] ↔ n.isInt := by
  unfold Numeral.tail Numeral.fractionChars Numeral.exponentChars Numeral.isInt
  cases n.fraction <;> cases n.exponent <;> simp [Exponent.chars]

/-- A number is a plain integer if it is whole. -/
theorem isInt_chars : isInt n.chars = n.isInt := by
  -- what follows the digits of the whole part is in no run of digits
  have hrun {p : Char → Bool} (hp : ∀ ch, ch = '.' ∨ ch = 'e' ∨ ch = 'E' → (p ch || ch = '_') = false)
      (s : List Char) : (s ++ n.tail).all (fun c => p c || c = '_') → n.isInt := by
    intro hall
    rw [← tail_eq_nil_iff]
    cases htail : n.tail with
    | nil => rfl
    | cons ch more =>
      have hch := List.all_eq_true.1 hall ch (by rw [htail]; simp)
      rw [hp ch (n.head_tail ch (by rw [htail]; rfl))] at hch
      cases hch
  have htail (h : n.isInt = true) : n.tail = [] := tail_eq_nil_iff n |>.2 h
  unfold isInt
  rw [dropSign_chars]
  rcases n.leading with hwhole | ⟨d, ds, hwhole, hd⟩
  · rw [hwhole]
    cases hn : n.isInt with
    | true =>
      rw [htail hn]
      rfl
    | false =>
      cases hmore : n.tail with
      | nil =>
        rw [tail_eq_nil_iff, hn] at hmore
        cases hmore
      | cons ch more => rcases n.head_tail ch (by rw [hmore]; rfl) with rfl | rfl | rfl <;> rfl
  · have hsplit := splitChars_magnitude n
    have hdigit : isAsciiDigit d := n.isDigit d (by rw [hwhole]; simp)
    rw [hwhole] at hsplit ⊢
    have hdigits : isDigits (d :: ds ++ n.tail) = n.isInt := by
      cases hn : n.isInt with
      | true =>
        rw [htail hn, List.append_nil, ← hwhole]
        exact isDigits_whole n
      | false =>
        rw [Bool.eq_false_iff]
        intro hall
        rw [List.cons_append, isDigits, Bool.and_eq_true] at hall
        rw [hrun (by rintro ch (rfl | rfl | rfl) <;> decide) ds hall.2] at hn
        cases hn
    split
    · exact absurd (List.cons.inj ‹_›).1 hd
    · exact absurd (List.cons.inj ‹_›).1 hd
    · exact absurd (List.cons.inj ‹_›).1 hd
    · simp only [hsplit, hdigits, List.all_nil, Bool.and_true]

/-- Behind four digits of a number there is no minus. -/
theorem readMark?_behind_year (h : 4 ≤ ((n.chars.take 4).takeWhile isAsciiDigit).length) :
    readMark? '-' (n.chars.drop ((n.chars.take 4).takeWhile isAsciiDigit).length) = none := by
  have hprefix := List.takeWhile_prefix (l := n.chars.take 4) isAsciiDigit
  have hle : (n.chars.take 4).length ≤ 4 := List.length_take_le ..
  have hle' := hprefix.length_le
  have hyear : (n.chars.take 4).takeWhile isAsciiDigit = n.chars.take 4 := hprefix.eq_of_length (by omega)
  have hdigits : ∀ ch ∈ n.chars.take 4, isAsciiDigit ch := by
    rw [← hyear]
    exact fun _ => List.mem_takeWhile_imp
  have hlength : ((n.chars.take 4).takeWhile isAsciiDigit).length = 4 := by omega
  rw [hlength]
  cases hdrop : n.chars.drop 4 with
  | nil => rfl
  | cons ch more =>
    rw [readMark?, if_neg]
    rintro rfl
    have hchars : n.chars = n.chars.take 4 ++ '-' :: more := by rw [← hdrop, List.take_append_drop]
    -- the minus would follow the digits of the whole part
    have hbehind : n.chars.dropWhile isAsciiDigit = '-' :: more := by
      rw [hchars]
      exact dropWhile_append_of_stop hdigits (by rintro ch ⟨⟩; decide)
    have htail : n.negative = false → n.chars.dropWhile isAsciiDigit = n.tail := by
      intro hpositive
      rw [n.chars_eq, hpositive]
      refine dropWhile_append_of_stop (fun ch hch => n.isDigit ch (List.mem_append_left _ hch)) fun ch hch => ?_
      rcases n.head_tail ch hch with rfl | rfl | rfl <;> decide
    cases hnegative : n.negative with
    | true =>
      have hminus := hdigits '-' (by rw [n.chars_eq, hnegative]; simp)
      exact absurd hminus (by decide)
    | false =>
      have hhead := n.head_tail '-' (by rw [← htail hnegative, hbehind]; rfl)
      exact absurd hhead (by decide)

/-- No number is a date. -/
theorem isTimestamp_chars : isTimestamp n.chars = false := by
  have hnone : readStamp? n.chars = none := by
    have hdigits : readDigits? 4 4 n.chars = none ∨
        ∃ year count rest, readDigits? 4 4 n.chars = some (year, count, rest) ∧ readMark? '-' rest = none := by
      unfold readDigits?
      dsimp only
      by_cases hlength : 4 ≤ ((n.chars.take 4).takeWhile isAsciiDigit).length
      · rw [if_pos hlength]
        exact .inr ⟨_, _, _, rfl, readMark?_behind_year n hlength⟩
      · rw [if_neg hlength]
        exact .inl rfl
    rcases hdigits with hyear | ⟨year, count, rest, hyear, hmark⟩
    · rw [readStamp?, hyear]
      rfl
    · rw [readStamp?, hyear]
      show (readMark? '-' rest).bind _ = none
      rw [hmark]
      rfl
  rw [isTimestamp, hnone]

/-- A number as a plain text is an integer, a float or, without either form, a text. -/
theorem implied_number : Tag.implied (String.ofList n.chars) =
    if n.isInt then .int else if n.isDecimal then .float else .text := by
  obtain ⟨first, more, hchars, hfirst⟩ := exists_chars_eq_cons n
  have hbreak : '\n' ∉ n.chars := Numeral.notMem_of_isNumeralChar n.isNumeralChar_of_mem (by decide)
  have hwithout : withoutFinalBreak (String.ofList n.chars) = String.ofList n.chars := by
    unfold withoutFinalBreak
    rw [String.toList_ofList]
    split
    · rename_i heq
      exact absurd (List.mem_reverse.1 (heq ▸ List.mem_cons_self)) hbreak
    · rfl
  have hne (word : String) (hword : isApart word) : String.ofList n.chars ≠ word := by
    rintro rfl
    exact ne_of_isApart hword hchars hfirst String.toList_ofList.symm
  have htrue : trueTexts.contains (String.ofList n.chars) = false := contains_eq_false hchars hfirst (by decide)
  have hfalse : falseTexts.contains (String.ofList n.chars) = false := contains_eq_false hchars hfirst (by decide)
  have hnull : nullTexts.contains (String.ofList n.chars) = false := contains_eq_false hchars hfirst (by decide)
  rw [Tag.implied, if_neg (hne _ (by decide)), hwithout, Tag.ofForm]
  simp only [htrue, hfalse, hnull, String.toList_ofList, isFloat_chars, isInt_chars, isTimestamp_chars,
    if_neg (hne "<<" (by decide)), if_neg (hne "=" (by decide)),
    hne "!" (by decide), hne "&" (by decide), hne "*" (by decide)]
  cases hint : n.isInt with
  | true =>
    have hdecimal : n.isDecimal = false := by
      simp only [Numeral.isInt, Bool.and_eq_true] at hint
      simp [Numeral.isDecimal, hint.1]
    simp [hdecimal]
  | false => cases n.isDecimal <;> simp

/-! ## Values -/

theorem isDigit_of_isAsciiDigit {ch : Char} (h : isAsciiDigit ch) : ch.isDigit := by
  simp only [isAsciiDigit, Bool.and_eq_true, decide_eq_true_eq] at h
  simp only [Char.isDigit, ge_iff_le, Bool.and_eq_true, decide_eq_true_eq]
  exact h

/-- The digits of the whole part are read as the whole number that they are. -/
theorem magnitudeOf?_whole (h : n.whole.length ≤ Text.digitLimit) :
    magnitudeOf? n.whole = some (Json.natOfDigits n.whole : Int) := by
  have hdigit : ∀ ch ∈ n.whole, ch.isDigit := fun ch hch =>
    isDigit_of_isAsciiDigit (n.isDigit ch (List.mem_append_left _ hch))
  obtain ⟨first, others, hne, -⟩ := n.exists_whole
  rcases n.leading with hwhole | ⟨d, ds, hwhole, hd⟩
  · rw [hwhole]
    rfl
  · have hcolon : n.whole.contains ':' = false := by
      rw [List.contains_eq_mem, decide_eq_false_iff_not]
      exact fun hmem => ne_of_isAsciiDigit (n.isDigit ':' (List.mem_append_left _ hmem)) (by decide) rfl
    have hread : Text.readIntIn? 10 n.whole = some (Json.natOfDigits n.whole : Int) := by
      rw [Text.readIntIn?, Text.stripChars_of_isDigit hdigit, Text.spanSign_of_isDigit hdigit]
      have hgrouped : Text.natOfGrouped? 10 n.whole = some (Json.natOfDigits n.whole) := by
        rw [Text.natOfGrouped?, Text.groupedDigits?_of_isDigit (by simp [hne]) hdigit]
        simp only [Option.bind_eq_bind, Option.bind_some, List.length_map]
        rw [if_neg (by simpa using h)]
        rfl
      simp only [Text.dropBaseMark_ten, hgrouped]
      rfl
    unfold magnitudeOf?
    split
    · exact absurd (List.cons.inj (hwhole.symm.trans ‹_›)).1 hd
    · exact absurd (List.cons.inj (hwhole.symm.trans ‹_›)).1 hd
    · exact absurd (List.cons.inj (hwhole.symm.trans ‹_›)).1 hd
    · rw [hcolon, if_neg Bool.false_ne_true, hread]

/-- A number has no underscores to drop. -/
theorem withoutUnderscores_chars : withoutUnderscores (String.ofList n.chars) = n.chars := by
  rw [withoutUnderscores, String.toList_ofList, List.filter_eq_self]
  intro ch hch
  refine decide_eq_true ?_
  rintro rfl
  exact absurd (n.isNumeralChar_of_mem '_' hch) (by decide)

/-- A whole number is read as the same number. -/
theorem intOf?_chars (h : n.isInt) : (intOf? (String.ofList n.chars)).map Scalar.int = some n.value := by
  have hlimit : n.whole.length ≤ Text.digitLimit := by
    simp only [Numeral.isInt, Bool.and_eq_true, List.isEmpty_iff, Option.isNone_iff_eq_none] at h
    exact n.limit h.1 h.2
  rw [intOf?, withoutUnderscores_chars, spanSign_chars, (tail_eq_nil_iff n).2 h, List.append_nil]
  simp only [magnitudeOf?_whole n hlimit]
  rw [Numeral.value, if_pos h]
  rfl

/-- An exponent with a small letter as its mark. -/
def loweredExponent (e : Exponent) : Exponent :=
  { e with mark := 'e', isMark := Json.isMark_small }

/-- A number with a small letter as the mark of its exponent. -/
def lowered : Numeral :=
  { n with
    exponent := n.exponent.map loweredExponent
    limit := fun hfraction hexponent => n.limit hfraction (Option.map_eq_none_iff.1 hexponent) }

/-- ASCII letters are lowered one by one. -/
theorem lowerFrom_of_ascii {s : List Char} (hs : ∀ ch ∈ s, ch.toNat < 0x80) (before : List Char) :
    Text.LetterCase.lowerFrom before s = s.map Char.toLower := by
  induction s generalizing before with
  | nil => rfl
  | cons ch s ih =>
    obtain ⟨hch, hs⟩ := List.forall_mem_cons.1 hs
    rw [Text.LetterCase.lowerFrom, Text.LetterCase.lowerChar_of_ascii hch, ih hs]
    rfl

theorem map_toLower_digits {s : List Char} (hs : ∀ ch ∈ s, isAsciiDigit ch) : s.map Char.toLower = s := by
  refine (List.map_congr_left fun ch hch => ?_).trans (List.map_id' s)
  have hdigit := hs ch hch
  simp only [isAsciiDigit, Bool.and_eq_true, decide_eq_true_eq] at hdigit
  rw [← Char.toNat_inj, Text.LetterCase.toNat_toLower, if_neg]
  simp only [Bool.and_eq_true, decide_eq_true_eq]
  omega

/-- In lower case a number is the same number with a small mark. -/
theorem lowerChars_chars : Text.lowerChars n.chars = (lowered n).chars := by
  have hascii : ∀ ch ∈ n.chars, ch.toNat < 0x80 := by
    intro ch hch
    have hnumeral := n.isNumeralChar_of_mem ch hch
    simp only [Numeral.isNumeralChar, isAsciiDigit, Bool.or_eq_true, Bool.and_eq_true, decide_eq_true_eq] at hnumeral
    rcases hnumeral with ((((h | rfl) | rfl) | rfl) | rfl) | rfl
    · omega
    all_goals decide
  have hwhole : n.whole.map Char.toLower = n.whole :=
    map_toLower_digits fun ch hch => n.isDigit ch (List.mem_append_left _ hch)
  have hfraction : n.fractionChars.map Char.toLower = n.fractionChars := by
    unfold Numeral.fractionChars
    split_ifs
    · rfl
    · rw [List.map_cons, map_toLower_digits fun ch hch => n.isDigit ch (List.mem_append_right _ hch)]
      rfl
  have hexponent : n.exponentChars.map Char.toLower = (lowered n).exponentChars := by
    have hlowered : (lowered n).exponent = n.exponent.map loweredExponent := rfl
    rw [Numeral.exponentChars, Numeral.exponentChars, hlowered]
    cases n.exponent with
    | none => rfl
    | some e =>
      have hmark : e.mark.toLower = 'e' := by rcases e.isMark with h | h <;> rw [h] <;> rfl
      have hsign : (Json.signChars e.sign).map Char.toLower = Json.signChars e.sign := by
        rcases e.sign with _ | _ | _ <;> rfl
      show (e.mark :: (Json.signChars e.sign ++ e.digits)).map Char.toLower = _
      rw [List.map_cons, List.map_append, hmark, hsign, map_toLower_digits e.isDigit]
      rfl
  have hsign : (if n.negative then ['-'] else []).map Char.toLower = if n.negative then ['-'] else [] := by
    split_ifs <;> rfl
  rw [Text.lowerChars, lowerFrom_of_ascii hascii, n.chars_eq, Numeral.tail, List.map_append, List.map_append,
    List.map_append, hsign, hwhole, hfraction, hexponent]
  rfl

theorem exponentOf?_chars (e : Exponent) : Number.exponentOf? e.chars = some e.value := by
  have hmark : (e.mark = 'e' || e.mark = 'E') = true := by simpa using e.isMark
  have hall : e.digits.all isAsciiDigit := List.all_eq_true.2 e.isDigit
  have hne : e.digits.isEmpty = false := by simpa using e.ne_nil
  have hsign : Text.spanSign (Json.signChars e.sign ++ e.digits) = (e.sign == some true, e.digits) := by
    rcases e.sign with _ | _ | _
    · exact Text.spanSign_of_isDigit fun ch hch => isDigit_of_isAsciiDigit (e.isDigit ch hch)
    · rfl
    · rfl
  rw [Exponent.chars, Number.exponentOf?, hsign]
  simp only [hmark, hall, hne, Exponent.value]
  rcases e.sign with _ | _ | _
  all_goals simp [Number.natOfDigits, Json.natOfDigits]

/-- A number has no blanks. -/
theorem isNumberBlank_of_isNumeralChar {ch : Char} (h : Numeral.isNumeralChar ch) :
    Text.isNumberBlank ch = false := by
  simp only [Numeral.isNumeralChar, Bool.or_eq_true, decide_eq_true_eq] at h
  rcases h with ((((h | rfl) | rfl) | rfl) | rfl) | rfl
  · exact Text.isNumberBlank_of_isDigit (isDigit_of_isAsciiDigit h)
  all_goals decide

theorem asciiDigit_of_isNumeralChar {ch : Char} (h : Numeral.isNumeralChar ch) : Number.asciiDigit ch = ch := by
  simp only [Numeral.isNumeralChar, Bool.or_eq_true, decide_eq_true_eq] at h
  rcases h with ((((h | rfl) | rfl) | rfl) | rfl) | rfl
  · have hdigit := isDigit_of_isAsciiDigit h
    obtain ⟨hlow, -⟩ := Text.toNat_of_isDigit hdigit
    rw [Number.asciiDigit, Text.decimalValue?_of_isDigit hdigit]
    show Char.ofNat (48 + (ch.toNat - 48)) = ch
    rw [Nat.add_sub_cancel' hlow, Char.ofNat_toNat]
  all_goals rfl

/-- A number without its sign is read as the number that it is. -/
theorem readMagnitude?_chars : Number.readMagnitude? false (n.whole ++ n.tail) =
    some (Number.ofDecimal false (Json.natOfDigits (n.whole ++ n.fraction))
      ((n.exponent.map Exponent.value).getD 0 - n.fraction.length)) := by
  obtain ⟨d, ds, hwhole, hd⟩ := n.exists_whole
  have hword (word : String) (hword : isApart word) : (n.whole ++ n.tail).map Char.toLower ≠ word.toList := by
    have hfirst : [d].map Char.toLower = [d] := map_toLower_digits (by simpa using hd)
    have hs : (n.whole ++ n.tail).map Char.toLower = d :: (ds ++ n.tail).map Char.toLower := by
      rw [hwhole, List.cons_append, List.map_cons, (List.cons.inj hfirst).1]
    exact ne_of_isApart hword hs (by simp [beginsNumeral, hd])
  have hstop {s : List Char} (hs : ∀ ch ∈ s.head?, ch = '.' ∨ ch = 'e' ∨ ch = 'E') :
      ∀ ch ∈ s.head?, isAsciiDigit ch = false := by
    intro ch hch
    rcases hs ch hch with rfl | rfl | rfl <;> decide
  have hdigit : ∀ ch ∈ n.whole, isAsciiDigit ch := fun ch hch => n.isDigit ch (List.mem_append_left _ hch)
  have htake := takeWhile_append_of_stop hdigit (hstop n.head_tail)
  have hdrop := dropWhile_append_of_stop hdigit (hstop n.head_tail)
  have hexponent : Number.exponentOf? n.exponentChars = some ((n.exponent.map Exponent.value).getD 0) := by
    rw [Numeral.exponentChars]
    cases n.exponent with
    | none => rfl
    | some e => exact exponentOf?_chars e
  rw [Number.readMagnitude?]
  simp only [htake, hdrop, hword "inf" (by decide), hword "infinity" (by decide),
    hword "nan" (by decide)]
  have hne : n.whole.isEmpty = false := by rw [hwhole]; rfl
  cases hfraction : n.fraction with
  | nil =>
    -- `simp` needs to know that the exponent does not begin with a point
    have hpoint := n.exponentChars_ne_point
    rw [tail_of_whole n hfraction]
    simp only [hexponent, hne]
    rw [List.append_nil]
    simp [Number.natOfDigits, Json.natOfDigits]
  | cons f fs =>
    have hfirst := takeWhile_append_of_stop (fun ch hch => n.isDigit ch (List.mem_append_right _ hch))
      (hstop fun ch hch => .inr (n.head_exponentChars ch hch))
    have hrest := dropWhile_append_of_stop (fun ch hch => n.isDigit ch (List.mem_append_right _ hch))
      (hstop fun ch hch => .inr (n.head_exponentChars ch hch))
    rw [tail_of_fraction n (by simp [hfraction])]
    simp only [hfirst, hrest, hexponent, hne]
    rw [hfraction]
    rfl

/-- Without its sign a number is read as its magnitude. -/
theorem readFloat?_magnitude : Number.readFloat? (n.whole ++ n.tail) =
    Number.readMagnitude? false (n.whole ++ n.tail) := by
  have hchars : ∀ ch ∈ n.whole ++ n.tail, Numeral.isNumeralChar ch := n.isNumeralChar_of_mem_magnitude
  have hstrip : Text.stripChars Text.isNumberBlank (n.whole ++ n.tail) = n.whole ++ n.tail := by
    have hnone {first : Option Char} (hfirst : ∀ ch ∈ first, ch ∈ n.whole ++ n.tail) :
        first.map Text.isNumberBlank ≠ some true := by
      cases first with
      | none => simp
      | some ch => simpa using isNumberBlank_of_isNumeralChar (hchars ch (hfirst ch rfl))
    exact Text.stripChars_of_trimmed ⟨hnone fun ch => List.mem_of_mem_head?, hnone fun ch => List.mem_of_mem_getLast?⟩
  have hdigits : (n.whole ++ n.tail).map Number.asciiDigit = n.whole ++ n.tail :=
    (List.map_congr_left fun ch hch => asciiDigit_of_isNumeralChar (hchars ch hch)).trans (List.map_id' _)
  rw [Number.readFloat?, hstrip, hdigits, spanSign_magnitude]

/-- A number that is not whole is read as the same float. -/
theorem floatOf?_chars (h : n.isInt = false) : (floatOf? (String.ofList n.chars)).map Scalar.float = some n.value := by
  have hlower : (Text.lower (String.ofList n.chars)).toList = (lowered n).chars := by
    rw [Text.lower, String.toList_ofList, String.toList_ofList, lowerChars_chars]
  have hword (word : String) (hword : isApart word) : (lowered n).whole ++ (lowered n).tail ≠ word.toList := by
    obtain ⟨d, ds, hwhole, hd⟩ := (lowered n).exists_whole
    have hs : (lowered n).whole ++ (lowered n).tail = d :: (ds ++ (lowered n).tail) := by
      rw [hwhole, List.cons_append]
    exact ne_of_isApart hword hs (by simp [beginsNumeral, hd])
  have hcolon : ((lowered n).whole ++ (lowered n).tail).contains ':' = false := by
    rw [List.contains_eq_mem, decide_eq_false_iff_not]
    exact Numeral.notMem_of_isNumeralChar (lowered n).isNumeralChar_of_mem_magnitude (by decide)
  have hexponent : (lowered n).exponent.map Exponent.value = n.exponent.map Exponent.value := by
    have hlowered : (lowered n).exponent = n.exponent.map loweredExponent := rfl
    rw [hlowered, Option.map_map]
    rfl
  rw [floatOf?, withoutUnderscores_chars, hlower, spanSign_chars]
  simp only [if_neg (hword ".inf" (by decide)), if_neg (hword ".nan" (by decide)), hcolon,
    if_neg Bool.false_ne_true, readFloat?_magnitude, readMagnitude?_chars, hexponent, Option.map_some]
  rw [Numeral.value, h, if_neg Bool.false_ne_true]
  cases hnegative : n.negative with
  | true =>
    have hlowered : (lowered n).negative = true := hnegative
    rw [hlowered, if_pos rfl, Number.neg_ofDecimal]
    rfl
  | false =>
    have hlowered : (lowered n).negative = false := hnegative
    rw [hlowered, if_neg Bool.false_ne_true]
    rfl

/-- A name of JSON is the same value as a plain text, or a text. -/
theorem scalarOf_name (text : String) (value : Scalar) (h : (text, value) ∈ Json.wordValues) :
    scalarOf (Tag.implied text) text = .ok (Json.Word.name text value h).yamlValue := by
  have hcases := h
  simp only [Json.wordValues, List.mem_cons, Prod.mk.injEq, List.not_mem_nil, or_false] at hcases
  rcases hcases with ⟨rfl, rfl⟩ | ⟨rfl, rfl⟩ | ⟨rfl, rfl⟩ | ⟨rfl, rfl⟩ | ⟨rfl, rfl⟩ | ⟨rfl, rfl⟩
  · rfl
  · rfl
  · rfl
  · rfl
  · rfl
  · rfl

/-- What a word is read as where it is a plain text. -/
theorem scalarOf_word (w : Json.Word) :
    scalarOf (Tag.implied (String.ofList w.chars)) (String.ofList w.chars) = .ok w.yamlValue := by
  cases w with
  | name text value h =>
    rw [Json.Word.chars, String.ofList_toList]
    exact scalarOf_name text value h
  | number n =>
    have hyaml : (Json.Word.number n).isYaml = (n.isInt || n.isDecimal) := rfl
    rw [Json.Word.chars, implied_number, Json.Word.yamlValue, hyaml]
    cases hint : n.isInt with
    | true =>
      obtain ⟨i, hi, hvalue⟩ := Option.map_eq_some_iff.1 (intOf?_chars n hint)
      rw [if_pos rfl, Bool.true_or, if_pos rfl, scalarOf, hi]
      exact congrArg Except.ok hvalue
    | false =>
      obtain ⟨x, hx, hvalue⟩ := Option.map_eq_some_iff.1 (floatOf?_chars n hint)
      rw [if_neg Bool.false_ne_true, Bool.false_or]
      cases n.isDecimal with
      | true =>
        rw [if_pos rfl, if_pos rfl, scalarOf, hx]
        exact congrArg Except.ok hvalue
      | false => rfl

end Yaml

end RouteBinding
