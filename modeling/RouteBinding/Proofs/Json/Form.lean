import Mathlib.Data.List.TakeWhile
import RouteBinding.Json.Reader
import RouteBinding.Proofs.Outcome
import RouteBinding.Proofs.Text.CodeUnit

/-!
# JSON texts as they are written

The form of a JSON text: its words and texts as they are written, and the blanks between its tokens. Whatever is read
as a value is the text of a form, and the tree of that form is what is read (`exists_form_of_read`). The tree depends
on what the words stand for, and on nothing else that a form leaves open (`Form.tree`).
-/

namespace RouteBinding.Json

variable {s rest : List Char} {fuel : Nat}

/-! ## Blanks -/

/-- Blanks between two tokens. -/
structure Gap where
  chars : List Char
  isSpace : ∀ c ∈ chars, isSpace c

/-- A text starts with a gap, which may be empty. -/
theorem exists_gap (s : List Char) : ∃ gap : Gap, s = gap.chars ++ skipSpaces s :=
  ⟨⟨s.takeWhile isSpace, fun _ => List.mem_takeWhile_imp⟩, List.takeWhile_append_dropWhile.symm⟩

/-! ## Texts -/

/-- A character of a text as it is written: as itself, by a letter, by its code, or by the codes of the two halves of
its pair. -/
inductive Glyph
  | plain (c : Char) (h : c ≠ '"' ∧ c ≠ '\\' ∧ 0x20 ≤ c.toNat)
  | letter (letter c : Char) (h : simpleEscape? letter = some c)
  | unit (digits : List Char) (code : Nat) (h : Text.readHex? 4 digits = some (code, []))
  | pair (high low : List Char) (a b code : Nat) (hhigh : Text.readHex? 4 high = some (a, []))
    (hlow : Text.readHex? 4 low = some (b, [])) (h : Text.joinPair? a b = some code)

/-- What is written for a character. -/
def Glyph.chars : Glyph → List Char
  | plain c _ => [c]
  | letter l _ _ => ['\\', l]
  | unit digits _ _ => '\\' :: 'u' :: digits
  | pair high low _ _ _ _ _ _ => '\\' :: 'u' :: high ++ '\\' :: 'u' :: low

/-- The character that is written. -/
def Glyph.value : Glyph → Char
  | plain c _ => c
  | letter _ c _ => c
  | unit _ code _ => Text.charOfCode code
  | pair _ _ _ _ code _ _ _ => Char.ofNat code

/-- A text as it is written between its quotes. -/
abbrev Quoted := List Glyph

/-- What is written for a text, with its quotes. -/
def Quoted.chars (q : Quoted) : List Char :=
  '"' :: q.flatMap Glyph.chars ++ ['"']

/-- The text that is written. -/
def Quoted.value (q : Quoted) : String :=
  String.ofList (q.map Glyph.value)

/-- No character that controls a terminal is written as itself. -/
theorem Glyph.le_toNat (g : Glyph) : ∀ ch ∈ g.chars, 0x20 ≤ ch.toNat := by
  have hhex {digits : List Char} {code : Nat} (h : Text.readHex? 4 digits = some (code, [])) :
      ∀ ch ∈ '\\' :: 'u' :: digits, 0x20 ≤ ch.toNat :=
    List.forall_mem_cons.2 ⟨by decide, List.forall_mem_cons.2 ⟨by decide, fun ch hch =>
      Nat.le_trans (by decide) (Text.le_toNat_of_readHex? h ch hch)⟩⟩
  cases g with
  | plain c h => simpa [Glyph.chars] using h.2.2
  | letter l c h =>
    have hletter : 0x20 ≤ l.toNat := by
      have hmem := mem_of_lookup h
      simp only [List.mem_cons, Prod.mk.injEq, List.not_mem_nil, or_false] at hmem
      rcases hmem with ⟨rfl, -⟩ | ⟨rfl, -⟩ | ⟨rfl, -⟩ | ⟨rfl, -⟩ | ⟨rfl, -⟩ | ⟨rfl, -⟩ | ⟨rfl, -⟩ | ⟨rfl, -⟩ <;> decide
    exact List.forall_mem_cons.2 ⟨by decide, List.forall_mem_singleton.2 hletter⟩
  | unit digits code h => exact hhex h
  | pair high low a b code hhigh hlow h => exact List.forall_mem_append.2 ⟨hhex hhigh, hhex hlow⟩

/-- A quoted text has no control character. -/
theorem Quoted.le_toNat (q : Quoted) : ∀ ch ∈ q.chars, 0x20 ≤ ch.toNat := by
  have hbody : ∀ ch ∈ q.flatMap Glyph.chars, 0x20 ≤ ch.toNat := by
    intro ch hch
    obtain ⟨g, -, hch⟩ := List.mem_flatMap.1 hch
    exact g.le_toNat ch hch
  exact List.forall_mem_cons.2 ⟨by decide, List.forall_mem_append.2 ⟨hbody, List.forall_mem_singleton.2 (by decide)⟩⟩

/-- What is read as an escape is a glyph. -/
theorem exists_glyph_of_readEscape {c : Char} (h : readEscape s = .ok (c, rest)) :
    ∃ g : Glyph, '\\' :: s = g.chars ++ rest ∧ g.value = c := by
  unfold readEscape at h
  split at h
  · split at h
    · rename_i found hunit
      cases h
      obtain ⟨digits, code, hcode, rfl, rfl⟩ | ⟨high, low, a, b, code, hhigh, hlow, hjoin, rfl, rfl⟩ :=
        Text.readUnit?_cases hunit
      · exact ⟨.unit digits code hcode, rfl, rfl⟩
      · exact ⟨.pair high low a b code hhigh hlow hjoin, by simp [Glyph.chars], rfl⟩
    · cases h
  · split at h
    · rename_i hletter
      cases h
      exact ⟨.letter _ _ hletter, rfl, rfl⟩
    · cases h
  · cases h

/-- What is read as a text is made of glyphs, up to the closing quote. -/
theorem exists_quoted_of_readText {read : List Char} {text : String} (h : readText fuel read s = .ok (text, rest)) :
    ∃ q : Quoted, s = q.flatMap Glyph.chars ++ '"' :: rest ∧
      text = String.ofList (read.reverse ++ q.map Glyph.value) := by
  induction fuel generalizing read s with
  | zero => cases h
  | succ fuel ih =>
    cases s with
    | nil => cases h
    | cons c s =>
      rw [readText] at h
      -- a character in front of a text that is written
      have hcons {g : Glyph} {after : List Char} (hs : c :: s = g.chars ++ after)
          (hafter : readText fuel (g.value :: read) after = .ok (text, rest)) :
          ∃ q : Quoted, c :: s = q.flatMap Glyph.chars ++ '"' :: rest ∧
            text = String.ofList (read.reverse ++ q.map Glyph.value) := by
        obtain ⟨q, hq, htext⟩ := ih hafter
        refine ⟨g :: q, ?_, ?_⟩
        · rw [hs, hq, List.flatMap_cons, List.append_assoc]
        · rw [htext, List.reverse_cons, List.append_assoc]
          rfl
      split_ifs at h with hquote hback hcontrol
      · cases h
        exact ⟨[], by rw [hquote]; rfl, by simp⟩
      · split at h
        · rename_i e after hescape
          obtain ⟨g, hg, rfl⟩ := exists_glyph_of_readEscape hescape
          exact hcons (by rw [hback, hg]) h
        · cases h
      · exact hcons (g := .plain c ⟨hquote, hback, by omega⟩) rfl h

/-! ## Numbers -/

/-- A sign as it is written, if there is one; `some true` is a minus. -/
def signChars : Option Bool → List Char
  | none => []
  | some true => ['-']
  | some false => ['+']

/-- An exponent as it is written. -/
structure Exponent where
  mark : Char
  sign : Option Bool
  digits : List Char
  isMark : mark = 'e' ∨ mark = 'E'
  isDigit : ∀ d ∈ digits, Text.isAsciiDigit d
  ne_nil : digits ≠ []

theorem isMark_small : 'e' = 'e' ∨ 'e' = 'E' :=
  .inl rfl

/-- What is written for an exponent. -/
def Exponent.chars (e : Exponent) : List Char :=
  e.mark :: (signChars e.sign ++ e.digits)

/-- The exponent that is written. -/
def Exponent.value (e : Exponent) : Int :=
  (if e.sign = some true then -1 else 1) * natOfDigits e.digits

/-- A number as it is written. A whole number has no more digits than the limit. -/
structure Numeral where
  negative : Bool
  whole : List Char
  fraction : List Char
  exponent : Option Exponent
  isDigit : ∀ d ∈ whole ++ fraction, Text.isAsciiDigit d
  leading : whole = ['0'] ∨ ∃ d ds, whole = d :: ds ∧ d ≠ '0'
  limit : fraction = [] → exponent = none → whole.length ≤ Text.digitLimit

namespace Numeral

/-- What is written for the fraction. -/
def fractionChars (n : Numeral) : List Char :=
  if n.fraction.isEmpty then [] else '.' :: n.fraction

/-- What is written for the exponent. -/
def exponentChars (n : Numeral) : List Char :=
  (n.exponent.map Exponent.chars).getD []

/-- What is written behind the sign. -/
def magnitude (n : Numeral) : List Char :=
  n.whole ++ (n.fractionChars ++ n.exponentChars)

/-- What is written for a number. -/
def chars (n : Numeral) : List Char :=
  (if n.negative then ['-'] else []) ++ n.magnitude

/-- Whether a number is written without a fraction and without an exponent. -/
def isInt (n : Numeral) : Bool :=
  n.fraction.isEmpty && n.exponent.isNone

/-- The number that is written. -/
def value (n : Numeral) : Scalar :=
  if n.isInt then .int (if n.negative then -(natOfDigits n.whole : Int) else natOfDigits n.whole)
  else .float (Number.ofDecimal n.negative (natOfDigits (n.whole ++ n.fraction))
    ((n.exponent.map Exponent.value).getD 0 - n.fraction.length))

end Numeral

/-- The digits in front are split off. -/
theorem spanDigits_eq {ds : List Char} (h : spanDigits s = (ds, rest)) :
    s = ds ++ rest ∧ ∀ d ∈ ds, Text.isAsciiDigit d := by
  cases h
  exact ⟨List.takeWhile_append_dropWhile.symm, fun _ => List.mem_takeWhile_imp⟩

/-- What is read as a fraction is a point and digits, or nothing. -/
theorem readFraction_eq {fraction : List Char} (h : readFraction s = (fraction, rest)) :
    s = (if fraction.isEmpty then [] else '.' :: fraction) ++ rest ∧
      ∀ d ∈ fraction, Text.isAsciiDigit d := by
  have hnone (h : (([], s) : List Char × List Char) = (fraction, rest)) :
      s = (if fraction.isEmpty then [] else '.' :: fraction) ++ rest ∧ ∀ d ∈ fraction, Text.isAsciiDigit d := by
    cases h
    exact ⟨rfl, fun _ hmem => (List.not_mem_nil hmem).elim⟩
  unfold readFraction at h
  split at h
  · rename_i after
    split at h
    · exact hnone h
    · rename_i hne
      obtain ⟨hafter, hdigits⟩ := spanDigits_eq h
      refine ⟨?_, hdigits⟩
      have hfraction : fraction.isEmpty = false := by
        cases fraction with
        | nil => exact absurd h (hne _)
        | cons => rfl
      rw [hfraction, hafter]
      rfl
  · exact hnone h

/-- A sign may stand behind the mark of an exponent. -/
theorem exists_readExponent_cons (mark : Char) (after : List Char) :
    ∃ sign digits, after = signChars sign ++ digits ∧ readExponent (mark :: after) =
      if mark = 'e' || mark = 'E' then
        match spanDigits digits with
        | ([], _) => (none, mark :: after)
        | (ds, rest) => (some ((if sign = some true then -1 else 1) * (natOfDigits ds : Int)), rest)
      else (none, mark :: after) := by
  by_cases hminus : ∃ r, after = '-' :: r
  · obtain ⟨r, rfl⟩ := hminus
    exact ⟨some true, r, rfl, readExponent.eq_1 mark r⟩
  · by_cases hplus : ∃ r, after = '+' :: r
    · obtain ⟨r, rfl⟩ := hplus
      exact ⟨some false, r, rfl, readExponent.eq_2 mark r⟩
    · exact ⟨none, after, rfl, readExponent.eq_3 mark after (fun r h => hminus ⟨r, h⟩) fun r h => hplus ⟨r, h⟩⟩

/-- What is read as an exponent is one, or nothing. -/
theorem readExponent_eq {exponent : Option Int} (h : readExponent s = (exponent, rest)) :
    ∃ e : Option Exponent, s = (e.map Exponent.chars).getD [] ++ rest ∧ exponent = e.map Exponent.value := by
  have hnone (h : ((none, s) : Option Int × List Char) = (exponent, rest)) :
      ∃ e : Option Exponent, s = (e.map Exponent.chars).getD [] ++ rest ∧ exponent = e.map Exponent.value := by
    cases h
    exact ⟨none, rfl, rfl⟩
  cases s with
  | nil => exact hnone h
  | cons mark after =>
    obtain ⟨sign, digits, hafter, hread⟩ := exists_readExponent_cons mark after
    rw [hread] at h
    by_cases hmark : mark = 'e' || mark = 'E'
    · rw [if_pos hmark] at h
      split at h
      · exact hnone h
      · rename_i ds rest' hne hspan
        cases h
        simp only [Bool.or_eq_true, decide_eq_true_eq] at hmark
        obtain ⟨hdigits, hall⟩ := spanDigits_eq hspan
        refine ⟨some ⟨mark, sign, ds, hmark, hall, hne⟩, ?_, rfl⟩
        rw [hafter, hdigits]
        simp [Exponent.chars]
    · rw [if_neg hmark] at h
      exact hnone h

/-- A number begins with a zero alone, or with digits as far as they go. -/
theorem exists_readNumber (negative : Bool) (s : List Char) {found : Scalar × List Char}
    (h : readNumber negative s = .ok found) :
    ∃ whole after, s = whole ++ after ∧ (∀ d ∈ whole, Text.isAsciiDigit d) ∧
      (whole = ['0'] ∨ ∃ d ds, whole = d :: ds ∧ d ≠ '0') ∧
      readNumber negative s =
        match readFraction after with
        | (fraction, rest) =>
          match readExponent rest with
          | (exponent, rest) =>
            if fraction.isEmpty && exponent.isNone then
              if whole.length > Text.digitLimit then .error .tooManyDigits
              else .ok (.int (if negative then -(natOfDigits whole : Int) else natOfDigits whole), rest)
            else .ok (.float (Number.ofDecimal negative (natOfDigits (whole ++ fraction))
              (exponent.getD 0 - fraction.length)), rest) := by
  by_cases hzero : ∃ r, s = '0' :: r
  · obtain ⟨r, rfl⟩ := hzero
    exact ⟨['0'], r, rfl, List.forall_mem_singleton.2 (by decide), .inl rfl, readNumber.eq_1 negative r⟩
  · have heq := readNumber.eq_2 negative s fun r hr => hzero ⟨r, hr⟩
    rcases hspan : spanDigits s with ⟨whole, after⟩
    obtain ⟨hs, hdigits⟩ := spanDigits_eq hspan
    cases whole with
    | nil =>
      rw [heq, hspan] at h
      cases h
    | cons d ds =>
      refine ⟨d :: ds, after, hs, hdigits, .inr ⟨d, ds, rfl, ?_⟩, ?_⟩
      · rintro rfl
        exact hzero ⟨ds ++ after, hs⟩
      · rw [heq, hspan]
        rfl

/-- What is read as a number is a numeral of it. -/
theorem readNumber_eq {negative : Bool} {v : Scalar} (h : readNumber negative s = .ok (v, rest)) :
    ∃ n : Numeral, n.negative = negative ∧ s = n.magnitude ++ rest ∧ v = n.value := by
  obtain ⟨whole, after, hs, hdigits, hleading, hread⟩ := exists_readNumber negative s h
  rw [hread] at h
  rcases hfraction : readFraction after with ⟨fraction, after'⟩
  rcases hexponent : readExponent after' with ⟨exponent, after''⟩
  obtain ⟨hafter, hdigits'⟩ := readFraction_eq hfraction
  obtain ⟨e, hafter', rfl⟩ := readExponent_eq hexponent
  simp only [hfraction, hexponent] at h
  have hlimit : fraction = [] → e = none → whole.length ≤ Text.digitLimit := by
    rintro rfl rfl
    by_contra hlong
    simp [Nat.not_le.1 hlong] at h
  let n : Numeral :=
    ⟨negative, whole, fraction, e, List.forall_mem_append.2 ⟨hdigits, hdigits'⟩, hleading, hlimit⟩
  have hvalue : (v, rest) = (n.value, after'') := by
    have hint : (fraction.isEmpty && e.isNone) = n.isInt := rfl
    rw [Option.isNone_map, hint] at h
    rw [Numeral.value]
    cases hn : n.isInt with
    | true =>
      rw [hn, if_pos rfl] at h
      by_cases hlong : whole.length > Text.digitLimit
      · rw [if_pos hlong] at h
        cases h
      · rw [if_neg hlong] at h
        cases h
        rfl
    | false =>
      rw [hn, if_neg Bool.false_ne_true] at h
      cases h
      rfl
  obtain ⟨rfl, rfl⟩ := Prod.mk.inj hvalue
  refine ⟨n, rfl, ?_, rfl⟩
  rw [hs, hafter, hafter']
  simp only [Numeral.magnitude, Numeral.fractionChars, Numeral.exponentChars, List.append_assoc, n]

/-! ## Words -/

/-- A word of a JSON text: the name of a value, or a number. -/
inductive Word
  | name (text : String) (value : Scalar) (h : (text, value) ∈ wordValues)
  | number (n : Numeral)

/-- What is written for a word. -/
def Word.chars : Word → List Char
  | name text _ _ => text.toList
  | number n => n.chars

/-- What a word stands for. -/
def Word.value : Word → Scalar
  | name _ value _ => value
  | number n => n.value

/-- What is read as a scalar is a word. -/
theorem exists_word_of_readScalar {t : Tree} (h : readScalar s = .ok (t, rest)) :
    ∃ w : Word, s = w.chars ++ rest ∧ t = .scalar w.value := by
  unfold readScalar at h
  split at h
  · rename_i hname
    cases h
    obtain ⟨⟨text, value⟩, hfind, hfound⟩ := Option.map_eq_some_iff.1 hname
    cases hfound
    have hfits := List.find?_some hfind
    have hprefix : text.toList <+: s := List.isPrefixOf_iff_prefix.1 hfits
    refine ⟨.name text value (List.mem_of_find?_eq_some hfind), ?_, rfl⟩
    obtain ⟨more, rfl⟩ := hprefix
    exact congrArg (text.toList ++ ·) (List.drop_left' String.length_toList).symm
  · obtain ⟨⟨v, rest'⟩, hnumber, hfound⟩ := map_eq_ok.1 h
    cases hfound
    split at hnumber
    · obtain ⟨n, hn, hs, rfl⟩ := readNumber_eq hnumber
      exact ⟨.number n, by rw [Word.chars, Numeral.chars, if_pos hn, hs]; rfl, rfl⟩
    · obtain ⟨n, hn, hs, rfl⟩ := readNumber_eq hnumber
      exact ⟨.number n, by rw [Word.chars, Numeral.chars, hn, if_neg Bool.false_ne_true, hs]; rfl, rfl⟩

/-! ## Values -/

/-- A key as it is written, with the blanks in front of its colon and behind it. -/
structure Key where
  name : Quoted
  before : Gap
  after : Gap

/-- What is written for a key, with its colon. -/
def Key.chars (k : Key) : List Char :=
  k.name.chars ++ (k.before.chars ++ ':' :: k.after.chars)

/-- The scalar that a key is. -/
def Key.value (k : Key) : Scalar :=
  .text k.name.value

mutual

/-- A value as it is written. -/
inductive Form
  | word (w : Word)
  | text (q : Quoted)
  | list (items : Items)
  | mapping (entries : Entries)

/-- The items of a list as they are written, up to its closing bracket. Blanks stand in front of a comma and behind it;
the first item has no comma. -/
inductive Items
  | none (gap : Gap)
  | more (before after : Gap) (item : Form) (rest : Items)

/-- The entries of a mapping as they are written, up to its closing brace. -/
inductive Entries
  | none (gap : Gap)
  | more (before after : Gap) (key : Key) (value : Form) (rest : Entries)

end

/-- The comma in front of all but the first. -/
def comma (isFirst : Bool) : List Char :=
  if isFirst then [] else [',']

mutual

/-- What is written for a value. -/
def Form.chars : Form → List Char
  | .word w => w.chars
  | .text q => q.chars
  | .list items => '[' :: items.chars true
  | .mapping entries => '\x7b' :: entries.chars true

/-- What is written for the items of a list. -/
def Items.chars : (isFirst : Bool) → Items → List Char
  | _, .none gap => gap.chars ++ [']']
  | isFirst, .more before after item rest =>
    before.chars ++ (comma isFirst ++ (after.chars ++ (item.chars ++ rest.chars false)))

/-- What is written for the entries of a mapping. -/
def Entries.chars : (isFirst : Bool) → Entries → List Char
  | _, .none gap => gap.chars ++ ['\x7d']
  | isFirst, .more before after key value rest =>
    before.chars ++ (comma isFirst ++ (after.chars ++ (key.chars ++ (value.chars ++ rest.chars false))))

end

mutual

/-- The tree that is written, where every word stands for a scalar. -/
def Form.tree (meaning : Word → Scalar) : Form → Tree
  | .word w => .scalar (meaning w)
  | .text q => .text q.value
  | .list items => .list (items.trees meaning)
  | .mapping entries => .mapping (mergeEntries (entries.trees meaning))

/-- The trees of the items of a list. -/
def Items.trees (meaning : Word → Scalar) : Items → List Tree
  | .none _ => []
  | .more _ _ item rest => item.tree meaning :: rest.trees meaning

/-- The keys of a mapping with the trees that stand under them. -/
def Entries.trees (meaning : Word → Scalar) : Entries → List (Scalar × Tree)
  | .none _ => []
  | .more _ _ key value rest => (key.value, value.tree meaning) :: rest.trees meaning

end

mutual

/-- The words of a value. -/
def Form.words : Form → List Word
  | .word w => [w]
  | .text _ => []
  | .list items => items.words
  | .mapping entries => entries.words

/-- The words of the items of a list. -/
def Items.words : Items → List Word
  | .none _ => []
  | .more _ _ item rest => item.words ++ rest.words

/-- The words of the entries of a mapping. -/
def Entries.words : Entries → List Word
  | .none _ => []
  | .more _ _ _ value rest => value.words ++ rest.words

end

section Meanings

variable {meaning meaning' : Word → Scalar}

mutual

/-- The tree depends on what the words of the value stand for. -/
theorem Form.tree_congr (f : Form) (h : ∀ w ∈ f.words, meaning w = meaning' w) : f.tree meaning = f.tree meaning' := by
  cases f with
  | word w => exact congrArg Tree.scalar (h w List.mem_cons_self)
  | text q => rfl
  | list items => rw [Form.tree, items.trees_congr h, Form.tree]
  | mapping entries => rw [Form.tree, entries.trees_congr h, Form.tree]

/-- Items have the same trees if their words have the same meaning. -/
theorem Items.trees_congr (items : Items) (h : ∀ w ∈ items.words, meaning w = meaning' w) :
    items.trees meaning = items.trees meaning' := by
  cases items with
  | none gap => rfl
  | more before after item rest =>
    obtain ⟨hitem, hrest⟩ := List.forall_mem_append.1 h
    rw [Items.trees, item.tree_congr hitem, rest.trees_congr hrest, Items.trees]

/-- Entries have the same trees if their words have the same meaning. -/
theorem Entries.trees_congr (entries : Entries) (h : ∀ w ∈ entries.words, meaning w = meaning' w) :
    entries.trees meaning = entries.trees meaning' := by
  cases entries with
  | none gap => rfl
  | more before after key value rest =>
    obtain ⟨hvalue, hrest⟩ := List.forall_mem_append.1 h
    rw [Entries.trees, value.tree_congr hvalue, rest.trees_congr hrest, Entries.trees]

end

end Meanings

/-- What is read with some fuel is the text of a form. -/
structure ReadsForms (fuel : Nat) : Prop where
  value : ∀ s t rest, readValue fuel s = .ok (t, rest) →
    ∃ f : Form, s = f.chars ++ rest ∧ t = f.tree Word.value
  items : ∀ s trees rest, readItems fuel s = .ok (trees, rest) →
    ∃ (f : Form) (more : Items), s = f.chars ++ (more.chars false ++ rest) ∧
      trees = f.tree Word.value :: more.trees Word.value
  members : ∀ s trees rest, readMembers fuel s = .ok (trees, rest) →
    ∃ (k : Key) (f : Form) (more : Entries), s = k.chars ++ (f.chars ++ (more.chars false ++ rest)) ∧
      trees = (k.value, f.tree Word.value) :: more.trees Word.value

/-- A text between quotes is a quoted text. -/
theorem exists_quoted {text : String} {after : List Char}
    (h : readText (after.length + 1) [] after = .ok (text, rest)) :
    ∃ q : Quoted, '"' :: after = q.chars ++ rest ∧ text = q.value := by
  obtain ⟨q, hq, htext⟩ := exists_quoted_of_readText h
  exact ⟨q, by simp [hq, Quoted.chars], htext⟩

/-- A value is read from a form if what is inside it is. -/
theorem ReadsForms.value_succ (h : ReadsForms fuel) {t : Tree} (ht : readValue (fuel + 1) s = .ok (t, rest)) :
    ∃ f : Form, s = f.chars ++ rest ∧ t = f.tree Word.value := by
  rw [readValue.eq_def] at ht
  dsimp only at ht
  split at ht
  · obtain ⟨⟨text, rest'⟩, htext, hfound⟩ := map_eq_ok.1 ht
    cases hfound
    obtain ⟨q, hq, rfl⟩ := exists_quoted htext
    exact ⟨.text q, hq, rfl⟩
  · rename_i after
    obtain ⟨gap, hgap⟩ := exists_gap after
    split at ht
    · rename_i hclose
      cases ht
      refine ⟨.list (.none gap), ?_, rfl⟩
      rw [hgap, hclose]
      simp [Form.chars, Items.chars]
    · obtain ⟨⟨trees, rest'⟩, hitems, hfound⟩ := map_eq_ok.1 ht
      cases hfound
      obtain ⟨f, more, hf, rfl⟩ := h.items _ _ _ hitems
      refine ⟨.list (.more ⟨[], by simp⟩ gap f more), ?_, rfl⟩
      rw [hgap, hf]
      simp [Form.chars, Items.chars, comma]
  · rename_i after
    obtain ⟨gap, hgap⟩ := exists_gap after
    split at ht
    · rename_i hclose
      cases ht
      refine ⟨.mapping (.none gap), ?_, rfl⟩
      rw [hgap, hclose]
      simp [Form.chars, Entries.chars]
    · obtain ⟨⟨trees, rest'⟩, hmembers, hfound⟩ := map_eq_ok.1 ht
      cases hfound
      obtain ⟨k, f, more, hf, rfl⟩ := h.members _ _ _ hmembers
      refine ⟨.mapping (.more ⟨[], by simp⟩ gap k f more), ?_, rfl⟩
      rw [hgap, hf]
      simp [Form.chars, Entries.chars, comma]
  · obtain ⟨w, hw, rfl⟩ := exists_word_of_readScalar ht
    exact ⟨.word w, hw, rfl⟩

/-- Items are read from forms if what is inside them is. -/
theorem ReadsForms.items_succ (h : ReadsForms fuel) {trees : List Tree}
    (hitems : readItems (fuel + 1) s = .ok (trees, rest)) :
    ∃ (f : Form) (more : Items), s = f.chars ++ (more.chars false ++ rest) ∧
      trees = f.tree Word.value :: more.trees Word.value := by
  rw [readItems] at hitems
  split at hitems
  · cases hitems
  · rename_i item after hitem
    obtain ⟨f, rfl, rfl⟩ := h.value _ _ _ hitem
    obtain ⟨gap, hgap⟩ := exists_gap after
    split at hitems
    · rename_i hclose
      cases hitems
      refine ⟨f, .none gap, ?_, rfl⟩
      rw [hgap, hclose]
      simp [Items.chars]
    · rename_i after' hcomma
      obtain ⟨⟨others, rest'⟩, hothers, hfound⟩ := map_eq_ok.1 hitems
      cases hfound
      obtain ⟨gap', hgap'⟩ := exists_gap after'
      obtain ⟨f', more, hf', rfl⟩ := h.items _ _ _ hothers
      refine ⟨f, .more gap gap' f' more, ?_, rfl⟩
      rw [hgap, hcomma, hgap', hf']
      simp [Items.chars, comma]
    · cases hitems

/-- Entries are read from forms if what is inside them is. -/
theorem ReadsForms.members_succ (h : ReadsForms fuel) {trees : List (Scalar × Tree)}
    (hmembers : readMembers (fuel + 1) s = .ok (trees, rest)) :
    ∃ (k : Key) (f : Form) (more : Entries), s = k.chars ++ (f.chars ++ (more.chars false ++ rest)) ∧
      trees = (k.value, f.tree Word.value) :: more.trees Word.value := by
  rw [readMembers.eq_def] at hmembers
  dsimp only at hmembers
  split at hmembers
  · rename_i body
    split at hmembers
    · cases hmembers
    · rename_i beforeColon hkey
      obtain ⟨q, hq, rfl⟩ := exists_quoted hkey
      obtain ⟨before, hbefore⟩ := exists_gap beforeColon
      split at hmembers
      · rename_i behindColon hcolon
        obtain ⟨after, hafter⟩ := exists_gap behindColon
        split at hmembers
        · cases hmembers
        · rename_i value behind hvalue
          obtain ⟨f, hf, rfl⟩ := h.value _ _ _ hvalue
          obtain ⟨gap, hgap⟩ := exists_gap behind
          have hstart : '"' :: body = (Key.mk q before after).chars ++ (f.chars ++ behind) := by
            rw [hq, hbefore, hcolon, hafter, hf]
            simp [Key.chars]
          split at hmembers
          · rename_i hclose
            cases hmembers
            refine ⟨⟨q, before, after⟩, f, .none gap, ?_, rfl⟩
            rw [hstart, hgap, hclose]
            simp [Entries.chars]
          · rename_i behindComma hcomma
            obtain ⟨⟨others, rest'⟩, hothers, hfound⟩ := map_eq_ok.1 hmembers
            cases hfound
            obtain ⟨gap', hgap'⟩ := exists_gap behindComma
            obtain ⟨k', f', more, hf', rfl⟩ := h.members _ _ _ hothers
            refine ⟨⟨q, before, after⟩, f, .more gap gap' k' f' more, ?_, rfl⟩
            rw [hstart, hgap, hcomma, hgap', hf']
            simp [Entries.chars, comma]
          · cases hmembers
      · cases hmembers
  · cases hmembers

/-- Whatever is read is read from a form. -/
theorem readsForms (fuel : Nat) : ReadsForms fuel := by
  -- the three readers call each other with less fuel, so that they go together
  induction fuel with
  | zero =>
    refine ⟨fun s t rest h => ?_, fun s trees rest h => ?_, fun s trees rest h => ?_⟩
    · rw [readValue] at h
      cases h
    · rw [readItems] at h
      cases h
    · rw [readMembers] at h
      cases h
  | succ fuel ih =>
    exact ⟨fun _ _ _ => ih.value_succ, fun _ _ _ => ih.items_succ, fun _ _ _ => ih.members_succ⟩

/-- A form is what a text is written as, with blanks around it. -/
def Form.Spells (f : Form) (content : String) : Prop :=
  ∃ before after : Gap, content.toList = before.chars ++ (f.chars ++ after.chars)

/-- What is read is the tree of the form that the text is written as. -/
theorem exists_form_of_read {content : String} {t : Tree} (h : read content = .ok t) :
    ∃ f : Form, f.Spells content ∧ f.tree Word.value = t := by
  unfold read at h
  dsimp only at h
  split at h
  · cases h
  · rename_i value rest hvalue
    split_ifs at h with hrest
    cases h
    obtain ⟨before, hbefore⟩ := exists_gap content.toList
    obtain ⟨after, hafter⟩ := exists_gap rest
    obtain ⟨f, hf, rfl⟩ := (readsForms _).value _ _ _ hvalue
    rw [List.isEmpty_iff.1 hrest, List.append_nil] at hafter
    exact ⟨f, ⟨before, after, by rw [hbefore, hf, hafter]⟩, rfl⟩

end RouteBinding.Json
