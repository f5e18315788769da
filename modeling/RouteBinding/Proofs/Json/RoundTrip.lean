import Mathlib.Algebra.Group.Nat.Defs
import RouteBinding.Json.Printer
import RouteBinding.Json.Reader
import RouteBinding.Proofs.Data.Graph
import RouteBinding.Proofs.Text.CodeUnit

/-!
# Reading what is written

Texts, truth values and null, and the lists and records that are built from them, are written without loss
(`Json.Lossless`): in each layout such a tree is read back from its text (`read_write?`). A character beyond the first
65536 is written as a pair of codes where only ASCII is written, and the pair is read as one character.
-/

namespace RouteBinding

namespace Text

variable {n : Nat} {rest : List Char} {c : Char}

/-! ## Codes in base sixteen -/

/-- A hexadecimal digit is read as the number it stands for. -/
theorem hexValue?_hexDigit (h : n < 16) : hexValue? (hexDigit n) = some n := by
  have hall : ∀ n < 16, hexValue? (hexDigit n) = some n := by decide
  exact hall n h

/-- As many digits as asked for are written, and read as the number they have room for. -/
theorem mapM_hexDigits (width n : Nat) :
    ∃ digits, (hexDigits width n).mapM hexValue? = some digits ∧ digits.length = width ∧
      ofDigits 16 digits = n % 16 ^ width := by
  induction width generalizing n with
  | zero => exact ⟨[], rfl, rfl, by simp [ofDigits, Nat.mod_one]⟩
  | succ width ih =>
    obtain ⟨digits, hdigits, hlength, hvalue⟩ := ih (n / 16)
    have hlast : hexValue? (hexDigit (n % 16)) = some (n % 16) := hexValue?_hexDigit (Nat.mod_lt n (by decide))
    refine ⟨digits ++ [n % 16], ?_, by simp [hlength], ?_⟩
    · rw [hexDigits, List.mapM_append, hdigits]
      simp [hlast]
    · have hsplit : n % 16 ^ (width + 1) = n % 16 + 16 * (n / 16 % 16 ^ width) := by
        rw [Nat.pow_succ', Nat.mod_mul]
      rw [hsplit, ← hvalue, ofDigits, List.foldl_append]
      show ofDigits 16 digits * 16 + n % 16 = _
      omega

theorem length_hexDigits (width n : Nat) : (hexDigits width n).length = width := by
  induction width generalizing n with
  | zero => rfl
  | succ width ih => simp [hexDigits, ih]

/-- The digits of a number that fits are read as this number. -/
theorem readHex?_hexDigits {width : Nat} (h : n < 16 ^ width) :
    readHex? width (hexDigits width n ++ rest) = some (n, rest) := by
  obtain ⟨digits, hdigits, hlength, hvalue⟩ := mapM_hexDigits width n
  have hwidth := length_hexDigits width n
  have htake : (hexDigits width n ++ rest).take width = hexDigits width n := List.take_left' hwidth
  have hdrop : (hexDigits width n ++ rest).drop width = rest := List.drop_left' hwidth
  rw [readHex?, htake, hdrop, hdigits]
  simp [hlength, hvalue, Nat.mod_eq_of_lt h]

/-- No code of a character is half of a pair. -/
theorem not_surrogate (c : Char) : c.toNat < 0xD800 ∨ 0xE000 ≤ c.toNat ∧ c.toNat < 0x110000 := by
  have hvalid : c.toNat < 55296 ∨ 57343 < c.toNat ∧ c.toNat < 1114112 := c.valid
  omega

/-- A code that is no first half of a pair stands for its character, whatever follows. -/
theorem readUnit?_hexDigits (h : c.toNat < 0x10000) : readUnit? (hexDigits 4 c.toNat ++ rest) = some (c, rest) := by
  have hcode : charOfCode c.toNat = c := by
    rw [charOfCode, if_neg, Char.ofNat_toNat]
    have hc := not_surrogate c
    simp only [Bool.and_eq_true, decide_eq_true_eq]
    omega
  have hhalf : ¬IsHalf c.toNat := by
    have hc := not_surrogate c
    simp only [IsHalf]
    omega
  have hread : readHex? 4 (hexDigits 4 c.toNat) = some (c.toNat, []) := by
    rw [← List.append_nil (hexDigits 4 c.toNat), readHex?_hexDigits h]
  rw [readUnit?_append hread hhalf, hcode]

/-- A code beyond the first 65536 is put together from the two halves of its pair. -/
theorem joinPair?_halves (h : 0x10000 ≤ n) (hn : n < 0x110000) :
    joinPair? (0xD800 + (n - 0x10000) / 0x400) (0xDC00 + (n - 0x10000) % 0x400) = some n := by
  rw [joinPair?, if_pos]
  · exact congrArg some (by omega)
  · simp only [Bool.and_eq_true, decide_eq_true_eq]
    omega

/-- Two halves that follow each other stand for one character. -/
theorem readUnit?_pair {high low : Nat} (hhigh : high < 16 ^ 4) (hlow : low < 16 ^ 4)
    (h : joinPair? high low = some n) (rest : List Char) :
    readUnit? (hexDigits 4 high ++ ('\\' :: 'u' :: hexDigits 4 low ++ rest)) = some (Char.ofNat n, rest) := by
  have hsecond : readSecondHalf? high ('\\' :: 'u' :: (hexDigits 4 low ++ rest)) = some (Char.ofNat n, rest) := by
    rw [readSecondHalf?, readHex?_hexDigits hlow]
    show (joinPair? high low).bind (fun code => some (Char.ofNat code, rest)) = _
    rw [h]
    rfl
  rw [readUnit?, readHex?_hexDigits hhigh]
  show some ((readSecondHalf? high ('\\' :: 'u' :: (hexDigits 4 low ++ rest))).getD _) = _
  rw [hsecond]
  rfl

end Text

namespace Json

variable {asciiOnly : Bool} {layout : Layout} {c : Char} {s rest : List Char} {fuel : Nat}

/-! ## Texts -/

/-- Behind its mark a code unit is read as it stands. -/
theorem readEscape_unit {after : List Char} (h : Text.readUnit? s = some (c, after)) :
    readEscape ('u' :: s) = .ok (c, after) := by
  rw [readEscape, h]

/-- A backslash starts an escape, and reading goes on behind it. -/
theorem readText_escape {read after : List Char} (h : readEscape s = .ok (c, after)) :
    readText (fuel + 1) read ('\\' :: s) = readText fuel (c :: read) after := by
  rw [readText, if_neg (by decide), if_pos rfl, h]

/-- What is read between quotes as a character. -/
def ReadsAsChar (s : List Char) (c : Char) : Prop :=
  ∀ fuel read rest, readText (fuel + 1) read (s ++ rest) = readText fuel (c :: read) rest

/-- An escape is read as its character wherever it stands. -/
theorem readsAsChar_escape (h : ∀ rest, readEscape (s ++ rest) = .ok (c, rest)) : ReadsAsChar ('\\' :: s) c :=
  fun _ _ rest => readText_escape (h rest)

/-- The escape of one code unit is read as its character. -/
theorem readsAsChar_unitEscape (h : c.toNat < 0x10000) : ReadsAsChar (unitEscape c.toNat) c :=
  readsAsChar_escape fun _ => readEscape_unit (Text.readUnit?_hexDigits h)

/-- The escapes of a surrogate pair are read as the one character. -/
theorem readsAsChar_pair (h : 0x10000 ≤ c.toNat) :
    ReadsAsChar (unitEscape (0xD800 + (c.toNat - 0x10000) / 0x400) ++
      unitEscape (0xDC00 + (c.toNat - 0x10000) % 0x400)) c := by
  have hvalid := Text.not_surrogate c
  have hpair := Text.joinPair?_halves h (by omega)
  refine readsAsChar_escape fun rest => ?_
  have hread := Text.readUnit?_pair (by omega) (by omega) hpair rest
  rw [Char.ofNat_toNat] at hread
  exact readEscape_unit hread

/-- A character that is written between quotes is read as itself. -/
theorem readsAsChar_textChar (asciiOnly : Bool) (c : Char) : ReadsAsChar (textChar asciiOnly c) c := by
  unfold textChar
  refine iteInduction (motive := (ReadsAsChar · c)) (fun hquoted => ?_) fun hquoted => ?_
  · simp only [Bool.or_eq_true, decide_eq_true_eq] at hquoted
    refine readsAsChar_escape fun rest => ?_
    rcases hquoted with rfl | rfl <;> rfl
  refine iteInduction (motive := (ReadsAsChar · c)) (fun hline => ?_) fun _ => ?_
  · exact hline ▸ readsAsChar_escape fun _ => rfl
  refine iteInduction (motive := (ReadsAsChar · c)) (fun hreturn => ?_) fun _ => ?_
  · exact hreturn ▸ readsAsChar_escape fun _ => rfl
  refine iteInduction (motive := (ReadsAsChar · c)) (fun htab => ?_) fun _ => ?_
  · exact htab ▸ readsAsChar_escape fun _ => rfl
  refine iteInduction (motive := (ReadsAsChar · c)) (fun hback => ?_) fun _ => ?_
  · have hc : Char.ofNat 8 = c := hback ▸ Char.ofNat_toNat c
    exact hc ▸ readsAsChar_escape fun _ => rfl
  refine iteInduction (motive := (ReadsAsChar · c)) (fun hfeed => ?_) fun _ => ?_
  · have hc : Char.ofNat 12 = c := hfeed ▸ Char.ofNat_toNat c
    exact hc ▸ readsAsChar_escape fun _ => rfl
  refine iteInduction (motive := (ReadsAsChar · c)) (fun hunit => ?_) fun hcontrol => ?_
  · exact readsAsChar_unitEscape (by omega)
  refine iteInduction (motive := (ReadsAsChar · c)) (fun _ => ?_) fun _ => ?_
  · -- the character stands for itself
    simp only [Bool.or_eq_true, decide_eq_true_eq, not_or] at hquoted
    intro fuel read rest
    rw [List.singleton_append, readText, if_neg hquoted.1, if_neg hquoted.2, if_neg hcontrol]
  refine iteInduction (motive := (ReadsAsChar · c)) (fun hunit => ?_) fun hunit => ?_
  · exact readsAsChar_unitEscape hunit
  · exact readsAsChar_pair (by omega)

/-- A text that was written, with its closing quote, is read back as it was. -/
theorem readText_flatMap (read : List Char) (h : s.length < fuel) :
    readText fuel read (s.flatMap (textChar asciiOnly) ++ '"' :: rest) =
      .ok (String.ofList (read.reverse ++ s), rest) := by
  induction s generalizing fuel read with
  | nil =>
    obtain ⟨fuel, rfl⟩ := Nat.exists_eq_add_one_of_ne_zero (Nat.ne_zero_of_lt h)
    rw [List.flatMap_nil, List.nil_append, List.append_nil, readText, if_pos rfl]
  | cons c s ih =>
    obtain ⟨fuel, rfl⟩ := Nat.exists_eq_add_one_of_ne_zero (Nat.ne_zero_of_lt h)
    rw [List.flatMap_cons, List.append_assoc, readsAsChar_textChar asciiOnly c, ih _ (by simpa using h)]
    simp

theorem textChar_ne_nil : textChar asciiOnly c ≠ [] := by
  -- what is read as a character is not empty
  intro hnil
  have hread := readsAsChar_textChar asciiOnly c 0 [] ['"']
  rw [hnil] at hread
  cases hread

/-- No text gets shorter when it is written. -/
theorem length_le_length_flatMap : s.length ≤ (s.flatMap (textChar asciiOnly)).length := by
  induction s with
  | nil => exact Nat.le_refl 0
  | cons c s ih =>
    have hc : 0 < (textChar asciiOnly c).length := List.length_pos_of_ne_nil textChar_ne_nil
    rw [List.flatMap_cons, List.length_append, List.length_cons]
    omega

/-- A text is read from between its quotes. -/
theorem readText_text (asciiOnly : Bool) (s : String) (rest : List Char) :
    ∃ body, (text asciiOnly s).toList = '"' :: body ∧
      readText ((body ++ rest).length + 1) [] (body ++ rest) = .ok (s, rest) := by
  refine ⟨s.toList.flatMap (textChar asciiOnly) ++ ['"'], by simp [text], ?_⟩
  have hlength : s.toList.length ≤ (s.toList.flatMap (textChar asciiOnly)).length := length_le_length_flatMap
  rw [List.append_assoc, List.singleton_append, readText_flatMap []]
  · simp
  · simp only [List.length_append, List.length_cons]
    omega

/-! ## Blanks -/

/-- Blanks in front of a value are skipped. -/
theorem skipSpaces_append {gap : List Char} (h : ∀ c ∈ gap, isSpace c) : skipSpaces (gap ++ s) = skipSpaces s :=
  List.dropWhile_append_of_pos h

theorem skipSpaces_cons (h : isSpace c = false) : skipSpaces (c :: s) = c :: s := by
  simp [skipSpaces, h]

/-- A line break with its indentation is blank. -/
theorem isSpace_of_mem_lineBreak (layout : Layout) (depth : Nat) (h : c ∈ (layout.lineBreak depth).toList) :
    isSpace c := by
  unfold Layout.lineBreak at h
  split_ifs at h
  · rw [String.toList_ofList] at h
    rcases List.mem_cons.1 h with rfl | h
    · rfl
    · rw [List.eq_of_mem_replicate h]
      rfl
  · cases h

/-- A separator is a comma and blanks. -/
theorem exists_separator (layout : Layout) (depth : Nat) :
    ∃ gap, (layout.separator depth).toList = ',' :: gap ∧ ∀ c ∈ gap, isSpace c := by
  unfold Layout.separator
  split_ifs
  · exact ⟨(layout.lineBreak depth).toList, by simp, fun c => isSpace_of_mem_lineBreak layout depth⟩
  · exact ⟨[' '], rfl, by simp [isSpace]⟩

/-! ## Values -/

/-- A text that is read as a value, whatever follows it. It begins with no blank and no closing bracket. -/
structure ReadsAs (s : List Char) (t : Tree) : Prop where
  head : ∃ c tail, s = c :: tail ∧ isSpace c = false ∧ c ≠ ']'
  value : ∀ fuel rest, 2 * s.length < fuel → readValue fuel (s ++ rest) = .ok (t, rest)

/-- A text that is read as an entry of a mapping. -/
def ReadsAsEntry (s : List Char) (e : String × Tree) : Prop :=
  ∃ asciiOnly value, s = (text asciiOnly e.1).toList ++ ':' :: ' ' :: value ∧ ReadsAs value e.2

/-- A value that is written starts with no blank. -/
theorem ReadsAs.skipSpaces_append {t : Tree} (h : ReadsAs s t) : skipSpaces (s ++ rest) = s ++ rest := by
  obtain ⟨c, tail, rfl, hspace, -⟩ := h.head
  exact skipSpaces_cons hspace

/-- A word is read as its value if it is read so whatever follows. -/
theorem readsAs_word {word : String} {value : Scalar}
    (hhead : ∃ c tail, word.toList = c :: tail ∧ isSpace c = false ∧ c ≠ ']' ∧ c ≠ '"' ∧ c ≠ '[' ∧ c ≠ '\x7b')
    (hword : ∀ rest, readWord? (word.toList ++ rest) = some (value, rest)) : ReadsAs word.toList (.scalar value) := by
  obtain ⟨c, tail, hc, hspace, hclose, hquote, hbracket, hbrace⟩ := hhead
  refine ⟨⟨c, tail, hc, hspace, hclose⟩, fun fuel rest hfuel => ?_⟩
  obtain ⟨fuel, rfl⟩ := Nat.exists_eq_add_one_of_ne_zero (Nat.ne_zero_of_lt hfuel)
  have hscalar : readScalar (word.toList ++ rest) = .ok (.scalar value, rest) := by
    unfold readScalar
    rw [hword rest]
  rw [hc] at hscalar ⊢
  rw [List.cons_append, readValue.eq_def]
  dsimp only
  split
  · exact absurd (List.cons.inj ‹_›).1 hquote
  · exact absurd (List.cons.inj ‹_›).1 hbracket
  · exact absurd (List.cons.inj ‹_›).1 hbrace
  · exact hscalar

theorem readsAs_null : ReadsAs "null".toList .null :=
  readsAs_word ⟨'n', "ull".toList, rfl, by decide⟩ fun rest => rfl

theorem readsAs_bool (b : Bool) : ReadsAs (if b then "true" else "false").toList (.bool b) := by
  cases b
  · exact readsAs_word ⟨'f', "alse".toList, rfl, by decide⟩ fun rest => rfl
  · exact readsAs_word ⟨'t', "rue".toList, rfl, by decide⟩ fun rest => rfl

/-- A text is read back as it was written. -/
theorem readsAs_text (s : String) : ReadsAs (text asciiOnly s).toList (.text s) := by
  constructor
  · exact ⟨'"', s.toList.flatMap (textChar asciiOnly) ++ ['"'], by simp [text], rfl, by decide⟩
  · intro fuel rest hfuel
    obtain ⟨fuel, rfl⟩ := Nat.exists_eq_add_one_of_ne_zero (Nat.ne_zero_of_lt hfuel)
    obtain ⟨body, hbody, hread⟩ := readText_text asciiOnly s rest
    rw [hbody, List.cons_append, readValue, hread]
    rfl

/-! ## Lists and mappings -/

/-- Fields with keys of their own are put one behind the other. -/
theorem foldl_putEntry_record {fields : List (String × Tree)} (before : List (String × Tree))
    (h : ((before ++ fields).map (·.1)).Nodup) :
    (fields.map fun f => (Scalar.text f.1, f.2)).foldl (fun merged e => putEntry e.1 e.2 merged)
        (before.map fun f => (Scalar.text f.1, f.2)) =
      (before ++ fields).map fun f => (Scalar.text f.1, f.2) := by
  induction fields generalizing before with
  | nil => simp
  | cons f rest ih =>
    have hput : putEntry (.text f.1) f.2 (before.map fun f => (Scalar.text f.1, f.2)) =
        (before ++ [f]).map fun f => (Scalar.text f.1, f.2) := by
      have hfresh : f.1 ∉ before.map (·.1) := by
        rw [List.map_append, List.map_cons] at h
        exact fun hmem => (List.nodup_append.1 h).2.2 f.1 hmem f.1 List.mem_cons_self rfl
      clear h ih
      induction before with
      | nil => rfl
      | cons e before ih =>
        rw [List.map_cons, List.mem_cons, not_or] at hfresh
        have hsame : (Scalar.text e.1).sameKey (.text f.1) = false := by
          simpa [Scalar.sameKey, Scalar.key] using Ne.symm hfresh.1
        rw [List.map_cons, putEntry, hsame, ih hfresh.2]
        rfl
    rw [List.map_cons, List.foldl_cons, hput, ih _ (by simpa using h), List.append_assoc]
    rfl

/-- Entries of distinct keys stay as they are. -/
theorem mergeEntries_record {fields : List (String × Tree)} (h : (fields.map (·.1)).Nodup) :
    mergeEntries (fields.map fun f => (Scalar.text f.1, f.2)) = fields.map fun f => (Scalar.text f.1, f.2) :=
  foldl_putEntry_record [] h

section Joined

variable {gap close : List Char}

/-- Texts with a separator between them start with the first of them. -/
theorem exists_intercalate_cons (separator first : List Char) (texts : List (List Char)) :
    ∃ tail, List.intercalate separator (first :: texts) = first ++ tail := by
  cases texts with
  | nil => exact ⟨[], by simp⟩
  | cons second texts => exact ⟨_, by rw [List.intercalate_cons_cons, List.append_assoc]⟩

/-- Texts of pieces with separators between them are read as the pieces, up to the closing bracket, if the last piece is
read up to the bracket and every other one up to the separator behind it. -/
theorem read_intercalate {α β : Type} {Piece : List Char → α → Prop} (give : α → β) {bracket : Char}
    {readPieces : Nat → List Char → Read (List β)} (hbracket : isSpace bracket = false)
    (hskip : ∀ {s a} rest, Piece s a → skipSpaces (s ++ rest) = s ++ rest)
    (hlast : ∀ {s a fuel rest after}, Piece s a → 2 * s.length < fuel → skipSpaces rest = bracket :: after →
      readPieces (fuel + 1) (s ++ rest) = .ok ([give a], after))
    (hmore : ∀ {s a fuel rest after}, Piece s a → 2 * s.length < fuel → skipSpaces rest = ',' :: after →
      readPieces (fuel + 1) (s ++ rest) =
        (readPieces fuel (skipSpaces after)).map fun found => (give a :: found.1, found.2))
    {texts : List (List Char)} {pieces : List α} (hne : texts ≠ []) (h : List.Forall₂ Piece texts pieces)
    (hgap : ∀ c ∈ gap, isSpace c) (hclose : ∀ c ∈ close, isSpace c)
    (hfuel : 2 * (List.intercalate (',' :: gap) texts).length + 1 < fuel) :
    readPieces fuel (List.intercalate (',' :: gap) texts ++ (close ++ bracket :: rest)) =
      .ok (pieces.map give, rest) := by
  induction h generalizing fuel with
  | nil => exact absurd rfl hne
  | @cons first a texts pieces hfirst hrest ih =>
    obtain ⟨fuel, rfl⟩ := Nat.exists_eq_add_one_of_ne_zero (Nat.ne_zero_of_lt hfuel)
    cases hrest with
    | nil =>
      rw [List.intercalate_singleton] at hfuel ⊢
      have hend : skipSpaces (close ++ bracket :: rest) = bracket :: rest := by
        rw [skipSpaces_append hclose, skipSpaces_cons hbracket]
      exact hlast hfirst (by omega) hend
    | @cons second b texts pieces hsecond hrest =>
      rw [List.intercalate_cons_cons] at hfuel ⊢
      simp only [List.length_append, List.length_cons] at hfuel
      have hrest' : readPieces fuel (List.intercalate (',' :: gap) (second :: texts) ++ (close ++ bracket :: rest)) =
          .ok ((b :: pieces).map give, rest) := ih (List.cons_ne_nil _ _) (by omega)
      have hstart :
          skipSpaces (gap ++ (List.intercalate (',' :: gap) (second :: texts) ++ (close ++ bracket :: rest))) =
            List.intercalate (',' :: gap) (second :: texts) ++ (close ++ bracket :: rest) := by
        obtain ⟨tail, htail⟩ := exists_intercalate_cons (',' :: gap) second texts
        rw [skipSpaces_append hgap, htail, List.append_assoc, hskip _ hsecond]
      rw [List.append_assoc, List.append_assoc, List.cons_append,
        hmore hfirst (by omega) (skipSpaces_cons (by decide)), hstart, hrest']
      rfl

/-- The last item of a list is followed by the closing bracket. -/
theorem readItems_last {t : Tree} {after : List Char} (h : ReadsAs s t) (hfuel : 2 * s.length < fuel)
    (hclose : skipSpaces rest = ']' :: after) : readItems (fuel + 1) (s ++ rest) = .ok ([t], after) := by
  simp only [readItems, h.value fuel rest hfuel, hclose]

/-- Behind an item and a comma the next items are read. -/
theorem readItems_more {t : Tree} {after : List Char} (h : ReadsAs s t) (hfuel : 2 * s.length < fuel)
    (hcomma : skipSpaces rest = ',' :: after) :
    readItems (fuel + 1) (s ++ rest) =
      (readItems fuel (skipSpaces after)).map fun found => (t :: found.1, found.2) := by
  simp only [readItems, h.value fuel rest hfuel, hcomma]

/-- Texts of items with separators between them are read as the items, up to the closing bracket. -/
theorem readItems_intercalate {texts : List (List Char)} {items : List Tree} (hne : texts ≠ [])
    (h : List.Forall₂ ReadsAs texts items) (hgap : ∀ c ∈ gap, isSpace c) (hclose : ∀ c ∈ close, isSpace c)
    (hfuel : 2 * (List.intercalate (',' :: gap) texts).length + 1 < fuel) :
    readItems fuel (List.intercalate (',' :: gap) texts ++ (close ++ ']' :: rest)) = .ok (items, rest) := by
  have hread : readItems fuel (List.intercalate (',' :: gap) texts ++ (close ++ ']' :: rest)) =
      .ok (items.map id, rest) :=
    read_intercalate id (by decide) (fun rest hs => hs.skipSpaces_append) readItems_last readItems_more hne h hgap
      hclose hfuel
  rwa [List.map_id] at hread

/-- An entry starts with the quote of its key. -/
theorem ReadsAsEntry.head {e : String × Tree} (h : ReadsAsEntry s e) : ∃ tail, s = '"' :: tail := by
  obtain ⟨asciiOnly, value, hs, -⟩ := h
  rw [hs, text, String.toList_ofList]
  exact ⟨_, rfl⟩

/-- What is read of an entry is its key and its value. -/
theorem ReadsAsEntry.reads {e : String × Tree} (h : ReadsAsEntry s e) (hfuel : 2 * s.length < fuel)
    (rest : List Char) :
    ∃ body after value, s ++ rest = '"' :: body ∧ readText (body.length + 1) [] body = .ok (e.1, after) ∧
      skipSpaces after = ':' :: value ∧ readValue fuel (skipSpaces value) = .ok (e.2, rest) := by
  obtain ⟨asciiOnly, value, hs, hvalue⟩ := h
  obtain ⟨body, hbody, hread⟩ := readText_text asciiOnly e.1 (':' :: ' ' :: (value ++ rest))
  refine ⟨body ++ ':' :: ' ' :: (value ++ rest), ':' :: ' ' :: (value ++ rest), ' ' :: (value ++ rest), ?_, hread,
    skipSpaces_cons (by decide), ?_⟩
  · rw [hs, hbody, List.append_assoc]
    rfl
  · have hlength : 2 * value.length < fuel := by
      simp only [hs, List.length_append, List.length_cons] at hfuel
      omega
    have hblank : skipSpaces (' ' :: (value ++ rest)) = value ++ rest :=
      (skipSpaces_append (List.forall_mem_singleton.2 rfl)).trans hvalue.skipSpaces_append
    rw [hblank]
    exact hvalue.value fuel rest hlength

/-- The last entry of a record is followed by the closing brace. -/
theorem readMembers_last {e : String × Tree} {after : List Char} (h : ReadsAsEntry s e) (hfuel : 2 * s.length < fuel)
    (hclose : skipSpaces rest = '\x7d' :: after) :
    readMembers (fuel + 1) (s ++ rest) = .ok ([(.text e.1, e.2)], after) := by
  obtain ⟨body, colon, value, hs, hkey, hcolon, hvalue⟩ := h.reads hfuel rest
  simp only [hs, readMembers, hkey, hcolon, hvalue, hclose]

/-- Behind an entry and a comma the next entries are read. -/
theorem readMembers_more {e : String × Tree} {after : List Char} (h : ReadsAsEntry s e) (hfuel : 2 * s.length < fuel)
    (hcomma : skipSpaces rest = ',' :: after) :
    readMembers (fuel + 1) (s ++ rest) =
      (readMembers fuel (skipSpaces after)).map fun found => ((.text e.1, e.2) :: found.1, found.2) := by
  obtain ⟨body, colon, value, hs, hkey, hcolon, hvalue⟩ := h.reads hfuel rest
  simp only [hs, readMembers, hkey, hcolon, hvalue, hcomma]

/-- Texts of entries with separators between them are read as the entries, up to the closing brace. -/
theorem readMembers_intercalate {texts : List (List Char)} {fields : List (String × Tree)} (hne : texts ≠ [])
    (h : List.Forall₂ ReadsAsEntry texts fields) (hgap : ∀ c ∈ gap, isSpace c) (hclose : ∀ c ∈ close, isSpace c)
    (hfuel : 2 * (List.intercalate (',' :: gap) texts).length + 1 < fuel) :
    readMembers fuel (List.intercalate (',' :: gap) texts ++ (close ++ '\x7d' :: rest)) =
      .ok (fields.map fun f => (.text f.1, f.2), rest) := by
  have hskip {s : List Char} {e : String × Tree} (rest : List Char) (hs : ReadsAsEntry s e) :
      skipSpaces (s ++ rest) = s ++ rest := by
    obtain ⟨tail, rfl⟩ := hs.head
    exact skipSpaces_cons (by decide)
  exact read_intercalate (fun f : String × Tree => (Scalar.text f.1, f.2)) (by decide) hskip readMembers_last
    readMembers_more hne h hgap hclose hfuel

variable {before : List Char}

/-- A list is read from the texts of its items. -/
theorem readsAs_list {texts : List (List Char)} {items : List Tree} (hne : texts ≠ [])
    (h : List.Forall₂ ReadsAs texts items) (hbefore : ∀ c ∈ before, isSpace c) (hgap : ∀ c ∈ gap, isSpace c)
    (hclose : ∀ c ∈ close, isSpace c) :
    ReadsAs ('[' :: (before ++ (List.intercalate (',' :: gap) texts ++ (close ++ [']'])))) (.list items) := by
  refine ⟨⟨'[', _, rfl, rfl, by decide⟩, fun fuel rest hfuel => ?_⟩
  obtain ⟨fuel, rfl⟩ := Nat.exists_eq_add_one_of_ne_zero (Nat.ne_zero_of_lt hfuel)
  have hitems : readItems fuel (List.intercalate (',' :: gap) texts ++ (close ++ ']' :: rest)) = .ok (items, rest) := by
    refine readItems_intercalate hne h hgap hclose ?_
    simp only [List.length_cons, List.length_append] at hfuel
    omega
  cases h with
  | nil => exact absurd rfl hne
  | @cons first item texts items hfirst hrest =>
    -- the first item begins with no bracket that closes the list
    obtain ⟨c, tail, hc, hspace, hbracket⟩ := hfirst.head
    rw [hc, List.intercalate_cons_cons_left, List.cons_append] at hitems
    rw [hc, List.intercalate_cons_cons_left]
    simp only [List.cons_append, List.append_assoc, List.nil_append]
    rw [readValue, skipSpaces_append hbefore, skipSpaces_cons hspace]
    split
    · exact absurd (List.cons.inj ‹_›).1 hbracket
    · rw [hitems]
      rfl

/-- A record is read from the texts of its entries. -/
theorem readsAs_record {texts : List (List Char)} {fields : List (String × Tree)} (hne : texts ≠ [])
    (h : List.Forall₂ ReadsAsEntry texts fields) (hkeys : (fields.map (·.1)).Nodup)
    (hbefore : ∀ c ∈ before, isSpace c) (hgap : ∀ c ∈ gap, isSpace c) (hclose : ∀ c ∈ close, isSpace c) :
    ReadsAs ('\x7b' :: (before ++ (List.intercalate (',' :: gap) texts ++ (close ++ ['\x7d'])))) (.record fields) := by
  refine ⟨⟨'\x7b', _, rfl, rfl, by decide⟩, fun fuel rest hfuel => ?_⟩
  obtain ⟨fuel, rfl⟩ := Nat.exists_eq_add_one_of_ne_zero (Nat.ne_zero_of_lt hfuel)
  have hmembers : readMembers fuel (List.intercalate (',' :: gap) texts ++ (close ++ '\x7d' :: rest)) =
      .ok (fields.map fun f => (.text f.1, f.2), rest) := by
    refine readMembers_intercalate hne h hgap hclose ?_
    simp only [List.length_cons, List.length_append] at hfuel
    omega
  cases h with
  | nil => exact absurd rfl hne
  | @cons first field texts fields hfirst hrest =>
    obtain ⟨tail, hquote⟩ := hfirst.head
    rw [hquote, List.intercalate_cons_cons_left, List.cons_append] at hmembers
    rw [hquote, List.intercalate_cons_cons_left]
    simp only [List.cons_append, List.append_assoc, List.nil_append]
    rw [readValue, skipSpaces_append hbefore, skipSpaces_cons (by decide)]
    show (readMembers fuel _).map _ = _
    rw [hmembers]
    show Except.ok (Tree.mapping (mergeEntries _), rest) = _
    rw [mergeEntries_record hkeys]
    rfl

end Joined

/-! ## Trees -/

/-- A tree that is written without loss: no number stands in it and no date, and its mappings have texts as keys,
each once. -/
inductive Lossless : Tree → Prop
  | null : Lossless .null
  | bool (b : Bool) : Lossless (.bool b)
  | text (s : String) : Lossless (.text s)
  | list {items : List Tree} (h : ∀ t ∈ items, Lossless t) : Lossless (.list items)
  | record {fields : List (String × Tree)} (hkeys : (fields.map (·.1)).Nodup) (h : ∀ f ∈ fields, Lossless f.2) :
    Lossless (.record fields)

/-- A tree is written as a text that is read as the tree. -/
def Layout.WritesBack (layout : Layout) (depth : Nat) (t : Tree) : Prop :=
  ∃ text, layout.writeAt? depth t = some text ∧ ReadsAs text.toList t

variable {depth : Nat}

/-- Items that are read back are written, each as it is read. -/
theorem exists_writeItems? {items : List Tree} (h : ∀ t ∈ items, layout.WritesBack depth t) :
    ∃ texts, layout.writeItems? depth items = some texts ∧
      List.Forall₂ ReadsAs (texts.map String.toList) items := by
  induction items with
  | nil => exact ⟨[], rfl, .nil⟩
  | cons t rest ih =>
    obtain ⟨⟨first, hfirst, hreads⟩, hrest⟩ := List.forall_mem_cons.1 h
    obtain ⟨others, hothers, hall⟩ := ih hrest
    refine ⟨first :: others, ?_, .cons hreads hall⟩
    rw [Layout.writeItems?, hfirst, hothers]
    rfl

/-- Entries whose values are read back are written, each as it is read. -/
theorem exists_writeEntries? {fields : List (String × Tree)} (h : ∀ f ∈ fields, layout.WritesBack depth f.2) :
    ∃ texts, layout.writeEntries? depth (fields.map fun f => (.text f.1, f.2)) = some texts ∧
      List.Forall₂ ReadsAsEntry (texts.map String.toList) fields := by
  induction fields with
  | nil => exact ⟨[], rfl, .nil⟩
  | cons f rest ih =>
    obtain ⟨⟨first, hfirst, hreads⟩, hrest⟩ := List.forall_mem_cons.1 h
    obtain ⟨others, hothers, hall⟩ := ih hrest
    refine ⟨(Json.text layout.asciiOnly f.1 ++ ": " ++ first) :: others, ?_, .cons ?_ hall⟩
    · rw [List.map_cons, Layout.writeEntries?, hfirst, hothers]
      rfl
    · exact ⟨layout.asciiOnly, first.toList, by simp, hreads⟩

/-- A list is read back if its items are. -/
theorem writesBack_list {items : List Tree} (h : ∀ t ∈ items, layout.WritesBack (depth + 1) t) :
    layout.WritesBack depth (.list items) := by
  cases items with
  | nil =>
    refine ⟨"[]", rfl, ⟨⟨'[', [']'], rfl, rfl, by decide⟩, fun fuel rest hfuel => ?_⟩⟩
    obtain ⟨fuel, rfl⟩ := Nat.exists_eq_add_one_of_ne_zero (Nat.ne_zero_of_lt hfuel)
    rfl
  | cons item items =>
    obtain ⟨texts, htexts, hreads⟩ := exists_writeItems? h
    obtain ⟨gap, hseparator, hgap⟩ := exists_separator layout (depth + 1)
    refine ⟨_, by rw [Layout.writeAt?, if_neg (by simp), htexts]; rfl, ?_⟩
    have hlist := readsAs_list (by rintro hnil; rw [hnil] at hreads; cases hreads) hreads
      (fun c => isSpace_of_mem_lineBreak layout (depth + 1)) hgap
      (fun c => isSpace_of_mem_lineBreak layout depth)
    simpa [String.toList_intercalate, hseparator] using hlist

/-- A record is read back if its values are, and its keys are distinct. -/
theorem writesBack_record {fields : List (String × Tree)} (hkeys : (fields.map (·.1)).Nodup)
    (h : ∀ f ∈ fields, layout.WritesBack (depth + 1) f.2) : layout.WritesBack depth (.record fields) := by
  cases fields with
  | nil =>
    refine ⟨"\x7b\x7d", rfl, ⟨⟨'\x7b', ['\x7d'], rfl, rfl, by decide⟩, fun fuel rest hfuel => ?_⟩⟩
    obtain ⟨fuel, rfl⟩ := Nat.exists_eq_add_one_of_ne_zero (Nat.ne_zero_of_lt hfuel)
    rfl
  | cons field fields =>
    obtain ⟨texts, htexts, hreads⟩ := exists_writeEntries? h
    obtain ⟨gap, hseparator, hgap⟩ := exists_separator layout (depth + 1)
    refine ⟨_, by rw [Tree.record, Layout.writeAt?, if_neg (by simp), htexts]; rfl, ?_⟩
    have hrecord := readsAs_record (by rintro hnil; rw [hnil] at hreads; cases hreads) hreads hkeys
      (fun c => isSpace_of_mem_lineBreak layout (depth + 1)) hgap
      (fun c => isSpace_of_mem_lineBreak layout depth)
    simpa [String.toList_intercalate, hseparator] using hrecord

/-- Every tree that is written without loss is read back, at any depth. -/
theorem Lossless.writesBack {t : Tree} (h : Lossless t) (layout : Layout) (depth : Nat) :
    layout.WritesBack depth t := by
  induction h generalizing depth with
  | null => exact ⟨_, rfl, readsAs_null⟩
  | bool b => exact ⟨_, rfl, readsAs_bool b⟩
  | text s => exact ⟨_, rfl, readsAs_text s⟩
  | list _ ih => exact writesBack_list fun t ht => ih t ht (depth + 1)
  | record hkeys _ ih => exact writesBack_record hkeys fun f hf => ih f hf (depth + 1)

/-- What is written without loss is read back from its text, whatever blanks stand behind it. -/
theorem read_write? {t : Tree} (h : Lossless t) (layout : Layout) (after : String)
    (hafter : ∀ c ∈ after.toList, isSpace c) :
    ∃ text, write? layout t = some text ∧ read (text ++ after) = .ok t := by
  obtain ⟨text, htext, hreads⟩ := h.writesBack layout 0
  refine ⟨text, htext, ?_⟩
  have hblank : skipSpaces after.toList = [] := by
    rw [← List.append_nil after.toList, skipSpaces_append hafter]
    rfl
  have hstart : skipSpaces (text ++ after).toList = text.toList ++ after.toList :=
    (congrArg skipSpaces String.toList_append).trans hreads.skipSpaces_append
  have hvalue : readValue (2 * (text.toList ++ after.toList).length + 2) (text.toList ++ after.toList) =
      .ok (t, after.toList) := by
    apply hreads.value
    simp only [List.length_append]
    omega
  simp only [read, hstart, hvalue, hblank]
  rfl

end Json

end RouteBinding
