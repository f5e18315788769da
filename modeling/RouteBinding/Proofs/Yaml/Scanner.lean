import Mathlib.Data.List.TakeWhile
import RouteBinding.Proofs.Json.Form
import RouteBinding.Yaml.Cursor
import RouteBinding.Yaml.Scalar

/-!
# Scanning scalars

How blanks and ends of lines are left behind (`Cursor.skipBlanks_cases`): each step either reaches what follows them or
moves over one end of a line. A JSON text is read between double quotes as the same text, if no line ends in it and no
code in it is half of a surrogate pair (`scanQuoted_eq`), and a word that is followed by blanks and by what ends it is
read as a plain text (`scanPlain_eq`).
-/

namespace RouteBinding.Yaml

variable {ch : Char} {s rest : List Char} {n m : Nat}

/-- Blanks and the ends of lines in their usual forms. -/
def Spaced (s : List Char) : Prop :=
  ∀ ch ∈ s, ch = ' ' ∨ ch = '\n' ∨ ch = '\r'

/-- What ends blanks: neither a blank nor the end of a line nor a comment. -/
def Stops (rest : List Char) : Prop :=
  ∀ ch ∈ rest.head?, ch ≠ ' ' ∧ ch ≠ '#' ∧ isBreak ch = false

section Runs

variable {p : Char → Bool} (hs : ∀ ch ∈ s, p ch) (hstop : ∀ ch ∈ rest.head?, p ch = false)

include hs hstop

/-- What is taken stops where the characters of the kind do. -/
theorem takeWhile_append_of_stop : (s ++ rest).takeWhile p = s := by
  rw [List.takeWhile_append_of_pos hs]
  cases rest with
  | nil => simp
  | cons ch rest => simp [hstop ch rfl]

/-- What is left starts where the characters of the kind stop. -/
theorem dropWhile_append_of_stop : (s ++ rest).dropWhile p = rest := by
  rw [List.dropWhile_append_of_pos hs]
  cases rest with
  | nil => rfl
  | cons ch rest => simp [hstop ch rfl]

end Runs

namespace Cursor

variable {c : Cursor}

/-! ## Moving by a count -/

/-- The next position has one character less before it. -/
theorem rest_next (c : Cursor) : c.next.rest = c.rest.tail := by
  unfold next
  split
  · rename_i h
    rw [h]
    rfl
  · rename_i h
    rw [h]
    split <;> rfl

@[simp] theorem rest_skip (c : Cursor) (n : Nat) : (c.skip n).rest = c.rest.drop n := by
  induction n generalizing c with
  | zero => rfl
  | succ n ih => rw [skip, ih, rest_next, List.drop_tail]

/-- Steps over characters add up. -/
theorem skip_skip (c : Cursor) (n m : Nat) : (c.skip n).skip m = c.skip (n + m) := by
  induction n generalizing c with
  | zero => rw [Nat.zero_add]; rfl
  | succ n ih => rw [Nat.succ_add, skip, skip, ih]

/-- Behind what starts the rest is what follows it. -/
theorem rest_skip_append (h : c.rest = s ++ rest) : (c.skip s.length).rest = rest := by
  rw [rest_skip, h, List.drop_left]

theorem index_next (h : c.rest ≠ []) : c.next.index = c.index + 1 := by
  unfold next
  split
  · exact absurd ‹_› h
  · split <;> rfl

/-- A position moves on by as many characters as are stepped over. -/
theorem index_skip (h : n ≤ c.rest.length) : (c.skip n).index = c.index + n := by
  induction n generalizing c with
  | zero => rfl
  | succ n ih =>
    have hne : c.rest ≠ [] := List.ne_nil_of_length_pos (by omega)
    rw [skip, ih (by rw [rest_next, List.length_tail]; omega), index_next hne]
    omega

/-- A line ends only where its end stands. -/
theorem line_skip (hrest : c.rest = s ++ rest) (hs : ∀ ch ∈ s, isBreak ch = false) :
    (c.skip s.length).line = c.line := by
  induction s generalizing c with
  | nil => rfl
  | cons ch s ih =>
    obtain ⟨hch, hs⟩ := List.forall_mem_cons.1 hs
    have hnext : c.next.line = c.line := by
      rw [next, hrest]
      simp [hch]
    rw [List.length_cons, skip, ih (by rw [rest_next, hrest]; rfl) hs, hnext]

/-! ## Runs -/

/-- A span of characters of a kind ends where they do. -/
theorem span_eq {p : Char → Bool} (hrest : c.rest = s ++ rest) (hs : ∀ ch ∈ s, p ch)
    (hstop : ∀ ch ∈ rest.head?, p ch = false) : c.span p = (s, c.skip s.length) := by
  rw [span, hrest, takeWhile_append_of_stop hs hstop]

/-- There is no line break where another character stands. -/
theorem lineBreak?_eq_none (h : ∀ ch ∈ c.rest.head?, isBreak ch = false) : c.lineBreak? = none := by
  unfold lineBreak?
  split
  · rename_i hrest
    rw [hrest] at h
    exact absurd (h _ rfl) (by decide)
  · rename_i ch rest _ hrest
    rw [hrest] at h
    have hch : isBreak ch = false := h ch rfl
    have hseparator : isSeparator ch = false := by
      simp only [isBreak, Bool.or_eq_false_iff] at hch
      exact hch.2
    rw [hseparator, hch]
    rfl
  · rfl

/-- The end of a line in one of its usual forms. -/
theorem exists_lineBreak? (hrest : c.rest = ch :: s ++ rest) (hch : ch = '\n' ∨ ch = '\r')
    (hstop : Stops rest) :
    ∃ n s', 0 < n ∧ n + s'.length = (ch :: s).length ∧ s' <:+ s ∧ (c.skip n).rest = s' ++ rest ∧
      c.lineBreak? = some ('\n', c.skip n) := by
  have hone (hbreak : c.lineBreak? = some ('\n', c.next)) :
      ∃ n s', 0 < n ∧ n + s'.length = (ch :: s).length ∧ s' <:+ s ∧ (c.skip n).rest = s' ++ rest ∧
        c.lineBreak? = some ('\n', c.skip n) :=
    ⟨1, s, Nat.one_pos, Nat.add_comm .., List.suffix_refl s, by rw [rest_skip, hrest]; rfl, hbreak⟩
  rcases hch with rfl | rfl
  · refine hone ?_
    simp [lineBreak?, hrest, isSeparator, isBreak]
  · cases s with
    | nil =>
      -- a line feed behind it would not stop the blanks
      refine hone ?_
      cases rest with
      | nil => simp [lineBreak?, hrest, isSeparator, isBreak]
      | cons next rest =>
        have hnext : next ≠ '\n' := by
          rintro rfl
          exact absurd (hstop _ rfl).2.2 (by decide)
        simp [lineBreak?, hrest, isSeparator, isBreak, hnext]
    | cons next s =>
      by_cases hnext : next = '\n'
      · subst hnext
        refine ⟨2, s, by omega, ?_, List.suffix_cons _ s, by rw [rest_skip, hrest]; rfl, ?_⟩
        · simp only [List.length_cons]
          omega
        · simp [lineBreak?, hrest]
      · refine hone ?_
        simp [lineBreak?, hrest, isSeparator, isBreak, hnext]

/-- Blanks are left behind up to what follows them, or up to the end of a line that is then left behind. -/
theorem skipBlanks_cases (hrest : c.rest = s ++ rest) (hs : Spaced s) (hstop : Stops rest) :
    c.skipBlanks.skipComment = c.skipBlanks ∧
      ((c.skipBlanks = c.skip s.length ∧ c.skipBlanks.lineBreak? = none) ∨
        ∃ n s', 0 < n ∧ n + s'.length = s.length ∧ Spaced s' ∧ (c.skip n).rest = s' ++ rest ∧
          c.skipBlanks.lineBreak? = some ('\n', c.skip n)) := by
  obtain ⟨blanks, more, rfl, hblanks, hmore⟩ : ∃ blanks more, s = blanks ++ more ∧ (∀ ch ∈ blanks, ch = ' ') ∧
      ∀ ch ∈ more.head?, ch ≠ ' ' := by
    refine ⟨s.takeWhile (· = ' '), s.dropWhile (· = ' '), List.takeWhile_append_dropWhile.symm, fun ch hch => ?_,
      fun ch hch => ?_⟩
    · simpa using List.mem_takeWhile_imp hch
    · have hnot := List.head?_dropWhile_not (· = ' ') s
      rw [Option.mem_def.1 hch] at hnot
      simpa using hnot
  rw [List.append_assoc] at hrest
  have hstart : ∀ ch ∈ (more ++ rest).head?, ch ≠ ' ' ∧ ch ≠ '#' := by
    intro ch hch
    cases more with
    | nil => exact ⟨(hstop ch hch).1, (hstop ch hch).2.1⟩
    | cons first more =>
      cases hch
      refine ⟨hmore _ rfl, ?_⟩
      rintro rfl
      exact absurd (hs '#' (by simp)) (by decide)
  have hblank : c.skipBlanks = c.skip blanks.length := by
    rw [skipBlanks, skipWhile, span_eq hrest (fun ch hch => by simp [hblanks ch hch])
      fun ch hch => by simp [(hstart ch hch).1]]
  have hrest' : c.skipBlanks.rest = more ++ rest := by rw [hblank, rest_skip_append hrest]
  refine ⟨?_, ?_⟩
  · rw [skipComment, if_neg]
    rw [peek, hrest']
    exact fun hcomment => (hstart '#' hcomment).2 rfl
  · cases more with
    | nil =>
      refine .inl ⟨by rw [hblank, List.append_nil], lineBreak?_eq_none ?_⟩
      rw [hrest']
      exact fun ch hch => (hstop ch hch).2.2
    | cons first more =>
      have hfirst : first = '\n' ∨ first = '\r' := (hs first (by simp)).resolve_left (hmore _ rfl)
      obtain ⟨n, s', hpos, hlength, hsuffix, hbehind, hbreak⟩ := exists_lineBreak? hrest' hfirst hstop
      have hskip : c.skipBlanks.skip n = c.skip (blanks.length + n) := by rw [hblank, skip_skip]
      rw [hskip] at hbehind hbreak
      refine .inr ⟨blanks.length + n, s', by omega, ?_, ?_, hbehind, hbreak⟩
      · rw [List.length_append, Nat.add_assoc, hlength]
      · intro ch hch
        exact hs ch (List.mem_append_right _ (List.mem_cons_of_mem _ (hsuffix.subset hch)))

/-! ## Marks of documents -/

/-- No mark stands where another character does. -/
theorem atMark_eq_false {mark : Char} (h : ∀ ch ∈ c.rest.head?, ch ≠ mark) : c.atMark mark = false := by
  rw [atMark, Bool.and_eq_false_iff]
  refine .inl (decide_eq_false fun heq => ?_)
  cases hrest : c.rest with
  | nil =>
    rw [hrest] at heq
    cases heq
  | cons ch rest =>
    rw [hrest] at heq
    exact h ch (by rw [hrest]; rfl) (List.cons.inj heq).1

/-- No document starts or ends at a character other than a dash or a point. -/
theorem atDocumentMark_eq_false (h : ∀ ch ∈ c.rest.head?, ch ≠ '-' ∧ ch ≠ '.') :
    c.atDocumentMark = false := by
  rw [atDocumentMark, atMark_eq_false fun ch hch => (h ch hch).1, atMark_eq_false fun ch hch => (h ch hch).2]
  rfl

end Cursor

end RouteBinding.Yaml

namespace RouteBinding.Yaml

open Json (Glyph Quoted)

variable {c : Cursor} {q : Quoted} {rest : List Char} {fuel : Nat}

/-- What is written between the quotes. -/
def body (q : Quoted) : List Char :=
  q.flatMap Glyph.chars

/-- A character that is written without the code of half of a surrogate pair. -/
def IsWhole : Glyph → Prop
  | .plain .. => True
  | .letter .. => True
  | .unit _ code _ => ¬Text.IsHalf code
  | .pair .. => False

/-- A text begins with what is written as `taken` and stands for `piece`. -/
structure Begins (q : Quoted) (taken piece : List Char) (more : Quoted) : Prop where
  body : body q = taken ++ body more
  value : q.map Glyph.value = piece ++ more.map Glyph.value
  suffix : more <:+ q

/-- A quoted text begins with its first glyph. -/
theorem begins_cons (g : Glyph) (q : Quoted) : Begins (g :: q) g.chars [g.value] q :=
  ⟨List.flatMap_cons, rfl, List.suffix_cons g q⟩

/-- What a quoted text begins with and what follows make a longer beginning. -/
theorem Begins.trans {more : Quoted} {taken taken' piece piece' : List Char} {behind : Quoted}
    (h : Begins q taken piece more) (h' : Begins more taken' piece' behind) :
    Begins q (taken ++ taken') (piece ++ piece') behind :=
  ⟨by rw [h.body, h'.body, List.append_assoc], by rw [h.value, h'.value, List.append_assoc],
    h'.suffix.trans h.suffix⟩

/-! ## Runs -/

/-- The characters in `p` at the beginning of a text stand for themselves, up to one that is not in `p`. -/
theorem exists_run (p : Char → Bool) (hquote : p '"' = false) (hback : p '\\' = false) (q : Quoted)
    (rest : List Char) :
    ∃ run more, Begins q run run more ∧ (∀ ch ∈ run, p ch) ∧
      ∀ ch ∈ (body more ++ '"' :: rest).head?, p ch = false := by
  induction q with
  | nil => exact ⟨[], [], ⟨rfl, rfl, List.suffix_refl _⟩, by simp, by simp [body, hquote]⟩
  | cons g q ih =>
    have hstop (h : ∀ ch ∈ g.chars.head?, p ch = false) (hne : g.chars ≠ []) :
        ∃ run more, Begins (g :: q) run run more ∧ (∀ ch ∈ run, p ch) ∧
          ∀ ch ∈ (body more ++ '"' :: rest).head?, p ch = false := by
      refine ⟨[], g :: q, ⟨rfl, rfl, List.suffix_refl _⟩, by simp, fun ch hch => h ch ?_⟩
      rwa [body, List.flatMap_cons, List.append_assoc, List.head?_append_of_ne_nil _ hne] at hch
    cases g with
    | plain ch h =>
      by_cases hp : p ch
      · obtain ⟨run, more, hbegins, hrun, hmore⟩ := ih
        exact ⟨ch :: run, more, (begins_cons _ q).trans hbegins, List.forall_mem_cons.2 ⟨hp, hrun⟩, hmore⟩
      · exact hstop (by simpa [Glyph.chars] using hp) (by simp [Glyph.chars])
    | letter l e h => exact hstop (by simpa [Glyph.chars] using hback) (by simp [Glyph.chars])
    | unit digits code h => exact hstop (by simpa [Glyph.chars] using hback) (by simp [Glyph.chars])
    | pair high low a b code hhigh hlow h =>
      exact hstop (by simpa [Glyph.chars] using hback) (by simp [Glyph.chars])

/-! ## Escapes -/

/-- The simple escapes of JSON are escapes of YAML too, with the same meaning. -/
theorem simpleEscape?_of_json {l e : Char} (h : Json.simpleEscape? l = some e) : simpleEscape? l = some e := by
  have hmem := mem_of_lookup h
  simp only [List.mem_cons, Prod.mk.injEq, List.not_mem_nil, or_false] at hmem
  rcases hmem with ⟨rfl, rfl⟩ | ⟨rfl, rfl⟩ | ⟨rfl, rfl⟩ | ⟨rfl, rfl⟩ | ⟨rfl, rfl⟩ | ⟨rfl, rfl⟩ | ⟨rfl, rfl⟩ |
    ⟨rfl, rfl⟩ <;> rfl

/-- A simple escape is read as its character. -/
theorem quotedEscape_letter {l e : Char} (h : Json.simpleEscape? l = some e)
    (hrest : c.rest = '\\' :: l :: rest) : quotedEscape c = .ok ([e], c.skip 2) := by
  have hpeek : c.peekAt 1 = some l := by rw [Cursor.peekAt, hrest]; rfl
  rw [quotedEscape, hpeek]
  dsimp only
  rw [simpleEscape?_of_json h]

/-- The escape of a whole character is read as that one. -/
theorem quotedEscape_unit {digits : List Char} {code : Nat} (h : Text.readHex? 4 digits = some (code, []))
    (hcode : ¬Text.IsHalf code) (hrest : c.rest = '\\' :: 'u' :: digits ++ rest) :
    quotedEscape c = .ok ([Text.charOfCode code], c.skip (2 + digits.length)) := by
  have hpeek : c.peekAt 1 = some 'u' := by rw [Cursor.peekAt, hrest]; rfl
  have hbreak : c.next.lineBreak? = none := by
    refine Cursor.lineBreak?_eq_none ?_
    rw [Cursor.rest_next, hrest]
    rintro ch ⟨⟩
    decide
  have hcodes : c.rest.drop 2 = digits ++ rest := by rw [hrest]; rfl
  have hunit : codeEscape 'u' (digits ++ rest) = .ok (Text.charOfCode code, digits.length) := by
    simp [codeEscape, Text.readUnit?_append h hcode]
  rw [quotedEscape, hpeek]
  dsimp only
  rw [show simpleEscape? 'u' = none by decide]
  dsimp only
  rw [hbreak, hcodes, hunit]
  rfl

/-! ## Blanks -/

/-- Whether a character is a blank of one line. -/
def isLineBlank (ch : Char) : Bool :=
  ch = ' ' || ch = '\t'

/-- Blanks on one line stand for themselves. -/
theorem quotedSpaces_eq {blanks after : List Char} (hrest : c.rest = blanks ++ after)
    (hblanks : ∀ ch ∈ blanks, isLineBlank ch) (hne : after ≠ [])
    (hafter : ∀ ch ∈ after.head?, isLineBlank ch = false ∧ isBreak ch = false) :
    quotedSpaces c = .ok (blanks, c.skip blanks.length) := by
  have hspan : c.span (fun ch => ch = ' ' || ch = '\t') = (blanks, c.skip blanks.length) :=
    Cursor.span_eq hrest hblanks fun ch hch => (hafter ch hch).1
  have hrest' := Cursor.rest_skip_append hrest
  have hbreak : (c.skip blanks.length).lineBreak? = none :=
    Cursor.lineBreak?_eq_none (by rw [hrest']; exact fun ch hch => (hafter ch hch).2)
  rw [quotedSpaces, hspan]
  simp only [hbreak, hrest', List.isEmpty_iff, if_neg hne]

/-- All the blanks from here on are one piece. -/
theorem exists_blanks {h : ' ' ≠ '"' ∧ ' ' ≠ '\\' ∧ 0x20 ≤ ' '.toNat} {tail : Quoted}
    (hrest : c.rest = body (.plain ' ' h :: tail) ++ '"' :: rest)
    (hline : ∀ ch ∈ body (.plain ' ' h :: tail), isBreak ch = false) :
    ∃ blanks more, Begins (.plain ' ' h :: tail) blanks blanks more ∧ blanks ≠ [] ∧
      quotedSpaces c = .ok (blanks, c.skip blanks.length) := by
  obtain ⟨blanks, more, hbegins, hblanks, hmore⟩ :=
    exists_run isLineBlank (by decide) (by decide) (.plain ' ' h :: tail) rest
  rw [hbegins.body, List.append_assoc] at hrest
  refine ⟨blanks, more, hbegins, ?_, quotedSpaces_eq hrest hblanks (by simp) fun ch hch => ⟨hmore ch hch, ?_⟩⟩
  · rintro rfl
    have hspace := hbegins.body
    rw [List.nil_append] at hspace
    rw [← hspace] at hmore
    exact absurd (hmore ' ' rfl) (by decide)
  · cases hbody : body more with
    | nil =>
      rw [hbody] at hch
      cases hch
      decide
    | cons first others =>
      rw [hbody] at hch
      cases hch
      refine hline ch ?_
      rw [hbegins.body, hbody]
      simp

/-! ## The whole text -/

section Steps

variable {run : List Char} {g : Glyph} {tail : Quoted}

/-- Behind a run one more piece is read. -/
theorem exists_piece (hrest : c.rest = run ++ (body (g :: tail) ++ '"' :: rest)) (hrun : ∀ ch ∈ run, isQuotedChar ch)
    (hstop : ∀ ch ∈ (body (g :: tail) ++ '"' :: rest).head?, isQuotedChar ch = false)
    (hline : ∀ ch ∈ body (g :: tail), isBreak ch = false) (hwhole : IsWhole g) :
    ∃ taken piece more, Begins (g :: tail) taken piece more ∧ taken ≠ [] ∧ ∀ fuel read,
      scanQuotedFrom '"' (fuel + 1) read c =
        scanQuotedFrom '"' fuel (piece :: run :: read) ((c.skip run.length).skip taken.length) := by
  have hspan := Cursor.span_eq hrest hrun hstop
  have hrest' := Cursor.rest_skip_append hrest
  have hbegins := begins_cons g tail
  cases g with
  | plain ch h =>
    have hch : isBreak ch = false := hline ch (by simp [body, Glyph.chars])
    have hcases : ch = Text.singleQuote ∨ ch = ' ' := by
      have hquoted : isQuotedChar ch = false := hstop ch rfl
      have htab : ch ≠ '\t' := by
        rintro rfl
        exact absurd h.2.2 (by decide)
      simpa [isQuotedChar, hch, h.1, h.2.1, htab, or_iff_not_imp_left] using hquoted
    rcases hcases with rfl | rfl
    · refine ⟨_, _, _, hbegins, by simp [Glyph.chars], fun fuel read => ?_⟩
      rw [scanQuotedFrom]
      simp only [hspan, Cursor.peek, hrest']
      rfl
    · obtain ⟨blanks, more, hblanks, hne, hspaces⟩ := exists_blanks hrest' hline
      refine ⟨blanks, blanks, more, hblanks, hne, fun fuel read => ?_⟩
      rw [scanQuotedFrom]
      simp only [hspan, Cursor.peek, hrest']
      show (quotedSpaces (c.skip run.length) >>= _) = _
      rw [hspaces]
      rfl
  | letter l e h =>
    refine ⟨_, _, _, hbegins, by simp [Glyph.chars], fun fuel read => ?_⟩
    have hescape := quotedEscape_letter h hrest'
    rw [scanQuotedFrom]
    simp only [hspan, Cursor.peek, hrest']
    show (quotedEscape (c.skip run.length) >>= _) = _
    rw [hescape]
    rfl
  | unit digits code h =>
    refine ⟨_, _, _, hbegins, by simp [Glyph.chars], fun fuel read => ?_⟩
    have hunit : (c.skip run.length).rest = '\\' :: 'u' :: digits ++ (body tail ++ '"' :: rest) := by
      rw [hrest', body, List.flatMap_cons, List.append_assoc, ← body]
      rfl
    have hescape := quotedEscape_unit h hwhole hunit
    rw [Nat.add_comm] at hescape
    rw [scanQuotedFrom]
    simp only [hspan, Cursor.peek, hrest']
    show (quotedEscape (c.skip run.length) >>= _) = _
    rw [hescape]
    rfl
  | pair high low a b code hhigh hlow h => exact hwhole.elim

end Steps

/-- A quoted text on one line is read as the characters of its glyphs. -/
theorem scanQuotedFrom_eq (read : Pieces) (hrest : c.rest = body q ++ '"' :: rest)
    (hline : ∀ ch ∈ body q, isBreak ch = false) (hwhole : ∀ g ∈ q, IsWhole g) (hfuel : (body q).length < fuel) :
    ∃ pieces, scanQuotedFrom '"' fuel read c = .ok (pieces, c.skip ((body q).length + 1)) ∧
      pieces.reverse.flatten = read.reverse.flatten ++ q.map Glyph.value := by
  induction fuel generalizing c q read with
  | zero => exact absurd hfuel (Nat.not_lt_zero _)
  | succ fuel ih =>
    obtain ⟨run, more, hbegins, hrun, hmore⟩ := exists_run isQuotedChar (by decide) (by decide) q rest
    rw [hbegins.body, List.append_assoc] at hrest
    cases more with
    | nil =>
      have hlength : run.length = (body q).length := by rw [hbegins.body, List.length_append]; rfl
      refine ⟨run :: read, ?_, by simp [hbegins.value]⟩
      rw [scanQuotedFrom]
      simp only [Cursor.span_eq hrest hrun hmore, Cursor.peek, Cursor.rest_skip_append hrest]
      show Except.ok (run :: read, (c.skip run.length).skip 1) = _
      rw [Cursor.skip_skip, hlength]
    | cons g tail =>
      have hline' : ∀ ch ∈ body (g :: tail), isBreak ch = false := fun ch hch =>
        hline ch (by rw [hbegins.body]; exact List.mem_append_right _ hch)
      obtain ⟨taken, piece, behind, hpiece, hne, hscan⟩ :=
        exists_piece hrest hrun hmore hline' (hwhole g (hbegins.suffix.subset List.mem_cons_self))
      have hwhole' := hbegins.trans hpiece
      have hlength : (body q).length = run.length + taken.length + (body behind).length := by
        rw [hwhole'.body, List.length_append, List.length_append]
      have hrest' : ((c.skip run.length).skip taken.length).rest = body behind ++ '"' :: rest := by
        refine Cursor.rest_skip_append ?_
        rw [Cursor.rest_skip_append hrest, hpiece.body, List.append_assoc]
      have hpos := List.length_pos_of_ne_nil hne
      obtain ⟨pieces, hpieces, hflat⟩ := ih (piece :: run :: read) hrest'
        (fun ch hch => hline ch (by rw [hwhole'.body]; exact List.mem_append_right _ hch))
        (fun g hg => hwhole g (hwhole'.suffix.subset hg)) (by omega)
      refine ⟨pieces, ?_, ?_⟩
      · rw [hscan, hpieces, Cursor.skip_skip, Cursor.skip_skip, hlength, Nat.add_assoc, Nat.add_assoc]
      · rw [hflat, hwhole'.value]
        simp

/-- Between double quotes a JSON text is read as the text that it is. -/
theorem scanQuoted_eq (hrest : c.rest = q.chars ++ rest) (hline : ∀ ch ∈ body q, isBreak ch = false)
    (hwhole : ∀ g ∈ q, IsWhole g) : scanQuoted '"' c = .ok (q.value, c.skip q.chars.length) := by
  have hbody : c.rest = '"' :: (body q ++ '"' :: rest) := by
    rw [hrest]
    simp [Quoted.chars, body]
  have hnext : c.next.rest = body q ++ '"' :: rest := by rw [Cursor.rest_next, hbody]; rfl
  have hfuel : (body q).length < c.rest.length + 1 := by
    rw [hbody, List.length_cons, List.length_append]
    omega
  obtain ⟨pieces, hpieces, hflat⟩ := scanQuotedFrom_eq [] hnext hline hwhole hfuel
  rw [scanQuoted, hpieces]
  show Except.ok (pieces.text, (c.skip 1).skip ((body q).length + 1)) = _
  rw [Pieces.text, hflat, Cursor.skip_skip]
  have hlength : q.chars.length = 1 + ((body q).length + 1) := by
    simp [Quoted.chars, body]
    omega
  rw [hlength]
  rfl

end RouteBinding.Yaml

namespace RouteBinding.Yaml

variable {c : Cursor} {word gap rest : List Char} {inFlow : Bool} {fuel : Nat}

/-- Whether a character stands for itself wherever it is in a plain text. -/
def isWordChar (ch : Char) : Bool :=
  Text.isAsciiAlnum ch || ch = '+' || ch = '-' || ch = '.'

/-- What ends a word: the end of the text or, inside brackets, a comma or a closing bracket. -/
def Follows (inFlow : Bool) (rest : List Char) : Prop :=
  ∀ ch ∈ rest.head?, inFlow = true ∧ (ch = ',' ∨ ch = ']' ∨ ch = '\x7d')

/-- What follows a plain text inside brackets stops it. -/
theorem Follows.stops (h : Follows inFlow rest) : Stops rest := by
  intro ch hch
  rcases (h ch hch).2 with rfl | rfl | rfl <;> decide

/-! ## Words -/

/-- A character that no word has is in none. -/
theorem ne_of_isWordChar {ch d : Char} (h : isWordChar ch) (hd : isWordChar d = false) : ch ≠ d := by
  rintro rfl
  rw [h] at hd
  cases hd

/-- A word has no line break. -/
theorem isBreak_of_isWordChar {ch : Char} (h : isWordChar ch) : isBreak ch = false := by
  have hlt : ch.toNat < 0x80 := by
    simp only [isWordChar, Text.isAsciiAlnum, Text.isAsciiLetter, Text.isAsciiUpper, Text.isAsciiLower,
      Text.isAsciiDigit, Bool.or_eq_true, Bool.and_eq_true, decide_eq_true_eq] at h
    rcases h with ((h | rfl) | rfl) | rfl
    · omega
    · decide
    · decide
    · decide
  have hline : ch ≠ '\n' := ne_of_isWordChar h (by decide)
  have hreturn : ch ≠ '\r' := ne_of_isWordChar h (by decide)
  simp only [isBreak, isSeparator, hline, hreturn, decide_false, Bool.false_or, Bool.or_eq_false_iff,
    decide_eq_false_iff_not]
  omega

/-- No character of a word ends it. -/
theorem endsPlain_of_isWordChar {ch : Char} (h : isWordChar ch) (following : Option Char) :
    endsPlain inFlow ch following = false := by
  have hne {d : Char} (hd : isWordChar d = false) : ch ≠ d := ne_of_isWordChar h hd
  simp [endsPlain, endsToken, isBreak_of_isWordChar h, hne (d := ' ') (by decide), hne (d := '\t') (by decide),
    hne (d := ':') (by decide), hne (d := ',') (by decide), hne (d := '?') (by decide), hne (d := '[') (by decide),
    hne (d := ']') (by decide), hne (d := '\x7b') (by decide), hne (d := '\x7d') (by decide)]

/-- A plain text is read as the word, up to a blank or what follows. -/
theorem plainRun_eq (hword : ∀ ch ∈ word, isWordChar ch) (hgap : Spaced gap) (hrest : Follows inFlow rest) :
    plainRun inFlow (word ++ (gap ++ rest)) = word := by
  induction word with
  | nil =>
    rw [List.nil_append]
    cases gap with
    | nil =>
      cases rest with
      | nil => rfl
      | cons ch rest =>
        obtain ⟨rfl, hch⟩ := hrest ch rfl
        rw [List.nil_append, plainRun, if_pos]
        rcases hch with rfl | rfl | rfl <;> simp [endsPlain]
    | cons ch gap =>
      rw [List.cons_append, plainRun, if_pos]
      rcases hgap ch List.mem_cons_self with rfl | rfl | rfl <;> simp [endsPlain, endsToken, isBreak]
  | cons ch word ih =>
    obtain ⟨hch, hword⟩ := List.forall_mem_cons.1 hword
    rw [List.cons_append, plainRun, endsPlain_of_isWordChar hch, ih hword]
    rfl

/-! ## Blanks behind a word -/

/-- No document is marked between a word and what ends it. -/
theorem atDocumentMark_of_follows (hrest : c.rest = gap ++ rest) (hgap : Spaced gap)
    (hfollows : Follows inFlow rest) : c.atDocumentMark = false := by
  refine Cursor.atDocumentMark_eq_false fun ch hch => ?_
  rw [hrest] at hch
  cases gap with
  | nil => rcases (hfollows ch hch).2 with rfl | rfl | rfl <;> decide
  | cons first gap =>
    cases hch
    rcases hgap ch List.mem_cons_self with rfl | rfl | rfl <;> decide

/-- The line breaks behind a word are skipped, with the blanks around them. -/
theorem plainBreaks_eq (hrest : c.rest = gap ++ rest) (hgap : Spaced gap) (hfollows : Follows inFlow rest)
    (hfuel : gap.length < fuel) : ∃ more, plainBreaks fuel c = (some more, c.skip gap.length) := by
  induction fuel generalizing c gap with
  | zero => exact absurd hfuel (Nat.not_lt_zero _)
  | succ fuel ih =>
    rw [plainBreaks]
    obtain ⟨-, ⟨hblanks, hbreak⟩ | ⟨n, gap', hpos, hlength, hgap', hrest', hbreak⟩⟩ :=
      Cursor.skipBlanks_cases hrest hgap hfollows.stops
    · simp only [hbreak]
      exact ⟨[], by rw [hblanks]⟩
    · obtain ⟨more, hmore⟩ := ih hrest' hgap' (by omega)
      simp only [hbreak, atDocumentMark_of_follows hrest' hgap' hfollows, hmore, Cursor.skip_skip, hlength]
      exact ⟨'\n' :: more, rfl⟩

/-- The blanks behind a word are skipped, whatever lines they fill. -/
theorem plainSpaces_eq (hrest : c.rest = gap ++ rest) (hgap : Spaced gap) (hfollows : Follows inFlow rest) :
    ∃ spaces ended, plainSpaces c = (spaces, ended, c.skip gap.length) := by
  have hspan : (c.span (· = ' ')).2 = c.skipBlanks := rfl
  rw [plainSpaces]
  obtain ⟨-, ⟨hblanks, hbreak⟩ | ⟨n, gap', hpos, hlength, hgap', hrest', hbreak⟩⟩ :=
    Cursor.skipBlanks_cases hrest hgap hfollows.stops
  · simp only [hspan, hbreak]
    exact ⟨_, _, by rw [hblanks]⟩
  · have hfuel : gap'.length < (c.skip n).rest.length + 1 := by
      rw [hrest', List.length_append]
      omega
    obtain ⟨more, hmore⟩ := plainBreaks_eq hrest' hgap' hfollows hfuel
    simp only [hspan, hbreak, atDocumentMark_of_follows hrest' hgap' hfollows, hmore, Cursor.skip_skip, hlength]
    exact ⟨_, _, rfl⟩

/-- A word is read up to what ends it. -/
theorem scanPlain_eq (hrest : c.rest = word ++ (gap ++ rest)) (hne : word ≠ []) (hword : ∀ ch ∈ word, isWordChar ch)
    (hgap : Spaced gap) (hfollows : Follows inFlow rest) (indent : Int) :
    ∃ ended, scanPlain inFlow indent c = (String.ofList word, ended, c.skip (word.length + gap.length)) := by
  have hrest' := Cursor.rest_skip_append hrest
  obtain ⟨spaces, ended, hspaces⟩ := plainSpaces_eq hrest' hgap hfollows
  rw [Cursor.skip_skip] at hspaces
  have hbehind : (c.skip (word.length + gap.length)).rest = rest := by
    rw [← Cursor.skip_skip, Cursor.rest_skip_append hrest']
  -- behind the blanks nothing more is read
  have hend (fuel : Nat) (read : Pieces) (spaces : List Char) :
      scanPlainFrom inFlow indent fuel read spaces ended (c.skip (word.length + gap.length)) =
        ⟨read, ended, c.skip (word.length + gap.length)⟩ := by
    cases fuel with
    | zero => rfl
    | succ fuel =>
      have hrun : plainRun inFlow rest = [] := by
        exact plainRun_eq (List.forall_mem_nil _) (List.forall_mem_nil _) hfollows
      rw [scanPlainFrom, hbehind, hrun, List.isEmpty_nil, Bool.or_true, if_pos rfl]
  have hstart : ¬(c.peek = some '#' ∨ word = []) := by
    rintro (hcomment | hnil)
    · cases word with
      | nil => exact hne rfl
      | cons ch word =>
        rw [Cursor.peek, hrest] at hcomment
        cases hcomment
        exact absurd (hword '#' List.mem_cons_self) (by decide)
    · exact hne hnil
  have hfound : scanPlainFrom inFlow indent (c.rest.length + 1) [] [] false c =
      ⟨[word, []], ended, c.skip (word.length + gap.length)⟩ := by
    rw [scanPlainFrom, hrest, plainRun_eq hword hgap hfollows]
    simp only [hspaces, Bool.or_eq_true, decide_eq_true_eq, List.isEmpty_iff, if_neg hstart, hend, ite_self]
  refine ⟨ended, ?_⟩
  rw [scanPlain, hfound]
  simp [Pieces.text]

end RouteBinding.Yaml
