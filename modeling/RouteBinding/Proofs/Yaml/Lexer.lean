import Mathlib.Logic.Relation
import RouteBinding.Proofs.Yaml.Scanner
import RouteBinding.Yaml.Lexer

/-!
# Reading one token

What the lexer does at a token inside brackets, or at the only token of a text, where no block is open
(`Lexer.Loose`): blanks in front of the token are left behind (`Lexer.Loose.exists_moves`), what has been kept as a
candidate may be dropped but is never missed, and a text is the key in front of a colon if the colon follows it on the
same line and near enough (`Lexer.HasKey.of_moves`, `Lexer.HasKey.exists_lexValue`).
-/

namespace RouteBinding.Yaml

namespace Lexer

variable {l l' m : Lexer} {gap rest after : List Char} {ch : Char} {fuel n depth depth' : Nat}
  {ts ts' : List Token}

/-! ## Whole texts -/

/-- One token is read, which takes something from the text. -/
def Reads (l l' : Lexer) : Prop :=
  l.lexNext = .ok (false, l') ∧ l'.cursor.rest.length < l.cursor.rest.length

/-- A text that is read to its end gives the tokens that were read. -/
theorem lexAll_of_reads (h : Relation.ReflTransGen Reads l l') (hend : l'.lexNext = .ok (true, m))
    (hfuel : l.cursor.rest.length < fuel) : l.lexAll fuel = ⟨m.tokens.reverse, none⟩ := by
  induction h using Relation.ReflTransGen.head_induction_on generalizing fuel with
  | refl =>
    obtain ⟨fuel, rfl⟩ := Nat.exists_eq_add_of_lt hfuel
    rw [lexAll, hend]
  | head hstep _ ih =>
    obtain ⟨hnext, hless⟩ := hstep
    obtain ⟨fuel, rfl⟩ : ∃ k, fuel = k + 1 := ⟨fuel - 1, by omega⟩
    rw [lexAll, hnext]
    exact ih (by omega)

/-! ## Candidates -/

/-- No block is open, and nothing must be a key. -/
structure Loose (l : Lexer) : Prop where
  indents : l.indents = []
  candidates : ∀ k ∈ l.candidates, k.2.mustBeKey = false

/-- Here as a candidate for a key that need not be one. -/
def candidate (l : Lexer) : Candidate :=
  ⟨l.count, false, l.cursor.index, l.cursor.line, l.cursor.column⟩

/-- Has kept other candidates. -/
def keep (l : Lexer) (ks : List (Nat × Candidate)) : Lexer :=
  { l with candidates := ks }

/-- Without blocks, some candidates for keys may be dropped. -/
theorem Loose.keep {ks : List (Nat × Candidate)} (h : l.Loose) (hks : ks ⊆ l.candidates) : (l.keep ks).Loose :=
  ⟨h.indents, fun k hk => h.candidates k (hks hk)⟩

/-- Without blocks, dropping a candidate never fails. -/
theorem Loose.exists_dropCandidate (h : l.Loose) : ∃ ks, l.dropCandidate = .ok (l.keep ks) ∧ (l.keep ks).Loose := by
  unfold dropCandidate
  split
  · exact ⟨l.candidates, rfl, h⟩
  · rename_i k hlookup
    have hmust : k.mustBeKey = false := h.candidates _ (mem_of_lookup hlookup)
    rw [hmust, if_neg Bool.false_ne_true]
    exact ⟨_, rfl, h.keep (List.filter_subset_self _)⟩

/-- Without blocks, nothing stands at the indentation of one. -/
theorem Loose.indent_ne (h : l.Loose) (column : Nat) : l.indent ≠ column := by
  rw [indent, h.indents]
  exact not_eq_of_beq_eq_false rfl

/-- What comes next is kept as a candidate, if a key may begin here. -/
theorem Loose.exists_saveCandidate (h : l.Loose) :
    ∃ ks, l.saveCandidate = .ok (l.keep ks) ∧ (l.keep ks).Loose ∧
      (l.mayBeKey → ks.head? = some (l.depth, l.candidate)) := by
  rw [saveCandidate]
  cases hkey : l.mayBeKey with
  | false => exact ⟨l.candidates, rfl, h, nofun⟩
  | true =>
    obtain ⟨ks, hdrop, hks⟩ := h.exists_dropCandidate
    have hmust : (l.depth = 0 && l.indent = l.cursor.column) = false := by
      simp [h.indent_ne]
    refine ⟨(l.depth, l.candidate) :: ks, ?_, ⟨hks.indents, ?_⟩, fun _ => rfl⟩
    · simp only [hdrop, hmust]
      rfl
    · exact List.forall_mem_cons.2 ⟨rfl, hks.candidates⟩

/-- Without blocks, the candidates that are too far back are dropped. -/
theorem Loose.dropStale_eq (h : l.Loose) :
    l.dropStale = .ok (l.keep (l.candidates.filter fun k => !l.isStale k.2)) := by
  have hmust : ((l.candidates.filter fun k => l.isStale k.2).any (·.2.mustBeKey)) = false := by
    rw [List.any_eq_false]
    intro k hk
    simp [h.candidates k (List.mem_of_mem_filter hk)]
  rw [dropStale, List.partition_eq_filter_filter]
  simp only [hmust]
  rfl

/-! ## Blanks -/

/-- Without blocks, none is closed. -/
theorem closeBlocks_eq (h : l.indents = []) (column : Int) : l.closeBlocks column = l := by
  rw [closeBlocks, h]
  split_ifs
  · rfl
  · show { l with indents := [] } = l
    rw [← h]

/-- A gap is skipped up to the next token, and a key may start there as before. -/
theorem skipToToken_eq (hrest : l.cursor.rest = gap ++ rest) (hgap : Spaced gap) (hstop : Stops rest)
    (hfuel : gap.length < fuel) :
    ∃ b, l.skipToToken fuel = (l.skip gap.length).allowKey b ∧ (l.mayBeKey → b) := by
  induction fuel generalizing l gap with
  | zero => exact absurd hfuel (Nat.not_lt_zero _)
  | succ fuel ih =>
    rw [skipToToken]
    obtain ⟨hcomment, ⟨hblanks, hbreak⟩ | ⟨n, gap', hpos, hlength, hgap', hrest', hbreak⟩⟩ :=
      Cursor.skipBlanks_cases hrest hgap hstop
    · simp only [hcomment, hbreak]
      exact ⟨l.mayBeKey, by rw [hblanks]; rfl, id⟩
    · simp only [hcomment, hbreak]
      obtain ⟨b, hskip, hb⟩ := ih (l := (l.skip n).allowKey (l.depth = 0 || l.mayBeKey)) hrest' hgap' (by omega)
      refine ⟨b, ?_, fun hkey => hb (by simp [allowKey, hkey])⟩
      refine hskip.trans ?_
      rw [← hlength]
      simp only [skip, moveTo, allowKey, Cursor.skip_skip]

/-- A lexer after moving over blanks to the next token. -/
structure Moves (l m : Lexer) (gap : List Char) : Prop where
  isLoose : m.Loose
  cursor : m.cursor = l.cursor.skip gap.length
  tokens : m.tokens = l.tokens
  count : m.count = l.count
  depth : m.depth = l.depth
  mayBeKey : l.mayBeKey → m.mayBeKey
  candidates : m.candidates = l.candidates.filter fun k => !m.isStale k.2

/-- Blanks are left behind, and then the text ends or a token is read. -/
theorem Loose.exists_moves (h : l.Loose) (hrest : l.cursor.rest = gap ++ rest) (hgap : Spaced gap)
    (hstop : Stops rest) :
    ∃ m, l.Moves m gap ∧ m.cursor.rest = rest ∧ l.lexNext =
      match rest.head? with
      | none => m.lexEnd.map (true, ·)
      | some ch => (m.lexAt ch).map (false, ·) := by
  have hfuel : gap.length < l.cursor.rest.length + 1 := by
    rw [hrest, List.length_append]
    omega
  obtain ⟨b, hskip, hb⟩ := skipToToken_eq hrest hgap hstop hfuel
  let l₁ : Lexer := (l.skip gap.length).allowKey b
  have hloose : l₁.Loose := ⟨h.indents, h.candidates⟩
  let m : Lexer := l₁.keep (l₁.candidates.filter fun k => !l₁.isStale k.2)
  have hrest' : m.cursor.rest = rest := Cursor.rest_skip_append hrest
  refine ⟨m, ⟨hloose.keep (List.filter_subset_self _), rfl, rfl, rfl, rfl, hb, rfl⟩, hrest', ?_⟩
  have hclose : m.closeBlocks m.cursor.column = m := closeBlocks_eq (l := m) hloose.indents _
  rw [lexNext, hskip, hloose.dropStale_eq]
  show (match (m.closeBlocks m.cursor.column).cursor.peek with
    | none => (m.closeBlocks m.cursor.column).lexEnd >>= fun l => pure (true, l)
    | some ch => (m.closeBlocks m.cursor.column).lexAt ch >>= fun l => pure (false, l)) = _
  rw [hclose, Cursor.peek, hrest']
  cases rest with
  | nil => rfl
  | cons ch rest => rfl

/-! ## Tokens -/

/-- One token is added, and `rest` is left of the text. -/
structure Emits (l l' : Lexer) (t : Token) (depth : Nat) (rest : List Char) : Prop where
  isLoose : l'.Loose
  tokens : l'.tokens = t :: l.tokens
  depth : l'.depth = depth
  rest : l'.cursor.rest = rest

theorem rest_skip_one (hrest : l.cursor.rest = ch :: rest) : (l.cursor.skip 1).rest = rest := by
  rw [Cursor.rest_skip, hrest]
  rfl

section Operations

variable (hl : l.Loose) (hrest : l.cursor.rest = ch :: rest)

include hl hrest

/-- Behind an opening bracket a key may begin. -/
theorem Loose.exists_lexOpening (t : Token) :
    ∃ l', l.lexOpening t = .ok l' ∧ l.Emits l' t (l.depth + 1) rest ∧ l'.mayBeKey := by
  obtain ⟨ks, hsave, hks, -⟩ := hl.exists_saveCandidate
  refine ⟨{ (((l.keep ks).skip 1).emit t).allowKey true with depth := l.depth + 1 }, ?_,
    ⟨⟨hks.indents, hks.candidates⟩, rfl, rfl, rest_skip_one hrest⟩, rfl⟩
  rw [lexOpening, hsave]
  rfl

/-- A closing bracket gives its token, one level up. -/
theorem Loose.exists_lexClosing (t : Token) :
    ∃ l', l.lexClosing t = .ok l' ∧ l.Emits l' t (l.depth - 1) rest := by
  obtain ⟨ks, hdrop, hks⟩ := hl.exists_dropCandidate
  refine ⟨{ (((l.keep ks).skip 1).emit t).allowKey false with depth := l.depth - 1 }, ?_,
    ⟨⟨hks.indents, hks.candidates⟩, rfl, rfl, rest_skip_one hrest⟩⟩
  rw [lexClosing, hdrop]
  rfl

/-- Behind a comma a key may begin. -/
theorem Loose.exists_lexComma :
    ∃ l', l.lexComma = .ok l' ∧ l.Emits l' .flowItem l.depth rest ∧ l'.mayBeKey := by
  have hkey : (l.allowKey true).Loose := ⟨hl.indents, hl.candidates⟩
  obtain ⟨ks, hdrop, hks⟩ := hkey.exists_dropCandidate
  refine ⟨(((l.allowKey true).keep ks).skip 1).emit .flowItem, ?_,
    ⟨⟨hks.indents, hks.candidates⟩, rfl, rfl, rest_skip_one hrest⟩, rfl⟩
  rw [lexComma, hdrop]
  rfl

end Operations

/-- A word is read with the blanks behind it. -/
theorem Loose.exists_lexPlain {word : List Char} (hl : l.Loose) (hrest : l.cursor.rest = word ++ (gap ++ rest))
    (hne : word ≠ []) (hword : ∀ ch ∈ word, isWordChar ch) (hgap : Spaced gap)
    (hfollows : Follows (l.depth ≠ 0) rest) :
    ∃ l', l.lexPlain = .ok l' ∧ l.Emits l' (.scalar (String.ofList word) true) l.depth rest := by
  obtain ⟨ks, hsave, hks, -⟩ := hl.exists_saveCandidate
  obtain ⟨ended, hscan⟩ := scanPlain_eq hrest hne hword hgap hfollows ((l.keep ks).indent + 1)
  refine ⟨(((l.keep ks).allowKey ended).moveTo (l.cursor.skip (word.length + gap.length))).emit
    (.scalar (String.ofList word) true), ?_, ⟨⟨hks.indents, hks.candidates⟩, rfl, rfl, ?_⟩⟩
  · rw [lexPlain, hsave]
    let found := scanPlain (l.depth ≠ 0) ((l.keep ks).indent + 1) l.cursor
    show Except.ok ((((l.keep ks).allowKey found.2.1).moveTo found.2.2).emit (.scalar found.1 true)) = _
    rw [show found = _ from hscan]
  · rw [← List.append_assoc] at hrest
    rw [← List.length_append]
    exact Cursor.rest_skip_append hrest

/-- The last token may be the key in front of a colon that follows `n` characters behind its beginning. -/
def HasKey (l : Lexer) (n : Nat) : Prop :=
  ∃ k ks, l.candidates = (l.depth, k) :: ks ∧ k.place + 1 = l.count ∧ k.line = l.cursor.line ∧
    l.cursor.index = k.index + n

/-- A quoted text gives one scalar of its characters, which may be a key. -/
theorem Loose.exists_lexQuoted {q : Json.Quoted} (hl : l.Loose) (hrest : l.cursor.rest = q.chars ++ rest)
    (hline : ∀ ch ∈ q.chars, isBreak ch = false) (hwhole : ∀ g ∈ q, IsWhole g) :
    ∃ l', (l.lexPart fun c => (scanQuoted '"' c).map fun r => (.scalar r.1 false, r.2)) = .ok l' ∧
      l.Emits l' (.scalar q.value false) l.depth rest ∧ (l.mayBeKey → l'.HasKey q.chars.length) := by
  obtain ⟨ks, hsave, hks, hhead⟩ := hl.exists_saveCandidate
  have hbody : ∀ ch ∈ body q, isBreak ch = false := fun ch hch =>
    hline ch (List.mem_cons_of_mem _ (List.mem_append_left _ hch))
  have hscan := scanQuoted_eq hrest hbody hwhole
  refine ⟨(((l.keep ks).allowKey false).moveTo (l.cursor.skip q.chars.length)).emit (.scalar q.value false), ?_,
    ⟨⟨hks.indents, hks.candidates⟩, rfl, rfl, Cursor.rest_skip_append hrest⟩, fun hkey => ?_⟩
  · rw [lexPart, hsave]
    show ((scanQuoted '"' l.cursor).map _ >>= _) = _
    rw [hscan]
    rfl
  · obtain ⟨ks', rfl⟩ : ∃ ks', ks = (l.depth, l.candidate) :: ks' := by
      cases ks with
      | nil => exact absurd (hhead hkey) nofun
      | cons k ks' => exact ⟨ks', by rw [Option.some.inj (hhead hkey)]⟩
    refine ⟨l.candidate, ks', rfl, rfl, (Cursor.line_skip hrest hline).symm, Cursor.index_skip ?_⟩
    rw [hrest, List.length_append]
    omega

/-- A key is not missed where its colon follows on the same line and near enough. -/
theorem HasKey.of_moves (h : l.HasKey n) (hm : l.Moves m gap) (hrest : l.cursor.rest = gap ++ rest)
    (hgap : ∀ ch ∈ gap, isBreak ch = false) (hnear : n + gap.length ≤ 1024) : m.HasKey (n + gap.length) := by
  obtain ⟨k, ks, hcandidates, hplace, hline, hindex⟩ := h
  have hline' : k.line = m.cursor.line := by rw [hline, hm.cursor, Cursor.line_skip hrest hgap]
  have hindex' : m.cursor.index = k.index + (n + gap.length) := by
    rw [hm.cursor, Cursor.index_skip (by rw [hrest, List.length_append]; omega), hindex, Nat.add_assoc]
  have hstale : m.isStale k = false := by
    simp only [isStale, hline', hindex', ne_eq, not_true_eq_false, decide_false, Bool.false_or, decide_eq_false_iff_not]
    omega
  refine ⟨k, ks.filter fun k => !m.isStale k.2, ?_, by rw [hplace, hm.count], hline', hindex'⟩
  rw [hm.candidates, hcandidates, List.filter_cons_of_pos (by simp [hstale]), hm.depth]

/-- A colon behind a key puts the mark of a key in front of it. -/
theorem HasKey.exists_lexValue {t : Token} {ts : List Token} (h : l.HasKey n) (hl : l.Loose)
    (hrest : l.cursor.rest = ':' :: rest) (hdepth : l.depth ≠ 0) (htokens : l.tokens = t :: ts) :
    ∃ l', l.lexValue = .ok l' ∧ l'.Loose ∧ l'.tokens = .value :: t :: .key :: ts ∧ l'.depth = l.depth ∧
      l'.cursor.rest = rest := by
  obtain ⟨k, ks, hcandidates, hplace, -, -⟩ := h
  have hlookup : l.candidates.lookup l.depth = some k := by rw [hcandidates, List.lookup_cons_self]
  have hcount : l.count - k.place = 1 := by omega
  let l₁ : Lexer := (l.keep (l.candidates.filter (·.1 ≠ l.depth))).emitAt k.place .key
  have hdepth' : l₁.depth ≠ 0 := hdepth
  refine ⟨((l₁.allowKey false).skip 1).emit .value, ?_,
    ⟨hl.indents, fun k hk => hl.candidates k (List.mem_of_mem_filter hk)⟩, ?_, rfl, rest_skip_one hrest⟩
  · rw [lexValue, hlookup]
    show Except.ok ((((if l₁.depth = 0 then l₁.openBlock k.column k.place .blockMappingStart
      else l₁).allowKey false).skip 1).emit .value) = _
    rw [if_neg hdepth']
  · show Token.value :: insertToken .key (l.count - k.place) l.tokens = _
    rw [hcount, htokens]
    rfl

/-! ## Characters of tokens -/

section Characters

/-- No mark stands where another character does. -/
theorem atMark_eq_false_of_cons {mark : Char} {c : Cursor} (hrest : c.rest = ch :: rest) (hne : ch ≠ mark) :
    c.atMark mark = false :=
  Cursor.atMark_eq_false (by rw [hrest]; rintro _ ⟨⟩; exact hne)

theorem lexAt_openSequence (hrest : l.cursor.rest = '[' :: rest) : l.lexAt '[' = l.lexOpening .flowSequenceStart := by
  simp [lexAt, atMark_eq_false_of_cons hrest]

theorem lexAt_openMapping (hrest : l.cursor.rest = '\x7b' :: rest) :
    l.lexAt '\x7b' = l.lexOpening .flowMappingStart := by
  simp [lexAt, atMark_eq_false_of_cons hrest]

theorem lexAt_closeSequence (hrest : l.cursor.rest = ']' :: rest) : l.lexAt ']' = l.lexClosing .flowSequenceEnd := by
  simp [lexAt, atMark_eq_false_of_cons hrest]

theorem lexAt_closeMapping (hrest : l.cursor.rest = '\x7d' :: rest) :
    l.lexAt '\x7d' = l.lexClosing .flowMappingEnd := by
  simp [lexAt, atMark_eq_false_of_cons hrest]

theorem lexAt_comma (hrest : l.cursor.rest = ',' :: rest) : l.lexAt ',' = l.lexComma := by
  simp [lexAt, atMark_eq_false_of_cons hrest]

theorem lexAt_colon (hrest : l.cursor.rest = ':' :: rest) (hdepth : l.depth ≠ 0) : l.lexAt ':' = l.lexValue := by
  simp [lexAt, atMark_eq_false_of_cons hrest, hdepth]

theorem lexAt_quote (hrest : l.cursor.rest = '"' :: rest) :
    l.lexAt '"' = l.lexPart fun c => (scanQuoted '"' c).map fun r => (.scalar r.1 false, r.2) := by
  simp [lexAt, atMark_eq_false_of_cons hrest]

/-- A letter or digit is no other character. -/
theorem ne_of_isAsciiAlnum {d : Char} (hch : Text.isAsciiAlnum ch) (hd : Text.isAsciiAlnum d = false) : ch ≠ d := by
  rintro rfl
  rw [hch] at hd
  cases hd

theorem endsToken_of_isAsciiAlnum (hch : Text.isAsciiAlnum ch) : endsToken (some ch) = false := by
  have hword : isWordChar ch := by simp [isWordChar, hch]
  simp [endsToken, isBreak_of_isWordChar hword, ne_of_isAsciiAlnum hch (d := ' ') (by decide),
    ne_of_isAsciiAlnum hch (d := '\t') (by decide)]

/-- A letter or digit starts a plain text. -/
theorem lexAt_alnum (hrest : l.cursor.rest = ch :: rest) (hch : Text.isAsciiAlnum ch) :
    l.lexAt ch = l.lexPlain := by
  have hne (d : Char) (hd : Text.isAsciiAlnum d = false) : ch ≠ d := ne_of_isAsciiAlnum hch hd
  have hmark (mark : Char) (hd : Text.isAsciiAlnum mark = false) : l.cursor.atMark mark = false :=
    atMark_eq_false_of_cons hrest (hne mark hd)
  have hbegins : l.beginsPlain ch (l.cursor.peekAt 1) = true := by
    have hbacktick : ch.toNat ≠ 0x60 := fun heq =>
      hne (Char.ofNat 0x60) (by decide) (by rw [← Char.toNat_inj, heq]; rfl)
    simp (disch := decide) [beginsPlain, endsToken_of_isAsciiAlnum hch, hne, hbacktick]
  simp (disch := decide) [lexAt, hne, hmark, hbegins, Text.singleQuote]

/-- A minus starts a plain text if a letter or digit follows. -/
theorem lexAt_minus {next : Char} (hrest : l.cursor.rest = '-' :: next :: rest) (hnext : Text.isAsciiAlnum next) :
    l.lexAt '-' = l.lexPlain := by
  have hpeek : l.cursor.peekAt 1 = some next := by rw [Cursor.peekAt, hrest]; rfl
  have hdash : l.cursor.atMark '-' = false := by
    have hne : next ≠ '-' := ne_of_isAsciiAlnum hnext (by decide)
    simp [Cursor.atMark, hrest, hne]
  have hpoint : l.cursor.atMark '.' = false := atMark_eq_false_of_cons hrest (by decide)
  simp [lexAt, hdash, hpoint, hpeek, beginsPlain, endsToken_of_isAsciiAlnum hnext, Text.singleQuote]

end Characters

end Lexer

end RouteBinding.Yaml
