import RouteBinding.Proofs.Yaml.Lexer
import RouteBinding.Proofs.Yaml.Word

/-!
# The tokens of a JSON text

A JSON text is cut into the tokens of a YAML text that it looks like (`tokens_of_spells`), where all of its characters
may stand in one (`isPortable`), its texts are whole and every colon follows its key on the same line and near enough
(`Json.Form.Fits`).
-/

namespace RouteBinding

namespace Json

open Yaml (Token)

/-! ## Tokens of forms -/

/-- The token of the comma in front of all but the first. -/
def separator (isFirst : Bool) : List Token :=
  if isFirst then [] else [.flowItem]

mutual

/-- The tokens of a value. -/
def Form.tokens : Form → List Token
  | .word w => [.scalar (String.ofList w.chars) true]
  | .text q => [.scalar q.value false]
  | .list items => .flowSequenceStart :: items.tokens true
  | .mapping entries => .flowMappingStart :: entries.tokens true

/-- The tokens of the items of a list, up to its closing bracket. -/
def Items.tokens : (isFirst : Bool) → Items → List Token
  | _, .none _ => [.flowSequenceEnd]
  | isFirst, .more _ _ item rest => separator isFirst ++ (item.tokens ++ rest.tokens false)

/-- The tokens of the entries of a mapping, up to its closing brace. -/
def Entries.tokens : (isFirst : Bool) → Entries → List Token
  | _, .none _ => [.flowMappingEnd]
  | isFirst, .more _ _ key value rest =>
    separator isFirst ++ ([.key, .scalar key.name.value false, .value] ++ (value.tokens ++ rest.tokens false))

end

/-! ## Forms that are read as they are -/

/-- A colon follows its key on the same line, at most 1024 characters behind the beginning of the key. -/
structure Key.Fits (k : Key) : Prop where
  isWhole : ∀ g ∈ k.name, Yaml.IsWhole g
  line : ∀ ch ∈ k.before.chars, ch ≠ '\n' ∧ ch ≠ '\r'
  near : k.name.chars.length + k.before.chars.length ≤ 1024

mutual

/-- The texts of a value are whole, and the colons of its keys are where they are looked for. -/
def Form.Fits : Form → Prop
  | .word _ => True
  | .text q => ∀ g ∈ q, Yaml.IsWhole g
  | .list items => items.Fits
  | .mapping entries => entries.Fits

/-- The items of a list fit. -/
def Items.Fits : Items → Prop
  | .none _ => True
  | .more _ _ item rest => item.Fits ∧ rest.Fits

/-- The entries of a mapping fit. -/
def Entries.Fits : Entries → Prop
  | .none _ => True
  | .more _ _ key value rest => key.Fits ∧ value.Fits ∧ rest.Fits

end

/-- The blanks in front of the next item or of the closing bracket. -/
def Items.gap : Items → Gap
  | .none gap => gap
  | .more before _ _ _ => before

/-- What is written for the items of a list behind the first blanks. -/
def Items.behindGap : (isFirst : Bool) → Items → List Char
  | _, .none _ => [']']
  | isFirst, .more _ after item rest => comma isFirst ++ (after.chars ++ (item.chars ++ rest.chars false))

/-- Items are written as a gap and what is behind it. -/
theorem Items.chars_eq (items : Items) (isFirst : Bool) :
    items.chars isFirst = items.gap.chars ++ items.behindGap isFirst := by
  cases items <;> rfl

/-- The blanks in front of the next entry or of the closing brace. -/
def Entries.gap : Entries → Gap
  | .none gap => gap
  | .more before _ _ _ _ => before

/-- What is written for the entries of a mapping behind the first blanks. -/
def Entries.behindGap : (isFirst : Bool) → Entries → List Char
  | _, .none _ => ['\x7d']
  | isFirst, .more _ after key value rest =>
    comma isFirst ++ (after.chars ++ (key.chars ++ (value.chars ++ rest.chars false)))

/-- Entries are written as a gap and what is behind it. -/
theorem Entries.chars_eq (entries : Entries) (isFirst : Bool) :
    entries.chars isFirst = entries.gap.chars ++ entries.behindGap isFirst := by
  cases entries <;> rfl

end Json

namespace Yaml

open Json (Form Items Entries Key Gap Quoted Word comma separator)

variable {l l' m : Lexer} {gap rest after : List Char} {ch : Char} {depth depth' : Nat} {t : Token}
  {ts ts' : List Token}

/-! ## Portable characters -/

/-- Whether a character may stand in a text and is neither a tab nor the end of a line in an unusual form. -/
def isPortable (ch : Char) : Bool :=
  isAllowed ch && ch ≠ '\t' && (!isBreak ch || ch = '\n' || ch = '\r')

theorem spaced_of_isPortable {g : Gap} (h : ∀ ch ∈ g.chars, isPortable ch) : Spaced g.chars := by
  intro ch hch
  have hspace := g.isSpace ch hch
  have htab := h ch hch
  simp only [isPortable, Bool.and_eq_true, decide_eq_true_eq] at htab
  simp only [Json.isSpace, Bool.or_eq_true, decide_eq_true_eq] at hspace
  rcases hspace with ((hspace | hline) | hreturn) | htab'
  · exact .inl hspace
  · exact .inr (.inl hline)
  · exact .inr (.inr hreturn)
  · exact absurd htab' htab.1.2

/-- Of the characters that both formats have only two break a line. -/
theorem isBreak_of_isPortable (h : isPortable ch) (hline : ch ≠ '\n' ∧ ch ≠ '\r') : isBreak ch = false := by
  simp only [isPortable, hline.1, hline.2, Bool.and_eq_true, decide_false, Bool.or_false] at h
  simpa using h.2

/-- A quoted text of JSON has no line break. -/
theorem isBreak_of_mem_quoted {q : Quoted} (h : ∀ ch ∈ q.chars, isPortable ch) :
    ∀ ch ∈ q.chars, isBreak ch = false := by
  intro ch hch
  have hle := q.le_toNat ch hch
  refine isBreak_of_isPortable (h ch hch) ⟨?_, ?_⟩
  · rintro rfl
    exact absurd hle (by decide)
  · rintro rfl
    exact absurd hle (by decide)

namespace Lexer

/-! ## One token -/

/-- What is left of the text, but for blanks in front of it. -/
def At (l : Lexer) (rest : List Char) : Prop :=
  ∃ gap, Spaced gap ∧ l.cursor.rest = gap ++ rest

theorem at_of_rest (h : l.cursor.rest = rest) : l.At rest :=
  ⟨[], List.forall_mem_nil _, h⟩

/-- Where a gap is next, what is behind it is next as well. -/
theorem At.of_gap (h : l.At (gap ++ rest)) (hgap : Spaced gap) : l.At rest := by
  obtain ⟨gap', hgap', hrest⟩ := h
  exact ⟨gap' ++ gap, List.forall_mem_append.2 ⟨hgap', hgap⟩, by rw [hrest, List.append_assoc]⟩

/-- A token is read at its first character, with blanks in front of it. -/
theorem Loose.exists_reads {post : Lexer → Prop} (hl : l.Loose) (hat : l.At (ch :: rest)) (hstop : Stops (ch :: rest))
    (hless : after.length ≤ rest.length)
    (hread : ∀ m gap, l.Moves m gap → m.cursor.rest = ch :: rest →
      ∃ l', m.lexAt ch = .ok l' ∧ m.Emits l' t depth after ∧ post l') :
    ∃ l', Reads l l' ∧ l.Emits l' t depth after ∧ post l' := by
  obtain ⟨gap, hgap, hrest⟩ := hat
  obtain ⟨m, hm, hrest', hnext⟩ := hl.exists_moves hrest hgap hstop
  obtain ⟨l', hlex, hemits, hpost⟩ := hread m gap hm hrest'
  refine ⟨l', ⟨?_, ?_⟩, ⟨hemits.isLoose, by rw [hemits.tokens, hm.tokens], hemits.depth, hemits.rest⟩, hpost⟩
  · rw [hnext]
    show (m.lexAt ch).map (false, ·) = _
    rw [hlex]
    rfl
  · rw [hemits.rest, hrest, List.length_append, List.length_cons]
    omega

/-- Some tokens are read up to some part of the text. -/
structure Reaches (l l' : Lexer) (ts : List Token) (depth : Nat) (rest : List Char) : Prop where
  steps : Relation.ReflTransGen Reads l l'
  isLoose : l'.Loose
  tokens : l'.tokens = ts.reverse ++ l.tokens
  depth : l'.depth = depth
  isAt : l'.At rest

/-- What is read next is reached with its one token. -/
theorem Reaches.single (h : Reads l l') (hemits : l.Emits l' t depth rest) : l.Reaches l' [t] depth rest :=
  ⟨.single h, hemits.isLoose, hemits.tokens, hemits.depth, at_of_rest hemits.rest⟩

/-- What is reached from what is reached is reached. -/
theorem Reaches.trans (h : l.Reaches l' ts depth rest) (h' : l'.Reaches m ts' depth' after) :
    l.Reaches m (ts ++ ts') depth' after :=
  ⟨h.steps.trans h'.steps, h'.isLoose, by rw [h'.tokens, h.tokens, List.reverse_append, List.append_assoc],
    h'.depth, h'.isAt⟩

/-- A gap behind a token may be counted as read. -/
theorem Reaches.of_gap (h : l.Reaches l' ts depth (gap ++ rest)) (hgap : Spaced gap) : l.Reaches l' ts depth rest :=
  ⟨h.steps, h.isLoose, h.tokens, h.depth, h.isAt.of_gap hgap⟩

/-! ## Brackets and commas -/

section Brackets

variable (hl : l.Loose)

include hl

/-- An opening bracket is read as its token, one level deeper. -/
theorem Loose.exists_reaches_opening (hat : l.At (ch :: rest)) (hstop : Stops (ch :: rest))
    (hlex : ∀ m : Lexer, m.cursor.rest = ch :: rest → m.lexAt ch = m.lexOpening t) :
    ∃ l', l.Reaches l' [t] (l.depth + 1) rest ∧ l'.mayBeKey := by
  obtain ⟨l', hreads, hemits, hkey⟩ : ∃ l', Reads l l' ∧ l.Emits l' t (l.depth + 1) rest ∧ l'.mayBeKey :=
    hl.exists_reads hat hstop le_rfl fun m gap hm hrest => by
      rw [hlex m hrest, ← hm.depth]
      exact hm.isLoose.exists_lexOpening hrest t
  exact ⟨l', .single hreads hemits, hkey⟩

/-- A closing bracket is read as its token, one level up. -/
theorem Loose.exists_reaches_closing (hat : l.At (ch :: rest)) (hstop : Stops (ch :: rest))
    (hlex : ∀ m : Lexer, m.cursor.rest = ch :: rest → m.lexAt ch = m.lexClosing t) :
    ∃ l', l.Reaches l' [t] (l.depth - 1) rest := by
  obtain ⟨l', hreads, hemits, -⟩ : ∃ l', Reads l l' ∧ l.Emits l' t (l.depth - 1) rest ∧ True :=
    hl.exists_reads hat hstop le_rfl fun m gap hm hrest => by
      obtain ⟨l', hclosing, hemits⟩ := hm.isLoose.exists_lexClosing hrest t
      rw [hlex m hrest, ← hm.depth]
      exact ⟨l', hclosing, hemits, trivial⟩
  exact ⟨l', .single hreads hemits⟩

/-- In front of each item or entry a key may begin: behind the opening bracket, and behind a comma. -/
theorem Loose.exists_reaches_separator {isFirst : Bool} (hat : l.At (comma isFirst ++ (gap ++ rest)))
    (hgap : Spaced gap) :
    ∃ l', l.Reaches l' (separator isFirst) l.depth rest ∧ ((isFirst → l.mayBeKey) → l'.mayBeKey) := by
  cases isFirst with
  | true =>
    have hat' : l.At (gap ++ rest) := hat
    exact ⟨l, ⟨.refl, hl, rfl, rfl, hat'.of_gap hgap⟩, fun hkey => hkey rfl⟩
  | false =>
    have hat' : l.At (',' :: (gap ++ rest)) := hat
    obtain ⟨l', hreads, hemits, hkey⟩ :
        ∃ l', Reads l l' ∧ l.Emits l' .flowItem l.depth (gap ++ rest) ∧ l'.mayBeKey :=
      hl.exists_reads hat' (by rintro _ ⟨⟩; decide) le_rfl fun m gap hm hrest => by
        rw [lexAt_comma hrest, ← hm.depth]
        exact hm.isLoose.exists_lexComma hrest
    exact ⟨l', (Reaches.single hreads hemits).of_gap hgap, fun _ => hkey⟩

end Brackets

/-! ## Words and texts -/

/-- A word is read as one plain scalar, with the gap behind it. -/
theorem Loose.exists_reaches_word (w : Word) (hl : l.Loose) (hat : l.At (w.chars ++ (gap ++ rest))) (hgap : Spaced gap)
    (hfollows : Follows (l.depth ≠ 0) rest) :
    ∃ l', l.Reaches l' [.scalar (String.ofList w.chars) true] l.depth rest := by
  obtain ⟨ch, more, hchars, hlex⟩ : ∃ ch more, w.chars = ch :: more ∧
      ∀ m : Lexer, m.cursor.rest = ch :: more ++ (gap ++ rest) → m.lexAt ch = m.lexPlain := by
    rcases w.chars_cases with ⟨ch, more, hchars, hch⟩ | ⟨next, more, hchars, hnext⟩
    · exact ⟨ch, more, hchars, fun m hrest => lexAt_alnum hrest hch⟩
    · exact ⟨'-', next :: more, hchars, fun m hrest => lexAt_minus hrest hnext⟩
  have hword := w.isWordChar
  rw [hchars] at hat hword ⊢
  have hstop : Stops (ch :: more ++ (gap ++ rest)) := by
    rintro _ ⟨⟩
    have hch := hword ch List.mem_cons_self
    exact ⟨ne_of_isWordChar hch (by decide), ne_of_isWordChar hch (by decide), isBreak_of_isWordChar hch⟩
  have hless : rest.length ≤ (more ++ (gap ++ rest)).length := by
    rw [List.length_append, List.length_append]
    omega
  obtain ⟨l', hreads, hemits, -⟩ :
      ∃ l', Reads l l' ∧ l.Emits l' (.scalar (String.ofList (ch :: more)) true) l.depth rest ∧ True :=
    hl.exists_reads hat hstop hless fun m gap' hm hrest => by
      have hfollows' : Follows (m.depth ≠ 0) rest := by rwa [hm.depth]
      obtain ⟨l', hplain, hemits⟩ :=
        hm.isLoose.exists_lexPlain hrest (List.cons_ne_nil ch more) hword hgap hfollows'
      rw [hlex m hrest, ← hm.depth]
      exact ⟨l', hplain, hemits, trivial⟩
  exact ⟨l', .single hreads hemits⟩

/-- A quoted text; where a key may begin, it may be the key. -/
theorem Loose.exists_reads_quoted {q : Quoted} (hl : l.Loose) (hat : l.At (q.chars ++ rest))
    (hportable : ∀ ch ∈ q.chars, isPortable ch) (hwhole : ∀ g ∈ q, IsWhole g) :
    ∃ l', Reads l l' ∧ l.Emits l' (.scalar q.value false) l.depth rest ∧ (l.mayBeKey → l'.HasKey q.chars.length) :=
  hl.exists_reads hat (by rintro _ ⟨⟩; decide) (by simp; omega) fun m gap hm hrest => by
    obtain ⟨l', hlex, hemits, hkey⟩ := hm.isLoose.exists_lexQuoted hrest (isBreak_of_mem_quoted hportable) hwhole
    rw [lexAt_quote hrest, ← hm.depth]
    exact ⟨l', hlex, hemits, fun h => hkey (hm.mayBeKey h)⟩

/-- A short key is read as a key, its name and the value mark. -/
theorem Loose.exists_reaches_key {k : Key} (hl : l.Loose) (hat : l.At (k.chars ++ rest)) (hkey : l.mayBeKey)
    (hdepth : l.depth ≠ 0) (hportable : ∀ ch ∈ k.chars, isPortable ch) (hfits : k.Fits) :
    ∃ l', l.Reaches l' [.key, .scalar k.name.value false, .value] l.depth rest := by
  obtain ⟨hname, hbefore, hafter⟩ : (∀ ch ∈ k.name.chars, isPortable ch) ∧ (∀ ch ∈ k.before.chars, isPortable ch) ∧
      ∀ ch ∈ k.after.chars, isPortable ch := by
    simp only [Key.chars, List.forall_mem_append, List.forall_mem_cons] at hportable
    exact ⟨hportable.1, hportable.2.1, hportable.2.2.2⟩
  have hstart : l.At (k.name.chars ++ (k.before.chars ++ ':' :: (k.after.chars ++ rest))) := by
    simpa [Key.chars] using hat
  obtain ⟨l₁, hreads, hemits, hhas⟩ := hl.exists_reads_quoted hstart hname hfits.isWhole
  obtain ⟨m, hm, hrest, hnext⟩ :=
    hemits.isLoose.exists_moves hemits.rest (spaced_of_isPortable hbefore) (by rintro _ ⟨⟩; decide)
  have hline : ∀ ch ∈ k.before.chars, isBreak ch = false := fun ch hch =>
    isBreak_of_isPortable (hbefore ch hch) (hfits.line ch hch)
  have hhas' := (hhas hkey).of_moves hm hemits.rest hline hfits.near
  have hdepth' : m.depth = l.depth := hm.depth.trans hemits.depth
  obtain ⟨l', hlex, hloose, htokens, hdepth'', hrest'⟩ :=
    hhas'.exists_lexValue hm.isLoose hrest (by rwa [hdepth']) (hm.tokens.trans hemits.tokens)
  refine ⟨l', ⟨?_, hloose, htokens, hdepth''.trans hdepth', (at_of_rest hrest').of_gap (spaced_of_isPortable hafter)⟩⟩
  refine .tail (.single hreads) ⟨?_, ?_⟩
  · rw [hnext]
    show (m.lexAt ':').map (false, ·) = _
    rw [lexAt_colon hrest (by rwa [hdepth']), hlex]
    rfl
  · rw [hrest', hemits.rest]
    simp
    omega

/-! ## Forms -/

theorem follows_nil {inFlow : Bool} : Follows inFlow [] := by
  rintro _ ⟨⟩

/-- Behind an item comes a comma or a bracket, neither of which a plain text has. -/
theorem follows_behindItems (items : Items) : Follows true (items.behindGap false ++ rest) := by
  cases items <;> rintro _ ⟨⟩ <;> simp

/-- Behind an entry comes a comma or a brace, neither of which a plain text has. -/
theorem follows_behindEntries (entries : Entries) : Follows true (entries.behindGap false ++ rest) := by
  cases entries <;> rintro _ ⟨⟩ <;> simp

theorem spaced_gap_items {items : Items} {isFirst : Bool} (h : ∀ ch ∈ items.chars isFirst, isPortable ch) :
    Spaced items.gap.chars := by
  rw [items.chars_eq] at h
  exact spaced_of_isPortable (List.forall_mem_append.1 h).1

theorem spaced_gap_entries {entries : Entries} {isFirst : Bool} (h : ∀ ch ∈ entries.chars isFirst, isPortable ch) :
    Spaced entries.gap.chars := by
  rw [entries.chars_eq] at h
  exact spaced_of_isPortable (List.forall_mem_append.1 h).1

-- Behind a value the blanks may be gone already; so lists and mappings are taken up behind their blanks.
mutual

/-- A value is read as its tokens, wherever it stands. -/
theorem exists_reaches_form (f : Form) {l : Lexer} {gap rest : List Char} (hl : l.Loose)
    (hat : l.At (f.chars ++ (gap ++ rest))) (hgap : Spaced gap) (hfollows : Follows (l.depth ≠ 0) rest)
    (hportable : ∀ ch ∈ f.chars, isPortable ch) (hfits : f.Fits) :
    ∃ l', l.Reaches l' f.tokens l.depth rest := by
  cases f with
  | word w => exact hl.exists_reaches_word w hat hgap hfollows
  | text q =>
    obtain ⟨l', hreads, hemits, -⟩ := hl.exists_reads_quoted hat hportable hfits
    exact ⟨l', (Reaches.single hreads hemits).of_gap hgap⟩
  | list items =>
    obtain ⟨-, hportable⟩ := List.forall_mem_cons.1 hportable
    have hstart : l.At ('[' :: (items.gap.chars ++ (items.behindGap true ++ (gap ++ rest)))) := by
      simpa [Form.chars, items.chars_eq] using hat
    obtain ⟨l₁, hopen, -⟩ := hl.exists_reaches_opening hstart (by rintro _ ⟨⟩; decide) fun m => lexAt_openSequence
    have hopen := hopen.of_gap (spaced_gap_items hportable)
    obtain ⟨l', hitems⟩ :=
      exists_reaches_items items true hopen.isLoose hopen.isAt (by rw [hopen.depth]; omega) hportable hfits
    rw [hopen.depth] at hitems
    exact ⟨l', (hopen.trans hitems).of_gap hgap⟩
  | mapping entries =>
    obtain ⟨-, hportable⟩ := List.forall_mem_cons.1 hportable
    have hstart : l.At ('\x7b' :: (entries.gap.chars ++ (entries.behindGap true ++ (gap ++ rest)))) := by
      simpa [Form.chars, entries.chars_eq] using hat
    obtain ⟨l₁, hopen, hkey⟩ := hl.exists_reaches_opening hstart (by rintro _ ⟨⟩; decide) fun m => lexAt_openMapping
    have hopen := hopen.of_gap (spaced_gap_entries hportable)
    obtain ⟨l', hentries⟩ := exists_reaches_entries entries true hopen.isLoose hopen.isAt
      (by rw [hopen.depth]; omega) (fun _ => hkey) hportable hfits
    rw [hopen.depth] at hentries
    exact ⟨l', (hopen.trans hentries).of_gap hgap⟩

/-- Items are read as their tokens, up to the closing bracket. -/
theorem exists_reaches_items (items : Items) (isFirst : Bool) {l : Lexer} {rest : List Char} (hl : l.Loose)
    (hat : l.At (items.behindGap isFirst ++ rest)) (hdepth : l.depth ≠ 0)
    (hportable : ∀ ch ∈ items.chars isFirst, isPortable ch) (hfits : items.Fits) :
    ∃ l', l.Reaches l' (items.tokens isFirst) (l.depth - 1) rest := by
  cases items with
  | none gap => exact hl.exists_reaches_closing hat (by rintro _ ⟨⟩; decide) fun m => lexAt_closeSequence
  | more before after item others =>
    simp only [Items.chars, List.forall_mem_append] at hportable
    obtain ⟨-, -, hafter, hitem, hothers⟩ := hportable
    have hstart : l.At (comma isFirst ++
        (after.chars ++ (item.chars ++ (others.gap.chars ++ (others.behindGap false ++ rest))))) := by
      simpa [Items.behindGap, others.chars_eq] using hat
    obtain ⟨l₁, hcomma, -⟩ := hl.exists_reaches_separator hstart (spaced_of_isPortable hafter)
    have hdepth₁ : l₁.depth ≠ 0 := by rwa [hcomma.depth]
    obtain ⟨l₂, hread⟩ := exists_reaches_form item hcomma.isLoose hcomma.isAt (spaced_gap_items hothers)
      (by simpa [hdepth₁] using follows_behindItems others) hitem hfits.1
    have hread := hcomma.trans hread
    rw [hcomma.depth] at hread
    obtain ⟨l', hmore⟩ :=
      exists_reaches_items others false hread.isLoose hread.isAt (by rwa [hread.depth]) hothers hfits.2
    rw [hread.depth] at hmore
    refine ⟨l', ?_⟩
    rw [Items.tokens, ← List.append_assoc]
    exact hread.trans hmore

/-- Entries are read as their tokens, up to the closing brace. -/
theorem exists_reaches_entries (entries : Entries) (isFirst : Bool) {l : Lexer} {rest : List Char} (hl : l.Loose)
    (hat : l.At (entries.behindGap isFirst ++ rest)) (hdepth : l.depth ≠ 0) (hkey : isFirst → l.mayBeKey)
    (hportable : ∀ ch ∈ entries.chars isFirst, isPortable ch) (hfits : entries.Fits) :
    ∃ l', l.Reaches l' (entries.tokens isFirst) (l.depth - 1) rest := by
  cases entries with
  | none gap => exact hl.exists_reaches_closing hat (by rintro _ ⟨⟩; decide) fun m => lexAt_closeMapping
  | more before after key value others =>
    simp only [Entries.chars, List.forall_mem_append] at hportable
    obtain ⟨-, -, hafter, hname, hvalue, hothers⟩ := hportable
    have hstart : l.At (comma isFirst ++ (after.chars ++ (key.chars ++
        (value.chars ++ (others.gap.chars ++ (others.behindGap false ++ rest)))))) := by
      simpa [Entries.behindGap, others.chars_eq] using hat
    obtain ⟨l₁, hcomma, hkey₁⟩ := hl.exists_reaches_separator hstart (spaced_of_isPortable hafter)
    have hdepth₁ : l₁.depth ≠ 0 := by rwa [hcomma.depth]
    obtain ⟨l₂, hcolon⟩ := hcomma.isLoose.exists_reaches_key hcomma.isAt (hkey₁ hkey) hdepth₁ hname hfits.1
    have hdepth₂ : l₂.depth ≠ 0 := by rwa [hcolon.depth]
    obtain ⟨l₃, hread⟩ := exists_reaches_form value hcolon.isLoose hcolon.isAt (spaced_gap_entries hothers)
      (by simpa [hdepth₂] using follows_behindEntries others) hvalue hfits.2.1
    have hread := hcomma.trans (hcolon.trans hread)
    rw [hcolon.depth, hcomma.depth] at hread
    obtain ⟨l', hmore⟩ :=
      exists_reaches_entries others false hread.isLoose hread.isAt (by rwa [hread.depth]) nofun hothers hfits.2.2
    rw [hread.depth] at hmore
    refine ⟨l', ?_⟩
    rw [Entries.tokens, ← List.append_assoc, ← List.append_assoc]
    rw [← List.append_assoc] at hread
    exact hread.trans hmore

end

/-- Where nothing but blanks is left, the text ends. -/
theorem Loose.exists_lexNext_end (hl : l.Loose) (hat : l.At []) :
    ∃ l', l.lexNext = .ok (true, l') ∧ l'.tokens = .streamEnd :: l.tokens := by
  obtain ⟨gap, hgap, hrest⟩ := hat
  obtain ⟨m, hm, -, hnext⟩ := hl.exists_moves hrest hgap nofun
  obtain ⟨ks, hdrop, -⟩ := hm.isLoose.exists_dropCandidate
  refine ⟨{ ((m.keep ks).emit .streamEnd).allowKey false with candidates := [] }, ?_,
    congrArg (Token.streamEnd :: ·) hm.tokens⟩
  rw [hnext]
  show m.lexEnd.map (true, ·) = _
  rw [lexEnd, closeBlocks_eq hm.isLoose.indents, hdrop]
  rfl

end Lexer

/-- A value is written with an ASCII character first. -/
theorem head_form (f : Form) : ∃ ch more, f.chars = ch :: more ∧ ch.toNat < 0x80 := by
  cases f with
  | word w =>
    obtain ⟨ch, more, hchars, hch⟩ | ⟨next, more, hchars, -⟩ := w.chars_cases
    · refine ⟨ch, more, hchars, ?_⟩
      simp only [Text.isAsciiAlnum, Text.isAsciiLetter, Text.isAsciiUpper, Text.isAsciiLower, Text.isAsciiDigit,
        Bool.or_eq_true, Bool.and_eq_true, decide_eq_true_eq] at hch
      omega
    · exact ⟨'-', next :: more, hchars, by decide⟩
  | text q => exact ⟨'"', _, rfl, by decide⟩
  | list items => exact ⟨'[', _, rfl, by decide⟩
  | mapping entries => exact ⟨'\x7b', _, rfl, by decide⟩

/-- The tokens of a JSON text are those of its form. -/
theorem tokens_of_spells {f : Form} {content : String} (h : f.Spells content)
    (hportable : ∀ ch ∈ content.toList, isPortable ch) (hfits : f.Fits) :
    tokens content.toList = ⟨f.tokens ++ [.streamEnd], none⟩ := by
  obtain ⟨before, after, hcontent⟩ := h
  have hallowed : content.toList.all isAllowed := by
    refine List.all_eq_true.2 fun ch hch => ?_
    have hch := hportable ch hch
    simp only [isPortable, Bool.and_eq_true] at hch
    exact hch.1.1
  rw [hcontent, List.forall_mem_append, List.forall_mem_append] at hportable
  obtain ⟨hbefore, hform, hafter⟩ := hportable
  have hspaced := spaced_of_isPortable hbefore
  let l : Lexer := ⟨.start content.toList, [], 0, 0, [], true, []⟩
  -- a JSON text does not begin with a byte order mark
  have hstart : Lexer.start content.toList = l := by
    have hmark : (content.toList.head?.any (·.toNat = 0xFEFF)) = false := by
      obtain ⟨ch, more, hchars, hch⟩ := head_form f
      rw [hcontent, hchars]
      cases hgap : before.chars with
      | nil => simpa using by omega
      | cons first others =>
        rcases hspaced first (by rw [hgap]; exact List.mem_cons_self) with rfl | rfl | rfl <;> rfl
    rw [Lexer.start]
    simp only [Cursor.peek, Cursor.start, hmark]
    rfl
  have hl : l.Loose := ⟨rfl, List.forall_mem_nil _⟩
  have hat : l.At (before.chars ++ (f.chars ++ (after.chars ++ []))) :=
    Lexer.at_of_rest (by rw [List.append_nil]; exact hcontent)
  obtain ⟨l', hreaches⟩ :=
    Lexer.exists_reaches_form f hl (hat.of_gap hspaced) (spaced_of_isPortable hafter) Lexer.follows_nil hform hfits
  obtain ⟨m, hend, htokens⟩ := hreaches.isLoose.exists_lexNext_end hreaches.isAt
  have hfuel : l.cursor.rest.length < content.toList.length + 1 := Nat.lt_succ_self _
  rw [tokens, if_pos hallowed, hstart, Lexer.lexAll_of_reads hreaches.steps hend hfuel, htokens, hreaches.tokens]
  simp [l]

end Yaml

end RouteBinding
