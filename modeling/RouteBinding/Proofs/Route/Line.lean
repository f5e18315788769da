import RouteBinding.Proofs.Route.Listing
import RouteBinding.Proofs.Text.Split

/-!
# Routes in one line

A text is a shorthand exactly if it has four words, of which the first is made of letters and the third is `as`. It is
then read as the declaration of the other three, like the mapping with these parts, and any other text is refused
(`RouteTable.readEntry_text`). A route that is written so is read back.
-/

namespace RouteBinding

open Text (isBlank isAsciiLetter words runs IsRun runs_append runs_append_of_forall runs_eq_cons_iff runs_eq_nil_iff)

namespace Text

variable {s : String} {ws : List String}

/-- The words of a text are its runs without blanks. -/
theorem words_eq_iff : words s = ws ↔ runs isBlank s.toList = ws.map String.toList := by
  constructor
  · intro h
    rw [← h, words, List.map_map]
    simp [Function.comp_def]
  · intro h
    rw [words, h, List.map_map]
    simp [Function.comp_def]

end Text

namespace Shorthand

variable {s : String} {line : Shorthand} {run : List Char}

/-! ## Four words -/

/-- A text has four words: a method of letters, a path, `as` and a handler. -/
def Says (s : String) (line : Shorthand) : Prop :=
  words s = [line.method, line.path, "as", line.handler] ∧ line.method.toList.all isAsciiLetter

/-- Letters are one word. -/
theorem isRun_of_letters (h : IsRunOf isAsciiLetter run) : IsRun isBlank run :=
  ⟨h.1, fun c hc => isBlank_of_isAsciiLetter (h.2 c hc)⟩

/-- A word is a run of characters that are not blank. -/
theorem isRun_iff : IsRun isBlank run ↔ IsRunOf (fun c => !isBlank c) run := by
  constructor
  · exact fun h => ⟨h.ne_nil, fun c hc => by simpa using h.outside c hc⟩
  · exact fun h => ⟨h.1, fun c hc => by simpa using h.2 c hc⟩

theorem isRun_as : IsRun isBlank ['a', 's'] :=
  isRun_iff.2 ⟨by decide, List.all_eq_true.1 (by decide)⟩

/-- A text that spells a shorthand has its parts as words. -/
theorem says_of_spells (h : Spells s.toList line) : Says s line := by
  generalize hs : s.toList = l at h
  cases h with
  | @intro before method gap path gap' gap'' handler after hbefore hmethod hgap hpath hgap' hgap'' hhandler hafter =>
    have hgapped {gap rest : List Char} (hg : IsRunOf isBlank gap) : ∀ c ∈ (gap ++ rest).head?, isBlank c := by
      intro c hc
      obtain ⟨d, more, rfl⟩ := List.exists_cons_of_ne_nil hg.1
      cases hc
      exact hg.2 _ List.mem_cons_self
    have hlast : ∀ c ∈ after.head?, isBlank c := fun c hc => hafter c (List.mem_of_mem_head? hc)
    constructor
    · rw [Text.words_eq_iff, hs, runs_append_of_forall hbefore, runs_append (isRun_of_letters hmethod) (hgapped hgap),
        runs_append_of_forall hgap.2, runs_append (isRun_iff.2 hpath) (hgapped hgap'), runs_append_of_forall hgap'.2,
        runs_append isRun_as (hgapped hgap''), runs_append_of_forall hgap''.2, runs_append (isRun_iff.2 hhandler) hlast,
        runs_eq_nil_iff.2 hafter]
      simp
    · simpa using hmethod.2

/-- Blanks stand between a run that has ended and the next one. -/
theorem isRunOf_gap {gap word rest : List Char} (hgap : ∀ c ∈ gap, isBlank c) (hword : IsRun isBlank word)
    (hends : ∀ c ∈ (gap ++ (word ++ rest)).head?, isBlank c) : IsRunOf isBlank gap := by
  refine ⟨fun hnil => ?_, hgap⟩
  obtain ⟨d, more, rfl⟩ := List.exists_cons_of_ne_nil hword.ne_nil
  subst hnil
  have hblank := hends d rfl
  rw [hword.outside d List.mem_cons_self] at hblank
  cases hblank

/-- A text that says a line spells it. -/
theorem Says.spells (h : Says s line) : Spells s.toList line := by
  obtain ⟨hwords, hletters⟩ := h
  obtain ⟨method, path, handler⟩ := line
  rw [Text.words_eq_iff] at hwords
  simp only [List.map_cons, List.map_nil] at hwords
  obtain ⟨before, rest, hs, hbefore, hmethod, hends, hwords⟩ := runs_eq_cons_iff.1 hwords
  obtain ⟨gap, rest, rfl, hgap, hpath, hends', hwords⟩ := runs_eq_cons_iff.1 hwords
  obtain ⟨gap', rest, rfl, hgap', has, hends'', hwords⟩ := runs_eq_cons_iff.1 hwords
  obtain ⟨gap'', after, rfl, hgap'', hhandler, -, hwords⟩ := runs_eq_cons_iff.1 hwords
  have hspells := Spells.intro hbefore ⟨hmethod.ne_nil, by simpa using hletters⟩ (isRunOf_gap hgap hpath hends)
    (isRun_iff.1 hpath) (isRunOf_gap hgap' has hends') (isRunOf_gap hgap'' hhandler hends'') (isRun_iff.1 hhandler)
    (runs_eq_nil_iff.1 hwords)
  rw [hs]
  simpa using hspells

/-- A text is read as a shorthand exactly if its four words say it. -/
theorem read?_eq_some_iff_words : read? s = some line ↔ Says s line :=
  read?_eq_some_iff.trans ⟨says_of_spells, Says.spells⟩

/-- What a text says is one shorthand only. -/
theorem Says.unique {line' : Shorthand} (h : Says s line) (h' : Says s line') : line = line' :=
  Option.some.inj ((read?_eq_some_iff_words.2 h).symm.trans (read?_eq_some_iff_words.2 h'))

/-- The parts of a line that is said are words. -/
theorem Says.isRun (h : Says s line) :
    IsRun isBlank line.method.toList ∧ IsRun isBlank line.path.toList ∧ IsRun isBlank line.handler.toList := by
  have hruns := Text.words_eq_iff.1 h.1
  have hmem {word : List Char} (hword : word ∈ runs isBlank s.toList) : IsRun isBlank word := (Text.mem_runs hword).1
  rw [hruns] at hmem
  exact ⟨hmem (by simp), hmem (by simp), hmem (by simp)⟩

/-! ## Writing -/

/-- A shorthand as a text, with single blanks. -/
def text (line : Shorthand) : String :=
  line.method ++ " " ++ line.path ++ " as " ++ line.handler

/-- Each part can stand in a line: the method is a word of letters, and the path and the handler are words. -/
structure Writable (line : Shorthand) : Prop where
  method : IsRunOf isAsciiLetter line.method.toList
  path : IsRun isBlank line.path.toList
  handler : IsRun isBlank line.handler.toList

theorem toList_text (line : Shorthand) :
    line.text.toList =
      line.method.toList ++ ' ' :: (line.path.toList ++ ' ' :: (['a', 's'] ++ ' ' :: line.handler.toList)) := by
  simp [text]

/-- The text of a line has its words. -/
theorem words_text (h : line.Writable) : words line.text = [line.method, line.path, "as", line.handler] := by
  have hblank : isBlank ' ' := by decide
  rw [Text.words_eq_iff, toList_text, Text.runs_append_cons (isRun_of_letters h.method) hblank,
    Text.runs_append_cons h.path hblank, Text.runs_append_cons isRun_as hblank, Text.runs_of_isRun h.handler]
  simp

/-- What is written is read back, if each part can stand in a line. -/
theorem says_text_iff : Says line.text line ↔ line.Writable := by
  constructor
  · intro h
    obtain ⟨hmethod, hpath, hhandler⟩ := h.isRun
    exact ⟨⟨hmethod.ne_nil, by simpa using h.2⟩, hpath, hhandler⟩
  · intro h
    exact ⟨words_text h, by simpa using h.method.2⟩

end Shorthand

/-- A method is read back from its label. -/
theorem Method.ofName?_label (m : Method) : ofName? m.label = some m := by
  cases m <;> decide

theorem Method.isRunOf_label (m : Method) : Shorthand.IsRunOf isAsciiLetter m.label.toList := by
  cases m <;> exact ⟨by decide, List.all_eq_true.1 (by decide)⟩

namespace RouteTable

open Shorthand (Says)

variable {g : Graph} {entry : Value} {line : Shorthand} {owner place s : String}

/-- An entry is a mapping with the parts of a shorthand as its method, its path and its handler. -/
def Spells (g : Graph) (entry : Value) (line : Shorthand) : Prop :=
  ∃ entries, g.entries? entry = some entries ∧ valueAt? "method" entries = some (.scalar (.text line.method)) ∧
    valueAt? "path" entries = some (.scalar (.text line.path)) ∧
    valueAt? "handler" entries = some (.scalar (.text line.handler))

/-- A text that is not empty is a part. -/
theorem part?_text {entries : List (Scalar × Value)} {key : String}
    (h : valueAt? key entries = some (.scalar (.text s))) (hs : s ≠ "") :
    part? g entries key = some (.scalar (.text s)) := by
  rw [part?, h, Option.filter_some, if_pos]
  simpa [Graph.isTruthy, Graph.shape, Scalar.isTruthy] using hs

theorem ne_empty_of_isRun (h : IsRun isBlank s.toList) : s ≠ "" := by
  intro hs
  subst hs
  exact h.ne_nil rfl

/-- A mapping with parts that are no empty texts is read as the declaration of them. -/
theorem readEntry_mapping (h : Spells g entry line) (hmethod : line.method ≠ "") (hpath : line.path ≠ "")
    (hhandler : line.handler ≠ "") :
    readEntry g owner place entry =
      refuse (Route.declare (.text line.method) (.text line.path) (.text (owner ++ line.handler))) := by
  obtain ⟨entries, hentries, hmethod', hpath', hhandler'⟩ := h
  obtain ⟨id, hshape⟩ := Graph.entries?_eq_some_iff.1 hentries
  exact readEntry_of_parts hshape (part?_text hmethod' hmethod) (part?_text hpath' hpath)
    (part?_text hhandler' hhandler)

/-- A text that says a line is read as what it declares. -/
theorem readEntry_of_words (h : Says s line) :
    readEntry g owner place (.scalar (.text s)) =
      refuse (Route.declare (.text line.method) (.text line.path) (.text (owner ++ line.handler))) := by
  have hshape : g.shape (.scalar (.text s)) = .scalar (.text s) := rfl
  simp only [readEntry, hshape, Shorthand.read?_eq_some_iff_words.2 h]

/-- A text that says no line is refused. -/
theorem readEntry_of_not_words (h : ∀ line, ¬ Says s line) :
    readEntry g owner place (.scalar (.text s)) = .error (.refused (.notShorthand place s)) := by
  have hnone : Shorthand.read? s = none := by
    rw [Option.eq_none_iff_forall_ne_some]
    intro line hline
    exact h line (Shorthand.read?_eq_some_iff_words.1 hline)
  have hshape : g.shape (.scalar (.text s)) = .scalar (.text s) := rfl
  simp only [readEntry, hshape, hnone]

/-- A route is read back from the line of its label, `as` and its handler. -/
theorem readEntry_label {r : Route} (hmethod : r.method ≠ .trace) (habsolute : Text.startsWith r.path "/")
    (hpath : IsRun isBlank r.path.toList) (hhandler : IsRun isBlank r.handler.toList) :
    readEntry g owner place (.scalar (.text (r.label ++ " as " ++ r.handler))) =
      .ok { r with handler := owner ++ r.handler } := by
  have hwritable : Shorthand.Writable ⟨r.method.label, r.path, r.handler⟩ := ⟨r.method.isRunOf_label, hpath, hhandler⟩
  have htext : r.label ++ " as " ++ r.handler = Shorthand.text ⟨r.method.label, r.path, r.handler⟩ := by
    simp only [Route.label, Shorthand.text]
  rw [htext, readEntry_of_words (Shorthand.says_text_iff.2 hwritable)]
  exact refuse_eq_ok_iff.2 <| Route.declare_text_eq_ok.2 ⟨r.method, r.method.ofName?_label, hmethod, habsolute, rfl⟩

/-- A text among the entries of a table is read as a shorthand exactly if it has four words, of which the first is made
of letters and the third is `as`. Its route is then declared by the other three, as for the mapping of these parts, and
any other text is refused. A shorthand that is written with single blanks is read back as what it is exactly if its
method is a word of letters and its path and its handler are words, and so is every route whose path and handler are. -/
theorem readEntry_text (g : Graph) (owner place s : String) :
    (∀ line, Shorthand.read? s = some line ↔
        words s = [line.method, line.path, "as", line.handler] ∧ line.method.toList.all isAsciiLetter) ∧
      (∀ line : Shorthand, words s = [line.method, line.path, "as", line.handler] →
        line.method.toList.all isAsciiLetter →
          readEntry g owner place (.scalar (.text s)) =
              refuse (Route.declare (.text line.method) (.text line.path) (.text (owner ++ line.handler))) ∧
            ∀ g' place' entry, Spells g' entry line →
              readEntry g' owner place' entry = readEntry g owner place (.scalar (.text s))) ∧
      ((∀ line : Shorthand, words s = [line.method, line.path, "as", line.handler] →
        ¬ line.method.toList.all isAsciiLetter) →
          readEntry g owner place (.scalar (.text s)) = .error (.refused (.notShorthand place s))) ∧
      (∀ line : Shorthand, Shorthand.read? line.text = some line ↔ line.Writable) ∧
      ∀ r : Route, r.method ≠ .trace → Text.startsWith r.path "/" → IsRun isBlank r.path.toList →
        IsRun isBlank r.handler.toList →
          readEntry g owner place (.scalar (.text (r.label ++ " as " ++ r.handler))) =
            .ok { r with handler := owner ++ r.handler } := by
  refine ⟨fun line => Shorthand.read?_eq_some_iff_words, fun line hwords hletters => ?_, fun hnot => ?_,
    fun line => Shorthand.read?_eq_some_iff_words.trans Shorthand.says_text_iff, fun r => readEntry_label⟩
  · have hsays : Says s line := ⟨hwords, hletters⟩
    obtain ⟨hmethod, hpath, hhandler⟩ := hsays.isRun
    refine ⟨readEntry_of_words hsays, fun g' place' entry hentry => ?_⟩
    rw [readEntry_of_words hsays, readEntry_mapping hentry (ne_empty_of_isRun hmethod) (ne_empty_of_isRun hpath)
      (ne_empty_of_isRun hhandler)]
  · exact readEntry_of_not_words fun line hsays => hnot line hsays.1 hsays.2

/-- The path and the handler of a line may themselves be `as`, and blanks of all kinds stand between the words. -/
theorem readEntry_text_padded :
    words "\tPost  /as\u2003as as\n" = ["Post", "/as", "as", "as"] ∧ "Post".toList.all isAsciiLetter = true ∧
      readEntry Graph.empty "tools." "routes[0]" (.scalar (.text "\tPost  /as\u2003as as\n")) =
        .ok ⟨.post, "/as", "tools.as"⟩ := by
  have hwords : words "\tPost  /as\u2003as as\n" = ["Post", "/as", "as", "as"] := by decide
  have hletters : "Post".toList.all isAsciiLetter = true := by decide
  have hread := (readEntry_text Graph.empty "tools." "routes[0]" "\tPost  /as\u2003as as\n").2.1
    ⟨"Post", "/as", "as"⟩ hwords hletters
  exact ⟨hwords, hletters, hread.1.trans (by decide)⟩

end RouteTable

end RouteBinding
