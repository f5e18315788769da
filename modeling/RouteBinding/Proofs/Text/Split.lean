import Mathlib.Data.List.Chain
import Mathlib.Data.List.DropRight
import Mathlib.Data.List.TakeWhile
import Mathlib.Tactic.Common
import RouteBinding.Text.Blank
import RouteBinding.Text.Split

/-!
# Texts cut into pieces

Stripping leaves a text with neither end in a class of characters, and takes nothing from such a text (`Trimmed`).

Pieces without the separator are got back from where they are joined (`splitChars_joinChars`), and what is written
behind a text without a separator belongs to its last piece.

The runs of a text are the longest pieces of it outside a class of characters. Pieces of that kind that are joined
with a character of the class are the runs of what they make (`runs_joinChars`), and one such character more at an end
changes nothing. What the first run is says where it stands (`runs_eq_cons_iff`). Where such pieces are joined, no two
separators are neighbours (`spaced_joinChars`).
-/

namespace RouteBinding.Text

variable {p : Char → Bool} {s before after : List Char}

/-- Neither the first nor the last character is of a class. -/
def Trimmed (p : Char → Bool) (s : List Char) : Prop :=
  s.head?.map p ≠ some true ∧ s.getLast?.map p ≠ some true

/-- To strip is to drop at both ends. -/
theorem stripChars_eq_rdropWhile : stripChars p s = (s.dropWhile p).rdropWhile p :=
  rfl

/-- What has been stripped has nothing left to strip. -/
theorem trimmed_stripChars (p : Char → Bool) (s : List Char) : Trimmed p (stripChars p s) := by
  rw [stripChars_eq_rdropWhile]
  by_cases hnil : (s.dropWhile p).rdropWhile p = []
  · rw [hnil]
    exact ⟨nofun, nofun⟩
  constructor
  · -- what is removed at the end leaves the first character
    obtain ⟨removed, hremoved⟩ := List.rdropWhile_prefix p (s.dropWhile p)
    have hfirst := List.head?_dropWhile_not p s
    rw [← hremoved, List.head?_append_of_ne_nil _ hnil] at hfirst
    cases hhead : ((s.dropWhile p).rdropWhile p).head? with
    | none => nofun
    | some c =>
      rw [hhead] at hfirst
      simpa using hfirst
  · have hlast := List.rdropWhile_last_not p (s.dropWhile p) hnil
    rw [List.getLast?_eq_some_getLast hnil]
    simpa using hlast

/-- What has nothing to strip stays. -/
theorem stripChars_of_trimmed (h : Trimmed p s) : stripChars p s = s := by
  obtain ⟨hfirst, hlast⟩ := h
  have hdrop : s.dropWhile p = s := by
    cases s with
    | nil => rfl
    | cons c rest => exact List.dropWhile_cons_of_neg (by simpa using hfirst)
  have hrdrop : s.rdropWhile p = s := by
    rw [List.rdropWhile_eq_self_iff]
    intro hne
    rw [List.getLast?_eq_some_getLast hne] at hlast
    simpa using hlast
  rw [stripChars_eq_rdropWhile, hdrop, hrdrop]

/-- What stands before and after a text is stripped, if all of it is of the class. -/
theorem stripChars_append (hbefore : ∀ c ∈ before, p c) (hafter : ∀ c ∈ after, p c) :
    stripChars p (before ++ s ++ after) = stripChars p s := by
  have hend (t : List Char) : (t ++ after).rdropWhile p = t.rdropWhile p := by
    rw [List.rdropWhile, List.reverse_append,
      List.dropWhile_append_of_pos fun c hc => hafter c (List.mem_reverse.1 hc), List.rdropWhile]
  rw [stripChars_eq_rdropWhile, stripChars_eq_rdropWhile, List.append_assoc, List.dropWhile_append_of_pos hbefore,
    List.dropWhile_append]
  split
  · -- nothing is left of the text, nor of what follows it
    rename_i hempty
    rw [List.isEmpty_iff.1 hempty, List.dropWhile_eq_nil_iff.2 hafter]
  · exact hend _

/-- A text is what is stripped before, what is left and what is stripped behind. -/
theorem eq_append_stripChars (p : Char → Bool) (s : List Char) :
    s = s.takeWhile p ++ stripChars p s ++ (s.dropWhile p).rtakeWhile p := by
  calc s = s.takeWhile p ++ s.dropWhile p := List.takeWhile_append_dropWhile.symm
    _ = s.takeWhile p ++ ((s.dropWhile p).rdropWhile p ++ (s.dropWhile p).rtakeWhile p) := by
      rw [List.rdropWhile_append_rtakeWhile]
    _ = s.takeWhile p ++ stripChars p s ++ (s.dropWhile p).rtakeWhile p := (List.append_assoc _ _ _).symm

/-- Nothing is added by stripping. -/
theorem mem_of_mem_stripChars {c : Char} (h : c ∈ stripChars p s) : c ∈ s := by
  rw [eq_append_stripChars p s]
  exact List.mem_append_left _ (List.mem_append_right _ h)

end RouteBinding.Text

namespace RouteBinding

namespace Text

variable {sep : Char} {s t : List Char}

theorem splitChars_of_notMem (h : sep ∉ s) : splitChars sep s = [s] := by
  induction s with
  | nil => rfl
  | cons c rest ih =>
    obtain ⟨hc, hrest⟩ := List.ne_and_not_mem_of_not_mem_cons h
    rw [splitChars, if_neg (Ne.symm hc), ih hrest]

/-- The pieces of two texts with the separator between them are those of the one and those of the other. -/
theorem splitChars_append (s t : List Char) :
    splitChars sep (s ++ sep :: t) = splitChars sep s ++ splitChars sep t := by
  induction s with
  | nil => simp [splitChars]
  | cons c rest ih =>
    rw [List.cons_append, splitChars, splitChars, ih]
    split_ifs
    · rfl
    · obtain ⟨piece, pieces, hpieces⟩ := List.exists_cons_of_ne_nil (splitChars_ne_nil sep rest)
      rw [hpieces]
      rfl

/-- Pieces without the separator are got back from where they are joined. -/
theorem splitChars_joinChars {pieces : List (List Char)} (hne : pieces ≠ []) (h : ∀ piece ∈ pieces, sep ∉ piece) :
    splitChars sep (joinChars sep pieces) = pieces := by
  induction pieces with
  | nil => exact absurd rfl hne
  | cons piece rest ih =>
    obtain ⟨hpiece, hrest⟩ := List.forall_mem_cons.1 h
    cases rest with
    | nil => exact splitChars_of_notMem hpiece
    | cons next rest =>
      rw [joinChars, splitChars_append, splitChars_of_notMem hpiece, ih (List.cons_ne_nil _ _) hrest]
      rfl

/-- What is written behind a text without a separator belongs to its last piece. -/
theorem exists_splitChars_append (h : sep ∉ t) :
    ∃ init last, splitChars sep s = init ++ [last] ∧ splitChars sep (s ++ t) = init ++ [last ++ t] := by
  induction s with
  | nil => exact ⟨[], [], rfl, splitChars_of_notMem h⟩
  | cons c rest ih =>
    obtain ⟨init, last, hrest, happend⟩ := ih
    rw [List.cons_append, splitChars, splitChars, hrest, happend]
    by_cases hc : c = sep
    · rw [if_pos hc, if_pos hc]
      exact ⟨[] :: init, last, rfl, rfl⟩
    · rw [if_neg hc, if_neg hc]
      cases init with
      | nil => exact ⟨[], c :: last, rfl, rfl⟩
      | cons piece pieces => exact ⟨(c :: piece) :: pieces, last, rfl, rfl⟩

/-- No piece has the separator. -/
theorem notMem_of_mem_splitChars : ∀ piece ∈ splitChars sep s, sep ∉ piece := by
  induction s with
  | nil => simp [splitChars]
  | cons c rest ih =>
    rw [splitChars]
    obtain ⟨first, pieces, hpieces⟩ := List.exists_cons_of_ne_nil (splitChars_ne_nil sep rest)
    rw [hpieces] at ih ⊢
    obtain ⟨hfirst, hothers⟩ := List.forall_mem_cons.1 ih
    split_ifs with hc
    · exact List.forall_mem_cons.2 ⟨List.not_mem_nil, ih⟩
    · refine List.forall_mem_cons.2 ⟨fun hmem => ?_, hothers⟩
      rcases List.mem_cons.1 hmem with heq | hmem
      · exact hc heq.symm
      · exact hfirst hmem

/-- Text joined with slashes, by its characters. -/
theorem toList_join_slash (pieces : List String) :
    (join "/" pieces).toList = joinChars '/' (pieces.map String.toList) := by
  induction pieces with
  | nil => rfl
  | cons piece rest ih =>
    cases rest with
    | nil => simp [join, joinChars]
    | cons next rest =>
      rw [join, String.intercalate_cons_cons, String.toList_append, String.toList_append, ← join, ih,
        List.append_assoc]
      rfl

end Text

end RouteBinding

namespace RouteBinding.Text

variable {p : Char → Bool} {run word before s : List Char} {ws : List (List Char)} {c sep : Char}

/-- A piece that has runs of its own only as a whole: it is not empty, and nothing in it is of the class. -/
structure IsRun (p : Char → Bool) (word : List Char) : Prop where
  ne_nil : word ≠ []
  outside : ∀ c ∈ word, p c = false

/-- What is of the run is added to it. -/
theorem runsFrom_append (hword : ∀ c ∈ word, p c = false) :
    runsFrom p run (word ++ s) = runsFrom p (word.reverse ++ run) s := by
  induction word generalizing run with
  | nil => rfl
  | cons c rest ih =>
    obtain ⟨hc, hrest⟩ := List.forall_mem_cons.1 hword
    rw [List.cons_append, runsFrom, if_neg (by simp [hc]), ih hrest, List.reverse_cons, List.append_assoc]
    rfl

/-- A run ends at the first character of the class. -/
theorem runs_append_cons (hword : IsRun p word) (hsep : p sep) :
    runs p (word ++ sep :: s) = word :: runs p s := by
  rw [runs, runsFrom_append hword.outside, runsFrom, if_pos hsep, List.append_nil, if_neg]
  · rw [List.reverse_reverse, runs]
  · simpa using hword.ne_nil

/-- A run is the only one in it. -/
theorem runs_of_isRun (hword : IsRun p word) : runs p word = [word] := by
  have hend : runsFrom p word.reverse [] = [word] := by
    rw [runsFrom, if_neg (by simpa using hword.ne_nil), List.reverse_reverse]
  have happend : runsFrom p [] (word ++ []) = runsFrom p (word.reverse ++ []) [] := runsFrom_append hword.outside
  rwa [List.append_nil, List.append_nil, hend] at happend

/-- Runs with one separator between them are found again. -/
theorem runs_joinChars (hsep : p sep) (h : ∀ w ∈ ws, IsRun p w) : runs p (joinChars sep ws) = ws := by
  induction ws with
  | nil => rfl
  | cons w rest ih =>
    obtain ⟨hw, hrest⟩ := List.forall_mem_cons.1 h
    cases rest with
    | nil => exact runs_of_isRun hw
    | cons next rest => rw [joinChars, runs_append_cons hw hsep, ih hrest]

/-- A separator in front makes no run. -/
theorem runs_cons_of_pos (hc : p c) : runs p (c :: s) = runs p s := by
  rw [runs, runsFrom, if_pos hc, if_pos List.isEmpty_nil, runs]

/-- A separator at the end makes no run. -/
theorem runs_concat_of_pos (hc : p c) : runs p (s ++ [c]) = runs p s := by
  have hfrom (run : List Char) : runsFrom p run (s ++ [c]) = runsFrom p run s := by
    induction s generalizing run with
    | nil =>
      rw [List.nil_append, runsFrom.eq_2, if_pos hc]
      rfl
    | cons d rest ih => rw [List.cons_append, runsFrom.eq_2, ih, ih, runsFrom.eq_2]
  exact hfrom []

/-- Characters of the class in front are passed over. -/
theorem runs_append_of_forall (h : ∀ c ∈ before, p c) : runs p (before ++ s) = runs p s := by
  induction before with
  | nil => rfl
  | cons c rest ih =>
    obtain ⟨hc, hrest⟩ := List.forall_mem_cons.1 h
    rw [List.cons_append, runs_cons_of_pos hc, ih hrest]

/-- A run ends where a character of the class follows, or nothing. -/
theorem runs_append (hword : IsRun p word) (hrest : ∀ c ∈ s.head?, p c) : runs p (word ++ s) = word :: runs p s := by
  cases s with
  | nil =>
    rw [List.append_nil, runs_of_isRun hword]
    rfl
  | cons c rest => rw [runs_append_cons hword (hrest c rfl), runs_cons_of_pos (hrest c rfl)]

/-- What stands before the first run of a text, the run, and what follows it. -/
theorem exists_first_run (h : ∃ c ∈ s, ¬ p c) :
    ∃ before word rest, s = before ++ (word ++ rest) ∧ (∀ c ∈ before, p c) ∧ IsRun p word ∧
      ∀ c ∈ rest.head?, p c := by
  induction s with
  | nil =>
    obtain ⟨c, hc, -⟩ := h
    cases hc
  | cons d rest ih =>
    by_cases hd : p d
    · have hrest : ∃ c ∈ rest, ¬ p c := by
        obtain ⟨c, hc, hout⟩ := h
        rcases List.mem_cons.1 hc with rfl | hc
        · exact absurd hd hout
        · exact ⟨c, hc, hout⟩
      obtain ⟨before, word, after, rfl, hbefore, hword, hafter⟩ := ih hrest
      exact ⟨d :: before, word, after, rfl, List.forall_mem_cons.2 ⟨hd, hbefore⟩, hword, hafter⟩
    · refine ⟨[], (d :: rest).takeWhile (! p ·), (d :: rest).dropWhile (! p ·), ?_, by simp, ⟨?_, ?_⟩, ?_⟩
      · exact List.takeWhile_append_dropWhile.symm
      · rw [List.takeWhile_cons_of_pos (by simpa using hd)]
        exact List.cons_ne_nil _ _
      · intro c hc
        simpa using List.mem_takeWhile_imp hc
      · intro c hc
        have hstop := List.head?_dropWhile_not (! p ·) (d :: rest)
        rw [Option.mem_def.1 hc] at hstop
        simpa using hstop

/-- There are no runs if there are only separators. -/
theorem runs_eq_nil_iff : runs p s = [] ↔ ∀ c ∈ s, p c := by
  constructor
  · intro h
    by_contra hout
    push Not at hout
    obtain ⟨before, word, rest, rfl, hbefore, hword, hrest⟩ := exists_first_run hout
    rw [runs_append_of_forall hbefore, runs_append hword hrest] at h
    cases h
  · intro h
    have happend := runs_append_of_forall (s := []) h
    rwa [List.append_nil] at happend

/-- The first run of a text and the others. -/
theorem runs_eq_cons_iff :
    runs p s = word :: ws ↔
      ∃ before rest, s = before ++ (word ++ rest) ∧ (∀ c ∈ before, p c) ∧ IsRun p word ∧ (∀ c ∈ rest.head?, p c) ∧
        runs p rest = ws := by
  constructor
  · intro h
    have hout : ∃ c ∈ s, ¬ p c := by
      by_contra hnone
      push Not at hnone
      rw [runs_eq_nil_iff.2 hnone] at h
      cases h
    obtain ⟨before, first, rest, rfl, hbefore, hfirst, hrest⟩ := exists_first_run hout
    rw [runs_append_of_forall hbefore, runs_append hfirst hrest, List.cons.injEq] at h
    obtain ⟨rfl, hws⟩ := h
    exact ⟨before, rest, rfl, hbefore, hfirst, hrest, hws⟩
  · intro h
    obtain ⟨before, rest, rfl, hbefore, hword, hrest, rfl⟩ := h
    rw [runs_append_of_forall hbefore, runs_append hword hrest]

theorem isRun_reverse (hrun : ∀ c ∈ run, p c = false) (hne : ¬ run.isEmpty) : IsRun p run.reverse :=
  ⟨by simpa using hne, fun c hc => hrun c (List.mem_reverse.1 hc)⟩

/-- A run that is found is one, of characters that were read. -/
theorem mem_runsFrom (hrun : ∀ c ∈ run, p c = false) (hword : word ∈ runsFrom p run s) :
    IsRun p word ∧ ∀ c ∈ word, c ∈ run ∨ c ∈ s := by
  induction s generalizing run with
  | nil =>
    rw [runsFrom] at hword
    split_ifs at hword with hempty
    · cases hword
    · rw [List.mem_singleton.1 hword]
      exact ⟨isRun_reverse hrun hempty, fun c hc => .inl (List.mem_reverse.1 hc)⟩
  | cons d rest ih =>
    -- a run that begins further on has all its characters there
    have hlater (h : word ∈ runsFrom p [] rest) : IsRun p word ∧ ∀ c ∈ word, c ∈ run ∨ c ∈ d :: rest := by
      obtain ⟨hisRun, hmem⟩ := ih (fun c hc => (List.not_mem_nil hc).elim) h
      exact ⟨hisRun, fun c hc => .inr (List.mem_cons_of_mem d ((hmem c hc).resolve_left List.not_mem_nil))⟩
    rw [runsFrom] at hword
    split_ifs at hword with hd hempty
    · exact hlater hword
    · rcases List.mem_cons.1 hword with rfl | hword
      · exact ⟨isRun_reverse hrun hempty, fun c hc => .inl (List.mem_reverse.1 hc)⟩
      · exact hlater hword
    · obtain ⟨hisRun, hmem⟩ := ih (List.forall_mem_cons.2 ⟨by simpa using hd, hrun⟩) hword
      refine ⟨hisRun, fun c hc => ?_⟩
      have hcase := hmem c hc
      rw [List.mem_cons] at hcase ⊢
      tauto

/-- Every run is one, of characters of the text. -/
theorem mem_runs (hword : word ∈ runs p s) : IsRun p word ∧ ∀ c ∈ word, c ∈ s := by
  obtain ⟨hisRun, hmem⟩ := mem_runsFrom (fun c hc => (List.not_mem_nil hc).elim) hword
  exact ⟨hisRun, fun c hc => (hmem c hc).resolve_left List.not_mem_nil⟩

/-! ## Separators -/

/-- No two neighbours in a text are both the separator. -/
def Spaced (sep : Char) (s : List Char) : Prop :=
  s.IsChain fun a b => ¬ (a = sep ∧ b = sep)

theorem spaced_of_notMem (h : sep ∉ s) : Spaced sep s := by
  refine (List.pairwise_of_forall_mem_list fun a ha b _ hab => ?_).isChain
  exact h (hab.1 ▸ ha)

/-- Separators stay apart if the next character is none. -/
theorem Spaced.cons (h : Spaced sep s) (hhead : s.head? ≠ some sep) : Spaced sep (c :: s) := by
  refine List.isChain_cons.2 ⟨fun b hb hboth => hhead ?_, h⟩
  rw [← hboth.2]
  exact hb

/-- Separators stay apart if the last character is none. -/
theorem Spaced.concat (h : Spaced sep s) (hlast : s.getLast? ≠ some sep) : Spaced sep (s ++ [c]) := by
  refine List.isChain_append.2 ⟨h, List.isChain_singleton c, fun a ha b _ hboth => hlast ?_⟩
  rw [← hboth.1]
  exact ha

theorem IsRun.notMem (h : IsRun p word) (hsep : p sep) : sep ∉ word := by
  intro hmem
  rw [h.outside sep hmem] at hsep
  cases hsep

/-- Runs that are joined make a text. -/
theorem joinChars_ne_nil (hne : ws ≠ []) (h : ∀ w ∈ ws, IsRun p w) : joinChars sep ws ≠ [] := by
  cases ws with
  | nil => exact absurd rfl hne
  | cons w rest =>
    have hw := (h w List.mem_cons_self).ne_nil
    cases rest with
    | nil => exact hw
    | cons next rest => exact List.append_ne_nil_of_left_ne_nil hw _

/-- A joined text has the characters of its pieces and the separator. -/
theorem mem_joinChars (hc : c ∈ joinChars sep ws) : c = sep ∨ ∃ w ∈ ws, c ∈ w := by
  induction ws with
  | nil => cases hc
  | cons w rest ih =>
    cases rest with
    | nil => exact .inr ⟨w, List.mem_cons_self, hc⟩
    | cons next rest =>
      rw [joinChars, List.mem_append, List.mem_cons] at hc
      rcases hc with hc | rfl | hc
      · exact .inr ⟨w, List.mem_cons_self, hc⟩
      · exact .inl rfl
      · obtain hsep | ⟨v, hv, hcv⟩ := ih hc
        · exact .inl hsep
        · exact .inr ⟨v, List.mem_cons_of_mem w hv, hcv⟩

/-- Joined pieces have no two separators side by side and none at an end. -/
theorem spaced_joinChars (hsep : p sep) (h : ∀ w ∈ ws, IsRun p w) :
    Spaced sep (joinChars sep ws) ∧ (joinChars sep ws).head? ≠ some sep ∧
      (joinChars sep ws).getLast? ≠ some sep := by
  induction ws with
  | nil => exact ⟨List.isChain_nil, nofun, nofun⟩
  | cons w rest ih =>
    obtain ⟨hw, hrest⟩ := List.forall_mem_cons.1 h
    have hnone : sep ∉ w := hw.notMem hsep
    have hhead : w.head? ≠ some sep := fun heq => hnone (List.mem_of_mem_head? heq)
    have hlast : w.getLast? ≠ some sep := fun heq => hnone (List.mem_of_getLast? heq)
    cases rest with
    | nil => exact ⟨spaced_of_notMem hnone, hhead, hlast⟩
    | cons next rest =>
      obtain ⟨hspaced, hfirst, hend⟩ := ih hrest
      have hne : joinChars sep (next :: rest) ≠ [] := joinChars_ne_nil (List.cons_ne_nil next rest) hrest
      rw [joinChars]
      refine ⟨?_, ?_, ?_⟩
      · refine List.isChain_append.2 ⟨spaced_of_notMem hnone, hspaced.cons hfirst, fun a ha b _ hboth => hlast ?_⟩
        rw [← hboth.1]
        exact ha
      · rwa [List.head?_append_of_ne_nil _ hw.ne_nil]
      · rwa [List.getLast?_append_of_ne_nil _ (List.cons_ne_nil _ _), List.getLast?_cons_of_ne_nil hne]

end RouteBinding.Text
