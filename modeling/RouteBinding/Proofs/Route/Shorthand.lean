import Mathlib.Data.List.TakeWhile
import RouteBinding.Route.Shorthand

/-!
# What a shorthand says

A text is a shorthand exactly if it is made of a method, a path, the word `as` and a handler with blanks between them
(`Shorthand.read?_eq_some_iff`). Where one part ends and the next begins is never in doubt.
-/

namespace RouteBinding.Shorthand

open Text (isBlank isAsciiLetter)

variable {p : Char → Bool} {s token gap rest : List Char}

/-! ## Runs and gaps -/

/-- A non-empty run of characters of a class. -/
def IsRunOf (p : Char → Bool) (s : List Char) : Prop :=
  s ≠ [] ∧ ∀ c ∈ s, p c

/-- What follows a run of a class, and does not go on with it. -/
def Ends (p : Char → Bool) (s : List Char) : Prop :=
  ∀ c ∈ s.head?, p c = false

theorem IsRunOf.ends_append {q : Char → Bool} (h : IsRunOf p s) (hq : ∀ c, p c → q c = false) (rest : List Char) :
    Ends q (s ++ rest) := by
  obtain ⟨hne, hp⟩ := h
  obtain ⟨d, more, rfl⟩ := List.exists_cons_of_ne_nil hne
  intro c hc
  cases hc
  exact hq d (hp d List.mem_cons_self)

theorem takeWhile_of_ends (h : Ends p s) : s.takeWhile p = [] ∧ s.dropWhile p = s := by
  cases s with
  | nil => exact ⟨rfl, rfl⟩
  | cons c rest =>
    have hc : ¬ p c := by rw [h c rfl]; exact Bool.false_ne_true
    exact ⟨List.takeWhile_cons_of_neg hc, List.dropWhile_cons_of_neg hc⟩

theorem run?_append (h : IsRunOf p token) (hends : Ends p rest) : run? p (token ++ rest) = some (token, rest) := by
  obtain ⟨hne, hp⟩ := h
  obtain ⟨htake, hdrop⟩ := takeWhile_of_ends hends
  unfold run?
  rw [List.takeWhile_append_of_pos hp, List.dropWhile_append_of_pos hp, htake, hdrop, List.append_nil]
  split
  · exact absurd rfl hne
  · rfl

theorem eq_append_of_run? (h : run? p s = some (token, rest)) : s = token ++ rest ∧ IsRunOf p token := by
  unfold run? at h
  split at h
  · cases h
  · rename_i hne
    cases h
    exact ⟨List.takeWhile_append_dropWhile.symm, fun hnil => hne hnil, fun c hc => List.mem_takeWhile_imp hc⟩

theorem gap?_append (h : IsRunOf isBlank gap) (hends : Ends isBlank rest) : gap? (gap ++ rest) = some rest := by
  obtain ⟨hne, hblank⟩ := h
  obtain ⟨-, hdrop⟩ := takeWhile_of_ends hends
  have hrest : (gap ++ rest).dropWhile isBlank = rest := by
    rw [List.dropWhile_append_of_pos hblank, hdrop]
  obtain ⟨c, more, rfl⟩ := List.exists_cons_of_ne_nil hne
  rw [List.cons_append] at hrest ⊢
  rw [gap?, if_pos (hblank c List.mem_cons_self), hrest]

theorem eq_append_of_gap? (h : gap? s = some rest) : ∃ gap, s = gap ++ rest ∧ IsRunOf isBlank gap := by
  unfold gap? at h
  split at h
  · rename_i c more
    split_ifs at h with hc
    cases h
    refine ⟨(c :: more).takeWhile isBlank, List.takeWhile_append_dropWhile.symm, ?_, fun d hd =>
      List.mem_takeWhile_imp hd⟩
    rw [List.takeWhile_cons_of_pos hc]
    exact List.cons_ne_nil _ _
  · cases h

/-! ## Shorthands -/

/-- A text that is made of a method of letters, a path, the word `as` and a handler, with blanks between them and
perhaps at both ends. -/
inductive Spells : List Char → Shorthand → Prop
  | intro {before method gap path gap' gap'' handler after : List Char} (hbefore : ∀ c ∈ before, isBlank c)
    (hmethod : IsRunOf isAsciiLetter method) (hgap : IsRunOf isBlank gap) (hpath : IsRunOf (fun c => !isBlank c) path)
    (hgap' : IsRunOf isBlank gap') (hgap'' : IsRunOf isBlank gap'')
    (hhandler : IsRunOf (fun c => !isBlank c) handler) (hafter : ∀ c ∈ after, isBlank c) :
    Spells (before ++ (method ++ (gap ++ (path ++ (gap' ++ (['a', 's'] ++ (gap'' ++ (handler ++ after))))))))
      ⟨String.ofList method, String.ofList path, String.ofList handler⟩

theorem isBlank_of_isAsciiLetter {c : Char} (h : isAsciiLetter c) : isBlank c = false := by
  simp only [isAsciiLetter, Text.isAsciiUpper, Text.isAsciiLower, Bool.or_eq_true, Bool.and_eq_true,
    decide_eq_true_eq] at h
  simp only [isBlank, Text.inRanges, Text.blankRanges, List.any_cons, List.any_nil, Bool.or_eq_false_iff,
    Bool.and_eq_false_iff, decide_eq_false_iff_not, and_true]
  omega

theorem isAsciiLetter_of_isBlank {c : Char} (h : isBlank c) : isAsciiLetter c = false := by
  rw [Bool.eq_false_iff]
  intro hletter
  rw [isBlank_of_isAsciiLetter hletter] at h
  cases h

/-- A text reads as a shorthand exactly if it spells it. -/
theorem read?_eq_some_iff {s : String} {line : Shorthand} : read? s = some line ↔ Spells s.toList line := by
  have hnot {c : Char} (h : isBlank c) : (!isBlank c) = false := by rw [h]; rfl
  have hnot' {c : Char} (h : (!isBlank c) = true) : isBlank c = false := by simpa using h
  constructor
  · intro h
    unfold read? part? at h
    obtain ⟨⟨method, rest₁⟩, hread₁, h⟩ := Option.bind_eq_some_iff.1 h
    obtain ⟨rest₂, hread₂, h⟩ := Option.bind_eq_some_iff.1 h
    obtain ⟨⟨path, rest₃⟩, hread₃, h⟩ := Option.bind_eq_some_iff.1 h
    obtain ⟨rest₄, hread₄, h⟩ := Option.bind_eq_some_iff.1 h
    obtain ⟨⟨word, rest₅⟩, hread₅, h⟩ := Option.bind_eq_some_iff.1 h
    obtain ⟨rest₆, hread₆, h⟩ := Option.bind_eq_some_iff.1 h
    obtain ⟨⟨handler, after⟩, hread₇, h⟩ := Option.bind_eq_some_iff.1 h
    dsimp only at h
    split_ifs at h with hend
    cases h
    simp only [Bool.and_eq_true, decide_eq_true_eq, List.all_eq_true] at hend
    obtain ⟨has, hafter⟩ := hend
    obtain ⟨hs, hmethod⟩ := eq_append_of_run? hread₁
    obtain ⟨gap, rfl, hgap⟩ := eq_append_of_gap? hread₂
    obtain ⟨rfl, hpath⟩ := eq_append_of_run? hread₃
    obtain ⟨gap', rfl, hgap'⟩ := eq_append_of_gap? hread₄
    obtain ⟨rfl, -⟩ := eq_append_of_run? hread₅
    obtain ⟨gap'', rfl, hgap''⟩ := eq_append_of_gap? hread₆
    obtain ⟨rfl, hhandler⟩ := eq_append_of_run? hread₇
    have hbefore : ∀ c ∈ s.toList.takeWhile isBlank, isBlank c := fun c hc => List.mem_takeWhile_imp hc
    have hspells := Spells.intro hbefore hmethod hgap hpath hgap' hgap'' hhandler hafter
    rwa [← has, ← hs, List.takeWhile_append_dropWhile] at hspells
  · intro h
    generalize hs : s.toList = l at h
    cases h with
    | @intro before method gap path gap' gap'' handler after hbefore hmethod hgap hpath hgap' hgap'' hhandler hafter =>
      have has : IsRunOf (fun c => !isBlank c) ['a', 's'] :=
        ⟨by decide, List.all_eq_true.1 (by decide)⟩
      have hlast : Ends (fun c => !isBlank c) after := fun c hc => hnot (hafter c (List.mem_of_mem_head? hc))
      have hstart := takeWhile_of_ends (hmethod.ends_append (fun c => isBlank_of_isAsciiLetter)
        (gap ++ (path ++ (gap' ++ (['a', 's'] ++ (gap'' ++ (handler ++ after)))))))
      unfold read? part?
      rw [hs, List.dropWhile_append_of_pos hbefore, hstart.2,
        run?_append hmethod (hgap.ends_append (fun c => isAsciiLetter_of_isBlank) _)]
      simp only [Option.bind_eq_bind, Option.bind_some]
      rw [gap?_append hgap (hpath.ends_append (fun c => hnot') _), Option.bind_some,
        run?_append hpath (hgap'.ends_append (fun c => hnot) _), Option.bind_some,
        gap?_append hgap' (has.ends_append (fun c => hnot') _), Option.bind_some,
        run?_append has (hgap''.ends_append (fun c => hnot) _), Option.bind_some,
        gap?_append hgap'' (hhandler.ends_append (fun c => hnot') _), Option.bind_some,
        run?_append hhandler hlast, Option.bind_some]
      rw [if_pos (by simpa using hafter)]

end RouteBinding.Shorthand
