import Mathlib.Data.List.Basic
import RouteBinding.Proofs.Text.Split
import RouteBinding.Text.Digit
import RouteBinding.Text.LetterCase

/-!
# Texts in lower case

A class of characters that no case mapping enters or leaves is kept by lowering, in a text and at its ends; the blanks
are one, the semicolon is another. Lowering does not see the case of the ASCII letters (`lower_toLower`). It gives no
ASCII capital, and leaves all other ASCII characters as they are.
-/

namespace RouteBinding.Text

namespace LetterCase

variable {before after s : List Char} {c x : Char} {code : Nat}

/-! ## Shifts -/

namespace Shift

/-- A run holds every `step`-th code point from its first to its last. -/
def Holds (s : Shift) (code : Nat) : Prop :=
  (s.first ≤ code ∧ code ≤ s.last) ∧ (code - s.first) % s.step = 0

/-- The code point that the first of a run is moved to. -/
def low (s : Shift) : Nat :=
  (s.first + s.delta).toNat

/-- The code point that the last of a run is moved to. -/
def high (s : Shift) : Nat :=
  (s.last + s.delta).toNat

/-- Where a shift holds, its lower bound holds of the letter it leads to. -/
theorem Holds.low_le {s : Shift} (h : s.Holds code) : s.low ≤ (code + s.delta).toNat := by
  have hfirst := h.1.1
  unfold low
  omega

/-- Where a shift holds, its upper bound holds of the letter it leads to. -/
theorem Holds.le_high {s : Shift} (h : s.Holds code) : (code + s.delta).toNat ≤ s.high := by
  have hlast := h.1.2
  unfold high
  omega

end Shift

/-- Among the runs only the first, of the capital letters, holds ASCII characters; and they all lead to characters. -/
theorem lowerShifts_lead :
    (∀ s ∈ lowerShifts.tail, 0x80 ≤ s.first) ∧
      ∀ s ∈ lowerShifts, 0 < s.low ∧ (s.high < 0xD800 ∨ 0xE000 ≤ s.low ∧ s.high < 0x110000) := by
  decide +kernel

/-- A letter that no shift holds of stays. -/
theorem shifted_of_not_holds {shifts : List Shift} (h : ∀ s ∈ shifts, ¬s.Holds code) :
    shifted shifts code = code := by
  have hnone : shifts.find? (fun s =>
      s.first ≤ code && code ≤ s.last && (code - s.first) % s.step == 0) = none := by
    rw [List.find?_eq_none]
    intro s hs hfound
    apply h s hs
    simpa [Shift.Holds] using hfound
  rw [shifted, hnone]

/-- A code point outside all runs stays; one in a run is moved with it. -/
theorem shifted_cases (shifts : List Shift) (code : Nat) :
    ((∀ s ∈ shifts, ¬s.Holds code) ∧ shifted shifts code = code) ∨
      ∃ s ∈ shifts, s.Holds code ∧ shifted shifts code = (code + s.delta).toNat := by
  by_cases hnone : ∀ s ∈ shifts, ¬s.Holds code
  · exact Or.inl ⟨hnone, shifted_of_not_holds hnone⟩
  right
  cases hfind : shifts.find? (fun s =>
      s.first ≤ code && code ≤ s.last && (code - s.first) % s.step == 0) with
  | none =>
    refine absurd (fun s hs hholds => ?_) hnone
    have hnot := List.find?_eq_none.1 hfind s hs
    exact hnot (by simpa [Shift.Holds] using hholds)
  | some s =>
    have hfound := List.find?_some hfind
    refine ⟨s, List.mem_of_find?_eq_some hfind, by simpa [Shift.Holds] using hfound, ?_⟩
    rw [shifted, hfind]

/-! ## The lower case of one character -/

/-- What holds of every ASCII character is checked code by code. -/
theorem forall_ascii {P : Char → Prop} (h : ∀ n < 0x80, P (Char.ofNat n)) (hc : c.toNat < 0x80) : P c := by
  have hchar := h c.toNat hc
  rwa [Char.ofNat_toNat] at hchar

/-- An ASCII letter is lowered as such, whatever stands around it. -/
theorem lowerChar_of_ascii (h : c.toNat < 0x80) : lowerChar before after c = [c.toLower] := by
  have hlower := forall_ascii (P := fun c =>
    (if 0x41 ≤ c.toNat && c.toNat ≤ 0x5A then Char.ofNat (c.toNat + 0x20) else c) = c.toLower) (by decide) h
  rw [lowerChar, if_pos h, hlower]

/-- Of the ASCII letters only the capitals are shifted. -/
theorem shifted_of_ascii (h : code < 0x80) :
    shifted lowerShifts code = if 0x41 ≤ code && code ≤ 0x5A then code + 0x20 else code := by
  have hrun : lowerShifts = ⟨0x41, 0x5A, 1, 32⟩ :: lowerShifts.tail := rfl
  by_cases hcapital : (0x41 ≤ code && code ≤ 0x5A) = true
  · rw [if_pos hcapital, shifted, hrun, List.find?_cons_of_pos (by simpa [Nat.mod_one] using hcapital)]
    rfl
  · rw [if_neg hcapital]
    apply shifted_of_not_holds
    rw [hrun, List.forall_mem_cons]
    refine ⟨fun hholds => hcapital (by simpa using hholds.1), fun s hs hholds => ?_⟩
    have hfirst := lowerShifts_lead.1 s hs
    have hle := hholds.1.1
    omega

/-- But for the capital dotted I and the capital sigma a character is moved with its run. -/
theorem lowerChar_of_ne (hdotted : c.toNat ≠ 0x130) (hsigma : c.toNat ≠ 0x3A3) :
    lowerChar before after c = [Char.ofNat (shifted lowerShifts c.toNat)] := by
  rw [lowerChar, if_neg hdotted, if_neg hsigma]
  by_cases hascii : c.toNat < 0x80
  · rw [if_pos hascii, shifted_of_ascii hascii, apply_ite Char.ofNat, Char.ofNat_toNat]
  · rw [if_neg hascii]

/-- A shifted letter is a character. -/
theorem isValidChar_shifted (c : Char) : (shifted lowerShifts c.toNat).isValidChar := by
  rcases shifted_cases lowerShifts c.toNat with ⟨-, hstays⟩ | ⟨s, hs, hholds, hmove⟩
  · rw [hstays]
    exact c.valid
  · have hbounds := (lowerShifts_lead.2 s hs).2
    have hlow := hholds.low_le
    have hhigh := hholds.le_high
    rw [hmove]
    unfold Nat.isValidChar
    omega

theorem toNat_shifted (c : Char) :
    (Char.ofNat (shifted lowerShifts c.toNat)).toNat = shifted lowerShifts c.toNat := by
  unfold Char.ofNat
  rw [dif_pos (isValidChar_shifted c)]
  rfl

/-- The code points of the capital dotted I and the capital sigma, whose case mappings are not in the runs. -/
def specials : List Nat :=
  [0x130, 0x3A3]

/-- The code points that these two are moved to. -/
def loweredSpecials : List Nat :=
  [0x69, 0x307, 0x3C2, 0x3C3]

/-- A lowered letter is one of the few that the table leaves out, or the shifted one. -/
theorem mem_lowerChar (h : x ∈ lowerChar before after c) :
    (c.toNat ∈ specials ∧ x.toNat ∈ loweredSpecials) ∨
      (c.toNat ∉ specials ∧ x.toNat = shifted lowerShifts c.toNat) := by
  by_cases hdotted : c.toNat = 0x130
  · left
    rw [lowerChar, if_neg (by omega), if_pos hdotted] at h
    rw [hdotted]
    rcases List.mem_pair.1 h with rfl | rfl
    · decide
    · decide
  by_cases hsigma : c.toNat = 0x3A3
  · left
    rw [lowerChar, if_neg (by omega), if_neg hdotted, if_pos hsigma, List.mem_singleton] at h
    rw [hsigma, h]
    split
    · decide
    · decide
  · right
    rw [lowerChar_of_ne hdotted hsigma, List.mem_singleton] at h
    rw [h, toNat_shifted]
    exact ⟨by simp [specials, hdotted, hsigma], rfl⟩

/-- No letter is lost when it is lowered. -/
theorem lowerChar_ne_nil : lowerChar before after c ≠ [] := by
  by_cases hdotted : c.toNat = 0x130
  · rw [lowerChar, if_neg (by omega), if_pos hdotted]
    exact List.cons_ne_nil _ _
  by_cases hsigma : c.toNat = 0x3A3
  · rw [lowerChar, if_neg (by omega), if_neg hdotted, if_pos hsigma]
    exact List.cons_ne_nil _ _
  · rw [lowerChar_of_ne hdotted hsigma]
    exact List.cons_ne_nil _ _

/-! ## Classes that lowering keeps -/

/-- Whether two closed ranges have no number in common. -/
def apart (first last first' last' : Nat) : Bool :=
  Nat.blt last first' || Nat.blt last' first

/-- Whether no lower case mapping enters or leaves a set. -/
def unmoved (ranges : List (Nat × Nat)) : Bool :=
  (lowerShifts.all fun s => ranges.all fun range =>
      apart s.first s.last range.1 range.2 && apart s.low s.high range.1 range.2) &&
    (specials ++ loweredSpecials).all fun code => !inRanges ranges code

variable {ranges : List (Nat × Nat)}

/-- Nothing between two bounds lies in ranges that are apart from them. -/
theorem inRanges_eq_false_of_apart {first last : Nat} (h : ∀ range ∈ ranges, apart first last range.1 range.2)
    (hfirst : first ≤ code) (hlast : code ≤ last) : inRanges ranges code = false := by
  rw [Bool.eq_false_iff]
  intro hin
  obtain ⟨range, hrange, hlow, hhigh⟩ := inRanges_iff.1 hin
  have hapart := h range hrange
  simp only [apart, Nat.blt_eq, Bool.or_eq_true] at hapart
  omega

/-- A shift does not lead into ranges that it leaves unmoved, nor out of them. -/
theorem inRanges_shifted (h : unmoved ranges) :
    inRanges ranges (shifted lowerShifts code) = inRanges ranges code := by
  simp only [unmoved, Bool.and_eq_true, List.all_eq_true] at h
  obtain ⟨hshifts, -⟩ := h
  rcases shifted_cases lowerShifts code with ⟨-, hstays⟩ | ⟨s, hs, hholds, hmove⟩
  · rw [hstays]
  · -- a run and what it is moved to both lie outside the set
    have hfrom : inRanges ranges code = false :=
      inRanges_eq_false_of_apart (fun range hrange => (hshifts s hs range hrange).1) hholds.1.1 hholds.1.2
    have hto : inRanges ranges (code + s.delta).toNat = false :=
      inRanges_eq_false_of_apart (fun range hrange => (hshifts s hs range hrange).2) hholds.low_le hholds.le_high
    rw [hmove, hfrom, hto]

/-- A class of characters is kept if the lower case of each of its characters is in it, and that of no other. -/
def Kept (p : Char → Bool) : Prop :=
  ∀ before after c, ∀ x ∈ lowerChar before after c, p x = p c

/-- Whether a letter lies in unmoved ranges does not depend on its case. -/
theorem kept_of_unmoved (h : unmoved ranges) : Kept fun c => inRanges ranges c.toNat := by
  intro before after c x hx
  have hspecials : ∀ code ∈ specials ++ loweredSpecials, inRanges ranges code = false := by
    simp only [unmoved, Bool.and_eq_true, List.all_eq_true, Bool.not_eq_true'] at h
    exact h.2
  show inRanges ranges x.toNat = inRanges ranges c.toNat
  rcases mem_lowerChar hx with ⟨hfrom, hto⟩ | ⟨-, hrun⟩
  · rw [hspecials _ (List.mem_append_right _ hto), hspecials _ (List.mem_append_left _ hfrom)]
  · rw [hrun, inRanges_shifted h]

/-- The blanks and the semicolon are neither in a run nor where one leads. -/
theorem unmoved_blanks_and_semicolon : unmoved blankRanges ∧ unmoved [(0x3B, 0x3B)] := by
  decide +kernel

/-- Whether a character is blank does not depend on its case. -/
theorem kept_isBlank : Kept isBlank :=
  kept_of_unmoved unmoved_blanks_and_semicolon.1

theorem kept_semicolon : Kept (· == ';') := by
  have hclass : (fun c : Char => c == ';') = fun c => inRanges [(0x3B, 0x3B)] c.toNat := by
    funext c
    rw [Bool.eq_iff_iff, beq_iff_eq, inRanges_iff, Char.ext_iff, ← UInt32.toNat_inj]
    simp only [List.mem_singleton, exists_eq_left]
    exact Nat.le_antisymm_iff.trans and_comm
  rw [hclass]
  exact kept_of_unmoved unmoved_blanks_and_semicolon.2

section Kept

variable {p : Char → Bool}

/-- The lower case of a character is of its class, character by character. -/
theorem map_lowerChar (hp : Kept p) (before after : List Char) (c : Char) :
    ∃ n, (lowerChar before after c).map p = List.replicate (n + 1) (p c) := by
  have hpos : 0 < (lowerChar before after c).length := List.length_pos_of_ne_nil lowerChar_ne_nil
  refine ⟨(lowerChar before after c).length - 1, List.eq_replicate_iff.2 ⟨?_, ?_⟩⟩
  · rw [List.length_map]
    omega
  · rw [List.forall_mem_map]
    exact hp before after c

/-- A text has a character of a kind if it has one in lower case, for a kind that no case changes. -/
theorem any_lowerFrom (hp : Kept p) : (lowerFrom before s).any p = s.any p := by
  induction s generalizing before with
  | nil => rfl
  | cons c rest ih =>
    obtain ⟨n, hn⟩ := map_lowerChar hp before rest c
    have hfirst : (lowerChar before rest c).any p = p c := by
      calc (lowerChar before rest c).any p = ((lowerChar before rest c).map p).any id := by simp
        _ = p c := by simp [hn]
    rw [lowerFrom, List.any_append, hfirst, ih, List.any_cons]

/-- The first character of a text in lower case is of the kind of its first one. -/
theorem head?_lowerFrom (hp : Kept p) : (lowerFrom before s).head?.map p = s.head?.map p := by
  cases s with
  | nil => rfl
  | cons c rest =>
    obtain ⟨n, hn⟩ := map_lowerChar hp before rest c
    rw [← List.head?_map, lowerFrom, List.map_append, hn, List.replicate_succ]
    rfl

/-- The last character of a text in lower case is of the kind of its last one. -/
theorem getLast?_lowerFrom (hp : Kept p) : (lowerFrom before s).getLast?.map p = s.getLast?.map p := by
  induction s generalizing before with
  | nil => rfl
  | cons c rest ih =>
    obtain ⟨n, hn⟩ := map_lowerChar hp before rest c
    have hlast : (lowerChar before rest c).getLast?.map p = some (p c) := by
      rw [← List.getLast?_map, hn, List.getLast?_replicate, if_neg (Nat.succ_ne_zero n)]
    rw [lowerFrom, List.getLast?_append, Option.map_or, ih, hlast, List.getLast?_cons]
    cases rest.getLast? with
    | none => rfl
    | some d => rfl

end Kept

/-! ## ASCII letters -/

theorem toLower_of_not_ascii (h : ¬c.toNat < 0x80) : c.toLower = c := by
  unfold Char.toLower
  refine dif_neg fun hcapital => h ?_
  have hle : c.toNat ≤ 0x5A := hcapital.2
  omega

/-- The ASCII capitals lie a fixed number below their small letters. -/
theorem toNat_toLower (c : Char) :
    c.toLower.toNat = if 0x41 ≤ c.toNat && c.toNat ≤ 0x5A then c.toNat + 0x20 else c.toNat := by
  by_cases hascii : c.toNat < 0x80
  · exact forall_ascii (P := fun c =>
      c.toLower.toNat = if 0x41 ≤ c.toNat && c.toNat ≤ 0x5A then c.toNat + 0x20 else c.toNat) (by decide) hascii
  · rw [toLower_of_not_ascii hascii, if_neg]
    simp only [Bool.and_eq_true, decide_eq_true_eq]
    omega

/-- If ranges hold the ASCII capitals and the small letters alike, ASCII case does not matter to them. -/
theorem inRanges_toLower (h : ∀ n < 0x1A, inRanges ranges (0x41 + n + 0x20) = inRanges ranges (0x41 + n)) (c : Char) :
    inRanges ranges c.toLower.toNat = inRanges ranges c.toNat := by
  rw [toNat_toLower]
  split
  · rename_i hcapital
    simp only [Bool.and_eq_true, decide_eq_true_eq] at hcapital
    have hletter := h (c.toNat - 0x41) (by omega)
    rwa [Nat.add_sub_cancel' hcapital.1] at hletter
  · rfl

/-- The case of ASCII letters does not decide where a word ends. -/
theorem meetsCased_map_toLower (s : List Char) : meetsCased (s.map Char.toLower) = meetsCased s := by
  have hcapital : ∀ range ∈ ignorableRanges, apart 0x41 0x5A range.1 range.2 := by decide +kernel
  have hsmall : ∀ range ∈ ignorableRanges, apart 0x61 0x7A range.1 range.2 := by decide +kernel
  have hignorable (c : Char) : inRanges ignorableRanges c.toLower.toNat = inRanges ignorableRanges c.toNat := by
    refine inRanges_toLower (fun n hn => ?_) c
    have hfrom : inRanges ignorableRanges (0x41 + n) = false :=
      inRanges_eq_false_of_apart hcapital (by omega) (by omega)
    have hto : inRanges ignorableRanges (0x41 + n + 0x20) = false :=
      inRanges_eq_false_of_apart hsmall (by omega) (by omega)
    rw [hfrom, hto]
  have hcased (c : Char) : inRanges casedRanges c.toLower.toNat = inRanges casedRanges c.toNat :=
    inRanges_toLower (by decide +kernel) c
  have hsame : (fun c : Char => inRanges ignorableRanges c.toNat) ∘ Char.toLower =
      fun c => inRanges ignorableRanges c.toNat := funext hignorable
  unfold meetsCased
  rw [List.dropWhile_map, hsame]
  cases s.dropWhile fun c => inRanges ignorableRanges c.toNat with
  | nil => rfl
  | cons c rest => exact hcased c

/-- Lowered before or not, an ASCII letter gets one lower case, and so do its neighbours. -/
theorem lowerChar_toLower :
    lowerChar (before.map Char.toLower) (after.map Char.toLower) c.toLower = lowerChar before after c := by
  by_cases hascii : c.toNat < 0x80
  · have hlower := forall_ascii
      (P := fun c => c.toLower.toNat < 0x80 ∧ c.toLower.toLower = c.toLower) (by decide) hascii
    rw [lowerChar_of_ascii hlower.1, lowerChar_of_ascii hascii, hlower.2]
  · rw [toLower_of_not_ascii hascii]
    unfold lowerChar
    rw [meetsCased_map_toLower, meetsCased_map_toLower]

/-- A text has the lower case of its ASCII lower case. -/
theorem lowerFrom_map_toLower :
    lowerFrom (before.map Char.toLower) (s.map Char.toLower) = lowerFrom before s := by
  induction s generalizing before with
  | nil => rfl
  | cons c rest ih => rw [List.map_cons, lowerFrom, lowerFrom, lowerChar_toLower, ← List.map_cons, ih]

/-! ## Characters in lower case -/

/-- The run of the ASCII capitals. -/
def capitals : Shift :=
  ⟨0x41, 0x5A, 1, 32⟩

/-- No character of a lower case is an ASCII capital: none of the runs leads there. -/
theorem not_holds_of_mem_lowerChar (h : x ∈ lowerChar before after c) : ¬capitals.Holds x.toNat := by
  have hapart : ∀ t ∈ lowerShifts, t.high < capitals.first ∨ capitals.last < t.low := by
    have hall : (lowerShifts.all fun t => Nat.blt t.high capitals.first || Nat.blt capitals.last t.low) = true := by
      decide +kernel
    simpa only [List.all_eq_true, Bool.or_eq_true, Nat.blt_eq] using hall
  have hspecials : ∀ code ∈ loweredSpecials, ¬capitals.Holds code := by
    unfold Shift.Holds
    decide +kernel
  rcases mem_lowerChar h with ⟨-, hto⟩ | ⟨-, hrun⟩
  · exact hspecials _ hto
  rw [hrun]
  rcases shifted_cases lowerShifts c.toNat with ⟨hnone, hstays⟩ | ⟨t, ht, hholds, hmove⟩
  · rw [hstays]
    exact hnone capitals List.mem_cons_self
  · rw [hmove]
    rintro ⟨⟨hlow, hhigh⟩, -⟩
    have hle := hholds.low_le
    have hge := hholds.le_high
    rcases hapart t ht with hbelow | habove <;> omega

theorem mem_lowerFrom (h : x ∈ lowerFrom before s) : ∃ before after c, x ∈ lowerChar before after c := by
  induction s generalizing before with
  | nil => cases h
  | cons c rest ih =>
    rw [lowerFrom, List.mem_append] at h
    rcases h with hfirst | hrest
    · exact ⟨before, rest, c, hfirst⟩
    · exact ih hrest

/-- A text of letters that stay stays. -/
theorem lowerFrom_of_forall_mem (h : ∀ x ∈ s, ∀ before after, lowerChar before after x = [x]) :
    lowerFrom before s = s := by
  induction s generalizing before with
  | nil => rfl
  | cons c rest ih =>
    rw [lowerFrom, h c List.mem_cons_self, ih fun x hx => h x (List.mem_cons_of_mem c hx)]
    rfl

end LetterCase

/-! ## Texts -/

/-- A text has a character of a kept kind if it has one in lower case. -/
theorem any_lowerChars {p : Char → Bool} {s : List Char} (hp : LetterCase.Kept p) : (lowerChars s).any p = s.any p :=
  LetterCase.any_lowerFrom hp

/-- Blanks at the ends of a text stay there in lower case. -/
theorem trimmed_lowerChars (s : List Char) : Trimmed isBlank (lowerChars s) ↔ Trimmed isBlank s := by
  unfold Trimmed lowerChars
  rw [LetterCase.head?_lowerFrom LetterCase.kept_isBlank, LetterCase.getLast?_lowerFrom LetterCase.kept_isBlank]

/-- A text whose lower case has no blanks around it has none itself. -/
theorem trim_of_trimmed_lower {s : String} (h : Trimmed isBlank (lower s).toList) : trim s = s := by
  rw [lower, String.toList_ofList, trimmed_lowerChars] at h
  rw [trim, strip, stripChars_of_trimmed h, String.ofList_toList]

/-- Lowering the ASCII letters first makes no difference. -/
theorem lowerChars_map_toLower (s : List Char) : lowerChars (s.map Char.toLower) = lowerChars s := by
  rw [lowerChars, ← List.map_nil, LetterCase.lowerFrom_map_toLower]
  rfl

/-- Two texts with the same letters but for the case of the ASCII ones have one lower case. -/
theorem lower_toLower (s : String) : lower s.toLower = lower s := by
  have hmap : s.toLower.toList = s.toList.map Char.toLower := String.toList_map
  rw [lower, hmap, lowerChars_map_toLower, lower]

/-- No lower case has an ASCII capital in it. -/
theorem isAsciiUpper_of_mem_lowerChars {s : List Char} {x : Char} (h : x ∈ lowerChars s) :
    isAsciiUpper x = false := by
  obtain ⟨before, after, c, hmem⟩ := LetterCase.mem_lowerFrom h
  rw [Bool.eq_false_iff]
  intro hupper
  rw [isAsciiUpper, Bool.and_eq_true, decide_eq_true_eq, decide_eq_true_eq] at hupper
  exact LetterCase.not_holds_of_mem_lowerChar hmem ⟨hupper, Nat.mod_one _⟩

/-- ASCII characters that are no capitals are in lower case. -/
theorem lowerChars_of_ascii {s : List Char} (h : ∀ c ∈ s, c.toNat < 0x80 ∧ isAsciiUpper c = false) :
    lowerChars s = s := by
  refine LetterCase.lowerFrom_of_forall_mem fun c hc before after => ?_
  obtain ⟨hascii, hupper⟩ := h c hc
  rw [isAsciiUpper] at hupper
  rw [LetterCase.lowerChar, if_pos hascii, hupper]
  rfl

end RouteBinding.Text
