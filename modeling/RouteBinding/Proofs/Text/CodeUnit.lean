import RouteBinding.Proofs.Outcome
import RouteBinding.Text.CodeUnit

/-!
# Codes of characters

What is read behind `\u`: a code by itself, or the codes of the two halves of a pair (`readUnit?_cases`). A code that
is no half of a pair is read by itself, whatever follows it (`readUnit?_append`).
-/

namespace RouteBinding.Text

variable {s rest : List Char} {n code : Nat} {c : Char}

theorem length_of_readHex? (h : readHex? n s = some (code, [])) : s.length = n := by
  simp only [readHex?, Option.bind_eq_bind, Option.bind_eq_some_iff, Option.ite_none_right_eq_some,
    Option.some.injEq, Prod.mk.injEq, List.drop_eq_nil_iff] at h
  obtain ⟨values, hvalues, hlength, -, hle⟩ := h
  have htake := (mapM_eq_some_iff.1 hvalues).length_eq
  rw [List.length_take] at htake
  omega

theorem readHex?_append (h : readHex? n s = some (code, [])) : readHex? n (s ++ rest) = some (code, rest) := by
  have hlength := length_of_readHex? h
  have htake : (s ++ rest).take n = s := List.take_left' hlength
  have hdrop : (s ++ rest).drop n = rest := List.drop_left' hlength
  rw [readHex?, List.take_of_length_le (Nat.le_of_eq hlength), List.drop_of_length_le (Nat.le_of_eq hlength)] at h
  rw [readHex?, htake, hdrop]
  simp only [Option.bind_eq_bind, Option.bind_eq_some_iff, Option.ite_none_right_eq_some, Option.some.injEq,
    Prod.mk.injEq] at h ⊢
  obtain ⟨values, hvalues, hcount, hcode, -⟩ := h
  exact ⟨values, hvalues, hcount, hcode, trivial⟩

theorem exists_of_readHex? (h : readHex? n s = some (code, rest)) :
    ∃ digits, readHex? n digits = some (code, []) ∧ s = digits ++ rest := by
  simp only [readHex?, Option.bind_eq_bind, Option.bind_eq_some_iff, Option.ite_none_right_eq_some,
    Option.some.injEq, Prod.mk.injEq] at h ⊢
  obtain ⟨values, hvalues, hcount, hcode, hrest⟩ := h
  have hle : (s.take n).length ≤ n := List.length_take_le n s
  refine ⟨s.take n, ⟨values, ?_, hcount, hcode, List.drop_of_length_le hle⟩, ?_⟩
  · rwa [List.take_of_length_le hle]
  · rw [← hrest, List.take_append_drop]

theorem le_toNat_of_readHex? (h : readHex? n s = some (code, [])) : ∀ c ∈ s, 0x30 ≤ c.toNat := by
  have hle : s.length ≤ n := Nat.le_of_eq (length_of_readHex? h)
  rw [readHex?, List.take_of_length_le hle] at h
  simp only [Option.bind_eq_bind, Option.bind_eq_some_iff] at h
  obtain ⟨values, hvalues, -⟩ := h
  intro c hc
  have hvalue := isSome_mapM_iff.1 (Option.isSome_iff_exists.2 ⟨values, hvalues⟩) c hc
  by_contra hlt
  have hnone : hexValue? c = none := by
    simp only [hexValue?, isAsciiDigit, Bool.and_eq_true, decide_eq_true_eq]
    rw [if_neg (by omega), if_neg (by omega), if_neg (by omega)]
  rw [hnone] at hvalue
  cases hvalue

/-- A code stands by itself, or it is the first half of a pair whose second half follows. -/
theorem readUnit?_cases (h : readUnit? s = some (c, rest)) :
    (∃ digits code, readHex? 4 digits = some (code, []) ∧ s = digits ++ rest ∧ c = charOfCode code) ∨
      ∃ high low a b code, readHex? 4 high = some (a, []) ∧ readHex? 4 low = some (b, []) ∧
        joinPair? a b = some code ∧ s = high ++ '\\' :: 'u' :: low ++ rest ∧ c = Char.ofNat code := by
  simp only [readUnit?, Option.bind_eq_bind, Option.bind_eq_some_iff, Option.pure_def, Option.some.injEq] at h
  obtain ⟨⟨code, after⟩, hcode, hunit⟩ := h
  obtain ⟨digits, hdigits, rfl⟩ := exists_of_readHex? hcode
  dsimp only at hunit
  cases hsecond : readSecondHalf? code after with
  | none =>
    rw [hsecond] at hunit
    cases hunit
    exact .inl ⟨digits, code, hdigits, rfl, rfl⟩
  | some found =>
    rw [hsecond] at hunit
    cases hunit
    unfold readSecondHalf? at hsecond
    split at hsecond
    · simp only [Option.bind_eq_bind, Option.bind_eq_some_iff, Option.pure_def, Option.some.injEq,
        Prod.mk.injEq] at hsecond
      obtain ⟨⟨low, rest'⟩, hlow, joined, hjoin, rfl, rfl⟩ := hsecond
      obtain ⟨digits', hdigits', rfl⟩ := exists_of_readHex? hlow
      exact .inr ⟨digits, digits', code, low, joined, hdigits, hdigits', hjoin, by simp, rfl⟩
    · cases hsecond

/-- Whether a code is half of a surrogate pair. -/
def IsHalf (code : Nat) : Prop :=
  0xD800 ≤ code ∧ code < 0xE000

theorem readSecondHalf?_of_not_isHalf (h : ¬IsHalf code) : readSecondHalf? code s = none := by
  have hjoin (low : Nat) : joinPair? code low = none := by
    rw [joinPair?, if_neg]
    simp only [IsHalf] at h
    simp only [Bool.and_eq_true, decide_eq_true_eq]
    omega
  unfold readSecondHalf?
  split
  · simp only [hjoin]
    cases readHex? 4 _ <;> rfl
  · rfl

/-- A code that is no half of a pair is read by itself. -/
theorem readUnit?_append (h : readHex? 4 s = some (code, [])) (hcode : ¬IsHalf code) :
    readUnit? (s ++ rest) = some (charOfCode code, rest) := by
  rw [readUnit?, readHex?_append h]
  show some ((readSecondHalf? code rest).getD (charOfCode code, rest)) = _
  rw [readSecondHalf?_of_not_isHalf hcode]
  rfl

end RouteBinding.Text
