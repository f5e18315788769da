import RouteBinding.Config.Layers
import RouteBinding.Proofs.Data.Graph

/-!
# Mappings laid over each other

What stands under a key where one mapping is laid over another (`valueAt?_overlay`): the upper value, with the lower
one showing through where both are mappings, and the lower value where the upper mapping has none. A key is unknown
there exactly if it is in one of the two (`unknownKeys_overlay`).
-/

namespace RouteBinding

/-! ## Keys -/

/-- A text is the same key as no other scalar. -/
theorem Scalar.sameKey_text {s : Scalar} {key : String} :
    s.sameKey (.text key) = true ↔ s = .text key := by
  rw [sameKey, decide_eq_true_eq]
  have htext : (Scalar.text key).key = .text key := rfl
  rw [htext]
  cases s with
  | float x =>
    rw [Scalar.key]
    split <;> simp
  | moment m =>
    rw [Scalar.key]
    split <;> simp
  | _ => simp [Scalar.key]

theorem Scalar.sameKey_comm {s t : Scalar} : s.sameKey t = t.sameKey s := by
  simp only [sameKey, eq_comm]

section Entries

variable {α : Type} {entries : List (Scalar × α)}

/-- The entry that is the same key as a text is the one under the text. -/
theorem find?_sameKey_text (key : String) (entries : List (Scalar × α)) :
    (entries.find? fun e => e.1.sameKey (.text key)).map (·.2) = valueAt? key entries := by
  induction entries with
  | nil => rfl
  | cons e rest ih =>
    rw [valueAt?, List.find?_cons]
    by_cases hkey : e.1 = .text key
    · rw [Scalar.sameKey_text.2 hkey, if_pos hkey]
      rfl
    · have hne : e.1.sameKey (.text key) = false := by
        rw [← Bool.not_eq_true, Scalar.sameKey_text]
        exact hkey
      rw [hne, if_neg hkey]
      exact ih

/-- An entry that is put is found under its own key, and changes what is found under no other. -/
theorem valueAt?_putEntry {key : String} {k : Scalar} {value : α} (entries : List (Scalar × α)) :
    valueAt? key (putEntry k value entries) =
      if k = .text key then some value else valueAt? key entries := by
  induction entries with
  | nil => rfl
  | cons e rest ih =>
    obtain ⟨k', v⟩ := e
    rw [putEntry]
    split_ifs with hsame hkey hkey
    · subst hkey
      rw [valueAt?, if_pos (Scalar.sameKey_text.1 hsame)]
    · -- the entry whose place is taken is the same key, so that neither is under the text
      have hne : k' ≠ .text key := by
        rintro rfl
        rw [Scalar.sameKey_comm, Scalar.sameKey_text] at hsame
        exact hkey hsame
      simp only [valueAt?, if_neg hne]
    · have hne : k' ≠ .text key := by
        rintro rfl
        subst hkey
        exact hsame (Scalar.sameKey_text.2 rfl)
      rw [valueAt?, if_neg hne, ih, if_pos hkey]
    · rw [valueAt?, valueAt?, ih, if_neg hkey]

theorem valueAt?_eq_none {key : String} (h : key ∉ keyTexts entries) : valueAt? key entries = none := by
  induction entries with
  | nil => rfl
  | cons e rest ih =>
    obtain ⟨k, v⟩ := e
    rw [mem_keyTexts, List.map_cons, List.mem_cons, not_or] at h
    rw [valueAt?, if_neg (Ne.symm h.1)]
    exact ih (mt mem_keyTexts.1 h.2)

end Entries

/-! ## Values -/

variable {base upper : List (Scalar × Tree)} {key : String}

/-- What stands where one layer, if it has something there, is laid over another. -/
@[simp]
def overlay? (lower : Option Tree) : Option Tree → Option Tree
  | some upper => some (overlayValue lower upper)
  | none => lower

/-- What stands under a key where entries are laid over others. -/
theorem valueAt?_overlay (hupper : (keyTexts upper).Nodup) (base : List (Scalar × Tree)) :
    valueAt? key (overlay base upper) = overlay? (valueAt? key base) (valueAt? key upper) := by
  -- by induction on the upper entries, each of which is put in turn
  induction upper generalizing base with
  | nil => rw [overlay]; rfl
  | cons e rest ih =>
    obtain ⟨k, value⟩ := e
    have hrest : (keyTexts rest).Nodup :=
      hupper.sublist ((List.sublist_cons_self _ _).filterMap _)
    rw [overlay, ih hrest, valueAt?, valueAt?_putEntry]
    by_cases hkey : k = .text key
    · -- the key does not come again
      subst hkey
      have hnone : valueAt? key rest = none := valueAt?_eq_none (List.nodup_cons.1 hupper).1
      rw [hnone, if_pos rfl, if_pos rfl, find?_sameKey_text]
      rfl
    · rw [if_neg hkey, if_neg hkey]

/-- A value shows nothing of a scalar below it. -/
theorem overlayValue_scalar (s : Scalar) (value : Tree) :
    overlayValue (some (.scalar s)) value = value := by
  cases value <;> rfl

theorem overlayValue_none (value : Tree) : overlayValue none value = value := by
  cases value <;> rfl

/-! ## Unknown keys -/

open ConfigProblem (unknownKeys)

variable {known : List String}

theorem unknownKeys_eq_nil_iff {entries : List (Scalar × Tree)} :
    unknownKeys known entries = [] ↔ ∀ k ∈ entries.map (·.1), ∃ key ∈ known, k = .text key := by
  rw [unknownKeys, List.filterMap_eq_nil_iff, List.forall_mem_map]
  refine forall₂_congr fun e _ => ?_
  cases e.1 with
  | text key => simp
  | _ => simp

theorem mem_unknownKeys {p : ConfigProblem} {entries : List (Scalar × Tree)}
    (h : p ∈ unknownKeys known entries) : ∃ k, p.keys = [k] ∧ ∀ key ∈ known, k ≠ .text key := by
  obtain ⟨e, -, he⟩ := List.mem_filterMap.1 h
  refine ⟨e.1, ?_⟩
  split at he
  · rename_i key hkey
    split_ifs at he with hknown
    cases he
    refine ⟨rfl, fun key' hmem heq => hknown ?_⟩
    rw [hkey] at heq
    cases heq
    exact List.contains_iff_mem.2 hmem
  · rename_i hother
    cases he
    exact ⟨rfl, fun key _ heq => hother key heq⟩

/-- Where entries are laid over others, a key is unknown exactly if one of the two has an unknown key. -/
theorem unknownKeys_overlay :
    unknownKeys known (overlay base upper) = [] ↔
      unknownKeys known base = [] ∧ unknownKeys known upper = [] := by
  simp only [unknownKeys_eq_nil_iff]
  induction upper generalizing base with
  | nil =>
    rw [overlay]
    simp
  | cons e rest ih =>
    obtain ⟨k, value⟩ := e
    rw [overlay, ih, keys_putEntry, List.map_cons, List.forall_mem_cons]
    split_ifs with hsame
    · -- a key that was there before in another form is a known text in both forms
      obtain ⟨k', hk', hsame⟩ := List.any_eq_true.1 hsame
      have hknown (h : ∀ k ∈ base.map (·.1), ∃ key ∈ known, k = .text key) :
          ∃ key ∈ known, k = .text key := by
        obtain ⟨key, hkey, rfl⟩ := h k' hk'
        rw [Scalar.sameKey_comm, Scalar.sameKey_text] at hsame
        exact ⟨key, hkey, hsame⟩
      exact ⟨fun h => ⟨h.1, hknown h.1, h.2⟩, fun h => ⟨h.1, h.2.2⟩⟩
    · rw [List.forall_mem_append, List.forall_mem_singleton, and_assoc]

end RouteBinding
