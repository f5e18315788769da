import Mathlib.Data.List.Induction
import Mathlib.Data.List.Nodup
import RouteBinding.Route.Binding

/-!
# Groups of equal keys

What grouping a list gives, said without the order in which the values come (`groupBy_eq`): one group for every
key, in the order of their first places, with all values of the key. The values that come first under their keys
are the list itself when no key comes twice (`firstOfEach_eq_self`).
-/

namespace RouteBinding

variable {κ α : Type} [DecidableEq κ]

/-! ## First places -/

/-- The keys of the values of a list, each at its first place. -/
def firstKeys (key : α → κ) (l : List α) : List κ :=
  (l.map key).eraseDups

/-- The values of a list that come first under their keys, in order. -/
def firstOfEach (key : α → κ) (l : List α) : List α :=
  (firstKeys key l).filterMap fun k => l.find? (key · = k)

theorem mem_firstKeys {key : α → κ} {l : List α} {k : κ} :
    k ∈ firstKeys key l ↔ k ∈ l.map key :=
  List.mem_eraseDups

/-- A value at the end brings its key only if it was not there before. -/
theorem firstKeys_concat (key : α → κ) (l : List α) (a : α) :
    firstKeys key (l ++ [a]) =
      if key a ∈ l.map key then firstKeys key l else firstKeys key l ++ [key a] := by
  rw [firstKeys, List.map_append, List.map_singleton, List.eraseDups_append]
  by_cases h : key a ∈ l.map key
  · have hnone : [key a].removeAll (l.map key) = [] := by simpa [List.removeAll] using h
    rw [if_pos h, hnone, List.eraseDups_nil, List.append_nil]
    rfl
  · have hone : [key a].removeAll (l.map key) = [key a] := by simpa [List.removeAll] using h
    rw [if_neg h, hone, List.eraseDups_cons]
    rfl

theorem nodup_firstKeys (key : α → κ) (l : List α) : (firstKeys key l).Nodup := by
  -- from the end of the list, as values are put into groups
  induction l using List.reverseRecOn with
  | nil => exact List.nodup_nil
  | append_singleton l a ih =>
    rw [firstKeys_concat]
    split_ifs with h
    · exact ih
    · have hnew : key a ∉ firstKeys key l := fun hmem => h (mem_firstKeys.1 hmem)
      exact ih.append (List.nodup_singleton _) (by simpa using hnew)

/-- To leave out all values of some keys leaves out these keys. -/
theorem firstKeys_filter (key : α → κ) (p : κ → Bool) (l : List α) :
    firstKeys key (l.filter fun a => p (key a)) = (firstKeys key l).filter p := by
  induction l using List.reverseRecOn with
  | nil => rfl
  | append_singleton l a ih =>
    rw [List.filter_append, firstKeys_concat]
    by_cases hp : p (key a)
    · have hmem : key a ∈ (l.filter fun b => p (key b)).map key ↔ key a ∈ l.map key := by
        constructor
        · intro h
          obtain ⟨b, hb, heq⟩ := List.mem_map.1 h
          exact List.mem_map.2 ⟨b, (List.mem_filter.1 hb).1, heq⟩
        · intro h
          obtain ⟨b, hb, heq⟩ := List.mem_map.1 h
          exact List.mem_map.2 ⟨b, List.mem_filter.2 ⟨hb, heq ▸ hp⟩, heq⟩
      have hlast : [a].filter (fun b => p (key b)) = [a] := by simp [hp]
      rw [hlast, firstKeys_concat, ih]
      by_cases hold : key a ∈ l.map key
      · rw [if_pos hold, if_pos (hmem.2 hold)]
      · rw [if_neg hold, if_neg fun h => hold (hmem.1 h), List.filter_append]
        simp [hp]
    · -- neither the value nor its key is kept
      have hlast : [a].filter (fun b => p (key b)) = [] := by simp [hp]
      rw [hlast, List.append_nil, ih]
      split_ifs
      · rfl
      · simp [hp]

theorem firstOfEach_concat (key : α → κ) (l : List α) (a : α) :
    firstOfEach key (l ++ [a]) =
      if key a ∈ l.map key then firstOfEach key l else firstOfEach key l ++ [a] := by
  -- a value at the end is found only under a key that no value before it has
  have hbefore : ∀ k ∈ firstKeys key l,
      (l ++ [a]).find? (key · = k) = l.find? (key · = k) := by
    intro k hk
    obtain ⟨b, hb, rfl⟩ := List.mem_map.1 (mem_firstKeys.1 hk)
    have hfound : (l.find? (key · = key b)).isSome :=
      List.find?_isSome.2 ⟨b, hb, decide_eq_true rfl⟩
    rw [List.find?_append, Option.or_of_isSome hfound]
  have hsame : (firstKeys key l).filterMap (fun k => (l ++ [a]).find? (key · = k)) =
      firstOfEach key l := List.filterMap_congr hbefore
  rw [firstOfEach, firstKeys_concat]
  split_ifs with h
  · exact hsame
  · have hnone : l.find? (key · = key a) = none := by
      refine List.find?_eq_none.2 fun b hb heq => h ?_
      exact List.mem_map.2 ⟨b, hb, of_decide_eq_true heq⟩
    have hlast : (l ++ [a]).find? (key · = key a) = some a := by
      rw [List.find?_append, hnone, Option.none_or]
      exact List.find?_cons_of_pos (decide_eq_true rfl)
    rw [List.filterMap_append, hsame]
    simp only [List.filterMap_cons, List.filterMap_nil, hlast]

/-- Where no key comes twice, every value comes first. -/
theorem firstOfEach_eq_self {key : α → κ} {l : List α} (h : (l.map key).Nodup) :
    firstOfEach key l = l := by
  induction l using List.reverseRecOn with
  | nil => rfl
  | append_singleton l a ih =>
    rw [List.map_append, List.map_singleton] at h
    have hnew : key a ∉ l.map key := by
      intro hmem
      exact List.disjoint_of_nodup_append h hmem (List.mem_singleton.2 rfl)
    rw [firstOfEach_concat, if_neg hnew, ih h.of_append_left]

/-! ## Groups -/

/-- A value goes to the group of its key if there is one, and into a new group behind the others if not. -/
theorem putInGroup_map {keys : List κ} (h : keys.Nodup) (f : κ → List α) (key : κ) (value : α) :
    putInGroup key value (keys.map fun k => (k, f k)) =
      if key ∈ keys then keys.map fun k => (k, if k = key then f k ++ [value] else f k)
      else keys.map (fun k => (k, f k)) ++ [(key, [value])] := by
  induction keys with
  | nil => rfl
  | cons k rest ih =>
    obtain ⟨hk, hrest⟩ := List.nodup_cons.1 h
    rw [List.map_cons, putInGroup]
    by_cases heq : k = key
    · subst heq
      -- the key does not come again, so that the other groups stay
      have hstay : rest.map (fun k' => (k', if k' = k then f k' ++ [value] else f k')) =
          rest.map fun k' => (k', f k') := by
        refine List.map_congr_left fun k' hk' => ?_
        have hne : k' ≠ k := fun heq => hk (heq ▸ hk')
        rw [if_neg hne]
      simp [hstay]
    · have hmem : key ∈ k :: rest ↔ key ∈ rest := by simp [Ne.symm heq]
      rw [if_neg heq, ih hrest]
      by_cases hkey : key ∈ rest
      · rw [if_pos hkey, if_pos (hmem.2 hkey), List.map_cons, if_neg heq]
      · rw [if_neg hkey, if_neg fun h => hkey (hmem.1 h), List.cons_append]

/-- Grouping gives every key, in the order of their first places, with all values that have it. -/
theorem groupBy_eq (key : α → κ) (l : List α) :
    groupBy key l = (firstKeys key l).map fun k => (k, l.filter (key · = k)) := by
  induction l using List.reverseRecOn with
  | nil => rfl
  | append_singleton l a ih =>
    have hlast : groupBy key (l ++ [a]) = putInGroup (key a) a (groupBy key l) := by
      rw [groupBy, List.foldl_append]
      rfl
    have hfilter (k : κ) : (l ++ [a]).filter (key · = k) =
        if k = key a then l.filter (key · = k) ++ [a] else l.filter (key · = k) := by
      rw [List.filter_append]
      by_cases h : k = key a
      · simp [h]
      · simp [h, Ne.symm h]
    rw [hlast, ih, putInGroup_map (nodup_firstKeys key l), firstKeys_concat]
    simp only [mem_firstKeys, hfilter]
    split_ifs with h
    · rfl
    · have hnone : l.filter (key · = key a) = [] := by
        refine List.filter_eq_nil_iff.2 fun b hb heq => h ?_
        exact List.mem_map.2 ⟨b, hb, of_decide_eq_true heq⟩
      have hstay : (firstKeys key l).map
            (fun k => (k, if k = key a then l.filter (key · = k) ++ [a] else l.filter (key · = k))) =
          (firstKeys key l).map fun k => (k, l.filter (key · = k)) := by
        refine List.map_congr_left fun k hk => ?_
        have hne : k ≠ key a := fun heq => h (heq ▸ mem_firstKeys.1 hk)
        rw [if_neg hne]
      rw [List.map_append, hstay, List.map_singleton, if_pos rfl, hnone, List.nil_append]

/-- No key comes twice exactly when every group has one value. -/
theorem nodup_map_iff {key : α → κ} {l : List α} :
    (l.map key).Nodup ↔ ∀ k ∈ firstKeys key l, (l.filter (key · = k)).length ≤ 1 := by
  have hcount (k : κ) : (l.filter (key · = k)).length = (l.map key).count k := by
    rw [List.count, List.countP_map, List.countP_eq_length_filter]
    rfl
  rw [List.nodup_iff_count_le_one]
  constructor
  · intro h k _
    rw [hcount]
    exact h k
  · intro h k
    by_cases hk : k ∈ l.map key
    · rw [← hcount]
      exact h k (mem_firstKeys.2 hk)
    · rw [List.count_eq_zero_of_not_mem hk]
      exact Nat.zero_le 1

end RouteBinding
