import Mathlib.Data.List.Nodup
import RouteBinding.Data.Graph
import RouteBinding.Proofs.Outcome

/-!
# Mappings in a graph

A mapping holds every text as a key once at most (`Graph.DistinctKeys`): the value under a text is then that of
every entry with the text. Entries that are merged are such a mapping, and a graph stays one where trees of such
mappings are put into it. A value has a text unless a number in the graph has more digits than can be written
(`Graph.hasLongNumber_of_entry`).
-/

namespace RouteBinding

/-! ## Keys -/

variable {α : Type} {entries : List (Scalar × α)}

/-- The texts among the keys of some entries. -/
def keyTexts (entries : List (Scalar × α)) : List String :=
  entries.filterMap (·.1.text?)

theorem keyTexts_eq : keyTexts entries = (entries.map (·.1)).filterMap Scalar.text? := by
  rw [List.filterMap_map]
  rfl

/-- A text is among the keys if an entry has it. -/
theorem mem_keyTexts {s : String} : s ∈ keyTexts entries ↔ Scalar.text s ∈ entries.map (·.1) := by
  simp only [keyTexts, List.mem_filterMap, List.mem_map]
  refine exists_congr fun e => and_congr_right fun _ => ?_
  cases e.1 <;> simp [Scalar.text?]

/-- Every key that is put is there afterwards, itself or as the same key, and so are the keys of before. -/
theorem keys_putEntry {k : Scalar} {value : α} :
    (putEntry k value entries).map (·.1) =
      if (entries.map (·.1)).any (·.sameKey k) then entries.map (·.1) else entries.map (·.1) ++ [k] := by
  induction entries with
  | nil => rfl
  | cons e rest ih =>
    rw [putEntry, List.map_cons, List.any_cons]
    by_cases hsame : e.1.sameKey k
    · simp [hsame]
    · rw [if_neg hsame, List.map_cons, ih]
      have hfalse : e.1.sameKey k = false := by simpa using hsame
      rw [hfalse, Bool.false_or]
      split_ifs <;> rfl

/-- The key of an entry that is put is one of those before, or the new one. -/
theorem mem_keyTexts_putEntry {s : String} {key : Scalar} {value : α}
    (h : s ∈ keyTexts (putEntry key value entries)) : s ∈ keyTexts entries ∨ key = .text s := by
  rw [mem_keyTexts, keys_putEntry] at h
  rw [mem_keyTexts]
  split_ifs at h
  · exact .inl h
  · exact (List.mem_append.1 h).imp_right fun h => (List.mem_singleton.1 h).symm

/-- Keys stay distinct when an entry is put. -/
theorem nodup_keyTexts_putEntry {key : Scalar} {value : α} (h : (keyTexts entries).Nodup) :
    (keyTexts (putEntry key value entries)).Nodup := by
  induction entries with
  | nil => cases key <;> simp [putEntry, keyTexts, Scalar.text?]
  | cons e rest ih =>
    obtain ⟨k, v⟩ := e
    rw [putEntry]
    split_ifs with hsame
    · exact h
    · have hrest : (keyTexts rest).Nodup := h.sublist ((List.sublist_cons_self _ _).filterMap _)
      cases k with
      | text s =>
        -- the text could only be put again as the new key, and then it would take this place
        obtain ⟨hs, -⟩ := List.nodup_cons.1 h
        refine List.nodup_cons.2 ⟨fun hmem => ?_, ih hrest⟩
        rcases mem_keyTexts_putEntry hmem with hmem | rfl
        · exact hs hmem
        · exact hsame (decide_eq_true rfl)
      | _ => exact ih hrest

/-- Of entries that are merged, no two have one text as their key. -/
theorem nodup_keyTexts_mergeEntries (entries : List (Scalar × α)) :
    (keyTexts (mergeEntries entries)).Nodup :=
  List.foldlRecOn entries (fun merged e => putEntry e.1 e.2 merged)
    (motive := fun merged => (keyTexts merged).Nodup) List.nodup_nil
    fun _ h _ _ => nodup_keyTexts_putEntry h

/-- Merging adds no keys. -/
theorem mem_keys_mergeEntries {k : Scalar} (h : k ∈ (mergeEntries entries).map (·.1)) :
    k ∈ entries.map (·.1) := by
  refine List.foldlRecOn entries (fun merged e => putEntry e.1 e.2 merged)
    (motive := fun merged => ∀ k ∈ merged.map (·.1), k ∈ entries.map (·.1))
    (fun k hk => (List.not_mem_nil hk).elim) (fun merged ih e he k hk => ?_) k h
  rw [keys_putEntry] at hk
  split_ifs at hk
  · exact ih k hk
  · rcases List.mem_append.1 hk with hk | hk
    · exact ih k hk
    · exact List.mem_singleton.1 hk ▸ List.mem_map_of_mem he

/-- The values are those that were there and the one that is put. -/
theorem mem_values_putEntry {key : Scalar} {value a : α}
    (h : a ∈ (putEntry key value entries).map (·.2)) : a = value ∨ a ∈ entries.map (·.2) := by
  induction entries with
  | nil => exact .inl (List.mem_singleton.1 h)
  | cons e rest ih =>
    rw [putEntry] at h
    split_ifs at h
    · exact (List.mem_cons.1 h).imp_right (List.mem_cons_of_mem _)
    · rcases List.mem_cons.1 h with rfl | h
      · exact .inr List.mem_cons_self
      · exact (ih h).imp_right (List.mem_cons_of_mem _)

/-- Merging adds no values. -/
theorem mem_values_mergeEntries {a : α} (h : a ∈ (mergeEntries entries).map (·.2)) :
    a ∈ entries.map (·.2) := by
  refine List.foldlRecOn entries (fun merged e => putEntry e.1 e.2 merged)
    (motive := fun merged => ∀ a ∈ merged.map (·.2), a ∈ entries.map (·.2))
    (fun a ha => (List.not_mem_nil ha).elim) (fun merged ih e he a ha => ?_) a h
  rcases mem_values_putEntry ha with rfl | ha
  · exact List.mem_map_of_mem he
  · exact ih a ha

/-! ## Mappings -/

/-- No text is the key of two entries of a container. -/
def Container.DistinctKeys : Container → Prop
  | .mapping entries => (keyTexts entries).Nodup
  | _ => True

instance : DecidablePred Container.DistinctKeys
  | .mapping entries => inferInstanceAs (Decidable (keyTexts entries).Nodup)
  | .list _ => .isTrue trivial
  | .set _ => .isTrue trivial
  | .pair _ _ => .isTrue trivial

/-- The value under a key stands in an entry with the key. -/
theorem mem_of_valueAt? {key : String} {value : α} (h : valueAt? key entries = some value) :
    (.text key, value) ∈ entries := by
  induction entries with
  | nil => cases h
  | cons e rest ih =>
    rcases e with ⟨k, v⟩
    rw [valueAt?] at h
    split_ifs at h with hk
    · cases h
      rw [hk]
      exact List.mem_cons_self
    · exact List.mem_cons_of_mem _ (ih h)

/-- With distinct keys an entry is found at its key. -/
theorem valueAt?_of_mem {key : String} {value : α} (hnodup : (keyTexts entries).Nodup)
    (hmem : (.text key, value) ∈ entries) :
    valueAt? key entries = some value := by
  induction entries with
  | nil => cases hmem
  | cons e rest ih =>
    rcases e with ⟨k, v⟩
    rw [valueAt?]
    rcases List.mem_cons.1 hmem with heq | hmem
    · cases heq
      rw [if_pos rfl]
    · have hkey : key ∈ keyTexts rest := List.mem_filterMap.2 ⟨_, hmem, rfl⟩
      have hne : k ≠ .text key := by
        rintro rfl
        exact (List.nodup_cons.1 hnodup).1 hkey
      rw [if_neg hne]
      refine ih ?_ hmem
      exact hnodup.sublist ((List.sublist_cons_self _ _).filterMap _)

/-- The contents of a container that is seen. -/
def Shape.contents? : Shape → Option Container
  | .scalar _ => none
  | .list _ items => some (.list items)
  | .mapping _ entries => some (.mapping entries)
  | .set members => some (.set members)
  | .pair _ first second => some (.pair first second)

namespace Graph

variable {g : Graph} {v w : Value} {entries : List (Scalar × Value)}

/-- No text is the key of two entries of one mapping. -/
def DistinctKeys (g : Graph) : Prop :=
  ∀ c ∈ g.containers.toList, c.DistinctKeys

instance (g : Graph) : Decidable g.DistinctKeys :=
  inferInstanceAs (Decidable (∀ c ∈ g.containers.toList, c.DistinctKeys))

/-- What has entries is a mapping. -/
theorem entries?_eq_some_iff : g.entries? v = some entries ↔ ∃ id, g.shape v = .mapping id entries := by
  unfold entries?
  cases g.shape v with
  | mapping id found => simp
  | _ => simp

/-- What is seen of a container stands in the graph. -/
theorem mem_containers_of_shape {c : Container} (h : (g.shape v).contents? = some c) :
    c ∈ g.containers.toList := by
  unfold shape at h
  split at h
  · cases h
  · split at h <;> cases h <;>
      exact Array.mem_toList_iff.2 (Array.mem_of_getElem? (by assumption))

/-- A mapping is one of the containers. -/
theorem mapping_mem_of_entries? (h : g.entries? v = some entries) :
    .mapping entries ∈ g.containers.toList := by
  obtain ⟨id, hshape⟩ := entries?_eq_some_iff.1 h
  exact mem_containers_of_shape (v := v) (by rw [hshape]; rfl)

/-- No two entries of a mapping have one key. -/
theorem DistinctKeys.nodup (h : g.DistinctKeys) (hv : g.entries? v = some entries) :
    (keyTexts entries).Nodup :=
  h _ (mapping_mem_of_entries? hv)

theorem distinctKeys_empty : empty.DistinctKeys := fun _ h => (List.not_mem_nil h).elim

/-- A container is put into a graph. -/
theorem DistinctKeys.push {c : Container} (h : g.DistinctKeys) (hc : c.DistinctKeys) :
    (g.push c).1.DistinctKeys := by
  intro c' hc'
  rw [Graph.push, Array.toList_push, List.mem_append, List.mem_singleton] at hc'
  rcases hc' with hc' | rfl
  · exact h c' hc'
  · exact hc

/-- The contents of a container are changed. -/
theorem DistinctKeys.set {c : Container} (h : g.DistinctKeys) (hc : c.DistinctKeys) (id : Nat) :
    (Graph.mk (g.containers.set! id c)).DistinctKeys := by
  intro c' hc'
  rw [Array.set!_eq_setIfInBounds, Array.toList_setIfInBounds] at hc'
  rcases List.mem_or_eq_of_mem_set hc' with hc' | rfl
  · exact h c' hc'
  · exact hc

end Graph

/-! ## Texts of values -/

/-- A scalar can be shown if it can be written as a literal. -/
theorem Scalar.display?_eq_none_iff {s : Scalar} : s.display? = none ↔ s.literal? = none := by
  cases s <;> simp [display?, literal?]

/-- The scalar that a value is. -/
def Value.scalar? : Value → Option Scalar
  | .scalar s => some s
  | .container _ => none

/-- The scalars that a container holds itself: its items, its keys and values, its members, or its two parts. -/
def Container.scalars : Container → List Scalar
  | .list items => items.filterMap Value.scalar?
  | .mapping entries => entries.map (·.1) ++ (entries.map (·.2)).filterMap Value.scalar?
  | .set members => members
  | .pair first second => [first, second].filterMap Value.scalar?

namespace Graph

variable {g : Graph} {v w : Value} {entries : List (Scalar × Value)}

/-- A number in a graph has more digits than can be written. -/
def HasLongNumber (g : Graph) : Prop :=
  ∃ c ∈ g.containers.toList, ∃ s ∈ c.scalars, s.literal? = none

instance (g : Graph) : Decidable g.HasLongNumber :=
  inferInstanceAs (Decidable (∃ c ∈ g.containers.toList, ∃ s ∈ c.scalars, s.literal? = none))

/-- A value has no text, because it is a number with too many digits or because one stands in the graph. -/
def IsLong (g : Graph) (v : Value) : Prop :=
  (∃ s, v = .scalar s ∧ s.literal? = none) ∨ g.HasLongNumber

/-- A value without a text that stands in a container shows that the graph holds a long number. -/
theorem IsLong.hasLongNumber {values : List Value} {c : Container} (h : g.IsLong v) (hv : v ∈ values)
    (hc : c ∈ g.containers.toList) (hvalues : values.filterMap Value.scalar? ⊆ c.scalars) :
    g.HasLongNumber := by
  rcases h with ⟨s, rfl, hnone⟩ | h
  · exact ⟨c, hc, s, hvalues (List.mem_filterMap.2 ⟨_, hv, rfl⟩), hnone⟩
  · exact h

/-- A value without a literal form holds a number that is too long. -/
theorem isLong_of_literalWithin? {depth : Nat} {outer : List Nat}
    (h : g.literalWithin? depth outer v = none) : g.IsLong v := by
  induction depth generalizing outer v with
  | zero => cases h
  | succ depth ih =>
    rw [literalWithin?] at h
    have hmem {c : Container} (hc : (g.shape v).contents? = some c) := mem_containers_of_shape hc
    cases hshape : g.shape v with
    | scalar s =>
      rw [hshape] at h
      unfold shape at hshape
      split at hshape
      · cases hshape
        exact .inl ⟨s, rfl, h⟩
      · split at hshape <;> cases hshape
        cases h
    | list id items =>
      rw [hshape] at h hmem
      dsimp only at h
      split_ifs at h
      obtain ⟨w, hw, hnone⟩ := mapM_eq_none_iff.1 (Option.map_eq_none_iff.1 h)
      exact .inr ((ih hnone).hasLongNumber hw (hmem rfl) (List.Subset.refl _))
    | mapping id entries =>
      rw [hshape] at h hmem
      dsimp only at h
      split_ifs at h
      obtain ⟨e, he, hnone⟩ := mapM_eq_none_iff.1 (Option.map_eq_none_iff.1 h)
      cases hkey : e.1.literal? with
      | none => exact .inr ⟨_, hmem rfl, e.1, List.mem_append_left _ (List.mem_map_of_mem he), hkey⟩
      | some text =>
        cases hvalue : g.literalWithin? depth (id :: outer) e.2 with
        | none =>
          exact .inr ((ih hvalue).hasLongNumber (List.mem_map_of_mem he) (hmem rfl)
            (List.subset_append_right _ _))
        | some text' =>
          rw [hkey, hvalue] at hnone
          cases hnone
    | set members =>
      rw [hshape] at h hmem
      dsimp only at h
      split_ifs at h
      obtain ⟨s, hs, hnone⟩ := mapM_eq_none_iff.1 (Option.map_eq_none_iff.1 h)
      exact .inr ⟨_, hmem rfl, s, hs, hnone⟩
    | pair id first second =>
      rw [hshape] at h hmem
      dsimp only at h
      split_ifs at h
      obtain ⟨w, hw, hnone⟩ := mapM_eq_none_iff.1 (Option.map_eq_none_iff.1 h)
      exact .inr ((ih hnone).hasLongNumber hw (hmem rfl) (List.Subset.refl _))

/-- A value that has no literal form has no text either, and the other way round. -/
theorem display?_eq_none_iff : g.display? v = none ↔ g.literal? v = none := by
  unfold display?
  cases hshape : g.shape v with
  | scalar s =>
    rw [literal?, literalWithin?, hshape]
    exact Scalar.display?_eq_none_iff
  | _ => rfl

/-- The key or the value of an entry has no text, so that the graph holds a long number. -/
theorem hasLongNumber_of_entry {key : Scalar} (hv : g.entries? v = some entries) (hmem : (key, w) ∈ entries)
    (h : key.literal? = none ∨ g.literal? w = none) : g.HasLongNumber := by
  have hc := mapping_mem_of_entries? hv
  rcases h with hkey | hvalue
  · exact ⟨_, hc, key, List.mem_append_left _ (List.mem_map.2 ⟨_, hmem, rfl⟩), hkey⟩
  · exact (isLong_of_literalWithin? hvalue).hasLongNumber (List.mem_map.2 ⟨_, hmem, rfl⟩) hc
      (List.subset_append_right _ _)

end Graph

/-! ## Trees -/

/-- No text is the key of two entries of one mapping inside a tree. -/
inductive Tree.DistinctKeys : Tree → Prop
  | scalar {s : Scalar} : DistinctKeys (.scalar s)
  | list {items : List Tree} (h : ∀ t ∈ items, DistinctKeys t) : DistinctKeys (.list items)
  | mapping {entries : List (Scalar × Tree)} (hkeys : (keyTexts entries).Nodup)
    (h : ∀ t ∈ entries.map (·.2), DistinctKeys t) : DistinctKeys (.mapping entries)

namespace Graph

/-- The keys of entries stay as they are. -/
theorem keys_ofEntries (g : Graph) (entries : List (Scalar × Tree)) :
    (g.ofEntries entries).2.map (·.1) = entries.map (·.1) := by
  induction entries generalizing g with
  | nil => rfl
  | cons e rest ih =>
    rw [ofEntries]
    exact congrArg (e.1 :: ·) (ih _)

mutual

/-- Keys stay distinct when a tree with distinct keys is added. -/
theorem DistinctKeys.ofTree {g : Graph} (h : g.DistinctKeys) {t : Tree} (ht : t.DistinctKeys) :
    (g.ofTree t).1.DistinctKeys := by
  cases t with
  | scalar s => exact h
  | list items =>
    rw [Graph.ofTree]
    cases ht with
    | list hitems => exact (h.ofItems hitems).push trivial
  | mapping entries =>
    rw [Graph.ofTree]
    cases ht with
    | mapping hkeys hentries =>
      refine (h.ofEntries hentries).push ?_
      rw [keyTexts_eq, ← keys_ofEntries g, ← keyTexts_eq] at hkeys
      exact hkeys

theorem DistinctKeys.ofItems {g : Graph} (h : g.DistinctKeys) {items : List Tree}
    (hitems : ∀ t ∈ items, t.DistinctKeys) : (g.ofItems items).1.DistinctKeys := by
  cases items with
  | nil => exact h
  | cons item rest =>
    rw [Graph.ofItems]
    obtain ⟨hitem, hrest⟩ := List.forall_mem_cons.1 hitems
    exact (h.ofTree hitem).ofItems hrest

theorem DistinctKeys.ofEntries {g : Graph} (h : g.DistinctKeys) {entries : List (Scalar × Tree)}
    (hentries : ∀ t ∈ entries.map (·.2), t.DistinctKeys) :
    (g.ofEntries entries).1.DistinctKeys := by
  cases entries with
  | nil => exact h
  | cons e rest =>
    rw [Graph.ofEntries]
    obtain ⟨hvalue, hrest⟩ := List.forall_mem_cons.1 hentries
    exact (h.ofTree hvalue).ofEntries hrest

end

end Graph

end RouteBinding
