import RouteBinding.Proofs.Growth.Found

/-!
# Documents narrowed to one path

All paths but one may be deleted from a document, with the containers under other names afterwards
(`Document.NarrowsTo`) or under the same (`Document.onlyPath`). What is left of a tree is a tree, and the whole document
has more paths than it (`Document.NarrowsTo.widening`).
-/

namespace RouteBinding

/-! ## Renaming -/

/-- Different values stay different. -/
theorem Value.rename_injective {ρ : Nat → Nat} (hρ : Function.Injective ρ) :
    Function.Injective (Value.rename ρ) := by
  intro v w h
  cases v <;> cases w <;> simp_all [Value.rename, hρ.eq_iff]

@[simp] theorem Value.rename_id (v : Value) : v.rename id = v := by
  cases v <;> rfl

@[simp] theorem renameEntries_id (entries : List (Scalar × Value)) : renameEntries id entries = entries := by
  simp [renameEntries]

@[simp] theorem Shape.rename_id (s : Shape) : s.rename id = s := by
  cases s <;> simp [Shape.rename, show Value.rename id = id from funext Value.rename_id]

/-- What stands inside a container stands inside it under its other name. -/
theorem Graph.inside_of_shape {ρ : Nat → Nat} {g g' : Graph} {v w : Value}
    (h : g'.shape w = (g.shape v).rename ρ) : g'.inside w = (g.inside v).map (Value.rename ρ) := by
  unfold inside
  rw [h]
  cases g.shape v <;> simp [Shape.rename, Shape.held?, renameEntries]

/-! ## Entries under one key -/

/-- What stands under a key stands under it among the entries that are kept, if all with that key are. -/
theorem valueAt?_filter {α : Type} {key : String} {keep : Scalar × α → Bool} {entries : List (Scalar × α)}
    (h : ∀ e ∈ entries, e.1 = .text key → keep e) :
    valueAt? key (entries.filter keep) = valueAt? key entries := by
  induction entries with
  | nil => rfl
  | cons e rest ih =>
    obtain ⟨hfirst, hrest⟩ := List.forall_mem_cons.1 h
    rcases e with ⟨k, v⟩
    by_cases hkey : k = .text key
    · rw [List.filter_cons_of_pos (hfirst hkey), valueAt?, valueAt?, if_pos hkey, if_pos hkey]
    · rw [valueAt?, if_neg hkey, ← ih hrest, List.filter_cons]
      split_ifs
      · rw [valueAt?, if_neg hkey]
      · rfl

/-- Entries of one key have that key only. -/
theorem keyTexts_of_forall {α : Type} {key : String} {entries : List (Scalar × α)}
    (h : ∀ e ∈ entries, e.1 = .text key) : keyTexts entries = List.replicate entries.length key := by
  induction entries with
  | nil => rfl
  | cons e rest ih =>
    obtain ⟨hfirst, hrest⟩ := List.forall_mem_cons.1 h
    rcases e with ⟨k, v⟩
    cases hfirst
    rw [List.length_cons, List.replicate_succ, ← ih hrest]
    rfl

/-! ## Documents with one path -/

/-- The mapping of a container without the entries of other keys than one. -/
def Container.onlyKey (key : String) : Container → Container
  | .mapping entries => .mapping (entries.filter fun e => e.1 = .text key)
  | c => c

namespace Document

/-- Every path of a document starts with a slash. -/
def SlashedPaths (d : Document) : Prop :=
  ∀ paths items, d.paths? = some paths → d.graph.entries? paths = some items →
    ∀ e ∈ items, ∃ path : String, e.1 = .text path ∧ path.toList.head? = some '/'

/-- The entries of all paths but one. -/
def otherPaths (path : String) (d : Document) : List (Scalar × Value) :=
  ((d.paths?.bind d.graph.entries?).getD []).filter fun e => e.1 ≠ .text path

/-- A document without the paths other than one. -/
def onlyPath (path : String) (d : Document) : Document :=
  match d.paths? with
  | some (.container id) => ⟨⟨d.graph.containers.modify id (Container.onlyKey path)⟩, d.root⟩
  | _ => d

/-- All paths but one are deleted from a document, and nothing else. What is left may name its containers in another
way: `ρ` gives the names that they had. -/
structure NarrowsTo (ρ : Nat → Nat) (path : String) (d single : Document) : Prop where
  injective : Function.Injective ρ
  root : d.root = single.root.rename ρ
  paths : ∃ paths items kept, single.paths? = some paths ∧ single.graph.entries? paths = some kept ∧
    d.graph.entries? (paths.rename ρ) = some items ∧
    renameEntries ρ kept = items.filter fun e => e.1 = .text path
  others : ∀ p v, single.Place p v → single.paths? ≠ some v →
    d.graph.shape (v.rename ρ) = (single.graph.shape v).rename ρ

namespace NarrowsTo

variable {ρ : Nat → Nat} {path : String} {d single : Document} {v : Value}
  {p : Option (Value × Nat)} (h : d.NarrowsTo ρ path single) (htree : d.TreeShaped)

include h

/-! ### The top -/

section Top

include htree

/-- The paths of a document with one path are not the document. -/
theorem paths_ne_root : single.paths? ≠ some single.root := by
  intro hroot
  obtain ⟨paths, items, kept, hpaths, hkept, hitems, hfilter⟩ := h.paths
  obtain rfl := Option.some.inj (hroot.symm.trans hpaths)
  rw [← h.root] at hitems
  have hvalue : valueAt? "paths" kept = some single.root := by
    rwa [Document.paths?, hkept, Option.bind_some] at hpaths
  -- the only key that is left is that of the paths themselves
  have hkey : path = "paths" := by
    have hmem : (Scalar.text "paths", single.root.rename ρ) ∈ renameEntries ρ kept :=
      List.mem_map_of_mem (mem_of_valueAt? hvalue)
    rw [hfilter] at hmem
    have heq := (List.mem_filter.1 hmem).2
    simpa [eq_comm] using heq
  subst hkey
  have hown : d.paths? = some d.root := by
    rw [Document.paths?, hitems, Option.bind_some, ← valueAt?_filter fun e _ he => decide_eq_true he,
      ← hfilter, valueAt?_renameEntries, hvalue, h.root]
    rfl
  exact htree.paths_ne_root hitems hown rfl

/-- The paths of a document are those of its part with one path. -/
theorem paths?_eq : d.paths? = single.paths?.map (Value.rename ρ) := by
  have hshape : d.graph.shape d.root = (single.graph.shape single.root).rename ρ := by
    rw [h.root]
    exact h.others _ _ .root (h.paths_ne_root htree)
  unfold Document.paths? Graph.entries?
  rw [hshape]
  cases single.graph.shape single.root with
  | mapping id top => exact valueAt?_renameEntries ρ "paths" top
  | _ => rfl

end Top

/-! ### Places -/

/-- What stands inside a container of the narrowed document stands inside it in the whole one, at the same place if it
is no path. -/
theorem exists_inside {u : Value} {i : Nat} (hu : single.Place p u)
    (hv : (single.graph.inside u)[i]? = some v) :
    ∃ j, (d.graph.inside (u.rename ρ))[j]? = some (v.rename ρ) ∧ (single.paths? ≠ some u → j = i) := by
  by_cases hpaths : single.paths? = some u
  · obtain ⟨paths, items, kept, hpaths', hkept, hitems, hfilter⟩ := h.paths
    obtain rfl := Option.some.inj (hpaths.symm.trans hpaths')
    rw [Graph.inside_of_entries? hkept] at hv
    obtain ⟨e, he, rfl⟩ := List.mem_map.1 (List.mem_of_getElem? hv)
    have hmem : (e.1, e.2.rename ρ) ∈ renameEntries ρ kept := List.mem_map_of_mem he
    rw [hfilter] at hmem
    have hitem : e.2.rename ρ ∈ items.map (·.2) := List.mem_map_of_mem (List.mem_of_mem_filter hmem)
    obtain ⟨j, hj⟩ := List.mem_iff_getElem?.1 hitem
    refine ⟨j, ?_, fun hne => absurd hpaths hne⟩
    rw [Graph.inside_of_entries? hitems, hj]
  · refine ⟨i, ?_, fun _ => rfl⟩
    rw [Graph.inside_of_shape (h.others _ _ hu hpaths), List.getElem?_map, hv, Option.map_some]

/-- What has a place in the narrow document has one in the wide one. -/
theorem exists_place (hv : single.Place p v) : ∃ q, d.Place q (v.rename ρ) := by
  induction hv with
  | root => exact ⟨none, h.root ▸ .root⟩
  | inside hu hw ih =>
    obtain ⟨q, hq⟩ := ih
    obtain ⟨j, hj, -⟩ := h.exists_inside hu hw
    exact ⟨_, hq.inside hj⟩

theorem isSome_entries? (hp : single.Place p v) (hv : (single.graph.entries? v).isSome) :
    (d.graph.entries? (v.rename ρ)).isSome := by
  by_cases hpaths : single.paths? = some v
  · obtain ⟨paths, items, kept, hpaths', -, hitems, -⟩ := h.paths
    obtain rfl := Option.some.inj (hpaths.symm.trans hpaths')
    rw [hitems]
    rfl
  · unfold Graph.entries? at hv ⊢
    rw [h.others _ _ hp hpaths]
    cases hshape : single.graph.shape v with
    | mapping id entries => rfl
    | _ =>
      rw [hshape] at hv
      cases hv

/-- One path is left at most. -/
theorem length_le_one (hd : d.graph.DistinctKeys) {paths : Value} {kept : List (Scalar × Value)}
    (hpaths : single.paths? = some paths) (hkept : single.graph.entries? paths = some kept) :
    kept.length ≤ 1 := by
  obtain ⟨paths', items, kept', hpaths', hkept', hitems, hfilter⟩ := h.paths
  obtain rfl := Option.some.inj (hpaths.symm.trans hpaths')
  obtain rfl := Option.some.inj (hkept.symm.trans hkept')
  have hnodup : (keyTexts (items.filter fun e => e.1 = .text path)).Nodup :=
    (hd.nodup hitems).sublist (List.filter_sublist.filterMap _)
  rw [keyTexts_of_forall fun e he => of_decide_eq_true (List.mem_filter.1 he).2, List.nodup_replicate,
    ← hfilter, renameEntries, List.length_map] at hnodup
  exact hnodup

/-- What is left of a tree is a tree. -/
theorem treeShaped (htree : d.TreeShaped) (hd : d.graph.DistinctKeys) : single.TreeShaped := by
  intro v p q hv hp hq
  -- two places of a mapping are places of it in the whole document, where they are one
  have hv' := h.isSome_entries? hp hv
  have htop : d.Place none (single.root.rename ρ) := h.root ▸ .root
  cases hp with
  | root =>
    cases hq with
    | root => rfl
    | inside hu hw =>
      obtain ⟨j, hj, -⟩ := h.exists_inside hu hw
      obtain ⟨_, hplace⟩ := h.exists_place hu
      cases htree _ _ _ hv' htop (hplace.inside hj)
  | @inside _ u _ i hu hw =>
    obtain ⟨j, hj, hji⟩ := h.exists_inside hu hw
    obtain ⟨_, hplace⟩ := h.exists_place hu
    cases hq with
    | root => cases htree _ _ _ hv' (hplace.inside hj) htop
    | @inside _ u' _ i' hu' hw' =>
      obtain ⟨j', hj', hji'⟩ := h.exists_inside hu' hw'
      obtain ⟨_, hplace'⟩ := h.exists_place hu'
      have hsame := htree _ _ _ hv' (hplace.inside hj) (hplace'.inside hj')
      rw [Option.some.injEq, Prod.mk.injEq] at hsame
      obtain ⟨hname, rfl⟩ := hsame
      obtain rfl := Value.rename_injective h.injective hname
      by_cases hpaths : single.paths? = some u
      · -- of the paths one is left at most, so both places are the first
        obtain ⟨paths, items, kept, hpaths', hkept, -⟩ := h.paths
        obtain rfl := Option.some.inj (hpaths.symm.trans hpaths')
        have hlength := h.length_le_one hd hpaths hkept
        rw [Graph.inside_of_entries? hkept] at hw hw'
        have hlt := (List.getElem?_eq_some_iff.1 hw).1
        have hlt' := (List.getElem?_eq_some_iff.1 hw').1
        rw [List.length_map] at hlt hlt'
        rw [show i = i' by omega]
      · rw [← hji hpaths, ← hji' hpaths]

/-! ### More paths -/

/-- The whole document has more paths than the narrowed one. -/
theorem widening (htree : d.TreeShaped) (hd : d.graph.DistinctKeys) (hslashed : d.SlashedPaths) :
    Widening ρ (d.otherPaths path) single d := by
  obtain ⟨paths, items, kept, hpaths, hkept, hitems, hfilter⟩ := h.paths
  have hpaths' : d.paths? = some (paths.rename ρ) := by rw [h.paths?_eq htree, hpaths, Option.map_some]
  have hothers : d.otherPaths path = items.filter fun e => e.1 ≠ .text path := by
    rw [otherPaths, hpaths', Option.bind_some, hitems, Option.getD_some]
  refine ⟨h.injective, h.root, ⟨paths, kept, items, hpaths, hkept, hitems, fun key hkey => ?_⟩,
    h.others, fun e he => ?_, h.treeShaped htree hd⟩
  · -- under a key that no other path has stands what is left
    rw [← valueAt?_renameEntries, hfilter, valueAt?_filter]
    intro e he heq
    by_contra hne
    refine hkey e ?_ heq
    rw [hothers]
    exact List.mem_filter.2 ⟨he, by simpa using hne⟩
  · rw [hothers] at he
    exact hslashed _ _ hpaths' hitems e (List.mem_of_mem_filter he)

/-- No path that is left is one of the others. -/
theorem lacks : single.Lacks (d.otherPaths path) := by
  intro paths kept hpaths hkept e he e' he' heq
  obtain ⟨paths', items, kept', hpaths', hkept', -, hfilter⟩ := h.paths
  obtain rfl := Option.some.inj (hpaths.symm.trans hpaths')
  obtain rfl := Option.some.inj (hkept.symm.trans hkept')
  have hmem : (e'.1, e'.2.rename ρ) ∈ renameEntries ρ kept := List.mem_map_of_mem he'
  rw [hfilter] at hmem
  have hkey : e'.1 = .text path := of_decide_eq_true (List.mem_filter.1 hmem).2
  have hne : e.1 ≠ .text path := of_decide_eq_true (List.mem_filter.1 he).2
  exact hne (heq ▸ hkey)

end NarrowsTo

/-! ## Under the same names -/

section OnlyPath

variable {path : String} {d : Document} {id : Nat} (hpaths : d.paths? = some (.container id))

include hpaths

theorem onlyPath_eq : d.onlyPath path =
    ⟨⟨d.graph.containers.modify id (Container.onlyKey path)⟩, d.root⟩ := by
  rw [onlyPath, hpaths]

/-- Apart from the paths every container keeps its shape. -/
theorem shape_onlyPath {v : Value} (hv : v ≠ .container id) :
    (d.onlyPath path).graph.shape v = d.graph.shape v := by
  rw [onlyPath_eq hpaths]
  cases v with
  | scalar s => rfl
  | container n =>
    have hne : id ≠ n := fun heq => hv (heq ▸ rfl)
    simp only [Graph.shape, Array.getElem?_modify, if_neg hne]

/-- Of the paths only the one is left. -/
theorem entries?_onlyPath {items : List (Scalar × Value)}
    (hitems : d.graph.entries? (.container id) = some items) :
    (d.onlyPath path).graph.entries? (.container id) =
      some (items.filter fun e => e.1 = .text path) := by
  have hget : d.graph.containers[id]? = some (.mapping items) := by
    obtain ⟨name, hshape⟩ := Graph.entries?_eq_some_iff.1 hitems
    unfold Graph.shape at hshape
    dsimp only at hshape
    split at hshape <;> cases hshape
    assumption
  rw [onlyPath_eq hpaths]
  simp only [Graph.entries?, Graph.shape, Array.getElem?_modify, if_pos, hget, Option.map_some,
    Container.onlyKey]

end OnlyPath

/-- A tree is narrowed to one path by deleting the others where they stand. -/
theorem narrowsTo_onlyPath {d : Document} {paths : Value} {items : List (Scalar × Value)}
    (htree : d.TreeShaped) (hpaths : d.paths? = some paths) (hitems : d.graph.entries? paths = some items)
    (path : String) : d.NarrowsTo id path (d.onlyPath path) := by
  obtain ⟨id, hshape⟩ := Graph.entries?_eq_some_iff.1 hitems
  obtain rfl := Resolver.eq_container_of_shape hshape
  obtain ⟨top, htop, -⟩ := Option.bind_eq_some_iff.1 hpaths
  have hne : d.root ≠ .container id := (htree.paths_ne_root htop hpaths).symm
  have hroot : (d.onlyPath path).root = d.root := by rw [onlyPath_eq hpaths]
  have hown : (d.onlyPath path).paths? = some (.container id) := by
    rw [← hpaths, Document.paths?, Document.paths?, hroot, Graph.entries?, Graph.entries?,
      shape_onlyPath hpaths hne]
  refine ⟨Function.injective_id, ?_, ⟨_, items, _, hown, entries?_onlyPath hpaths hitems, ?_, ?_⟩, ?_⟩
  · rw [hroot, Value.rename_id]
  · rw [Value.rename_id, hitems]
  · rw [renameEntries_id]
  · intro p v _ hv
    rw [Value.rename_id, Shape.rename_id]
    refine (shape_onlyPath hpaths fun heq => hv ?_).symm
    rw [hown, heq]

end Document

end RouteBinding
