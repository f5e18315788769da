import RouteBinding.Proofs.Growth.OfTree
import RouteBinding.Proofs.Outcome

/-!
# The trees of values

A value that reads back as a tree at some depth does so at the depth that the count of containers gives
(`Graph.toTree?_of_unfolds`). So a tree that is put into a store reads back as itself
(`Document.toTree?_ofTree`), and of any other store it is enough to know what each container holds
(`Graph.Unfolds.list`, `Graph.Unfolds.mapping`).
-/

namespace RouteBinding

/-! ## Entries side by side -/

section Entries

variable {β γ : Type} {R : β → γ → Prop} {es : List (Scalar × β)} {fs : List (Scalar × γ)}

/-- Two entries have the same key, and values that are related. -/
def SameEntry (R : β → γ → Prop) (e : Scalar × β) (f : Scalar × γ) : Prop :=
  e.1 = f.1 ∧ R e.2 f.2

/-- Entries stay the same in two lists when one is put into both. -/
theorem forall₂_putEntry (h : List.Forall₂ (SameEntry R) es fs) (key : Scalar) {b : β} {c : γ} (hbc : R b c) :
    List.Forall₂ (SameEntry R) (putEntry key b es) (putEntry key c fs) := by
  induction h with
  | nil => exact .cons ⟨rfl, hbc⟩ .nil
  | @cons e f _ _ hef hrest ih =>
    obtain ⟨k, v⟩ := e
    obtain ⟨k', v'⟩ := f
    obtain ⟨rfl, hv⟩ : k = k' ∧ R v v' := hef
    rw [putEntry, putEntry]
    split_ifs
    · exact .cons ⟨rfl, hbc⟩ hrest
    · exact .cons ⟨rfl, hv⟩ ih

/-- Which entries are merged depends on the keys alone. -/
theorem forall₂_mergeEntries (h : List.Forall₂ (SameEntry R) es fs) :
    List.Forall₂ (SameEntry R) (mergeEntries es) (mergeEntries fs) := by
  have hfold {merged : List (Scalar × β)} {merged' : List (Scalar × γ)}
      (hmerged : List.Forall₂ (SameEntry R) merged merged') :
      List.Forall₂ (SameEntry R) (es.foldl (fun merged e => putEntry e.1 e.2 merged) merged)
        (fs.foldl (fun merged e => putEntry e.1 e.2 merged) merged') := by
    induction h generalizing merged merged' with
    | nil => exact hmerged
    | @cons e f _ _ hef _ ih =>
      rw [List.foldl_cons, List.foldl_cons, hef.1]
      exact ih (forall₂_putEntry hmerged f.1 hef.2)
  exact hfold .nil

end Entries

namespace Graph

variable {g : Graph} {v : Value} {t : Tree} {n m : Nat}

/-! ## Reading at a depth -/

/-- A value reads back as a tree at a depth if what it holds does so one step less deep. -/
theorem isSome_treeWithin_succ :
    (g.treeWithin (n + 1) v).isSome ↔ ∀ w ∈ g.inside v, (g.treeWithin n w).isSome := by
  rw [treeWithin, inside]
  cases g.shape v with
  | scalar s => simp [Shape.held?]
  | list id items => simpa [Shape.held?] using isSome_mapM_iff
  | mapping id entries =>
    simp only [Shape.held?, Option.isSome_map, isSome_mapM_iff, Option.map_some, Option.getD_some,
      List.forall_mem_map]
  | set members => simp [Shape.held?]
  | pair id first second =>
    simp only [Shape.held?, Option.isSome_map, isSome_mapM_iff, Option.map_some, Option.getD_some]

/-- A tree that is found within a depth is found within a greater one. -/
theorem treeWithin_mono (hle : n ≤ m) (h : g.treeWithin n v = some t) : g.treeWithin m v = some t := by
  induction n generalizing m v t with
  | zero => cases h
  | succ n ih =>
    obtain ⟨k, rfl⟩ : ∃ k, m = k + 1 := ⟨m - 1, by omega⟩
    have hlist {items : List Value} {trees : List Tree} (hitems : items.mapM (g.treeWithin n) = some trees) :
        items.mapM (g.treeWithin k) = some trees :=
      mapM_eq_some_iff.2 ((mapM_eq_some_iff.1 hitems).imp fun _ _ => ih (by omega))
    rw [treeWithin] at h ⊢
    cases hshape : g.shape v with
    | scalar s => simpa only [hshape] using h
    | list id items =>
      simp only [hshape, Option.map_eq_some_iff] at h ⊢
      obtain ⟨trees, hitems, htree⟩ := h
      exact ⟨trees, hlist hitems, htree⟩
    | mapping id entries =>
      simp only [hshape, Option.map_eq_some_iff] at h ⊢
      obtain ⟨trees, hentries, htree⟩ := h
      refine ⟨trees, mapM_eq_some_iff.2 ((mapM_eq_some_iff.1 hentries).imp fun e f he => ?_), htree⟩
      obtain ⟨tree, hvalue, hpair⟩ := Option.map_eq_some_iff.1 he
      exact Option.map_eq_some_iff.2 ⟨tree, ih (by omega) hvalue, hpair⟩
    | set members => simpa only [hshape] using h
    | pair id first second =>
      simp only [hshape, Option.map_eq_some_iff] at h ⊢
      obtain ⟨trees, hitems, htree⟩ := h
      exact ⟨trees, hlist hitems, htree⟩

/-- The least depth at which a value reads back as a tree. -/
def TreeDepth (g : Graph) (v : Value) (n : Nat) : Prop :=
  (g.treeWithin (n + 1) v).isSome ∧ ¬(g.treeWithin n v).isSome

/-- Something inside a value needs one step less than the value does. -/
theorem TreeDepth.exists_inner (h : g.TreeDepth v (n + 1)) :
    ∃ id w, v = .container id ∧ id < g.size ∧ g.TreeDepth w n := by
  obtain ⟨hsome, hnone⟩ := h
  rw [isSome_treeWithin_succ] at hsome hnone
  simp only [not_forall] at hnone
  obtain ⟨w, hw, hnone⟩ := hnone
  obtain ⟨id, hv, hlt⟩ := exists_name_of_mem_inside hw
  exact ⟨id, w, hv, hlt, hsome w hw, hnone⟩

/-- No tree is deeper than there are containers. -/
theorem TreeDepth.le_size (h : g.TreeDepth v n) : n ≤ g.size := by
  have hmono {n m : Nat} {v : Value} (hle : n ≤ m) (hsome : (g.treeWithin n v).isSome) : (g.treeWithin m v).isSome := by
    obtain ⟨t, ht⟩ := Option.isSome_iff_exists.1 hsome
    exact Option.isSome_iff_exists.2 ⟨t, treeWithin_mono hle ht⟩
  exact le_size_of_least (fun n v => (g.treeWithin n v).isSome) hmono
    (fun hsome hnone => TreeDepth.exists_inner ⟨hsome, hnone⟩) h.1 h.2

/-! ## What a value unfolds to -/

/-- A value reads back as a tree at some depth. -/
def Unfolds (g : Graph) (v : Value) (t : Tree) : Prop :=
  ∃ n, g.treeWithin n v = some t

/-- What reads back at some depth does so within one more than the count of containers. -/
theorem toTree?_of_unfolds (h : g.Unfolds v t) : g.toTree? v = some t := by
  obtain ⟨n, hn⟩ := h
  induction n with
  | zero => cases hn
  | succ n ih =>
    by_cases hless : (g.treeWithin n v).isSome
    · obtain ⟨t', ht'⟩ := Option.isSome_iff_exists.1 hless
      have heq := treeWithin_mono (Nat.le_succ n) ht'
      rw [hn, Option.some.injEq] at heq
      exact ih (heq ▸ ht')
    · have hdepth : g.TreeDepth v n := ⟨Option.isSome_iff_exists.2 ⟨t, hn⟩, hless⟩
      exact treeWithin_mono (Nat.succ_le_succ hdepth.le_size) hn

theorem unfolds_scalar (g : Graph) (s : Scalar) : g.Unfolds (.scalar s) (.scalar s) :=
  ⟨1, rfl⟩

/-- One depth is enough for all the values that stand in a list. -/
theorem exists_depth {α β : Type} (same : α → β → Prop) (value : α → Value) (tree : β → Tree)
    {l : List α} {r : List β} (h : List.Forall₂ (fun a b => same a b ∧ g.Unfolds (value a) (tree b)) l r) :
    ∃ n, List.Forall₂ (fun a b => same a b ∧ g.treeWithin n (value a) = some (tree b)) l r := by
  induction h with
  | nil => exact ⟨0, .nil⟩
  | cons ha _ ih =>
    obtain ⟨hsame, n, hn⟩ := ha
    obtain ⟨m, hm⟩ := ih
    exact ⟨max n m, .cons ⟨hsame, treeWithin_mono (Nat.le_max_left n m) hn⟩
      (hm.imp fun _ _ h => ⟨h.1, treeWithin_mono (Nat.le_max_right n m) h.2⟩)⟩

/-- A list unfolds into the trees of its values. -/
theorem Unfolds.list {id : Nat} {values : List Value} {trees : List Tree}
    (hget : g.containers[id]? = some (.list values)) (h : List.Forall₂ g.Unfolds values trees) :
    g.Unfolds (.container id) (.list trees) := by
  obtain ⟨n, hn⟩ := exists_depth (fun _ _ => True) (fun v => v) (fun t => t)
    (h.imp fun _ _ hv => ⟨trivial, hv⟩)
  refine ⟨n + 1, ?_⟩
  rw [treeWithin, shape, hget]
  exact congrArg (Option.map Tree.list) (mapM_eq_some_iff.2 (hn.imp fun _ _ hv => hv.2))

/-- A mapping unfolds into the trees of its values. -/
theorem Unfolds.mapping {id : Nat} {entries : List (Scalar × Value)} {fields : List (Scalar × Tree)}
    (hget : g.containers[id]? = some (.mapping entries))
    (h : List.Forall₂ (SameEntry g.Unfolds) entries fields) :
    g.Unfolds (.container id) (.mapping fields) := by
  obtain ⟨n, hn⟩ := exists_depth (fun e f => e.1 = f.1) Prod.snd Prod.snd h
  refine ⟨n + 1, ?_⟩
  rw [treeWithin, shape, hget]
  refine congrArg (Option.map Tree.mapping) (mapM_eq_some_iff.2 (hn.imp fun e f he => ?_))
  rw [he.1, he.2]
  rfl

/-! ## Trees put into a store -/

/-- A store that holds what another one does, under the same names. -/
def Extends (g' g : Graph) : Prop :=
  g.containers.toList <+: g'.containers.toList

/-- A graph is extended by what is added. -/
theorem Adds.extends {values : List Value} {g₁ : Graph} (h : g.Adds g₁ values) : g₁.Extends g := by
  obtain ⟨added, hadded, -⟩ := h
  exact ⟨added, hadded.symm⟩

/-- A container that was pushed stays where it is. -/
theorem Extends.getElem? {g' : Graph} {c : Container} (h : g'.Extends (g.push c).1) :
    g'.containers[g.size]? = some c := by
  obtain ⟨more, hmore⟩ := h
  rw [push_containers] at hmore
  rw [← Array.getElem?_toList, ← hmore, List.append_assoc, size_eq_length,
    List.getElem?_append_right (Nat.le_refl _), Nat.sub_self]
  rfl

theorem Extends.of_push {g' : Graph} {c : Container} (h : g'.Extends (g.push c).1) : g'.Extends g := by
  refine List.IsPrefix.trans ?_ h
  rw [push_containers]
  exact List.prefix_append _ _

-- A container stays where it is put; so what the rest of a list adds behind it does not matter.
mutual

/-- A tree that is added unfolds into itself. -/
theorem unfolds_ofTree {g g' : Graph} {t : Tree} (h : g'.Extends (g.ofTree t).1) :
    g'.Unfolds (g.ofTree t).2 t := by
  cases t with
  | scalar s => exact unfolds_scalar _ _
  | list items =>
    rw [ofTree] at h ⊢
    exact Unfolds.list h.getElem? (unfolds_ofItems h.of_push)
  | mapping entries =>
    rw [ofTree] at h ⊢
    exact Unfolds.mapping h.getElem? (unfolds_ofEntries h.of_push)

theorem unfolds_ofItems {g g' : Graph} {items : List Tree} (h : g'.Extends (g.ofItems items).1) :
    List.Forall₂ g'.Unfolds (g.ofItems items).2 items := by
  cases items with
  | nil => exact .nil
  | cons item rest =>
    rw [ofItems] at h ⊢
    exact .cons (unfolds_ofTree ((adds_ofItems _ rest).extends.trans h)) (unfolds_ofItems h)

theorem unfolds_ofEntries {g g' : Graph} {entries : List (Scalar × Tree)}
    (h : g'.Extends (g.ofEntries entries).1) :
    List.Forall₂ (SameEntry g'.Unfolds) (g.ofEntries entries).2 entries := by
  cases entries with
  | nil => exact .nil
  | cons e rest =>
    rw [ofEntries] at h ⊢
    exact .cons ⟨rfl, unfolds_ofTree ((adds_ofEntries _ rest).extends.trans h)⟩ (unfolds_ofEntries h)

end

end Graph

/-- The document of a tree reads back as the tree. -/
theorem Document.toTree?_ofTree (t : Tree) : (ofTree t).graph.toTree? (ofTree t).root = some t :=
  Graph.toTree?_of_unfolds (Graph.unfolds_ofTree (List.prefix_refl _))

end RouteBinding
