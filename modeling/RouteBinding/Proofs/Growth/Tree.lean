import Mathlib.Data.List.Nodup
import Mathlib.Data.List.Pairwise
import RouteBinding.Proofs.Depth
import RouteBinding.Proofs.Standing

/-!
# Documents that are trees

A value stands at the top of a document or at a place inside a container that stands in it (`Document.Place`). In a
tree no mapping stands at two places (`Document.TreeShaped`). The mapping of the paths then stands under its key at
the top and nowhere else, and the top stands nowhere inside: what a schema or an operation reads is apart from both
(`Document.Apart`).
-/

namespace RouteBinding

/-! ## Places -/

/-- Of the members of a list that are not left out, none stands at two places if none is twice among them. -/
theorem index_unique {α : Type} {p : α → Bool} {l : List α} (h : (l.filter p).Nodup)
    {a : α} (ha : p a) {i j : Nat} (hi : l[i]? = some a) (hj : l[j]? = some a) : i = j := by
  have hpair := List.pairwise_filter.1 h
  rw [List.pairwise_iff_getElem] at hpair
  obtain ⟨hilt, rfl⟩ := List.getElem?_eq_some_iff.1 hi
  obtain ⟨hjlt, heq⟩ := List.getElem?_eq_some_iff.1 hj
  rcases Nat.lt_trichotomy i j with hlt | rfl | hlt
  · exact absurd heq.symm (hpair i j hilt hjlt hlt ha (by rwa [heq]))
  · rfl
  · exact absurd heq (hpair j i hjlt hilt hlt (by rwa [heq]) ha)

/-- The values that stand inside a value, in order. -/
def Graph.inside (g : Graph) (v : Value) : List Value :=
  ((g.shape v).held?.map (·.2)).getD []

/-- Inside a mapping stand its values. -/
theorem Graph.inside_of_entries? {g : Graph} {v : Value} {entries : List (Scalar × Value)}
    (h : g.entries? v = some entries) : g.inside v = entries.map (·.2) := by
  obtain ⟨id, hshape⟩ := Graph.entries?_eq_some_iff.1 h
  simp only [inside, hshape, Shape.held?, Option.map_some, Option.getD_some]

/-- Only a container of the store holds values. -/
theorem Graph.exists_name_of_mem_inside {g : Graph} {v w : Value} (h : w ∈ g.inside v) :
    ∃ id, v = .container id ∧ id < g.size := by
  cases v with
  | scalar s => cases h
  | container id =>
    refine ⟨id, rfl, ?_⟩
    unfold Graph.inside at h
    cases hheld : (g.shape (.container id)).held? with
    | none => rw [hheld] at h; cases h
    | some found =>
      by_contra hsize
      have hget : g.containers[id]? = none := Array.getElem?_eq_none (Nat.not_lt.1 hsize)
      simp [Graph.shape, hget, Shape.held?] at hheld

/-- Whether a value is a scalar or a container with a name below a bound. -/
def Value.isBelow (n : Nat) : Value → Bool
  | .scalar _ => true
  | .container id => id < n

/-- Whether every container that a document names is in its store. -/
def Document.isClosed (d : Document) : Bool :=
  (d.root :: (List.range d.graph.size).flatMap fun id => d.graph.inside (.container id)).all
    (Value.isBelow d.graph.size)

namespace Document

/-- A value of a document and its place: none for the document itself, else the container around it and the place
inside that. -/
inductive Place (d : Document) : Option (Value × Nat) → Value → Prop
  | root : Place d none d.root
  | inside {p : Option (Value × Nat)} {v w : Value} {i : Nat} (h : Place d p v)
    (hw : (d.graph.inside v)[i]? = some w) : Place d (some (v, i)) w

/-- No mapping of a document stands at two places. -/
def TreeShaped (d : Document) : Prop :=
  ∀ v p q, (d.graph.entries? v).isSome → d.Place p v → d.Place q v → p = q

/-- The paths of a document. -/
def paths? (d : Document) : Option Value :=
  (d.graph.entries? d.root).bind (valueAt? "paths")

/-- A value that is neither the whole document nor its paths: a scalar, or what stands elsewhere. -/
inductive Apart (d : Document) : Value → Prop
  | scalar (s : Scalar) : Apart d (.scalar s)
  | placed {v : Value} {p : Option (Value × Nat)} (h : d.Place p v) (hroot : v ≠ d.root)
    (hpaths : d.paths? ≠ some v) : Apart d v

/-- A value that a pointer may lead to. -/
def Referable (d : Document) (v : Value) : Prop :=
  d.Apart v ∨ d.paths? = some v

/-- A document is a tree if its store names every mapping once, where the document itself is named too. -/
theorem treeShaped_of_nodup {d : Document}
    (h : ((d.root :: (List.range d.graph.size).flatMap fun id => d.graph.inside (.container id)).filter
      fun v => (d.graph.entries? v).isSome).Nodup) : d.TreeShaped := by
  intro v p q hv hp hq
  -- what stands inside a container is named in the store after the document itself
  have hnamed {u w : Value} {i : Nat} (hw : (d.graph.inside u)[i]? = some w) :
      ∃ id, u = .container id ∧ id ∈ List.range d.graph.size := by
    obtain ⟨id, hu, hid⟩ := Graph.exists_name_of_mem_inside (List.mem_of_getElem? hw)
    exact ⟨id, hu, List.mem_range.2 hid⟩
  have hroot {u : Value} {i : Nat} (hw : (d.graph.inside u)[i]? = some v) : v ≠ d.root := by
    rintro rfl
    obtain ⟨id, rfl, hid⟩ := hnamed hw
    rw [List.filter_cons, if_pos hv] at h
    refine (List.nodup_cons.1 h).1 (List.mem_filter.2 ⟨?_, hv⟩)
    exact List.mem_flatMap.2 ⟨id, hid, List.mem_of_getElem? hw⟩
  cases hp with
  | root =>
    cases hq with
    | root => rfl
    | inside _ hw => exact absurd rfl (hroot hw)
  | @inside _ u _ i _ hw =>
    cases hq with
    | root => exact absurd rfl (hroot hw)
    | @inside _ u' _ j _ hw' =>
      obtain ⟨id, rfl, hid⟩ := hnamed hw
      obtain ⟨id', rfl, hid'⟩ := hnamed hw'
      have hstore := h.sublist ((List.sublist_cons_self _ _).filter _)
      rw [List.filter_flatMap, List.nodup_flatMap] at hstore
      obtain ⟨honce, hapart⟩ := hstore
      have heq : id = id' := by
        by_contra hne
        have : Std.Symm (Function.onFun List.Disjoint fun id =>
            (d.graph.inside (.container id)).filter fun v => (d.graph.entries? v).isSome) :=
          ⟨fun _ _ hdisjoint _ ha ha' => hdisjoint ha' ha⟩
        have hdisjoint := hapart.forall hid hid' hne
        exact hdisjoint (List.mem_filter.2 ⟨List.mem_of_getElem? hw, hv⟩)
          (List.mem_filter.2 ⟨List.mem_of_getElem? hw', hv⟩)
      subst heq
      rw [index_unique (honce id hid) hv hw hw']

/-- What stands in a document that names only containers in its store is a scalar or one of those. -/
theorem isBelow_of_place {d : Document} (h : d.isClosed) {p : Option (Value × Nat)} {v : Value}
    (hv : d.Place p v) : v.isBelow d.graph.size := by
  rw [isClosed, List.all_eq_true] at h
  cases hv with
  | root => exact h _ List.mem_cons_self
  | inside _ hw =>
    have hmem := List.mem_of_getElem? hw
    obtain ⟨id, rfl, hid⟩ := Graph.exists_name_of_mem_inside hmem
    exact h _ (List.mem_cons_of_mem _ (List.mem_flatMap.2 ⟨id, List.mem_range.2 hid, hmem⟩))

section Tree

variable {d : Document} {v w : Value} {p : Option (Value × Nat)} {i : Nat}
  {top items : List (Scalar × Value)} {paths : Value}

/-- A document stands nowhere inside itself. -/
theorem TreeShaped.ne_root (hd : d.TreeShaped) (htop : (d.graph.entries? d.root).isSome)
    (hv : d.Place p v) (hw : w ∈ d.graph.inside v) : w ≠ d.root := by
  rintro rfl
  obtain ⟨i, hi⟩ := List.mem_iff_getElem?.1 hw
  cases hd _ _ _ htop .root (hv.inside hi)

/-- What stands at a place of the document's own mapping. -/
theorem place_of_mem_top (htop : d.graph.entries? d.root = some top) {e : Scalar × Value}
    (he : top[i]? = some e) : d.Place (some (d.root, i)) e.2 := by
  refine Place.root.inside ?_
  rw [Graph.inside_of_entries? htop, List.getElem?_map, he, Option.map_some]

/-- The paths stand at the top, under their key. -/
theorem exists_place_of_paths (htop : d.graph.entries? d.root = some top)
    (hpaths : d.paths? = some paths) :
    ∃ i, top[i]? = some (.text "paths", paths) ∧ d.Place (some (d.root, i)) paths := by
  simp only [paths?, htop, Option.bind_some] at hpaths
  obtain ⟨i, hi⟩ := List.mem_iff_getElem?.1 (mem_of_valueAt? hpaths)
  exact ⟨i, hi, place_of_mem_top htop hi⟩

/-- Where the paths stand. -/
theorem TreeShaped.place_eq (hd : d.TreeShaped) (htop : d.graph.entries? d.root = some top)
    (hpaths : d.paths? = some paths) (hitems : (d.graph.entries? paths).isSome)
    (hp : d.Place p paths) : ∃ i, p = some (d.root, i) ∧ top[i]? = some (.text "paths", paths) := by
  obtain ⟨i, hi, hplace⟩ := exists_place_of_paths htop hpaths
  exact ⟨i, hd _ _ _ hitems hp hplace, hi⟩

theorem TreeShaped.paths_ne_root (hd : d.TreeShaped) (htop : d.graph.entries? d.root = some top)
    (hpaths : d.paths? = some paths) : paths ≠ d.root := by
  rintro rfl
  obtain ⟨i, -, hplace⟩ := exists_place_of_paths htop hpaths
  cases hd _ _ _ (by rw [htop]; rfl) .root hplace

/-- What stands inside something that a pointer may lead to is apart. -/
theorem TreeShaped.apart_of_inside (hd : d.TreeShaped) (htop : d.graph.entries? d.root = some top)
    (hpaths : d.paths? = some paths) (hitems : (d.graph.entries? paths).isSome)
    (hv : d.Referable v) (hw : w ∈ d.graph.inside v) : d.Apart w := by
  have hplaced : ∃ p, d.Place p v ∧ v ≠ d.root := by
    rcases hv with hv | hv
    · cases hv with
      | scalar s => cases hw
      | placed h hroot _ => exact ⟨_, h, hroot⟩
    · obtain ⟨i, -, hplace⟩ := exists_place_of_paths htop hv
      exact ⟨_, hplace, hd.paths_ne_root htop hv⟩
  obtain ⟨p, hplace, hne⟩ := hplaced
  obtain ⟨i, hi⟩ := List.mem_iff_getElem?.1 hw
  refine .placed (hplace.inside hi) (hd.ne_root (by rw [htop]; rfl) hplace hw) fun hwpaths => ?_
  rw [hpaths] at hwpaths
  cases hwpaths
  obtain ⟨j, hj, -⟩ := hd.place_eq htop hpaths hitems (hplace.inside hi)
  cases hj
  exact hne rfl

/-- What stands at the top under another key than that of the paths is apart. -/
theorem TreeShaped.apart_of_top (hd : d.TreeShaped) (htop : d.graph.entries? d.root = some top)
    (hpaths : d.paths? = some paths) (hitems : (d.graph.entries? paths).isSome) {key : String}
    (hkey : key ≠ "paths") (hv : valueAt? key top = some v) : d.Apart v := by
  obtain ⟨i, hi⟩ := List.mem_iff_getElem?.1 (mem_of_valueAt? hv)
  have hplace := place_of_mem_top htop hi
  refine .placed hplace ?_ fun hvpaths => ?_
  · rintro rfl
    cases hd _ _ _ (by rw [htop]; rfl) .root hplace
  · rw [hpaths] at hvpaths
    cases hvpaths
    obtain ⟨j, hj, hentry⟩ := hd.place_eq htop hpaths hitems hplace
    cases hj
    rw [hi] at hentry
    cases hentry
    exact hkey rfl

end Tree

end Document

end RouteBinding
