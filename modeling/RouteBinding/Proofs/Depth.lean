import Mathlib.Data.List.Perm.Subperm
import RouteBinding.Proofs.Data.Graph
import RouteBinding.Proofs.Schema.Reading
import RouteBinding.Schema.Resolver

/-!
# Depths that are never used up

Some ways through a document are bounded by the count of its containers. That many steps are always enough, so that
the bound itself says nothing: the literal form of a value (`Graph.literalWithin?_depth`), whether a value can be a key
(`Graph.canBeKeyWithin_depth`) and what references lead to (`Resolver.followObject_fuel`) are the same for every
larger one.
-/

namespace RouteBinding

/-- A list of names below a bound in which none comes twice is no longer than the bound. -/
theorem length_le_of_nodup {l : List Nat} {n : Nat} (hnodup : l.Nodup) (hlt : ∀ a ∈ l, a < n) :
    l.length ≤ n := by
  have hsub : l ⊆ List.range n := fun a ha => List.mem_range.2 (hlt a ha)
  have hlength := (List.subperm_of_subset hnodup hsub).length_le
  rwa [List.length_range] at hlength

/-- The name of a container that holds values, and what it holds. -/
def Shape.held? : Shape → Option (Nat × List Value)
  | .scalar _ => none
  | .list id items => some (id, items)
  | .mapping id entries => some (id, entries.map (·.2))
  | .set _ => none
  | .pair id first second => some (id, [first, second])

namespace Graph

variable {g : Graph} {v : Value} {depth depth' : Nat}

theorem lt_size_of_held? {id : Nat} {values : List Value} (h : (g.shape v).held? = some (id, values)) :
    id < g.size := by
  unfold shape at h
  split at h
  · cases h
  · split at h
    · rename_i hget
      cases h
      exact (Array.getElem?_eq_some_iff.1 hget).1
    · rename_i hget
      cases h
      exact (Array.getElem?_eq_some_iff.1 hget).1
    · cases h
    · rename_i hget
      cases h
      exact (Array.getElem?_eq_some_iff.1 hget).1
    · cases h

/-! ## Literal forms -/

/-- No container is among its outer ones twice, so every depth that is enough for them gives the same text. -/
theorem literalWithin?_depth {outer : List Nat} (hnodup : outer.Nodup)
    (hlt : ∀ id ∈ outer, id < g.size) (h : g.size < depth + outer.length)
    (h' : g.size < depth' + outer.length) :
    g.literalWithin? depth outer v = g.literalWithin? depth' outer v := by
  have hlength := length_le_of_nodup hnodup hlt
  induction depth generalizing depth' outer v with
  | zero => omega
  | succ depth ih =>
    cases depth' with
    | zero => omega
    | succ depth' =>
      -- one more container is among the outer ones, and one step of each depth is gone
      have hinner {id : Nat} {values : List Value} (hheld : (g.shape v).held? = some (id, values))
          (hid : ¬ outer.contains id) (w : Value) :
          g.literalWithin? depth (id :: outer) w = g.literalWithin? depth' (id :: outer) w := by
        have hnodup' : (id :: outer).Nodup := by
          refine List.nodup_cons.2 ⟨fun hmem => hid ?_, hnodup⟩
          exact List.contains_iff_mem.2 hmem
        have hlt' : ∀ i ∈ id :: outer, i < g.size :=
          List.forall_mem_cons.2 ⟨lt_size_of_held? hheld, hlt⟩
        refine ih hnodup' hlt' ?_ ?_ (length_le_of_nodup hnodup' hlt')
        · rw [List.length_cons]
          omega
        · rw [List.length_cons]
          omega
      rw [literalWithin?, literalWithin?]
      cases hshape : g.shape v with
      | scalar s => rfl
      | list id items =>
        rw [hshape] at hinner
        dsimp only
        split_ifs with hid
        · rfl
        · rw [mapM_congr fun w _ => hinner rfl hid w]
      | mapping id entries =>
        rw [hshape] at hinner
        dsimp only
        split_ifs with hid
        · rfl
        · rw [mapM_congr fun e _ => by rw [hinner rfl hid e.2]]
      | set members => rfl
      | pair id first second =>
        rw [hshape] at hinner
        dsimp only
        split_ifs with hid
        · rfl
        · rw [mapM_congr fun w _ => hinner rfl hid w]

/-! ## Least depths -/

/-- Something that is seen of a value within some depth, and of what stands inside it one step sooner, is seen within
one more than the count of containers: on the way down each container is seen at another least depth. -/
theorem le_size_of_least (Q : Nat → Value → Prop) (hmono : ∀ {n m : Nat} {v : Value}, n ≤ m → Q n v → Q m v)
    (hinner : ∀ {n : Nat} {v : Value}, Q (n + 2) v → ¬ Q (n + 1) v →
      ∃ id w, v = .container id ∧ id < g.size ∧ Q (n + 1) w ∧ ¬ Q n w)
    {n : Nat} (h : Q (n + 1) v) (hleast : ¬ Q n v) : n ≤ g.size := by
  have hnames : ∃ l : List Nat, l.length = n ∧ l.Nodup ∧ ∀ id ∈ l, id < g.size ∧ Q (n + 1) (.container id) := by
    induction n generalizing v with
    | zero => exact ⟨[], rfl, List.nodup_nil, fun id hid => (List.not_mem_nil hid).elim⟩
    | succ n ih =>
      obtain ⟨id, w, rfl, hlt, hw, hwleast⟩ := hinner h hleast
      obtain ⟨l, hlength, hnodup, hl⟩ := ih hw hwleast
      -- the containers further down are seen within a depth in which this one is not
      have hnew : id ∉ l := fun hmem => hleast (hl id hmem).2
      refine ⟨id :: l, by rw [List.length_cons, hlength], List.nodup_cons.2 ⟨hnew, hnodup⟩, fun i hi => ?_⟩
      rcases List.mem_cons.1 hi with rfl | hi
      · exact ⟨hlt, h⟩
      · exact ⟨(hl i hi).1, hmono (Nat.le_succ _) (hl i hi).2⟩
  obtain ⟨l, rfl, hnodup, hl⟩ := hnames
  exact length_le_of_nodup hnodup fun id hid => (hl id hid).1

/-! ## Keys -/

theorem canBeKeyWithin_mono (hle : depth ≤ depth') (h : g.canBeKeyWithin depth v = true) :
    g.canBeKeyWithin depth' v = true := by
  induction depth generalizing depth' v with
  | zero => cases h
  | succ depth ih =>
    obtain ⟨k, rfl⟩ : ∃ k, depth' = k + 1 := ⟨depth' - 1, by omega⟩
    rw [canBeKeyWithin] at h ⊢
    cases hshape : g.shape v with
    | scalar s => rfl
    | pair id first second =>
      rw [hshape] at h
      simp only [Bool.and_eq_true] at h ⊢
      exact ⟨ih (by omega) h.1, ih (by omega) h.2⟩
    | list id items => rw [hshape] at h; cases h
    | mapping id entries => rw [hshape] at h; cases h
    | set members => rw [hshape] at h; cases h

/-- The least depth within which a value is seen to be a key. -/
def KeyDepth (g : Graph) (v : Value) (n : Nat) : Prop :=
  g.canBeKeyWithin (n + 1) v = true ∧ g.canBeKeyWithin n v = false

/-- What a pair holds is seen to be a key one step before the pair is, or sooner. -/
theorem KeyDepth.exists_inner {n : Nat} (h : g.KeyDepth v (n + 1)) :
    ∃ id w, v = .container id ∧ id < g.size ∧ g.KeyDepth w n := by
  obtain ⟨htrue, hfalse⟩ := h
  rw [canBeKeyWithin] at htrue hfalse
  cases hshape : g.shape v with
  | scalar s => rw [hshape] at hfalse; cases hfalse
  | pair id first second =>
    rw [hshape] at htrue hfalse
    simp only [Bool.and_eq_true] at htrue
    simp only [Bool.and_eq_false_iff] at hfalse
    have hlt : id < g.size := lt_size_of_held? (by rw [hshape]; rfl)
    have hv : v = .container id := by
      unfold shape at hshape
      split at hshape
      · cases hshape
      · split at hshape <;> cases hshape
        rfl
    rcases hfalse with hfirst | hsecond
    · exact ⟨id, first, hv, hlt, htrue.1, hfirst⟩
    · exact ⟨id, second, hv, hlt, htrue.2, hsecond⟩
  | list id items => rw [hshape] at htrue; cases htrue
  | mapping id entries => rw [hshape] at htrue; cases htrue
  | set members => rw [hshape] at htrue; cases htrue

theorem KeyDepth.le_size {n : Nat} (h : g.KeyDepth v n) : n ≤ g.size := by
  refine le_size_of_least (fun n v => g.canBeKeyWithin n v = true) canBeKeyWithin_mono
    (fun {n v} htrue hfalse => ?_) h.1 (Bool.eq_false_iff.1 h.2)
  obtain ⟨id, w, hv, hlt, hw⟩ := KeyDepth.exists_inner ⟨htrue, Bool.eq_false_iff.2 hfalse⟩
  exact ⟨id, w, hv, hlt, hw.1, Bool.eq_false_iff.1 hw.2⟩

/-- A value that is seen to be a key at all is so within one more than the count of containers. -/
theorem canBeKey_of_canBeKeyWithin (h : g.canBeKeyWithin depth v = true) : g.canBeKey v = true := by
  induction depth with
  | zero => cases h
  | succ depth ih =>
    cases hfalse : g.canBeKeyWithin depth v with
    | true => exact ih hfalse
    | false =>
      have hdepth : g.KeyDepth v depth := ⟨h, hfalse⟩
      exact canBeKeyWithin_mono (Nat.succ_le_succ hdepth.le_size) h

/-- Every depth that is greater than the count of containers gives the same answer. -/
theorem canBeKeyWithin_depth (h : g.size < depth) : g.canBeKeyWithin depth v = g.canBeKey v := by
  cases hkey : g.canBeKey v with
  | true => exact canBeKeyWithin_mono h hkey
  | false =>
    refine Bool.eq_false_iff.2 fun htrue => ?_
    rw [canBeKey_of_canBeKeyWithin htrue] at hkey
    cases hkey

/-! ## References -/

/-- The text that a container refers with, if it is a mapping that does. -/
def referenceOf? (g : Graph) (id : Nat) : Option String :=
  ((g.entries? (.container id)).bind (valueAt? "$ref")).bind Value.text?

/-- The texts that the mappings of a graph refer with. -/
def references (g : Graph) : List String :=
  (List.range g.size).filterMap g.referenceOf?

theorem mem_references {entries : List (Scalar × Value)} {target : String}
    (hv : g.entries? v = some entries) (ht : valueAt? "$ref" entries = some (.scalar (.text target))) :
    target ∈ g.references := by
  obtain ⟨id, hshape⟩ := entries?_eq_some_iff.1 hv
  obtain rfl := Resolver.eq_container_of_shape hshape
  refine List.mem_filterMap.2 ⟨id, List.mem_range.2 (lt_size_of_shape_mapping hshape), ?_⟩
  simp only [referenceOf?, hv, ht, Option.bind_some, Value.text?, Scalar.text?]

/-- There are no more different references than there are containers. -/
theorem length_le_of_references {l : List String} (hnodup : l.Nodup) (hsub : l ⊆ g.references) :
    l.length ≤ g.size := by
  have hlength := (List.subperm_of_subset hnodup hsub).length_le
  have hle := List.length_filterMap_le g.referenceOf? (List.range g.size)
  rw [List.length_range] at hle
  exact Nat.le_trans hlength hle

end Graph

namespace Resolver

variable {d : Document} {fuel fuel' : Nat} {chain : List String} {raw : Value} {pointer : String}

/-- No reference is followed twice, so every bound that is enough for those followed leads to the same object. -/
theorem followObject_fuel (hnodup : chain.Nodup) (hsub : chain ⊆ d.graph.references)
    (h : d.graph.size < fuel + chain.length) (h' : d.graph.size < fuel' + chain.length) :
    followObject d fuel chain raw pointer = followObject d fuel' chain raw pointer := by
  have hlength := Graph.length_le_of_references hnodup hsub
  induction fuel generalizing fuel' chain raw pointer with
  | zero => omega
  | succ fuel ih =>
    cases fuel' with
    | zero => omega
    | succ fuel' =>
      rw [followObject, followObject]
      cases hentries : d.graph.entries? raw with
      | none => rfl
      | some entries =>
        dsimp only
        cases href : valueAt? "$ref" entries with
        | none => rfl
        | some reference =>
          cases reference with
          | container id => rfl
          | scalar s =>
            cases s with
            | text target =>
              dsimp only
              split_ifs with hseen
              · rfl
              · cases d.find target with
                | error e => rfl
                | ok next =>
                  have hnodup' : (target :: chain).Nodup := by
                    refine List.nodup_cons.2 ⟨fun hmem => hseen ?_, hnodup⟩
                    exact List.contains_iff_mem.2 hmem
                  have hsub' : target :: chain ⊆ d.graph.references :=
                    List.cons_subset.2 ⟨Graph.mem_references hentries href, hsub⟩
                  refine ih hnodup' hsub' ?_ ?_ (Graph.length_le_of_references hnodup' hsub')
                  · rw [List.length_cons]
                    omega
                  · rw [List.length_cons]
                    omega
            | _ => rfl

end Resolver

end RouteBinding
