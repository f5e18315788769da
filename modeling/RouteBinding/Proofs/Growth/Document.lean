import RouteBinding.Proofs.Alongside
import RouteBinding.Proofs.Growth.Tree

/-!
# Documents that grow

A document grows if entries are added at the end of its paths (`Document.Grows`). The grown document may give other
names to the containers, and what is added may be anything. Where an addition stands among the paths does not matter to
what is read at any other place (`Widening`): every value that is apart from the paths reads just as before, and every
reference that enters nothing that was added leads where it led (`Widening.find_rename`).
-/

namespace RouteBinding

/-! ## Other names -/

/-- A value of which the container has another name. -/
def Value.rename (ρ : Nat → Nat) : Value → Value
  | .scalar s => .scalar s
  | .container id => .container (ρ id)

/-- Entries of which the values have other names. -/
def renameEntries (ρ : Nat → Nat) (entries : List (Scalar × Value)) : List (Scalar × Value) :=
  entries.map fun e => (e.1, e.2.rename ρ)

/-- What a value is seen to be if containers have other names. -/
def Shape.rename (ρ : Nat → Nat) : Shape → Shape
  | .scalar s => .scalar s
  | .list id items => .list (ρ id) (items.map (Value.rename ρ))
  | .mapping id entries => .mapping (ρ id) (renameEntries ρ entries)
  | .set members => .set members
  | .pair id first second => .pair (ρ id) (first.rename ρ) (second.rename ρ)

/-- What stands at a key is changed with the values. -/
theorem valueAt?_map {α β : Type} (f : α → β) (key : String) (entries : List (Scalar × α)) :
    valueAt? key (entries.map fun e => (e.1, f e.2)) = (valueAt? key entries).map f := by
  induction entries with
  | nil => rfl
  | cons e rest ih =>
    rcases e with ⟨k, v⟩
    rw [List.map_cons, valueAt?, valueAt?, ih]
    split_ifs <;> rfl

/-- What stands at a key is renamed with the entries. -/
theorem valueAt?_renameEntries (ρ : Nat → Nat) (key : String) (entries : List (Scalar × Value)) :
    valueAt? key (renameEntries ρ entries) = (valueAt? key entries).map (Value.rename ρ) :=
  valueAt?_map _ key entries

/-- What stands under a key that no added entry has stands under it in the entries before. -/
theorem valueAt?_append {α : Type} {key : String} {entries added : List (Scalar × α)}
    (h : ∀ e ∈ added, e.1 ≠ .text key) : valueAt? key (entries ++ added) = valueAt? key entries := by
  induction entries with
  | nil =>
    induction added with
    | nil => rfl
    | cons e rest ih =>
      rcases e with ⟨k, v⟩
      obtain ⟨hkey, hrest⟩ := List.forall_mem_cons.1 h
      show (if k = .text key then some v else valueAt? key rest) = none
      rw [if_neg hkey]
      exact ih hrest
  | cons e rest ih =>
    rcases e with ⟨k, v⟩
    rw [List.cons_append, valueAt?, valueAt?, ih]

@[simp] theorem Value.text?_rename (ρ : Nat → Nat) (v : Value) : (v.rename ρ).text? = v.text? := by
  cases v <;> rfl

@[simp] theorem Value.rename_eq_scalar {ρ : Nat → Nat} {v : Value} {s : Scalar} :
    v.rename ρ = .scalar s ↔ v = .scalar s := by
  cases v <;> simp [Value.rename]

/-! ## Growth -/

/-- A document with entries added at the end of its paths. The keys of the added entries start with a slash; the
containers that were there before may have got other names. -/
structure Document.Grows (ρ : Nat → Nat) (added : List (Scalar × Value)) (d d' : Document) : Prop where
  injective : Function.Injective ρ
  root : d'.root = d.root.rename ρ
  paths : ∃ paths items, d.paths? = some paths ∧ d.graph.entries? paths = some items ∧
    d'.graph.entries? (paths.rename ρ) = some (renameEntries ρ items ++ added)
  others : ∀ p v, d.Place p v → d.paths? ≠ some v →
    d'.graph.shape (v.rename ρ) = (d.graph.shape v).rename ρ
  keys : ∀ e ∈ added, ∃ path : String, e.1 = .text path ∧ path.toList.head? = some '/'

/-- A pointer enters added paths: it goes on below the paths with the key of one of them. -/
def Pointer.Enters (added : List (Scalar × Value)) (pointer : String) : Prop :=
  ∃ key rest, keys? pointer = some ("paths" :: key :: rest) ∧ ∃ e ∈ added, e.1 = .text key

/-- No reference in a document enters added paths. -/
def Document.KeepsOut (added : List (Scalar × Value)) (d : Document) : Prop :=
  ∀ p v entries target, d.Place p v → d.graph.entries? v = some entries →
    valueAt? "$ref" entries = some (.scalar (.text target)) → ¬ Pointer.Enters added target

/-- A tree grows in its paths, and no reference in it enters what is added. -/
structure Growth (ρ : Nat → Nat) (added : List (Scalar × Value)) (d d' : Document) : Prop
    extends d.Grows ρ added d' where
  tree : d.TreeShaped
  references : d.KeepsOut added

/-- A tree and a document with more paths, be they at the end or between those from before. Under a key that no added
entry has stands what stood there; the containers may have got other names. -/
structure Widening (ρ : Nat → Nat) (added : List (Scalar × Value)) (d d' : Document) : Prop where
  injective : Function.Injective ρ
  root : d'.root = d.root.rename ρ
  paths : ∃ paths items items', d.paths? = some paths ∧ d.graph.entries? paths = some items ∧
    d'.graph.entries? (paths.rename ρ) = some items' ∧
    ∀ key : String, (∀ e ∈ added, e.1 ≠ .text key) →
      valueAt? key items' = (valueAt? key items).map (Value.rename ρ)
  others : ∀ p v, d.Place p v → d.paths? ≠ some v →
    d'.graph.shape (v.rename ρ) = (d.graph.shape v).rename ρ
  keys : ∀ e ∈ added, ∃ path : String, e.1 = .text path ∧ path.toList.head? = some '/'
  tree : d.TreeShaped

/-- The entries of something that a pointer may lead to, in a tree and with more paths: under every key that does not
start with a slash stands the same value. -/
structure Widening.Matches (ρ : Nat → Nat) (d : Document) (entries entries' : List (Scalar × Value)) :
    Prop where
  values : ∀ key : String, key.toList.head? ≠ some '/' →
    valueAt? key entries' = (valueAt? key entries).map (Value.rename ρ)
  apart : ∀ e ∈ entries, d.Apart e.2

/-- A document that grows widens. -/
theorem Growth.widening {ρ : Nat → Nat} {added : List (Scalar × Value)} {d d' : Document}
    (h : Growth ρ added d d') : Widening ρ added d d' where
  injective := h.injective
  root := h.root
  paths := by
    obtain ⟨paths, items, hpaths, hitems, hgrown⟩ := h.paths
    refine ⟨paths, items, _, hpaths, hitems, hgrown, fun key hkey => ?_⟩
    rw [valueAt?_append hkey, valueAt?_renameEntries]
  others := h.others
  keys := h.keys
  tree := h.tree

namespace Widening

variable {ρ : Nat → Nat} {added : List (Scalar × Value)} {d d' : Document} {v : Value}

/-- What stands in entries that match is apart from the paths. -/
theorem Matches.apart_of_valueAt? {entries entries' : List (Scalar × Value)}
    (h : Matches ρ d entries entries') {key : String} (hv : valueAt? key entries = some v) :
    d.Apart v :=
  h.apart _ (mem_of_valueAt? hv)

/-- A document that widens is a mapping. -/
theorem exists_top (h : Widening ρ added d d') : ∃ top, d.graph.entries? d.root = some top := by
  obtain ⟨paths, items, items', hpaths, -⟩ := h.paths
  obtain ⟨top, htop, -⟩ := Option.bind_eq_some_iff.1 hpaths
  exact ⟨top, htop⟩

/-- What is inside a value that can be referred to is apart from the paths. -/
theorem apart_of_inside (h : Widening ρ added d d') (hv : d.Referable v) {w : Value}
    (hw : w ∈ d.graph.inside v) : d.Apart w := by
  obtain ⟨top, htop⟩ := h.exists_top
  obtain ⟨paths, items, items', hpaths, hitems, -⟩ := h.paths
  exact h.tree.apart_of_inside htop hpaths (by rw [hitems]; rfl) hv hw

/-- The parts of a document other than its paths are apart from them. -/
theorem apart_of_top (h : Widening ρ added d d') {top : List (Scalar × Value)}
    (htop : d.graph.entries? d.root = some top) {key : String} (hkey : key ≠ "paths")
    (hv : valueAt? key top = some v) : d.Apart v := by
  obtain ⟨paths, items, items', hpaths, hitems, -⟩ := h.paths
  exact h.tree.apart_of_top htop hpaths (by rw [hitems]; rfl) hkey hv

/-- A mapping that a pointer may lead to stands somewhere. -/
theorem exists_place (h : Widening ρ added d d') (hv : d.Referable v) {entries : List (Scalar × Value)}
    (hentries : d.graph.entries? v = some entries) : ∃ p, d.Place p v := by
  rcases hv with hv | hv
  · cases hv with
    | scalar s => cases hentries
    | placed hplace _ _ => exact ⟨_, hplace⟩
  · obtain ⟨top, htop⟩ := h.exists_top
    obtain ⟨i, -, hplace⟩ := Document.exists_place_of_paths htop hv
    exact ⟨_, hplace⟩

/-! ## What values are seen to be -/

/-- A value apart from the paths keeps its shape. -/
theorem shape_rename (h : Widening ρ added d d') (hv : d.Apart v) :
    d'.graph.shape (v.rename ρ) = (d.graph.shape v).rename ρ := by
  cases hv with
  | scalar s => rfl
  | placed hplace _ hpaths => exact h.others _ _ hplace hpaths

/-- The document itself keeps its shape. -/
theorem shape_root (h : Widening ρ added d d') :
    d'.graph.shape d'.root = (d.graph.shape d.root).rename ρ := by
  obtain ⟨top, htop⟩ := h.exists_top
  rw [h.root]
  exact h.others _ _ .root fun hpaths => h.tree.paths_ne_root htop hpaths rfl

/-- A value apart from the paths keeps its entries. -/
theorem entries?_rename (h : Widening ρ added d d') (hv : d.Apart v) :
    d'.graph.entries? (v.rename ρ) = (d.graph.entries? v).map (renameEntries ρ) := by
  unfold Graph.entries?
  rw [h.shape_rename hv]
  cases d.graph.shape v <;> rfl

theorem entries?_root (h : Widening ρ added d d') :
    d'.graph.entries? d'.root = (d.graph.entries? d.root).map (renameEntries ρ) := by
  unfold Graph.entries?
  rw [h.shape_root]
  cases d.graph.shape d.root <;> rfl

/-- The values under the keys of a mapping that is apart are apart. -/
theorem apart_of_mem (h : Widening ρ added d d') (hv : d.Referable v) {entries : List (Scalar × Value)}
    (hentries : d.graph.entries? v = some entries) : ∀ e ∈ entries, d.Apart e.2 := by
  intro e he
  refine h.apart_of_inside hv ?_
  rw [Graph.inside_of_entries? hentries]
  exact List.mem_map_of_mem he

/-- The items of a list that is apart are apart. -/
theorem apart_of_mem_list (h : Widening ρ added d d') (hv : d.Apart v) {id : Nat} {items : List Value}
    (hshape : d.graph.shape v = .list id items) : ∀ w ∈ items, d.Apart w := by
  intro w hw
  refine h.apart_of_inside (.inl hv) ?_
  simpa only [Graph.inside, hshape, Shape.held?, Option.map_some, Option.getD_some] using hw

/-- A mapping that a pointer may lead to is a mapping of the same values after growth. -/
theorem exists_matches (h : Widening ρ added d d') (hv : d.Referable v) {id : Nat}
    {entries : List (Scalar × Value)} (hshape : d.graph.shape v = .mapping id entries) :
    ∃ entries', d'.graph.shape (v.rename ρ) = .mapping (ρ id) entries' ∧
      Matches ρ d entries entries' := by
  have hentries : d.graph.entries? v = some entries := Graph.entries?_eq_some_iff.2 ⟨id, hshape⟩
  have happart := h.apart_of_mem hv hentries
  rcases hv with hv | hv
  · refine ⟨renameEntries ρ entries, ?_, fun key _ => valueAt?_renameEntries ρ key entries, happart⟩
    rw [h.shape_rename hv, hshape]
    rfl
  · obtain ⟨paths, items, items', hpaths, hitems, hitems', hvalues⟩ := h.paths
    obtain rfl := Option.some.inj (hpaths.symm.trans hv)
    obtain rfl := Option.some.inj (hitems.symm.trans hentries)
    obtain ⟨id', hshape'⟩ := Graph.entries?_eq_some_iff.1 hitems'
    have hname := Resolver.eq_container_of_shape hshape'
    rw [Resolver.eq_container_of_shape hshape] at hname
    cases hname
    refine ⟨_, hshape', fun key hkey => hvalues key fun e he heq => ?_, happart⟩
    obtain ⟨path, hpath, hhead⟩ := h.keys e he
    rw [hpath] at heq
    cases heq
    exact hkey hhead

/-- A value that is no mapping is apart from the paths. -/
theorem apart_of_entries?_eq_none (h : Widening ρ added d d') (hv : d.Referable v)
    (hnone : d.graph.entries? v = none) : d.Apart v := by
  refine hv.resolve_right fun hv => ?_
  obtain ⟨paths, items, items', hpaths, hitems, -⟩ := h.paths
  obtain rfl := Option.some.inj (hpaths.symm.trans hv)
  rw [hnone] at hitems
  cases hitems

/-- A value that can be referred to keeps the name of its type. -/
theorem typeName_rename (h : Widening ρ added d d') (hv : d.Referable v) :
    d'.graph.typeName (v.rename ρ) = d.graph.typeName v := by
  unfold Graph.typeName
  cases hshape : d.graph.shape v with
  | mapping id entries =>
    obtain ⟨entries', hshape', -⟩ := h.exists_matches hv hshape
    rw [hshape']
  | _ =>
    have happart : d.Apart v := by
      refine h.apart_of_entries?_eq_none hv ?_
      rw [Graph.entries?, hshape]
    rw [h.shape_rename happart, hshape]
    rfl

/-- A value apart from the paths stays true or false. -/
theorem isTruthy_rename (h : Widening ρ added d d') (hv : d.Apart v) :
    d'.graph.isTruthy (v.rename ρ) = d.graph.isTruthy v := by
  unfold Graph.isTruthy
  rw [h.shape_rename hv]
  cases d.graph.shape v <;> simp [Shape.rename, renameEntries]

/-- Whether a value can be a key, as deep as asked for, does not change. -/
theorem canBeKeyWithin_rename (h : Widening ρ added d d') (hv : d.Apart v) (depth : Nat) :
    d'.graph.canBeKeyWithin depth (v.rename ρ) = d.graph.canBeKeyWithin depth v := by
  induction depth generalizing v with
  | zero => rfl
  | succ depth ih =>
    rw [Graph.canBeKeyWithin, Graph.canBeKeyWithin, h.shape_rename hv]
    cases hshape : d.graph.shape v with
    | pair id first second =>
      have hinside : ∀ w ∈ [first, second], d.Apart w := by
        intro w hw
        refine h.apart_of_inside (.inl hv) ?_
        simpa only [Graph.inside, hshape, Shape.held?, Option.map_some, Option.getD_some] using hw
      obtain ⟨hfirst, hsecond⟩ := List.forall_mem_cons.1 hinside
      dsimp only [Shape.rename]
      rw [ih hfirst, ih (List.forall_mem_singleton.1 hsecond)]
    | _ => rfl

theorem canBeKey_rename (h : Widening ρ added d d') (hv : d.Apart v) :
    d'.graph.canBeKey (v.rename ρ) = d.graph.canBeKey v := by
  have hlt : d.graph.size < d.graph.size + d'.graph.size + 1 := by omega
  have hlt' : d'.graph.size < d.graph.size + d'.graph.size + 1 := by omega
  rw [← Graph.canBeKeyWithin_depth hlt', ← Graph.canBeKeyWithin_depth hlt]
  exact h.canBeKeyWithin_rename hv _

/-- Whether a value can be asked for in a set does not change. -/
theorem canBeMember_rename (h : Widening ρ added d d') (hv : d.Apart v) :
    d'.graph.canBeMember (v.rename ρ) = d.graph.canBeMember v := by
  unfold Graph.canBeMember
  rw [h.shape_rename hv, h.canBeKey_rename hv]
  cases d.graph.shape v <;> rfl

/-! ## Texts -/

/-- The literal form of a value does not show where its containers stand. -/
theorem literalWithin?_rename (h : Widening ρ added d d') (hv : d.Apart v) (depth : Nat)
    (outer : List Nat) :
    d'.graph.literalWithin? depth (outer.map ρ) (v.rename ρ) = d.graph.literalWithin? depth outer v := by
  induction depth generalizing v outer with
  | zero => rfl
  | succ depth ih =>
    have hcontains (id : Nat) : (outer.map ρ).contains (ρ id) = outer.contains id := by
      rw [Bool.eq_iff_iff, List.contains_iff_mem, List.contains_iff_mem]
      exact List.mem_map_of_injective h.injective
    have hinside (id : Nat) (w : Value) (hw : w ∈ d.graph.inside v) :
        d'.graph.literalWithin? depth (ρ id :: outer.map ρ) (w.rename ρ) =
          d.graph.literalWithin? depth (id :: outer) w :=
      ih (h.apart_of_inside (.inl hv) hw) (id :: outer)
    rw [Graph.literalWithin?, Graph.literalWithin?, h.shape_rename hv]
    cases hshape : d.graph.shape v with
    | scalar s => rfl
    | list id items =>
      simp only [Graph.inside, hshape, Shape.held?, Option.map_some, Option.getD_some] at hinside
      simp only [Shape.rename, hcontains, List.mapM_map, Function.comp_def]
      rw [mapM_congr fun w hw => hinside id w hw]
    | mapping id entries =>
      simp only [Graph.inside, hshape, Shape.held?, Option.map_some, Option.getD_some] at hinside
      simp only [Shape.rename, renameEntries, hcontains, List.mapM_map, Function.comp_def]
      rw [mapM_congr fun e he => by rw [hinside id e.2 (List.mem_map_of_mem he)]]
    | set members => rfl
    | pair id first second =>
      simp only [Graph.inside, hshape, Shape.held?, Option.map_some, Option.getD_some] at hinside
      have hpair : [first.rename ρ, second.rename ρ] = [first, second].map (Value.rename ρ) := rfl
      simp only [Shape.rename, hcontains, hpair, List.mapM_map, Function.comp_def]
      rw [mapM_congr fun w hw => hinside id w hw]

/-- A value apart from the paths keeps its literal form, or still has none. -/
theorem literal?_rename (h : Widening ρ added d d') (hv : d.Apart v) :
    d'.graph.literal? (v.rename ρ) = d.graph.literal? v := by
  have hnone (g : Graph) (w : Value) (n : Nat) :
      g.literalWithin? (g.size + 2) [] w = g.literalWithin? (g.size + n + 1) [] w :=
    Graph.literalWithin?_depth List.nodup_nil (fun _ hid => (List.not_mem_nil hid).elim)
      (by rw [List.length_nil]; omega) (by rw [List.length_nil]; omega)
  rw [Graph.literal?, Graph.literal?, hnone d'.graph _ d.graph.size, hnone d.graph _ d'.graph.size,
    Nat.add_comm d'.graph.size]
  exact h.literalWithin?_rename hv _ []

/-- A value apart from the paths keeps the text it is shown as, or still has none. -/
theorem display?_rename (h : Widening ρ added d d') (hv : d.Apart v) :
    d'.graph.display? (v.rename ρ) = d.graph.display? v := by
  unfold Graph.display?
  rw [h.shape_rename hv, h.literal?_rename hv]
  cases d.graph.shape v <;> rfl

/-- What is wrong with a reference does not change. -/
theorem misreference_rename (h : Widening ρ added d d') (hv : d.Apart v) :
    d'.misreference (v.rename ρ) = d.misreference v := by
  rw [Document.misreference, Document.misreference, h.display?_rename hv]

/-! ## Pointers -/

/-- The item at a place is changed with the items. -/
theorem itemAt?_map (f : Value → Value) (items : List Value) (place : Int) :
    Graph.itemAt? (items.map f) place = (Graph.itemAt? items place).map f := by
  unfold Graph.itemAt?
  simp only [List.length_map, List.getElem?_map]
  split_ifs <;> rfl

/-- A step from a value that is seen as before leads where it led. -/
theorem step_rename {w : Value} (key : String)
    (hshape : d'.graph.shape w = (d.graph.shape v).rename ρ) :
    d'.graph.step w key = (d.graph.step v key).map (Value.rename ρ) := by
  have hname : d'.graph.typeName w = d.graph.typeName v := by
    unfold Graph.typeName
    rw [hshape]
    cases d.graph.shape v <;> rfl
  unfold Graph.step
  rw [hshape, hname]
  cases d.graph.shape v with
  | mapping id entries =>
    dsimp only [Shape.rename]
    rw [valueAt?_renameEntries]
    cases valueAt? key entries <;> rfl
  | list id items =>
    dsimp only [Shape.rename]
    have hitem : (Text.readInt? key).bind (Graph.itemAt? (items.map (Value.rename ρ))) =
        ((Text.readInt? key).bind (Graph.itemAt? items)).map (Value.rename ρ) := by
      cases Text.readInt? key with
      | none => rfl
      | some place => exact itemAt?_map _ items place
    rw [hitem]
    cases (Text.readInt? key).bind (Graph.itemAt? items) <;> rfl
  | _ => rfl

/-- A step from a value that can be referred to leads to one apart from the paths. -/
theorem apart_of_step (h : Widening ρ added d d') (hv : d.Referable v) {key : String} {w : Value}
    (hw : d.graph.step v key = .ok w) : d.Apart w := by
  refine h.apart_of_inside hv ?_
  unfold Graph.step at hw
  unfold Graph.inside
  cases hshape : d.graph.shape v with
  | mapping id entries =>
    simp only [hshape] at hw
    split at hw
    · rename_i value hvalue
      cases hw
      exact List.mem_map_of_mem (mem_of_valueAt? hvalue)
    · cases hw
  | list id items =>
    simp only [hshape] at hw
    split at hw
    · rename_i value hvalue
      cases hw
      obtain ⟨place, -, hitem⟩ := Option.bind_eq_some_iff.1 hvalue
      unfold Graph.itemAt? at hitem
      split_ifs at hitem
      · exact List.mem_of_getElem? hitem
      · exact List.mem_of_getElem? hitem
    · cases hw
  | _ =>
    simp only [hshape] at hw
    cases hw

/-- A way from a value that is apart leads where it led. -/
theorem walk_rename (h : Widening ρ added d d') (hv : d.Apart v) (keys : List String) :
    SameOutcome (fun w w' => d.Apart w ∧ w' = w.rename ρ) (d.graph.walk v keys)
      (d'.graph.walk (v.rename ρ) keys) := by
  induction keys generalizing v with
  | nil => exact .ok ⟨hv, rfl⟩
  | cons key rest ih =>
    rw [Graph.walk, Graph.walk, step_rename key (h.shape_rename hv)]
    cases hstep : d.graph.step v key with
    | error fault => exact .error fault
    | ok w => exact ih (h.apart_of_step (.inl hv) hstep)

/-- A document that widens has paths, and a reference can lead to them. -/
theorem exists_paths (h : Widening ρ added d d') : ∃ paths, d.paths? = some paths ∧
    d.graph.step d.root "paths" = .ok paths := by
  obtain ⟨paths, items, items', hpaths, -⟩ := h.paths
  obtain ⟨top, htop, hvalue⟩ := Option.bind_eq_some_iff.1 hpaths
  obtain ⟨id, hshape⟩ := Graph.entries?_eq_some_iff.1 htop
  refine ⟨paths, hpaths, ?_⟩
  rw [Graph.step, hshape]
  simp only [hvalue]

/-- A step below the paths that enters nothing that was added leads where it led. -/
theorem step_paths (h : Widening ρ added d d') {paths : Value} (hpaths : d.paths? = some paths)
    {key : String} (hkey : ∀ e ∈ added, e.1 ≠ .text key) :
    d'.graph.step (paths.rename ρ) key = (d.graph.step paths key).map (Value.rename ρ) := by
  obtain ⟨paths', items, items', hpaths', hitems, hitems', hvalues⟩ := h.paths
  obtain rfl := Option.some.inj (hpaths.symm.trans hpaths')
  obtain ⟨id, hshape⟩ := Graph.entries?_eq_some_iff.1 hitems
  obtain ⟨id', hshape'⟩ := Graph.entries?_eq_some_iff.1 hitems'
  rw [Graph.step, Graph.step, hshape, hshape']
  dsimp only
  rw [hvalues key hkey]
  cases valueAt? key items <;> rfl

/-- A step from the document that does not go to the paths leads to a value apart from them. -/
theorem apart_of_step_root (h : Widening ρ added d d') {key : String} {w : Value}
    (hkey : key ≠ "paths") (hw : d.graph.step d.root key = .ok w) : d.Apart w := by
  obtain ⟨top, htop⟩ := h.exists_top
  obtain ⟨id, hshape⟩ := Graph.entries?_eq_some_iff.1 htop
  unfold Graph.step at hw
  simp only [hshape] at hw
  split at hw
  · rename_i value hvalue
    cases hw
    exact h.apart_of_top htop hkey hvalue
  · cases hw

/-- A way from the root leads where it led, if it enters nothing that was added. -/
theorem walk_root_rename (h : Widening ρ added d d') {key : String} {rest : List String}
    (hout : ∀ next more, key :: rest = "paths" :: next :: more → ∀ e ∈ added, e.1 ≠ .text next) :
    SameOutcome (fun w w' => d.Referable w ∧ w' = w.rename ρ) (d.graph.walk d.root (key :: rest))
      (d'.graph.walk d'.root (key :: rest)) := by
  rw [Graph.walk, Graph.walk, step_rename key h.shape_root]
  by_cases hkey : key = "paths"
  · subst hkey
    obtain ⟨paths, hpaths, hstep⟩ := h.exists_paths
    rw [hstep]
    dsimp only [Except.map]
    cases rest with
    | nil => exact .ok ⟨.inr hpaths, rfl⟩
    | cons next more =>
      rw [Graph.walk, Graph.walk, h.step_paths hpaths (hout next more rfl)]
      cases hnext : d.graph.step paths next with
      | error fault => exact .error fault
      | ok w =>
        have hw := h.apart_of_step (.inr hpaths) hnext
        exact (h.walk_rename hw more).mono fun a b _ hab => ⟨.inl hab.1, hab.2⟩
  · cases hstep : d.graph.step d.root key with
    | error fault => exact .error fault
    | ok w =>
      have hw := h.apart_of_step_root hkey hstep
      exact (h.walk_rename hw rest).mono fun a b _ hab => ⟨.inl hab.1, hab.2⟩

/-- A pointer that enters nothing that was added leads where it led. -/
theorem find_rename (h : Widening ρ added d d') {pointer : String}
    (hpointer : ¬ Pointer.Enters added pointer) :
    SameOutcome (fun w w' => d.Referable w ∧ w' = w.rename ρ) (d.find pointer) (d'.find pointer) := by
  cases hkeys : Pointer.keys? pointer with
  | none =>
    rw [Document.find, Document.find, hkeys]
    exact .error _
  | some keys =>
    rw [Document.find_of_keys hkeys, Document.find_of_keys hkeys]
    cases keys with
    | nil =>
      -- a pointer has a key at least
      obtain ⟨rest, -, hsplit⟩ := Option.map_eq_some_iff.1 hkeys
      exact absurd (List.map_eq_nil_iff.1 (List.map_eq_nil_iff.1 hsplit)) (Text.splitChars_ne_nil _ _)
    | cons key rest =>
      refine (h.walk_root_rename fun next more hout e he heq => ?_).mapError _
      exact hpointer ⟨next, more, hkeys.trans (congrArg some hout), e, he, heq⟩

end Widening

/-- No reference in a tree that grows enters what is added. -/
theorem Growth.not_enters {ρ : Nat → Nat} {added : List (Scalar × Value)} {d d' : Document} {v : Value}
    (h : Growth ρ added d d') (hv : d.Referable v) {entries : List (Scalar × Value)}
    (hentries : d.graph.entries? v = some entries) {target : String}
    (htarget : valueAt? "$ref" entries = some (.scalar (.text target))) :
    ¬ Pointer.Enters added target := by
  obtain ⟨p, hplace⟩ := h.widening.exists_place hv hentries
  exact h.references p v entries target hplace hentries htarget

end RouteBinding
