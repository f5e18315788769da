import Mathlib.Data.List.Range
import RouteBinding.Document.Content
import RouteBinding.Proofs.Growth.Document

/-!
# Documents of trees

A tree is put into a store one container after the other, and every new container is named once
(`Graph.Adds`). The document of a tree, and so that of a JSON text, is therefore a tree itself
(`Document.treeShaped_ofTree`). What a tree puts into another store is the same up to the names of the containers
(`Graph.Shifted`): the document of a tree grows if entries are put behind those of its paths
(`Document.grows_ofTree`).
-/

namespace RouteBinding

/-! ## Containers -/

/-- The values that stand inside a container. -/
def Container.inside : Container → List Value
  | .list items => items
  | .mapping entries => entries.map (·.2)
  | .set _ => []
  | .pair first second => [first, second]

/-- A container that holds other names. -/
def Container.rename (ρ : Nat → Nat) : Container → Container
  | .list items => .list (items.map (Value.rename ρ))
  | .mapping entries => .mapping (renameEntries ρ entries)
  | .set members => .set members
  | .pair first second => .pair (first.rename ρ) (second.rename ρ)

/-- The name of a value that is a container. -/
def Value.name? : Value → Option Nat
  | .scalar _ => none
  | .container id => some id

/-- The value of the first entry with a key stands under it. -/
theorem valueAt?_of_forall_ne {key : String} {entries more : List (Scalar × Value)} {v : Value}
    (h : ∀ k ∈ entries.map (·.1), k ≠ .text key) :
    valueAt? key (entries ++ (.text key, v) :: more) = some v := by
  induction entries with
  | nil => exact if_pos rfl
  | cons e rest ih =>
    obtain ⟨hkey, hrest⟩ := List.forall_mem_cons.1 h
    rw [List.cons_append, valueAt?, if_neg hkey]
    exact ih hrest

/-- The names behind the first `n` are moved on by `m`. -/
def moveOn (n m id : Nat) : Nat :=
  if id < n then id else id + m

/-- A container below the old size stays where it is. -/
theorem moveOn_of_lt {n m id : Nat} (h : id < n) : moveOn n m id = id :=
  if_pos h

/-- A container behind the old size moves on by what was added. -/
theorem moveOn_add (n m i : Nat) : moveOn n m (n + i) = n + m + i := by
  rw [moveOn, if_neg (Nat.not_lt.2 (Nat.le_add_right n i)), Nat.add_right_comm]

/-- No two containers move to one place. -/
theorem moveOn_injective (n m : Nat) : Function.Injective (moveOn n m) := by
  intro a b h
  unfold moveOn at h
  split_ifs at h <;> omega

/-- The members behind the first ones are moved on, and all but the next are changed by a function that leaves the
first ones as they are. -/
theorem getElem?_moveOn {α : Type} {f : α → α} {first between rest : List α} {a b : α} {i : Nat}
    (hfirst : ∀ c ∈ first, f c = c) (hi : i ≠ first.length) :
    (first ++ between ++ b :: rest.map f)[moveOn first.length between.length i]? =
      (first ++ a :: rest)[i]?.map f := by
  rcases Nat.lt_or_ge i first.length with hlt | hge
  · rw [moveOn_of_lt hlt, List.append_assoc, List.getElem?_append_left hlt,
      List.getElem?_append_left hlt, List.getElem?_eq_getElem hlt, Option.map_some,
      hfirst _ (List.getElem_mem hlt)]
  · obtain ⟨j, rfl⟩ : ∃ j, i = first.length + (j + 1) := ⟨i - first.length - 1, by omega⟩
    rw [moveOn_add, ← List.length_append, List.getElem?_append_right (Nat.le_add_right ..),
      List.getElem?_append_right (Nat.le_add_right ..), Nat.add_sub_cancel_left,
      Nat.add_sub_cancel_left, List.getElem?_cons_succ, List.getElem?_cons_succ, List.getElem?_map]

section Below

variable {ρ : Nat → Nat} {n : Nat} (hρ : ∀ id < n, ρ id = id)

include hρ

/-- A value that refers to nothing new stays as it is. -/
theorem Value.rename_of_isBelow {v : Value} (hv : v.isBelow n) : v.rename ρ = v := by
  cases v with
  | scalar s => rfl
  | container id => rw [rename, hρ id (of_decide_eq_true hv)]

theorem renameEntries_of_isBelow {entries : List (Scalar × Value)}
    (h : ∀ v ∈ entries.map (·.2), v.isBelow n) : renameEntries ρ entries = entries := by
  rw [renameEntries, List.map_congr_left (g := id), List.map_id]
  intro e he
  rw [Value.rename_of_isBelow hρ (h _ (List.mem_map_of_mem he))]
  rfl

/-- A container that refers to nothing new stays as it is. -/
theorem Container.rename_of_isBelow {c : Container} (hc : ∀ v ∈ c.inside, v.isBelow n) :
    c.rename ρ = c := by
  cases c with
  | list items =>
    rw [rename, List.map_congr_left (g := id), List.map_id]
    exact fun v hv => Value.rename_of_isBelow hρ (hc v hv)
  | mapping entries => rw [rename, renameEntries_of_isBelow hρ hc]
  | set members => rfl
  | pair first second =>
    rw [rename, Value.rename_of_isBelow hρ (hc first List.mem_cons_self),
      Value.rename_of_isBelow hρ (hc second (List.mem_cons_of_mem _ List.mem_cons_self))]

end Below

namespace Graph

open scoped List

variable {g g₁ g₂ k k₁ k₂ : Graph} {ρ : Nat → Nat} {values values₁ values₂ : List Value}

theorem size_eq_length (g : Graph) : g.size = g.containers.toList.length := rfl

/-- A container that is pushed comes last. -/
theorem push_containers (g : Graph) (c : Container) :
    (g.push c).1.containers.toList = g.containers.toList ++ [c] :=
  Array.toList_push

@[simp] theorem size_push (g : Graph) (c : Container) : (g.push c).1.size = g.size + 1 :=
  Array.size_push ..

/-- What is inside a container is what stands at its place. -/
theorem inside_container (g : Graph) (id : Nat) :
    g.inside (.container id) = (g.containers.toList[id]?.map Container.inside).getD [] := by
  rw [Array.getElem?_toList]
  unfold inside shape
  dsimp only
  cases hget : g.containers[id]? with
  | none => rfl
  | some c => cases c <;> rfl

/-- A container that differs in the names that it holds is seen with those. -/
theorem shape_rename_container {id : Nat}
    (hget : k.containers.toList[ρ id]? = g.containers.toList[id]?.map (Container.rename ρ)) :
    k.shape (.container (ρ id)) = (g.shape (.container id)).rename ρ := by
  rw [Array.getElem?_toList, Array.getElem?_toList] at hget
  unfold shape
  dsimp only
  rw [hget]
  cases g.containers[id]? with
  | none => rfl
  | some c => cases c <;> rfl

/-- A graph grows by what is appended. -/
theorem size_of_append {more : List Container}
    (h : g₁.containers.toList = g.containers.toList ++ more) : g₁.size = g.size + more.length := by
  rw [size_eq_length, h, List.length_append, ← size_eq_length]

theorem entries?_container {id : Nat} {entries : List (Scalar × Value)}
    (hget : g.containers.toList[id]? = some (.mapping entries)) :
    g.entries? (.container id) = some entries := by
  rw [Array.getElem?_toList] at hget
  unfold entries? shape
  dsimp only
  rw [hget]

theorem entries?_push_mapping (g : Graph) (entries : List (Scalar × Value)) :
    (g.push (.mapping entries)).1.entries? (.container g.size) = some entries := by
  apply entries?_container
  rw [push, Array.getElem?_toList]
  exact Array.getElem?_push_size

/-! ## What is added to a store -/

/-- Containers are added to a store, and each of them is named once: inside an added one, or by one of the values. -/
def Adds (g g' : Graph) (values : List Value) : Prop :=
  ∃ added : List Container, g'.containers.toList = g.containers.toList ++ added ∧
    ((values ++ added.flatMap Container.inside).filterMap Value.name?).Perm
      (List.range' g.size added.length)

theorem adds_nil (g : Graph) : g.Adds g [] :=
  ⟨[], (List.append_nil _).symm, .nil⟩

theorem adds_scalar (g : Graph) (s : Scalar) : g.Adds g [.scalar s] :=
  ⟨[], (List.append_nil _).symm, .nil⟩

/-- Values added one after another are added together. -/
theorem Adds.append (h₁ : g.Adds g₁ values₁) (h₂ : g₁.Adds g₂ values₂) :
    g.Adds g₂ (values₁ ++ values₂) := by
  obtain ⟨added₁, hg₁, hnames₁⟩ := h₁
  obtain ⟨added₂, hg₂, hnames₂⟩ := h₂
  refine ⟨added₁ ++ added₂, by rw [hg₂, hg₁, List.append_assoc], ?_⟩
  rw [size_of_append hg₁] at hnames₂
  rw [List.length_append, ← List.range'_append_1]
  refine List.Perm.trans ?_ (hnames₁.append hnames₂)
  rw [← List.filterMap_append, List.flatMap_append, List.append_assoc, List.append_assoc]
  exact (List.perm_append_comm_assoc ..).append_left _ |>.filterMap _

/-- Once its contents are added, a container is added by a push. -/
theorem Adds.push {c : Container} (h : g.Adds g₁ c.inside) :
    g.Adds (g₁.push c).1 [(g₁.push c).2] := by
  obtain ⟨added, hg, hnames⟩ := h
  refine ⟨added ++ [c], ?_, ?_⟩
  · rw [push_containers, hg, List.append_assoc]
  · rw [List.length_append, List.length_singleton, List.range'_1_concat, ← size_of_append hg,
      List.flatMap_append, List.flatMap_singleton]
    calc ([Value.container g₁.size] ++ (added.flatMap Container.inside ++ c.inside)).filterMap Value.name?
      _ ~ [g₁.size] ++ (c.inside ++ added.flatMap Container.inside).filterMap Value.name? :=
        (List.perm_append_comm.append_left [.container g₁.size]).filterMap Value.name?
      _ ~ [g₁.size] ++ List.range' g.size added.length := hnames.append_left _
      _ ~ List.range' g.size added.length ++ [g₁.size] := List.perm_append_comm

/-- What is added names containers of the store that comes of it. -/
theorem Adds.isBelow (h : g.Adds g₁ values) : ∃ added : List Container,
    g₁.containers.toList = g.containers.toList ++ added ∧
      ∀ v ∈ values ++ added.flatMap Container.inside, v.isBelow g₁.size := by
  obtain ⟨added, hg, hnames⟩ := h
  refine ⟨added, hg, fun v hv => ?_⟩
  cases v with
  | scalar s => rfl
  | container id =>
    have hmem := hnames.subset (List.mem_filterMap.2 ⟨_, hv, rfl⟩)
    have hlt := (List.mem_range'_1.1 hmem).2
    rw [size_of_append hg]
    exact decide_eq_true hlt

-- A container is pushed when what stands inside it has been added, so that those names are its own.
mutual

/-- A tree is added to a graph at its end. -/
theorem adds_ofTree (g : Graph) (t : Tree) : g.Adds (g.ofTree t).1 [(g.ofTree t).2] := by
  cases t with
  | scalar s => exact adds_scalar g s
  | list items =>
    rw [ofTree]
    exact Adds.push (adds_ofItems g items)
  | mapping entries =>
    rw [ofTree]
    exact Adds.push (adds_ofEntries g entries)

/-- Trees are added one after another. -/
theorem adds_ofItems (g : Graph) (items : List Tree) :
    g.Adds (g.ofItems items).1 (g.ofItems items).2 := by
  cases items with
  | nil => exact adds_nil g
  | cons item rest =>
    rw [ofItems]
    exact (adds_ofTree g item).append (adds_ofItems _ rest)

/-- The trees of entries are added one after another. -/
theorem adds_ofEntries (g : Graph) (entries : List (Scalar × Tree)) :
    g.Adds (g.ofEntries entries).1 ((g.ofEntries entries).2.map (·.2)) := by
  cases entries with
  | nil => exact adds_nil g
  | cons e rest =>
    rw [ofEntries]
    exact (adds_ofTree g e.2).append (adds_ofEntries _ rest)

end

/-! ## What is added to another store -/

/-- Two stores get containers that differ in the names that they hold. -/
def Shifted (ρ : Nat → Nat) (g k g' k' : Graph) : Prop :=
  ∃ added : List Container, g'.containers.toList = g.containers.toList ++ added ∧
    k'.containers.toList = k.containers.toList ++ added.map (Container.rename ρ)

/-- The next containers of a store get those names in another store that its next containers get. -/
def InStep (ρ : Nat → Nat) (g k : Graph) : Prop :=
  ∀ i, ρ (g.size + i) = k.size + i

/-- Two graphs that grow by the same stay in step. -/
theorem Shifted.inStep (h : Shifted ρ g k g₁ k₁) (hstep : InStep ρ g k) : InStep ρ g₁ k₁ := by
  obtain ⟨added, hg, hk⟩ := h
  intro i
  rw [size_of_append hg, size_of_append hk, List.length_map, Nat.add_assoc, Nat.add_assoc]
  exact hstep _

/-- Containers come between those of a store and one more. What is put behind that is moved on. -/
theorem inStep_moveOn {between : List Container}
    (h : k.containers.toList = g.containers.toList ++ between) (c c' : Container) :
    InStep (moveOn g.size between.length) (g.push c).1 (k.push c').1 := by
  intro i
  rw [size_push, size_push, size_of_append h, Nat.add_assoc, moveOn_add, Nat.add_assoc (g.size + _)]

theorem Shifted.refl (ρ : Nat → Nat) (g k : Graph) : Shifted ρ g k g k :=
  ⟨[], (List.append_nil _).symm, (List.append_nil _).symm⟩

/-- Steps of the same growth make one. -/
theorem Shifted.trans (h₁ : Shifted ρ g k g₁ k₁) (h₂ : Shifted ρ g₁ k₁ g₂ k₂) :
    Shifted ρ g k g₂ k₂ := by
  obtain ⟨added₁, hg₁, hk₁⟩ := h₁
  obtain ⟨added₂, hg₂, hk₂⟩ := h₂
  refine ⟨added₁ ++ added₂, ?_, ?_⟩
  · rw [hg₂, hg₁, List.append_assoc]
  · rw [hk₂, hk₁, List.map_append, List.append_assoc]

/-- One more container, which is named after those before it. -/
theorem Shifted.push (h : Shifted ρ g k g₁ k₁) (hstep : InStep ρ g k) (c : Container) :
    Shifted ρ g k (g₁.push c).1 (k₁.push (c.rename ρ)).1 ∧
      (k₁.push (c.rename ρ)).2 = (g₁.push c).2.rename ρ :=
  ⟨h.trans ⟨[c], push_containers _ _, push_containers _ _⟩,
    congrArg Value.container (h.inStep hstep 0).symm⟩

-- The stores stay in step from one item to the next, whatever has been put into them before.
mutual

/-- A tree is added to two graphs in step as the same, but for where they end. -/
theorem shifted_ofTree {g k : Graph} (hstep : InStep ρ g k) (t : Tree) :
    Shifted ρ g k (g.ofTree t).1 (k.ofTree t).1 ∧ (k.ofTree t).2 = (g.ofTree t).2.rename ρ := by
  cases t with
  | scalar s => exact ⟨.refl ρ g k, rfl⟩
  | list items =>
    obtain ⟨hshifted, hvalues⟩ := shifted_ofItems hstep items
    rw [ofTree, ofTree]
    dsimp only
    rw [hvalues]
    exact hshifted.push hstep (.list (g.ofItems items).2)
  | mapping entries =>
    obtain ⟨hshifted, hvalues⟩ := shifted_ofEntries hstep entries
    rw [ofTree, ofTree]
    dsimp only
    rw [hvalues]
    exact hshifted.push hstep (.mapping (g.ofEntries entries).2)

/-- Trees are added to two graphs in step as the same, but for where they end. -/
theorem shifted_ofItems {g k : Graph} (hstep : InStep ρ g k) (items : List Tree) :
    Shifted ρ g k (g.ofItems items).1 (k.ofItems items).1 ∧
      (k.ofItems items).2 = (g.ofItems items).2.map (Value.rename ρ) := by
  cases items with
  | nil => exact ⟨.refl ρ g k, rfl⟩
  | cons item rest =>
    obtain ⟨hitem, hvalue⟩ := shifted_ofTree hstep item
    obtain ⟨hrest, hvalues⟩ := shifted_ofItems (hitem.inStep hstep) rest
    rw [ofItems, ofItems]
    dsimp only
    rw [hvalue, hvalues]
    exact ⟨hitem.trans hrest, rfl⟩

/-- The trees of entries are added to two graphs in step as the same, but for where they end. -/
theorem shifted_ofEntries {g k : Graph} (hstep : InStep ρ g k) (entries : List (Scalar × Tree)) :
    Shifted ρ g k (g.ofEntries entries).1 (k.ofEntries entries).1 ∧
      (k.ofEntries entries).2 = renameEntries ρ (g.ofEntries entries).2 := by
  cases entries with
  | nil => exact ⟨.refl ρ g k, rfl⟩
  | cons e rest =>
    obtain ⟨hitem, hvalue⟩ := shifted_ofTree hstep e.2
    obtain ⟨hrest, hvalues⟩ := shifted_ofEntries (hitem.inStep hstep) rest
    rw [ofEntries, ofEntries]
    dsimp only
    rw [hvalue, hvalues]
    exact ⟨hitem.trans hrest, rfl⟩

end

/-- Entries behind others are added behind them. -/
theorem ofEntries_append (g : Graph) (entries more : List (Scalar × Tree)) :
    g.ofEntries (entries ++ more) =
      (((g.ofEntries entries).1.ofEntries more).1,
        (g.ofEntries entries).2 ++ ((g.ofEntries entries).1.ofEntries more).2) := by
  induction entries generalizing g with
  | nil => rfl
  | cons e rest ih =>
    rw [List.cons_append, ofEntries, ofEntries]
    dsimp only
    rw [ih]
    rfl

end Graph

namespace Document

/-- The document of a tree is a tree. -/
theorem treeShaped_ofTree (t : Tree) : (ofTree t).TreeShaped := by
  obtain ⟨added, hg, hnames⟩ := Graph.adds_ofTree .empty t
  apply treeShaped_of_nodup
  have hinside : ((List.range (ofTree t).graph.size).flatMap fun id =>
      (ofTree t).graph.inside (.container id)) = added.flatMap Container.inside := by
    have hadded : (ofTree t).graph.containers.toList = added := hg
    rw [List.flatMap_def, List.flatMap_def]
    refine congrArg List.flatten (List.ext_getElem ?_ fun i h₁ h₂ => ?_)
    · rw [List.length_map, List.length_map, List.length_range, Graph.size_eq_length, hadded]
    · rw [List.getElem_map, List.getElem_map, List.getElem_range, Graph.inside_container, hadded,
        List.getElem?_eq_getElem, Option.map_some, Option.getD_some]
  have hnodup := hnames.nodup_iff.2 List.nodup_range'
  rw [List.Nodup, List.pairwise_filterMap] at hnodup
  rw [hinside, List.Nodup, List.pairwise_filter]
  refine hnodup.imp fun {v w} hne hv _ heq => ?_
  subst heq
  obtain ⟨entries, hentries⟩ := Option.isSome_iff_exists.1 hv
  obtain ⟨id, hshape⟩ := Graph.entries?_eq_some_iff.1 hentries
  obtain rfl := Resolver.eq_container_of_shape hshape
  exact hne id rfl id rfl rfl

/-- The document of a JSON text is a tree. -/
theorem treeShaped_of_ofText {content : String} {d : Document}
    (h : ofText (some .json) content = .ok d) : d.TreeShaped := by
  unfold ofText at h
  rw [if_neg (by decide)] at h
  split at h
  · cases h
    exact treeShaped_ofTree _
  · cases h
  · rw [if_pos rfl] at h
    cases h

/-! ## Growth -/

/-- A document grows if containers are put before that of its paths, which holds entries with them then, and those
behind it keep what they hold up to the names. What stands before the paths names nothing behind them. -/
theorem grows_of_layout {d d' : Document} {first between rest : List Container}
    {items added : List (Scalar × Value)}
    (hstore : d.graph.containers.toList = first ++ .mapping items :: rest)
    (hstore' : d'.graph.containers.toList = first ++ between ++ .mapping (items ++ added) ::
      rest.map (Container.rename (moveOn first.length between.length)))
    (hroot : d'.root = d.root.rename (moveOn first.length between.length))
    (hpaths : d.paths? = some (.container first.length))
    (hfirst : ∀ c ∈ first, ∀ v ∈ c.inside, v.isBelow first.length)
    (hitems : ∀ v ∈ items.map (·.2), v.isBelow first.length)
    (hkeys : ∀ e ∈ added, ∃ path : String, e.1 = .text path ∧ path.toList.head? = some '/') :
    d.Grows (moveOn first.length between.length) added d' := by
  have hsame : ∀ id < first.length, moveOn first.length between.length id = id :=
    fun id hid => moveOn_of_lt hid
  refine ⟨moveOn_injective _ _, hroot, ⟨_, items, hpaths, ?_, ?_⟩, fun p v _ hv => ?_, hkeys⟩
  · apply Graph.entries?_container
    rw [hstore, List.getElem?_append_right (Nat.le_refl _), Nat.sub_self, List.getElem?_cons_zero]
  · rw [renameEntries_of_isBelow hsame hitems, Value.rename]
    apply Graph.entries?_container
    have hname := moveOn_add first.length between.length 0
    rw [Nat.add_zero, Nat.add_zero, ← List.length_append] at hname
    rw [hname, hstore', List.getElem?_append_right (Nat.le_refl _), Nat.sub_self,
      List.getElem?_cons_zero]
  · cases v with
    | scalar s => rfl
    | container id =>
      apply Graph.shape_rename_container
      rw [hstore, hstore']
      refine getElem?_moveOn (fun c hc => Container.rename_of_isBelow hsame (hfirst c hc)) ?_
      rintro rfl
      exact hv hpaths

/-- The containers of a tree with paths come in order: those before the paths, those of the paths, the paths themselves,
those behind them, and the tree. -/
theorem ofTree_paths {before items after : List (Scalar × Tree)} {g₁ g₂ g₃ : Graph}
    {befores values afters : List (Scalar × Value)}
    (h₁ : Graph.empty.ofEntries before = (g₁, befores)) (h₂ : g₁.ofEntries items = (g₂, values))
    (h₃ : (g₂.push (.mapping values)).1.ofEntries after = (g₃, afters)) :
    ofTree (.mapping (before ++ (.text "paths", .mapping items) :: after)) =
      ⟨(g₃.push (.mapping (befores ++ (.text "paths", .container g₂.size) :: afters))).1,
        .container g₃.size⟩ := by
  rw [ofTree, Graph.ofTree, Graph.ofEntries_append, h₁, Graph.ofEntries, Graph.ofTree, h₂]
  dsimp only
  rw [h₃]
  rfl

/-- The paths get entries, of which the containers come before their own, and the rest of the tree is put into the one
store and into the other. -/
theorem grows_of_ofEntries {after : List (Scalar × Tree)} {g g' g₁ g₁' : Graph} {between : List Container}
    {befores items added afters afters' : List (Scalar × Value)}
    (hbetween : g'.containers.toList = g.containers.toList ++ between)
    (hinside : ∀ c ∈ g.containers.toList, ∀ v ∈ c.inside, v.isBelow g.size)
    (hbefores : ∀ v ∈ befores.map (·.2), v.isBelow g.size)
    (hitems : ∀ v ∈ items.map (·.2), v.isBelow g.size)
    (hnone : ∀ k ∈ befores.map (·.1), k ≠ .text "paths")
    (hkeys : ∀ e ∈ added, ∃ path : String, e.1 = .text path ∧ path.toList.head? = some '/')
    (h : (g.push (.mapping items)).1.ofEntries after = (g₁, afters))
    (h' : (g'.push (.mapping (items ++ added))).1.ofEntries after = (g₁', afters')) :
    Grows (moveOn g.size between.length) added
      ⟨(g₁.push (.mapping (befores ++ (.text "paths", .container g.size) :: afters))).1, .container g₁.size⟩
      ⟨(g₁'.push (.mapping (befores ++ (.text "paths", .container g'.size) :: afters'))).1,
        .container g₁'.size⟩ := by
  have hsame : ∀ id < g.size, moveOn g.size between.length id = id := fun id hid => moveOn_of_lt hid
  have hname : moveOn g.size between.length g.size = g'.size := by
    rw [Graph.size_of_append hbetween]
    exact moveOn_add g.size between.length 0
  have hstep := Graph.inStep_moveOn hbetween (.mapping items) (.mapping (items ++ added))
  obtain ⟨hshifted, hafters⟩ := Graph.shifted_ofEntries hstep after
  simp only [h, h'] at hshifted hafters
  have htop : Container.rename (moveOn g.size between.length)
      (.mapping (befores ++ (.text "paths", .container g.size) :: afters)) =
        .mapping (befores ++ (.text "paths", .container g'.size) :: afters') := by
    rw [hafters, Container.rename, renameEntries, List.map_append, ← renameEntries,
      renameEntries_of_isBelow hsame hbefores, List.map_cons, ← renameEntries, Value.rename, hname]
  obtain ⟨⟨rest, hrest, hrest'⟩, hroot⟩ := hshifted.push hstep
    (.mapping (befores ++ (.text "paths", .container g.size) :: afters))
  rw [htop] at hrest' hroot
  rw [Graph.push_containers g, List.append_assoc] at hrest
  rw [Graph.push_containers g', hbetween, List.append_assoc] at hrest'
  refine grows_of_layout hrest hrest' hroot ?_ hinside hitems hkeys
  have hentries := Graph.entries?_push_mapping g₁
    (befores ++ (.text "paths", .container g.size) :: afters)
  rw [paths?, hentries, Option.bind_some]
  exact valueAt?_of_forall_ne hnone

/-- If entries are put behind those of the paths of a tree, its document grows by them. -/
theorem grows_ofTree {before after items more : List (Scalar × Tree)}
    (hbefore : ∀ e ∈ before, e.1 ≠ .text "paths")
    (hkeys : ∀ e ∈ more, ∃ path : String, e.1 = .text path ∧ path.toList.head? = some '/') :
    ∃ ρ added, added.map (·.1) = more.map (·.1) ∧
      (ofTree (.mapping (before ++ (.text "paths", .mapping items) :: after))).Grows ρ added
        (ofTree (.mapping (before ++ (.text "paths", .mapping (items ++ more)) :: after))) := by
  obtain ⟨g₁, befores, h₁⟩ : ∃ g₁ befores, Graph.empty.ofEntries before = (g₁, befores) := ⟨_, _, rfl⟩
  obtain ⟨g₂, values, h₂⟩ : ∃ g₂ values, g₁.ofEntries items = (g₂, values) := ⟨_, _, rfl⟩
  obtain ⟨g₃, added, h₃⟩ : ∃ g₃ added, g₂.ofEntries more = (g₃, added) := ⟨_, _, rfl⟩
  have h₂₃ : g₁.ofEntries (items ++ more) = (g₃, values ++ added) := by
    rw [Graph.ofEntries_append, h₂, h₃]
  have hbeforeKeys := Graph.keys_ofEntries .empty before
  have haddedKeys := Graph.keys_ofEntries g₂ more
  rw [h₁] at hbeforeKeys
  rw [h₃] at haddedKeys
  -- what comes before the paths is named before them
  have hadds₁ := Graph.adds_ofEntries .empty before
  have hadds₂ := Graph.adds_ofEntries g₁ items
  rw [h₁] at hadds₁
  rw [h₂] at hadds₂
  obtain ⟨first, hfirst, hbelow⟩ := (hadds₁.append hadds₂).isBelow
  obtain rfl : g₂.containers.toList = first := hfirst
  obtain ⟨between, hbetween, -⟩ := Graph.adds_ofEntries g₂ more
  rw [h₃] at hbetween
  refine ⟨moveOn g₂.size between.length, added, haddedKeys, ?_⟩
  rw [ofTree_paths h₁ h₂ rfl, ofTree_paths h₁ h₂₃ rfl]
  refine grows_of_ofEntries hbetween ?_ ?_ ?_ ?_ ?_ rfl rfl
  · exact fun c hc v hv => hbelow v (List.mem_append_right _ (List.mem_flatMap.2 ⟨c, hc, hv⟩))
  · exact fun v hv => hbelow v (List.mem_append_left _ (List.mem_append_left _ hv))
  · exact fun v hv => hbelow v (List.mem_append_left _ (List.mem_append_right _ hv))
  · intro k hk
    rw [hbeforeKeys] at hk
    obtain ⟨e, he, rfl⟩ := List.mem_map.1 hk
    exact hbefore e he
  · intro e he
    have hmem : e.1 ∈ more.map (·.1) := haddedKeys ▸ List.mem_map_of_mem he
    obtain ⟨e', he', heq⟩ := List.mem_map.1 hmem
    rw [← heq]
    exact hkeys e' he'

end Document

end RouteBinding
