import Mathlib.Data.Fintype.Pigeonhole
import Mathlib.Order.WellFounded
import RouteBinding.Proofs.Route.Listing
import RouteBinding.Proofs.Schema.Reading

/-!
# Ways into tables

Read in order, a table comes to its routes part and then to its groups, each after all that stands before it has given
routes (`RouteTable.Enters`). The data of a table may close loops, so that a way into it comes back to a table
(`RouteTable.ComesBack`); any other way ends, and it may end at a table where something has to be shown that has no text
(`RouteTable.Meets`). From a table there is one way at a time, and from one that lists routes there is neither of these.
-/

namespace RouteBinding.RouteTable

open Relation (ReflTransGen TransGen)

variable {g : Graph} {v w : Value} {entries groups : List (Scalar × Value)} {modules : List String}
  {owner place : String} {routes : List Route} {depth n : Nat}

/-! ## What a reading comes to -/

/-- A table lists routes, in whatever modules it stands. -/
def GivesRoutes (g : Graph) (v : Value) : Prop :=
  ∀ modules, ∃ routes, Lists g modules v routes

/-- A group gives routes, and its name has a text. -/
def GroupGives (g : Graph) (group : Scalar × Value) : Prop :=
  group.1.display?.isSome ∧ GivesRoutes g group.2

/-- The reading of a mapping comes to a group with a property. The mapping has no unknown keys, for which it would be
refused before, and its routes part and the groups before this one have given their routes. -/
def ComesToGroup (g : Graph) (found : Scalar × Value → Prop) (v : Value) : Prop :=
  ∃ entries m groups, g.entries? v = some entries ∧ (∀ e ∈ entries, e.1 = .text "routes" ∨ e.1 = .text "modules") ∧
    (∀ w ∈ part? g entries "routes", GivesRoutes g w) ∧ part? g entries "modules" = some m ∧
      g.entries? m = some groups ∧ ComesTo (GroupGives g) found groups

/-- The reading of a table comes to another one: to its routes part, or to a group whose name has a text. -/
inductive Enters (g : Graph) : Value → Value → Prop
  | routes {v w : Value} {entries : List (Scalar × Value)} (h : g.entries? v = some entries)
    (hkeys : ∀ e ∈ entries, e.1 = .text "routes" ∨ e.1 = .text "modules")
    (hpart : part? g entries "routes" = some w) : Enters g v w
  | group {v w : Value} (h : ComesToGroup g (fun group => group.1.display?.isSome ∧ group.2 = w) v) : Enters g v w

/-- The reading of a table has to show what has no text: an unknown key, a part of an entry behind entries that declare
routes, or the name of a group. -/
inductive Stops (g : Graph) : Value → Prop
  | key {v : Value} {entries : List (Scalar × Value)} {e : Scalar × Value} (h : g.entries? v = some entries)
    (he : e ∈ entries) (hroutes : e.1 ≠ .text "routes") (hmodules : e.1 ≠ .text "modules")
    (hlong : e.1.display? = none) : Stops g v
  | entry {v : Value} {id : Nat} {items : List Value} (h : g.shape v = .list id items)
    (hentry : ComesTo (fun entry => ∃ route, Declares g entry route) (IsUnspelled g) items) : Stops g v
  | name {v : Value} (h : ComesToGroup g (fun group => group.1.display? = none) v) : Stops g v

/-- The reading comes to a table where it has to show what has no text. -/
def Meets (g : Graph) (v : Value) : Prop :=
  ∃ w, ReflTransGen (Enters g) v w ∧ Stops g w

/-- A table meets a stop if it is one, or a table that it enters meets one. -/
theorem meets_iff : Meets g v ↔ Stops g v ∨ ∃ w, Enters g v w ∧ Meets g w := by
  constructor
  · rintro ⟨w, hreach, hstops⟩
    rcases hreach.cases_head with rfl | ⟨u, hu, huw⟩
    · exact .inl hstops
    · exact .inr ⟨u, hu, w, huw, hstops⟩
  · rintro (hstops | ⟨u, hu, w, huw, hstops⟩)
    · exact ⟨v, .refl, hstops⟩
    · exact ⟨w, .head hu huw, hstops⟩

/-- The reading goes on from a table for a count of steps. -/
def GoesOn (g : Graph) : Nat → Value → Prop
  | 0, _ => True
  | n + 1, v => ∃ w, Enters g v w ∧ GoesOn g n w

/-- The reading comes to a table that it comes back to. -/
def ComesBack (g : Graph) (v : Value) : Prop :=
  ∃ w, ReflTransGen (Enters g) v w ∧ TransGen (Enters g) w w

/-! ## Ways without end -/

/-- What comes back enters a table that comes back. -/
theorem ComesBack.exists_enters (h : ComesBack g v) : ∃ w, Enters g v w ∧ ComesBack g w := by
  obtain ⟨w, hreach, hback⟩ := h
  rcases hreach.cases_head with rfl | ⟨u, hu, huw⟩
  · obtain ⟨u, hu, huv⟩ := TransGen.head'_iff.1 hback
    exact ⟨u, hu, v, huv, hback⟩
  · exact ⟨u, hu, w, huw, hback⟩

/-- What comes back goes on for as many levels as one likes. -/
theorem ComesBack.goesOn (h : ComesBack g v) (n : Nat) : GoesOn g n v := by
  induction n generalizing v with
  | zero => trivial
  | succ n ih =>
    obtain ⟨w, hw, hback⟩ := h.exists_enters
    exact ⟨w, hw, ih hback⟩

/-- What comes back cannot be reached from below by a way that ends. -/
theorem ComesBack.not_acc (h : ComesBack g v) : ¬ Acc (fun u w => Enters g w u) v := by
  intro hacc
  induction hacc with
  | intro v _ ih =>
    obtain ⟨w, hw, hback⟩ := h.exists_enters
    exact ih w hw hback

/-- An endless way goes on from everywhere on it. -/
theorem goesOn_of_way {way : Nat → Value} (hway : ∀ n, Enters g (way n) (way (n + 1))) (n k : Nat) :
    GoesOn g n (way k) := by
  induction n generalizing k with
  | zero => trivial
  | succ n ih => exact ⟨way (k + 1), hway k, ih (k + 1)⟩

/-- What goes on for some levels has a way of that length. -/
theorem GoesOn.exists_way (h : GoesOn g n v) :
    ∃ way : Nat → Value, way 0 = v ∧ ∀ i < n, Enters g (way i) (way (i + 1)) := by
  induction n generalizing v with
  | zero => exact ⟨fun _ => v, rfl, fun i hi => absurd hi (Nat.not_lt_zero i)⟩
  | succ n ih =>
    obtain ⟨w, hw, hrest⟩ := h
    obtain ⟨way, hstart, hway⟩ := ih hrest
    refine ⟨fun i => if i = 0 then v else way (i - 1), if_pos rfl, fun i hi => ?_⟩
    cases i with
    | zero => simpa [hstart] using hw
    | succ i => simpa using hway i (by omega)

/-- What has another table in it is a mapping with known keys. -/
theorem Enters.exists_entries (h : Enters g v w) :
    ∃ entries, g.entries? v = some entries ∧ ∀ e ∈ entries, e.1 = .text "routes" ∨ e.1 = .text "modules" := by
  rcases h with ⟨hentries, hkeys, -⟩ | ⟨entries, m, groups, hentries, hkeys, -⟩
  · exact ⟨_, hentries, hkeys⟩
  · exact ⟨entries, hentries, hkeys⟩

/-- What the reading goes on from is a container of the store. -/
theorem Enters.exists_id (h : Enters g v w) : ∃ id < g.size, v = .container id := by
  obtain ⟨entries, hentries, -⟩ := h.exists_entries
  obtain ⟨id, hshape⟩ := Graph.entries?_eq_some_iff.1 hentries
  exact ⟨id, Graph.lt_size_of_shape_mapping hshape, Resolver.eq_container_of_shape hshape⟩

/-- A later table of a way is reached from an earlier one. -/
theorem transGen_of_way {way : Nat → Value} {i j : Nat} (hij : i < j)
    (hway : ∀ k < j, Enters g (way k) (way (k + 1))) : TransGen (Enters g) (way i) (way j) := by
  induction j with
  | zero => exact absurd hij (Nat.not_lt_zero i)
  | succ j ih =>
    have hlast := hway j (Nat.lt_succ_self j)
    by_cases heq : i = j
    · subst heq
      exact .single hlast
    · exact .tail (ih (by omega) fun k hk => hway k (by omega)) hlast

/-- A way with more steps than there are containers passes one of them twice. -/
theorem GoesOn.comesBack (h : GoesOn g (g.size + 1) v) : ComesBack g v := by
  obtain ⟨way, hstart, hway⟩ := h.exists_way
  choose! id hid hcontainer using fun i (hi : i < g.size + 1) => (hway i hi).exists_id
  -- each step goes on from a container of its own, or else two steps go on from the same one
  let name : Fin (g.size + 1) → Fin g.size := fun i => ⟨id i, hid i i.isLt⟩
  obtain ⟨i, j, hne, heq⟩ := Fintype.exists_ne_map_eq_of_card_lt name (by simp)
  have hsame (i j : Fin (g.size + 1)) (heq : name i = name j) : way i = way j := by
    rw [hcontainer i i.isLt, hcontainer j j.isLt, show id i = id j from congrArg Fin.val heq]
  wlog hij : i < j generalizing i j
  · exact this j i hne.symm heq.symm (lt_of_le_of_ne (not_lt.1 hij) hne.symm)
  have hback : TransGen (Enters g) (way i) (way j) := transGen_of_way hij fun k hk => hway k (by omega)
  rw [← hsame i j heq] at hback
  refine ⟨way i, ?_, hback⟩
  rw [← hstart]
  by_cases hzero : (i : Nat) = 0
  · rw [hzero]
  · exact (transGen_of_way (by omega) fun k hk => hway k (by omega)).to_reflTransGen

/-! ## Tables that give routes -/

/-- A table gives routes in all modules, and the reading of it ends. -/
def Rests (g : Graph) (v : Value) : Prop :=
  GivesRoutes g v ∧ Acc (fun u w => Enters g w u) v

/-- A list of routes rests. -/
theorem rests_of_list {id : Nat} {items : List Value} (h : g.shape v = .list id items)
    (hroutes : List.Forall₂ (RouteOf g modules) items routes) : Rests g v := by
  constructor
  · intro modules'
    rw [exists_lists_list_iff h]
    exact (exists_lists_list_iff h modules).1 ⟨routes, .list h hroutes⟩
  · refine ⟨_, fun w hw => ?_⟩
    obtain ⟨entries, hentries, -⟩ := Enters.exists_entries hw
    rw [entries?_of_list h] at hentries
    cases hentries

/-- A mapping rests if its own routes and its groups do. -/
theorem rests_of_mapping (h : g.entries? v = some entries)
    (hkeys : ∀ e ∈ entries, e.1 = .text "routes" ∨ e.1 = .text "modules")
    (hroutes : ∀ w ∈ part? g entries "routes", Rests g w)
    (hmodules : ∀ m ∈ part? g entries "modules",
      ∃ groups, g.entries? m = some groups ∧ ∀ e ∈ groups, e.1.display?.isSome ∧ Rests g e.2) : Rests g v := by
  constructor
  · intro modules
    rw [exists_lists_mapping_iff h]
    refine ⟨hkeys, fun w hw => (hroutes w hw).1 modules, fun m hm => ?_⟩
    obtain ⟨groups, hgroups, hrest⟩ := hmodules m hm
    refine ⟨groups, hgroups, fun e he => ?_⟩
    obtain ⟨name, hname⟩ := Option.isSome_iff_exists.1 (hrest e he).1
    exact ⟨name, hname, (hrest e he).2.1 _⟩
  · refine ⟨_, fun w hw => ?_⟩
    cases hw with
    | routes h' _ hpart =>
      rw [h] at h'
      cases h'
      exact (hroutes _ hpart).2
    | group h' =>
      obtain ⟨entries', m, groups, hentries, -, -, hpart, hgroups, before, group, after, rfl, -, -, rfl⟩ := h'
      rw [h] at hentries
      cases hentries
      obtain ⟨groups', hsome, hrest⟩ := hmodules _ hpart
      rw [hgroups] at hsome
      cases hsome
      exact (hrest group (by simp)).2.2

/-- A table that lists routes gives them in all modules, and the reading of it ends. -/
theorem rests_of_lists (h : Lists g modules v routes) : Rests g v := by
  -- what is shown of the parts of a table and of its groups is that every table in them rests
  refine @Lists.rec g (fun _ v _ _ => Rests g v) (fun _ part _ _ => ∀ w ∈ part, Rests g w)
    (fun _ part _ _ => ∀ m ∈ part, ∃ groups, g.entries? m = some groups ∧
      ∀ e ∈ groups, e.1.display?.isSome ∧ Rests g e.2)
    (fun _ groups _ _ => ∀ e ∈ groups, e.1.display?.isSome ∧ Rests g e.2) ?list ?mapping ?noRoutes ?routes ?noModules
    ?modules ?nil ?cons modules v routes h
  case list => exact fun hshape hroutes => rests_of_list hshape hroutes
  case mapping => exact fun hentries hkeys _ _ hown hgrouped => rests_of_mapping hentries hkeys hown hgrouped
  case noRoutes => simp
  case routes => simp
  case noModules => simp
  case modules => simp +contextual
  case nil => simp
  case cons =>
    exact fun hname _ _ hfirst hrest =>
      List.forall_mem_cons.2 ⟨⟨Option.isSome_of_eq_some hname, hfirst⟩, hrest⟩

/-- A table gives routes if it lists some, whoever owns it. -/
theorem givesRoutes_iff (modules : List String) : GivesRoutes g v ↔ ∃ routes, Lists g modules v routes := by
  constructor
  · exact fun h => h modules
  · intro h
    obtain ⟨routes, hroutes⟩ := h
    exact (rests_of_lists hroutes).1

/-- A group gives routes if its name can be written and its table lists some. -/
theorem groupGives_iff (modules : List String) {group : Scalar × Value} :
    GroupGives g group ↔
      ∃ name, group.1.display? = some name ∧ ∃ routes, Lists g (modules ++ [name]) group.2 routes := by
  rw [GroupGives, Option.isSome_iff_exists]
  constructor
  · rintro ⟨⟨name, hname⟩, hgives⟩
    exact ⟨name, hname, hgives _⟩
  · rintro ⟨name, hname, hroutes⟩
    exact ⟨⟨name, hname⟩, (givesRoutes_iff _).2 hroutes⟩

/-- What gives routes comes to nothing but tables that give routes. -/
theorem GivesRoutes.of_enters (h : GivesRoutes g v) (hw : Enters g v w) : GivesRoutes g w := by
  obtain ⟨entries, hentries, -⟩ := hw.exists_entries
  obtain ⟨-, hroutes, hmodules⟩ := (exists_lists_mapping_iff hentries []).1 (h [])
  cases hw with
  | routes h' _ hpart =>
    rw [hentries] at h'
    cases h'
    exact (givesRoutes_iff []).2 (hroutes w hpart)
  | group h' =>
    obtain ⟨entries', m, groups, hentries', -, -, hpart, hgroups, before, group, after, rfl, -, -, rfl⟩ := h'
    rw [hentries] at hentries'
    cases hentries'
    obtain ⟨groups', hsome, hgive⟩ := hmodules m hpart
    rw [hgroups] at hsome
    cases hsome
    exact ((groupGives_iff []).2 (hgive group (by simp))).2

/-- What gives routes does not stop the reading. -/
theorem GivesRoutes.not_stops (h : GivesRoutes g v) : ¬ Stops g v := by
  rintro (⟨hentries, he, hroutes, hmodules, -⟩ | ⟨hshape, before, entry, after, rfl, -, hlong⟩ |
    ⟨entries, m, groups, hentries, -, -, hpart, hgroups, before, group, after, rfl, -, hnone⟩)
  · obtain ⟨hkeys, -⟩ := (exists_lists_mapping_iff hentries []).1 (h [])
    exact (hkeys _ he).elim hroutes hmodules
  · obtain ⟨own, hown⟩ := (exists_lists_list_iff hshape []).1 (h []) entry (by simp)
    have hroute : RouteOf g [] entry { own with handler := ownerOf [] ++ own.handler } := ⟨own, hown, rfl⟩
    have hread : readEntry g (ownerOf []) "" entry = .ok { own with handler := ownerOf [] ++ own.handler } :=
      readEntry_eq_ok.2 hroute
    rw [readEntry_eq_breakdown.2 ⟨rfl, hlong⟩] at hread
    cases hread
  · obtain ⟨-, -, hmodules⟩ := (exists_lists_mapping_iff hentries []).1 (h [])
    obtain ⟨groups', hsome, hgive⟩ := hmodules m hpart
    rw [hgroups] at hsome
    cases hsome
    obtain ⟨name, hname, -⟩ := hgive group (by simp)
    rw [hnone] at hname
    cases hname

/-- What gives routes meets no stop. -/
theorem GivesRoutes.not_meets (h : GivesRoutes g v) : ¬ Meets g v := by
  rintro ⟨w, hreach, hstops⟩
  induction hreach using ReflTransGen.head_induction_on with
  | refl => exact h.not_stops hstops
  | head hw _ ih => exact ih (h.of_enters hw)

/-- What gives routes does not come back. -/
theorem GivesRoutes.not_comesBack (h : GivesRoutes g v) : ¬ ComesBack g v := by
  obtain ⟨routes, hroutes⟩ := h []
  exact fun hback => hback.not_acc (rests_of_lists hroutes).2

/-! ## One way at a time -/

/-- What is come to along a list is one member, or one of two members has been passed. -/
theorem exists_of_comesTo {α : Type} {passes found found' : α → Prop} {l : List α} (h : ComesTo passes found l)
    (h' : ComesTo passes found' l) : ∃ a, found a ∧ found' a ∨ passes a ∧ (found a ∨ found' a) := by
  induction l with
  | nil => exact absurd h not_comesTo_nil
  | cons a rest ih =>
    rcases comesTo_cons.1 h with ha | ⟨hpasses, hrest⟩
    · rcases comesTo_cons.1 h' with ha' | ⟨hpasses, -⟩
      · exact ⟨a, .inl ⟨ha, ha'⟩⟩
      · exact ⟨a, .inr ⟨hpasses, .inl ha⟩⟩
    · rcases comesTo_cons.1 h' with ha' | ⟨-, hrest'⟩
      · exact ⟨a, .inr ⟨hpasses, .inr ha'⟩⟩
      · exact ih hrest hrest'

/-- Of two groups that a mapping comes to, one comes first or they are the same. -/
theorem ComesToGroup.exists_both {found found' : Scalar × Value → Prop} (h : ComesToGroup g found v)
    (h' : ComesToGroup g found' v) :
    ∃ group, found group ∧ found' group ∨ GroupGives g group ∧ (found group ∨ found' group) := by
  obtain ⟨entries, m, groups, hentries, -, -, hpart, hgroups, hcomes⟩ := h
  obtain ⟨entries', m', groups', hentries', -, -, hpart', hgroups', hcomes'⟩ := h'
  rw [hentries] at hentries'
  cases hentries'
  rw [hpart] at hpart'
  cases hpart'
  rw [hgroups] at hgroups'
  cases hgroups'
  exact exists_of_comesTo hcomes hcomes'

/-- A mapping comes to its groups if its own routes are given. -/
theorem ComesToGroup.givesRoutes {found : Scalar × Value → Prop} (h : ComesToGroup g found v)
    (hentries : g.entries? v = some entries) (hpart : part? g entries "routes" = some w) : GivesRoutes g w := by
  obtain ⟨entries', m, groups, hentries', -, hroutes, -⟩ := h
  rw [hentries] at hentries'
  cases hentries'
  exact hroutes w hpart

/-- Of two tables that are come to one gives routes. -/
theorem Enters.eq_or_givesRoutes (hv : Enters g v w) {u : Value} (hu : Enters g v u) :
    w = u ∨ GivesRoutes g w ∨ GivesRoutes g u := by
  rcases hv with ⟨hentries, -, hpart⟩ | hgroup
  · rcases hu with ⟨hentries', -, hpart'⟩ | hgroup'
    · rw [hentries] at hentries'
      cases hentries'
      exact .inl (Option.some.inj (hpart.symm.trans hpart'))
    · exact .inr (.inl (hgroup'.givesRoutes hentries hpart))
  · rcases hu with ⟨hentries', -, hpart'⟩ | hgroup'
    · exact .inr (.inr (hgroup.givesRoutes hentries' hpart'))
    · obtain ⟨group, ⟨⟨-, rfl⟩, -, rfl⟩ | ⟨hgives, ⟨-, rfl⟩ | ⟨-, rfl⟩⟩⟩ := hgroup.exists_both hgroup'
      · exact .inl rfl
      · exact .inr (.inl hgives.2)
      · exact .inr (.inr hgives.2)

/-- Where the reading has to show what has no text it comes to no table that gives none. -/
theorem Stops.givesRoutes (h : Stops g v) (hw : Enters g v w) : GivesRoutes g w := by
  obtain ⟨entries, hentries, hkeys⟩ := hw.exists_entries
  rcases h with ⟨hentries', he, hroutes, hmodules, -⟩ | ⟨hshape, -⟩ | hgroup
  · rw [hentries] at hentries'
    cases hentries'
    exact ((hkeys _ he).elim hroutes hmodules).elim
  · rw [entries?_of_list hshape] at hentries
    cases hentries
  · rcases hw with ⟨hentries', -, hpart⟩ | hgroup'
    · exact hgroup.givesRoutes hentries' hpart
    · obtain ⟨group, ⟨hnone, hsome, -⟩ | ⟨hgives, hnone | ⟨-, rfl⟩⟩⟩ := hgroup.exists_both hgroup'
      · rw [hnone] at hsome
        cases hsome
      · have hsome := hgives.1
        rw [hnone] at hsome
        cases hsome
      · exact hgives.2

/-- What meets a number that it cannot show does not go on without end. -/
theorem Meets.not_comesBack (h : Meets g v) : ¬ ComesBack g v := by
  obtain ⟨w, hreach, hstops⟩ := h
  induction hreach using ReflTransGen.head_induction_on with
  | refl =>
    intro hback
    obtain ⟨u, hu, hback⟩ := hback.exists_enters
    exact (hstops.givesRoutes hu).not_comesBack hback
  | head hv hreach ih =>
    intro hback
    obtain ⟨u, hu, hback⟩ := hback.exists_enters
    rcases hv.eq_or_givesRoutes hu with rfl | hgives | hgives
    · exact ih hback
    · exact hgives.not_meets ⟨w, hreach, hstops⟩
    · exact hgives.not_comesBack hback

end RouteBinding.RouteTable
