import RouteBinding.Proofs.Route.Ways

/-!
# How the reading of a table ends

The reading of a table breaks off as endless if it comes to a table that it comes back to, because it would go on without
end. It breaks off as well at the first path, handler, method, key or name of a group that it has to show and that is a
number with too many digits. Every other table, of whatever data, is read or refused (`RouteTable.read_breaks_iff`).
Finite data have no loop, and are read as what they list (`RouteTable.read_lists`).
-/

namespace RouteBinding.RouteTable

open Relation (ReflTransGen TransGen)

variable {g : Graph} {v w : Value} {entries groups : List (Scalar × Value)} {modules : List String}
  {owner place : String} {routes : List Route} {depth n : Nat}

/-! ## Reading -/

/-- What the outcome of a reading says: the routes it gives are listed; what is listed is given, unless the reading goes
on too long; in that case alone it breaks off as endless; and it breaks off as well if it meets what has no text. -/
structure Settles (outcome : Except RouteTableFailure (List Route)) (lists : List Route → Prop)
    (loops stuck : Prop) : Prop where
  sound : ∀ routes, outcome = .ok routes → lists routes
  ok : ¬ loops → ∀ routes, lists routes → outcome = .ok routes
  endless : outcome = .error (.breakdown .endlessRoutes) ↔ loops
  tooLong : ¬ loops → (outcome = .error (.breakdown .numberTooLong) ↔ stuck)
  breaks : ∀ b, outcome = .error (.breakdown b) → b = .endlessRoutes ∨ b = .numberTooLong

/-- What settles an outcome may be said in other words. -/
theorem Settles.congr {outcome : Except RouteTableFailure (List Route)} {lists lists' : List Route → Prop}
    {loops loops' stuck stuck' : Prop} (h : Settles outcome lists loops stuck)
    (hlists : ∀ routes, lists routes ↔ lists' routes) (hloops : loops ↔ loops') (hstuck : stuck ↔ stuck') :
    Settles outcome lists' loops' stuck' := by
  obtain rfl : loops = loops' := propext hloops
  obtain rfl : stuck = stuck' := propext hstuck
  obtain rfl : lists = lists' := funext fun routes => propext (hlists routes)
  exact h

/-- Nothing to read lists nothing. -/
theorem settles_nil : Settles (.ok []) (· = []) False False where
  sound := fun routes hroutes => (Except.ok.inj hroutes).symm
  ok := fun _ routes hroutes => by rw [hroutes]
  endless := iff_of_false nofun nofun
  tooLong := fun _ => iff_of_false nofun nofun
  breaks := nofun

/-- What is refused lists nothing, and does not break the reading off. -/
theorem settles_refused {e : RouteError} : Settles (.error (.refused e)) (fun _ => False) False False where
  sound := nofun
  ok := nofun
  endless := iff_of_false nofun nofun
  tooLong := fun _ => iff_of_false nofun nofun
  breaks := nofun

/-- A number too long to be written is where the reading is stuck. -/
theorem settles_numberTooLong :
    Settles (.error (.breakdown .numberTooLong)) (fun _ => False) False True where
  sound := nofun
  ok := nofun
  endless := iff_of_false nofun nofun
  tooLong := fun _ => iff_of_true rfl trivial
  breaks := fun b hb => by cases hb; exact .inr rfl

/-- Of two readings one after the other the second one is come to if the first one gives routes. -/
theorem Settles.append {first later : Except RouteTableFailure (List Route)} {lists lists' : List Route → Prop}
    {loops loops' stuck stuck' : Prop} (h : Settles first lists loops stuck)
    (h' : Settles later lists' loops' stuck') :
    Settles (do return (← first) ++ (← later))
      (fun routes => ∃ own grouped, lists own ∧ lists' grouped ∧ routes = own ++ grouped)
      (loops ∨ (∃ own, lists own) ∧ loops') (stuck ∨ (∃ own, lists own) ∧ stuck') := by
  -- the chain fails with what fails first
  have herror (failure : RouteTableFailure) : (do return (← first) ++ (← later)) = .error failure ↔
      first = .error failure ∨ ∃ own, first = .ok own ∧ later = .error failure := by
    rw [bind_eq_error]
    refine or_congr_right (exists_congr fun own => and_congr_right fun _ => ?_)
    rw [bind_eq_error]
    exact or_iff_left fun ⟨_, _, hpure⟩ => by cases hpure
  constructor
  · intro routes hroutes
    obtain ⟨own, hown, hrest⟩ := bind_eq_ok.1 hroutes
    obtain ⟨grouped, hgrouped, heq⟩ := bind_eq_ok.1 hrest
    cases heq
    exact ⟨own, grouped, h.sound own hown, h'.sound grouped hgrouped, rfl⟩
  · rintro hends routes ⟨own, grouped, hown, hgrouped, rfl⟩
    have hfirst : ¬ loops := fun he => hends (.inl he)
    have hlater : ¬ loops' := fun he => hends (.inr ⟨⟨own, hown⟩, he⟩)
    rw [h.ok hfirst own hown, h'.ok hlater grouped hgrouped]
    rfl
  · rw [herror, h.endless, h'.endless]
    constructor
    · rintro (hends | ⟨own, hown, hends⟩)
      · exact .inl hends
      · exact .inr ⟨⟨own, h.sound own hown⟩, hends⟩
    · intro hends
      by_cases hfirst : loops
      · exact .inl hfirst
      · obtain ⟨⟨own, hown⟩, hlater⟩ := hends.resolve_left hfirst
        exact .inr ⟨own, h.ok hfirst own hown, hlater⟩
  · intro hends
    have hfirst : ¬ loops := fun he => hends (.inl he)
    rw [herror, h.tooLong hfirst]
    refine or_congr_right ⟨?_, ?_⟩
    · rintro ⟨own, hown, hlong⟩
      have hown := h.sound own hown
      exact ⟨⟨own, hown⟩, (h'.tooLong fun he => hends (.inr ⟨⟨own, hown⟩, he⟩)).1 hlong⟩
    · rintro ⟨⟨own, hown⟩, hmeets⟩
      exact ⟨own, h.ok hfirst own hown, (h'.tooLong fun he => hends (.inr ⟨⟨own, hown⟩, he⟩)).2 hmeets⟩
  · intro b hb
    rcases (herror _).1 hb with hb | ⟨own, -, hb⟩
    · exact h.breaks b hb
    · exact h'.breaks b hb

/-- A table in some modules settles, wherever it stands. -/
def SettlesWithin (g : Graph) (depth : Nat) (v : Value) : Prop :=
  ∀ modules place,
    Settles (readWithin g depth (ownerOf modules) place v) (Lists g modules v) (GoesOn g depth v) (Meets g v)

/-- The reading of a group is settled by its name and by the reading of its table. -/
theorem settles_group {group : Scalar × Value} (h : SettlesWithin g depth group.2) (modules : List String)
    (place : String) :
    Settles (readGroup g depth (ownerOf modules) place group)
      (fun routes => ∃ name, group.1.display? = some name ∧ Lists g (modules ++ [name]) group.2 routes)
      (group.1.display?.isSome ∧ GoesOn g depth group.2)
      (group.1.display? = none ∨ group.1.display?.isSome ∧ Meets g group.2) := by
  unfold readGroup
  cases hname : group.1.display? with
  | none =>
    exact settles_numberTooLong.congr (fun routes => by simp) (by simp) (by simp)
  | some name =>
    have hread := h (modules ++ [name]) (place ++ ".modules." ++ name)
    rw [ownerOf_append] at hread
    exact hread.congr (fun routes => by simp) (by simp) (by simp)

/-- The reading of groups is settled by the first of them that lists no routes. -/
theorem settles_groups (h : ∀ group ∈ groups, SettlesWithin g depth group.2) (modules : List String)
    (place : String) :
    Settles (List.flatten <$> groups.mapM (readGroup g depth (ownerOf modules) place)) (ListsGroups g modules groups)
      (ComesTo (GroupGives g) (fun group => group.1.display?.isSome ∧ GoesOn g depth group.2) groups)
      (ComesTo (GroupGives g)
        (fun group => group.1.display? = none ∨ group.1.display?.isSome ∧ Meets g group.2) groups) := by
  induction groups with
  | nil =>
    refine settles_nil.congr (fun routes => ⟨?_, ?_⟩) (iff_of_false id not_comesTo_nil)
      (iff_of_false id not_comesTo_nil)
    · rintro rfl
      exact .nil
    · rintro ⟨⟩
      rfl
  | cons group rest ih =>
    obtain ⟨hfirst, hrest⟩ := List.forall_mem_cons.1 h
    have happend := (settles_group hfirst modules place).append (ih hrest)
    have hgives : (∃ own name, group.1.display? = some name ∧ Lists g (modules ++ [name]) group.2 own) ↔
        GroupGives g group := by
      rw [groupGives_iff modules, exists_comm]
      simp only [exists_and_left]
    rw [List.mapM_cons, comesTo_cons, comesTo_cons]
    rw [hgives] at happend
    simp only [map_bind, bind_map_left, map_pure, List.flatten_cons] at happend ⊢
    refine happend.congr (fun routes => ⟨?_, ?_⟩) Iff.rfl Iff.rfl
    · rintro ⟨own, grouped, ⟨name, hname, hown⟩, hgrouped, rfl⟩
      exact .cons hname hown hgrouped
    · rintro ⟨⟩
      exact ⟨_, _, ⟨_, ‹_›, ‹_›⟩, ‹_›, rfl⟩

/-- The reading of modules is settled by that of their groups. -/
theorem settles_modules {part : Option Value}
    (h : ∀ m ∈ part, ∀ groups, g.entries? m = some groups → ∀ group ∈ groups, SettlesWithin g depth group.2)
    (modules : List String) (place : String) :
    Settles (readModules g depth (ownerOf modules) place part) (ListsModules g modules part)
      (∃ m groups, part = some m ∧ g.entries? m = some groups ∧
        ComesTo (GroupGives g) (fun group => group.1.display?.isSome ∧ GoesOn g depth group.2) groups)
      (∃ m groups, part = some m ∧ g.entries? m = some groups ∧ ComesTo (GroupGives g)
        (fun group => group.1.display? = none ∨ group.1.display?.isSome ∧ Meets g group.2) groups) := by
  unfold readModules
  cases part with
  | none =>
    refine settles_nil.congr (fun routes => ⟨?_, ?_⟩) (by simp) (by simp)
    · rintro rfl
      exact .absent
    · rintro ⟨⟩
      rfl
  | some m =>
    dsimp only [Option.elim_some]
    cases hgroups : g.entries? m with
    | none =>
      refine settles_refused.congr (fun routes => iff_of_false id ?_) (by simp [hgroups]) (by simp [hgroups])
      intro hlists
      cases hlists with
      | present hsome =>
        rw [hgroups] at hsome
        cases hsome
    | some groups =>
      refine (settles_groups (h m rfl groups hgroups) modules place).congr (fun routes => ⟨.present hgroups, ?_⟩)
        (by simp [hgroups]) (by simp [hgroups])
      intro hlists
      cases hlists with
      | present hsome hroutes =>
        rw [hgroups] at hsome
        cases hsome
        exact hroutes

/-- The reading of a part is settled by that of its table. -/
theorem settles_part {part : Option Value} (h : ∀ w ∈ part, SettlesWithin g depth w) (modules : List String)
    (place : String) :
    Settles (readPart g depth (ownerOf modules) place part) (ListsPart g modules part)
      (∃ w, part = some w ∧ GoesOn g depth w) (∃ w, part = some w ∧ Meets g w) := by
  unfold readPart
  cases part with
  | none =>
    refine settles_nil.congr (fun routes => ⟨?_, ?_⟩) (by simp) (by simp)
    · rintro rfl
      exact .absent
    · rintro ⟨⟩
      rfl
  | some w =>
    refine (h w rfl modules (place ++ ".routes")).congr (fun routes => ⟨.present, ?_⟩) (by simp) (by simp)
    rintro ⟨⟩
    assumption

/-- A list settles with its entries. -/
theorem settles_list {id : Nat} {items : List Value} (h : g.shape v = .list id items) (modules : List String)
    (place : String) :
    Settles (readEntries g (ownerOf modules) place 0 items) (Lists g modules v) False (Meets g v) where
  sound := fun routes hroutes => .list h (readEntries_eq_ok.1 hroutes)
  ok := fun _ routes hroutes => readEntries_eq_ok.2 ((lists_list_iff h).1 hroutes)
  endless := iff_of_false (fun hread => by cases (readEntries_eq_breakdown.1 hread).1) nofun
  tooLong := fun _ => by
    rw [readEntries_eq_breakdown, and_iff_right rfl, meets_iff]
    constructor
    · exact fun hentry => .inl (.entry h hentry)
    · rintro ((⟨hentries, -⟩ | ⟨hshape, hentry⟩ | ⟨entries, m, groups, hentries, -⟩) | ⟨w, hw, -⟩)
      · rw [entries?_of_list h] at hentries
        cases hentries
      · rw [h] at hshape
        cases hshape
        exact hentry
      · rw [entries?_of_list h] at hentries
        cases hentries
      · obtain ⟨entries, hentries, -⟩ := hw.exists_entries
        rw [entries?_of_list h] at hentries
        cases hentries
  breaks := fun b hb => .inr (readEntries_eq_breakdown.1 hb).1

/-! ## Mappings -/

section Mappings

variable (h : g.entries? v = some entries)

include h

/-- A mapping with known keys comes to a group if its own routes are listed, and so are the groups before it. -/
theorem comesToGroup_iff {found : Scalar × Value → Prop}
    (hkeys : ∀ e ∈ entries, e.1 = .text "routes" ∨ e.1 = .text "modules") :
    ComesToGroup g found v ↔ (∀ w ∈ part? g entries "routes", GivesRoutes g w) ∧
      ∃ m groups, part? g entries "modules" = some m ∧ g.entries? m = some groups ∧
        ComesTo (GroupGives g) found groups := by
  constructor
  · rintro ⟨entries', m, groups, hentries, -, hroutes, hpart, hgroups, hcomes⟩
    rw [h] at hentries
    cases hentries
    exact ⟨hroutes, m, groups, hpart, hgroups, hcomes⟩
  · rintro ⟨hroutes, m, groups, hpart, hgroups, hcomes⟩
    exact ⟨entries, m, groups, h, hkeys, hroutes, hpart, hgroups, hcomes⟩

/-- Which tables are come to from a mapping with known keys. -/
theorem exists_enters_iff {property : Value → Prop}
    (hkeys : ∀ e ∈ entries, e.1 = .text "routes" ∨ e.1 = .text "modules") :
    (∃ w, Enters g v w ∧ property w) ↔ (∃ w, part? g entries "routes" = some w ∧ property w) ∨
      ComesToGroup g (fun group => group.1.display?.isSome ∧ property group.2) v := by
  constructor
  · rintro ⟨w, ⟨hentries, -, hpart⟩ | ⟨entries', m, groups, hentries, hkeys, hroutes, hpart, hgroups, before, group,
      after, heq, hbefore, hname, rfl⟩, hw⟩
    · rw [h] at hentries
      cases hentries
      exact .inl ⟨w, hpart, hw⟩
    · exact .inr ⟨entries', m, groups, hentries, hkeys, hroutes, hpart, hgroups, before, group, after, heq, hbefore,
        hname, hw⟩
  · rintro (⟨w, hpart, hw⟩ | ⟨entries', m, groups, hentries, hkeys, hroutes, hpart, hgroups, before, group, after, heq,
      hbefore, hname, hw⟩)
    · exact ⟨w, .routes h hkeys hpart, hw⟩
    · exact ⟨group.2, .group ⟨entries', m, groups, hentries, hkeys, hroutes, hpart, hgroups, before, group, after, heq,
        hbefore, hname, rfl⟩, hw⟩

/-- A mapping with known keys stops the reading if it comes to a group whose name cannot be written. -/
theorem stops_iff (hkeys : ∀ e ∈ entries, e.1 = .text "routes" ∨ e.1 = .text "modules") :
    Stops g v ↔ ComesToGroup g (fun group => group.1.display? = none) v := by
  constructor
  · rintro (⟨hentries, he, hroutes, hmodules, -⟩ | ⟨hshape, -⟩ | hgroup)
    · rw [h] at hentries
      cases hentries
      exact ((hkeys _ he).elim hroutes hmodules).elim
    · exact absurd hshape (ne_list_of_entries? h _ _)
    · exact hgroup
  · exact .name

/-- A mapping with known keys meets a stop in its own routes or in the group it comes to. -/
theorem meets_mapping_iff (hkeys : ∀ e ∈ entries, e.1 = .text "routes" ∨ e.1 = .text "modules") :
    Meets g v ↔ (∃ w, part? g entries "routes" = some w ∧ Meets g w) ∨ ComesToGroup g
      (fun group => group.1.display? = none ∨ group.1.display?.isSome ∧ Meets g group.2) v := by
  have hor {found found' : Scalar × Value → Prop} : ComesToGroup g (fun group => found group ∨ found' group) v ↔
      ComesToGroup g found v ∨ ComesToGroup g found' v := by
    simp only [comesToGroup_iff h hkeys, ComesTo]
    constructor
    · rintro ⟨hroutes, m, groups, hpart, hgroups, before, group, after, heq, hbefore, hfound | hfound⟩
      · exact .inl ⟨hroutes, m, groups, hpart, hgroups, before, group, after, heq, hbefore, hfound⟩
      · exact .inr ⟨hroutes, m, groups, hpart, hgroups, before, group, after, heq, hbefore, hfound⟩
    · rintro (⟨hroutes, m, groups, hpart, hgroups, before, group, after, heq, hbefore, hfound⟩ |
        ⟨hroutes, m, groups, hpart, hgroups, before, group, after, heq, hbefore, hfound⟩)
      · exact ⟨hroutes, m, groups, hpart, hgroups, before, group, after, heq, hbefore, .inl hfound⟩
      · exact ⟨hroutes, m, groups, hpart, hgroups, before, group, after, heq, hbefore, .inr hfound⟩
  rw [meets_iff, stops_iff h hkeys, exists_enters_iff h hkeys, hor, or_left_comm]

/-- A mapping with an unknown key is not gone into. -/
theorem not_goesOn_of_key (hkeys : ¬ ∀ e ∈ entries, e.1 = .text "routes" ∨ e.1 = .text "modules") :
    ¬ GoesOn g (depth + 1) v := by
  rintro ⟨w, hw, -⟩
  obtain ⟨entries', hentries, hkeys'⟩ := hw.exists_entries
  rw [h] at hentries
  cases hentries
  exact hkeys hkeys'

/-- A mapping with an unknown key stops the reading if one of these cannot be written. -/
theorem meets_iff_of_key (hkeys : ¬ ∀ e ∈ entries, e.1 = .text "routes" ∨ e.1 = .text "modules") :
    Meets g v ↔ ∃ e ∈ entries, e.1 ≠ .text "routes" ∧ e.1 ≠ .text "modules" ∧ e.1.display? = none := by
  rw [meets_iff]
  constructor
  · rintro ((⟨hentries, he, hroutes, hmodules, hlong⟩ | ⟨hshape, -⟩ | ⟨entries', m, groups, hentries, hkeys', -⟩) |
      ⟨w, hw, -⟩)
    · rw [h] at hentries
      cases hentries
      exact ⟨_, he, hroutes, hmodules, hlong⟩
    · exact absurd hshape (ne_list_of_entries? h _ _)
    · rw [h] at hentries
      cases hentries
      exact absurd hkeys' hkeys
    · obtain ⟨entries', hentries, hkeys'⟩ := hw.exists_entries
      rw [h] at hentries
      cases hentries
      exact absurd hkeys' hkeys
  · rintro ⟨e, he, hroutes, hmodules, hlong⟩
    exact .inl (.key h he hroutes hmodules hlong)

end Mappings

/-- What is no mapping is not gone into. -/
theorem not_goesOn_of_entries? (h : g.entries? v = none) : ¬ GoesOn g (depth + 1) v := by
  rintro ⟨w, hw, -⟩
  obtain ⟨entries, hentries, -⟩ := hw.exists_entries
  rw [h] at hentries
  cases hentries

/-- What is neither a list nor a mapping stops nothing. -/
theorem not_meets_of_shape (hlist : ∀ id items, g.shape v ≠ .list id items) (h : g.entries? v = none) :
    ¬ Meets g v := by
  rw [meets_iff]
  rintro ((⟨hentries, -⟩ | ⟨hshape, -⟩ | ⟨entries, m, groups, hentries, -⟩) | ⟨w, hw, -⟩)
  · rw [h] at hentries
    cases hentries
  · exact hlist _ _ hshape
  · rw [h] at hentries
    cases hentries
  · obtain ⟨entries, hentries, -⟩ := hw.exists_entries
    rw [h] at hentries
    cases hentries

/-- A table that is read within some depth settles, and breaks off as endless if the reading goes on for as many
steps. -/
theorem settlesWithin (g : Graph) (depth : Nat) (v : Value) : SettlesWithin g depth v := by
  -- by induction on the depth, of which every table that is come to takes one step
  induction depth generalizing v with
  | zero =>
    intro modules place
    refine ⟨nofun, fun hends => absurd trivial hends, iff_of_true rfl trivial, fun hends => absurd trivial hends, ?_⟩
    rintro b ⟨⟩
    exact .inl rfl
  | succ depth ih =>
    intro modules place
    cases hshape : g.shape v with
    | list id items =>
      rw [readWithin, hshape]
      exact (settles_list hshape modules place).congr (fun routes => Iff.rfl)
        (iff_of_false (fun hf => hf) (not_goesOn_of_entries? (entries?_of_list hshape))) Iff.rfl
    | mapping id entries =>
      have hentries : g.entries? v = some entries := Graph.entries?_eq_some_iff.2 ⟨id, hshape⟩
      rw [readWithin_mapping hshape]
      by_cases hkeys : ∀ e ∈ entries, e.1 = .text "routes" ∨ e.1 = .text "modules"
      · rw [unknownKeys?_eq_nil_iff.2 hkeys]
        refine ((settles_part (fun w _ => ih w) modules place).append
          (settles_modules (fun m _ groups _ group _ => ih group.2) modules place)).congr (fun routes => ?_) ?_ ?_
        · rw [lists_mapping_iff hentries, and_iff_right hkeys]
        · rw [GoesOn, exists_enters_iff hentries hkeys, comesToGroup_iff hentries hkeys, exists_listsPart_iff]
          simp only [← givesRoutes_iff]
        · rw [meets_mapping_iff hentries hkeys, comesToGroup_iff hentries hkeys, exists_listsPart_iff]
          simp only [← givesRoutes_iff]
      · have hlists (routes : List Route) : False ↔ Lists g modules v routes :=
          iff_of_false (fun hf => hf) fun hlists => hkeys ((lists_mapping_iff hentries).1 hlists).1
        have hends : False ↔ GoesOn g (depth + 1) v := iff_of_false (fun hf => hf) (not_goesOn_of_key hentries hkeys)
        have hmeets := (meets_iff_of_key hentries hkeys).trans unknownKeys?_eq_none_iff.symm
        cases hunknown : unknownKeys? entries with
        | none => exact settles_numberTooLong.congr hlists hends (iff_of_true trivial (hmeets.2 hunknown))
        | some unknown =>
          cases unknown with
          | nil => exact absurd (unknownKeys?_eq_nil_iff.1 hunknown) hkeys
          | cons key rest =>
            refine settles_refused.congr hlists hends (iff_of_false (fun hf => hf) fun h => ?_)
            rw [hmeets.1 h] at hunknown
            cases hunknown
    | _ =>
      have hnone : g.entries? v = none := by rw [Graph.entries?, hshape]
      have hlist : ∀ id items, g.shape v ≠ .list id items := fun id items h => by rw [hshape] at h; cases h
      rw [readWithin, hshape]
      exact settles_refused.congr (fun routes => iff_of_false (fun hf => hf) (not_lists_of_shape hlist hnone))
        (iff_of_false (fun hf => hf) (not_goesOn_of_entries? hnone))
        (iff_of_false (fun hf => hf) (not_meets_of_shape hlist hnone))

/-! ## The depth makes no difference -/

/-- What goes on for many levels goes on for fewer. -/
theorem GoesOn.of_le (h : GoesOn g n v) {k : Nat} (hk : k ≤ n) : GoesOn g k v := by
  induction k generalizing n v with
  | zero => trivial
  | succ k ih =>
    cases n with
    | zero => omega
    | succ n =>
      obtain ⟨w, hw, hrest⟩ := h
      exact ⟨w, hw, ih hrest (by omega)⟩

/-- Groups are read alike one level deeper, if the tables of those that are come to are. -/
theorem readGroups_succ
    (h : ∀ before group after, groups = before ++ group :: after → (∀ e ∈ before, GroupGives g e) →
      group.1.display?.isSome → ∀ modules place, readWithin g (depth + 1) (ownerOf modules) place group.2 =
        readWithin g depth (ownerOf modules) place group.2) (modules : List String) (place : String) :
    groups.mapM (readGroup g (depth + 1) (ownerOf modules) place) =
      groups.mapM (readGroup g depth (ownerOf modules) place) := by
  induction groups with
  | nil => rfl
  | cons group rest ih =>
    have hfirst : readGroup g (depth + 1) (ownerOf modules) place group =
        readGroup g depth (ownerOf modules) place group := by
      unfold readGroup
      cases hname : group.1.display? with
      | none => rfl
      | some name =>
        have hstep := h [] group rest rfl (by simp) (Option.isSome_of_eq_some hname) (modules ++ [name])
          (place ++ ".modules." ++ name)
        rwa [ownerOf_append] at hstep
    rw [List.mapM_cons, List.mapM_cons, hfirst]
    cases hread : readGroup g depth (ownerOf modules) place group with
    | error failure => rfl
    | ok own =>
      -- the groups behind are come to, because this one gives routes
      have hsettles := settles_group (settlesWithin g depth group.2) modules place
      obtain ⟨name, hname, hown⟩ := hsettles.sound own hread
      have hgives : GroupGives g group := (groupGives_iff modules).2 ⟨name, hname, own, hown⟩
      have hrest := ih fun before group' after heq hbefore =>
        h (group :: before) group' after (by rw [heq]; rfl) (List.forall_mem_cons.2 ⟨hgives, hbefore⟩)
      rw [hrest]

/-- A part is read alike one level deeper, if its table is. -/
theorem readPart_succ {part : Option Value}
    (h : ∀ w ∈ part, ∀ modules place, readWithin g (depth + 1) (ownerOf modules) place w =
      readWithin g depth (ownerOf modules) place w) (modules : List String) (place : String) :
    readPart g (depth + 1) (ownerOf modules) place part = readPart g depth (ownerOf modules) place part := by
  cases part with
  | none => rfl
  | some w => exact h w rfl modules (place ++ ".routes")

/-- Modules are read alike one level deeper, if the tables of the groups that are come to are. -/
theorem readModules_succ {part : Option Value}
    (h : ∀ m before group after, part = some m → g.entries? m = some (before ++ group :: after) →
      (∀ e ∈ before, GroupGives g e) → group.1.display?.isSome → ∀ modules place,
        readWithin g (depth + 1) (ownerOf modules) place group.2 = readWithin g depth (ownerOf modules) place group.2)
    (modules : List String) (place : String) :
    readModules g (depth + 1) (ownerOf modules) place part = readModules g depth (ownerOf modules) place part := by
  unfold readModules
  cases part with
  | none => rfl
  | some m =>
    dsimp only [Option.elim_some]
    cases hgroups : g.entries? m with
    | none => rfl
    | some groups =>
      dsimp only
      rw [readGroups_succ]
      intro before group after heq
      exact h m before group after rfl (by rw [hgroups, heq])

/-- Where a reading does not go on for as many steps as the depth allows, one step more changes nothing. -/
theorem readWithin_succ (h : ¬ GoesOn g depth v) (modules : List String) (place : String) :
    readWithin g (depth + 1) (ownerOf modules) place v = readWithin g depth (ownerOf modules) place v := by
  induction depth generalizing v modules place with
  | zero => exact absurd trivial h
  | succ depth ih =>
    cases hshape : g.shape v with
    | mapping id entries =>
      have hentries : g.entries? v = some entries := Graph.entries?_eq_some_iff.2 ⟨id, hshape⟩
      rw [readWithin_mapping hshape, readWithin_mapping hshape]
      by_cases hkeys : ∀ e ∈ entries, e.1 = .text "routes" ∨ e.1 = .text "modules"
      · rw [unknownKeys?_eq_nil_iff.2 hkeys]
        rw [GoesOn, exists_enters_iff hentries hkeys] at h
        have hroutes : ∀ w ∈ part? g entries "routes", ¬ GoesOn g depth w :=
          fun w hw hgoes => h (.inl ⟨w, hw, hgoes⟩)
        dsimp only
        rw [readPart_succ fun w hw => ih (hroutes w hw)]
        cases hread : readPart g depth (ownerOf modules) place (part? g entries "routes") with
        | error failure => rfl
        | ok own =>
          -- the groups are come to, because the routes part gives routes
          have hlists := (settles_part (fun w _ => settlesWithin g depth w) modules place).sound own hread
          have hgives : ∀ w ∈ part? g entries "routes", GivesRoutes g w := fun w hw =>
            (givesRoutes_iff modules).2 ((exists_listsPart_iff modules).1 ⟨own, hlists⟩ w hw)
          rw [readModules_succ]
          intro m before group after hpart hgroups hbefore hname
          exact ih fun hgoes => h (.inr ⟨entries, m, _, hentries, hkeys, hgives, hpart, hgroups, before, group, after,
            rfl, hbefore, hname, hgoes⟩)
      · -- with an unknown key nothing is read
        cases hunknown : unknownKeys? entries with
        | none => rfl
        | some unknown =>
          cases unknown with
          | nil => exact absurd (unknownKeys?_eq_nil_iff.1 hunknown) hkeys
          | cons key rest => rfl
    | _ => rw [readWithin, readWithin, hshape]

/-- From one more than the count of containers on, the depth makes no difference. -/
theorem readWithin_depth (hdepth : g.size < depth) (modules : List String) (place : String) (v : Value) :
    readWithin g depth (ownerOf modules) place v = readWithin g (g.size + 1) (ownerOf modules) place v := by
  by_cases hends : GoesOn g (g.size + 1) v
  · have hbreaks (depth : Nat) :
        readWithin g depth (ownerOf modules) place v = .error (.breakdown .endlessRoutes) :=
      (settlesWithin g depth v modules place).endless.2 (hends.comesBack.goesOn depth)
    rw [hbreaks, hbreaks]
  · induction depth with
    | zero => exact absurd hdepth (Nat.not_lt_zero _)
    | succ depth ih =>
      by_cases heq : depth = g.size
      · rw [heq]
      · have hlt : g.size < depth := by omega
        have hstays : ¬ GoesOn g depth v := fun hgoes => hends (hgoes.of_le hlt)
        rw [readWithin_succ hstays, ih hlt]

/-! ## Where the reading of a table ends -/

/-- A way comes back to a table if it goes on for more levels than there are containers. -/
theorem comesBack_iff_goesOn : ComesBack g v ↔ GoesOn g (g.size + 1) v :=
  ⟨fun h => h.goesOn _, fun h => h.comesBack⟩

/-- A way comes back to a table if it never ends. -/
theorem comesBack_iff_exists_way :
    ComesBack g v ↔ ∃ way : Nat → Value, way 0 = v ∧ ∀ n, Enters g (way n) (way (n + 1)) := by
  constructor
  · exact fun h => not_acc_iff_exists_descending_chain.1 h.not_acc
  · intro h
    obtain ⟨way, hstart, hway⟩ := h
    have hgoes := goesOn_of_way hway (g.size + 1) 0
    rw [hstart] at hgoes
    exact hgoes.comesBack

/-- What is known of the reading of every document. -/
theorem settles_read (d : Document) :
    Settles (read d) (Lists d.graph [] d.root) (ComesBack d.graph d.root) (Meets d.graph d.root) :=
  (settlesWithin d.graph (d.graph.size + 1) d.root [] "routes").congr (fun _ => Iff.rfl)
    comesBack_iff_goesOn.symm Iff.rfl

/-- For every document the depth of the reading makes no difference from one more than the count of containers on. The
reading gives the routes that are listed. It breaks off as endless exactly if it comes to a table that it comes back to,
which is where following the tables in order would go on without end. It breaks off at a number with too many digits
exactly if it comes to a table where it has to show one. In every other case the routes are given or refused. -/
theorem read_breaks_iff (d : Document) :
    (∀ depth, d.graph.size < depth → readWithin d.graph depth "" "routes" d.root = read d) ∧
      (∀ routes, read d = .ok routes ↔ Lists d.graph [] d.root routes) ∧
      (read d = .error (.breakdown .endlessRoutes) ↔
        ∃ v, ReflTransGen (Enters d.graph) d.root v ∧ TransGen (Enters d.graph) v v) ∧
      (read d = .error (.breakdown .endlessRoutes) ↔
        ∃ way : Nat → Value, way 0 = d.root ∧ ∀ n, Enters d.graph (way n) (way (n + 1))) ∧
      (read d = .error (.breakdown .numberTooLong) ↔
        ∃ v, ReflTransGen (Enters d.graph) d.root v ∧ Stops d.graph v) ∧
      ∀ b, read d = .error (.breakdown b) → b = .endlessRoutes ∨ b = .numberTooLong := by
  have hsettles := settles_read d
  refine ⟨fun depth hdepth => readWithin_depth hdepth [] "routes" d.root, fun routes => ⟨hsettles.sound routes, ?_⟩,
    hsettles.endless, hsettles.endless.trans comesBack_iff_exists_way, ⟨fun hlong => ?_, fun hmeets => ?_⟩,
    hsettles.breaks⟩
  · intro hroutes
    have hgives : GivesRoutes d.graph d.root := (givesRoutes_iff []).2 ⟨routes, hroutes⟩
    exact hsettles.ok hgives.not_comesBack routes hroutes
  · have hends : ¬ ComesBack d.graph d.root := fun hback => by
      rw [hsettles.endless.2 hback] at hlong
      cases hlong
    exact (hsettles.tooLong hends).1 hlong
  · exact (hsettles.tooLong (Meets.not_comesBack hmeets)).2 hmeets

/-- A table that is the routes part of one of its groups. -/
def loopedTable : Document where
  graph := ⟨#[
    .mapping [(.text "routes", .container 1), (.text "modules", .container 2)],
    .list [.scalar (.text "GET /health as health")],
    .mapping [(.text "users", .container 3)],
    .mapping [(.text "routes", .container 0)]]⟩
  root := .container 0

/-- A table whose routes are the table itself is gone into without end, however deep the reading may go. -/
theorem read_breaks_iff_loopedTable :
    loopedTable.graph.size < 9 ∧ read loopedTable = .error (.breakdown .endlessRoutes) ∧
      readWithin loopedTable.graph 9 "" "routes" loopedTable.root = read loopedTable ∧
      ∃ v, ReflTransGen (Enters loopedTable.graph) loopedTable.root v ∧ TransGen (Enters loopedTable.graph) v v := by
  have hsize : loopedTable.graph.size < 9 := by decide
  have hread : read loopedTable = .error (.breakdown .endlessRoutes) := by decide +kernel
  obtain ⟨hdepth, -, hendless, -⟩ := read_breaks_iff loopedTable
  exact ⟨hsize, hread, hdepth 9 hsize, hendless.1 hread⟩

/-! ## Finite data -/

/-- What is entered from a table is inside it. -/
theorem Enters.inside (h : Enters g v w) : Inside g v w := by
  rcases h with ⟨hentries, -, hpart⟩ |
    ⟨entries, m, groups, hentries, -, -, hpart, hgroups, before, group, after, rfl, -, -, rfl⟩
  · exact .routes hentries hpart
  · exact .group hentries hpart hgroups (by simp)

/-- The reading of finite data gives exactly the routes that the data list, one for every entry and each in the modules
around it. It fails exactly if a table in the data, at any depth, has a fault: the data are refused, but if the reading
comes to a table where it has to show a number with too many digits it breaks off. -/
theorem read_lists {d : Document} (hd : d.IsFinite) :
    (∀ routes, read d = .ok routes ↔ Lists d.graph [] d.root routes) ∧
      ((∃ failure, read d = .error failure) ↔ ∃ v, ReflTransGen (Inside d.graph) d.root v ∧ Faulty d.graph v) ∧
      ((∃ e, read d = .error (.refused e)) ↔
        (∃ v, ReflTransGen (Inside d.graph) d.root v ∧ Faulty d.graph v) ∧
          ¬ ∃ v, ReflTransGen (Enters d.graph) d.root v ∧ Stops d.graph v) ∧
      ∀ b, read d = .error (.breakdown b) ↔
        b = .numberTooLong ∧ ∃ v, ReflTransGen (Enters d.graph) d.root v ∧ Stops d.graph v := by
  have hacc : Acc (fun u w => Inside d.graph w u) d.root := acc_inside hd
  have hends : ¬ ComesBack d.graph d.root := fun hback =>
    hback.not_acc (Subrelation.accessible (fun hw => hw.inside) hacc)
  have hsettles := settles_read d
  have hok (routes : List Route) : read d = .ok routes ↔ Lists d.graph [] d.root routes :=
    ⟨hsettles.sound routes, hsettles.ok hends routes⟩
  have hlong (b : Breakdown) : read d = .error (.breakdown b) ↔
      b = .numberTooLong ∧ ∃ v, ReflTransGen (Enters d.graph) d.root v ∧ Stops d.graph v := by
    constructor
    · intro hb
      rcases hsettles.breaks b hb with rfl | rfl
      · exact absurd (hsettles.endless.1 hb) hends
      · exact ⟨rfl, (hsettles.tooLong hends).1 hb⟩
    · rintro ⟨rfl, hmeets⟩
      exact (hsettles.tooLong hends).2 hmeets
  have hfails : (∃ failure, read d = .error failure) ↔
      ∃ v, ReflTransGen (Inside d.graph) d.root v ∧ Faulty d.graph v := by
    have hfaulty : (∃ v, ReflTransGen (Inside d.graph) d.root v ∧ Faulty d.graph v) ↔ ¬ Sound d.graph d.root := by
      simp [Sound]
    have hsound : (∃ routes, read d = .ok routes) ↔ Sound d.graph d.root := by
      simp only [hok]
      exact exists_lists_iff hacc []
    rw [hfaulty, ← hsound]
    cases read d <;> simp
  refine ⟨hok, hfails, ?_, hlong⟩
  rw [← hfails]
  cases hread : read d with
  | ok routes => simp
  | error failure =>
    rw [hread] at hlong
    cases failure with
    | refused e =>
      have hnot := hlong .numberTooLong
      simpa using hnot
    | breakdown b => simpa using ((hlong b).1 rfl).2

/-- A table of routes. Its routes part is a table with a group, and so are two of its groups; another group is empty,
and one has a number as its name. -/
def nestedTable : Document where
  graph := ⟨#[
    .mapping [(.text "routes", .container 1), (.text "modules", .container 6)],
    .mapping [(.text "modules", .container 3), (.text "routes", .container 2)],
    .list [.scalar (.text "GET /health as health")],
    .mapping [(.text "internal", .container 4)],
    .list [.container 5],
    .mapping [(.text "handler", .scalar (.text "flush")), (.text "path", .scalar (.text "/flush")),
      (.text "method", .scalar (.text "Post"))],
    .mapping [(.text "users", .container 7), (.int 2, .container 11)],
    .mapping [(.text "routes", .scalar .null), (.text "modules", .container 8)],
    .mapping [(.text "admin", .container 9), (.text "none", .container 12)],
    .mapping [(.text "routes", .container 10)],
    .list [.scalar (.text " delete\t/users  as drop "), .scalar (.text "PUT /users as put")],
    .list [.scalar (.text "head /two as two")],
    .list []]⟩
  root := .container 0

/-- Groups in groups, and one whose name is a number, are read as the routes they list. -/
theorem read_lists_nestedTable : nestedTable.IsFinite ∧
    read nestedTable = .ok [⟨.get, "/health", "health"⟩, ⟨.post, "/flush", "internal.flush"⟩,
      ⟨.delete, "/users", "users.admin.drop"⟩, ⟨.put, "/users", "users.admin.put"⟩, ⟨.head, "/two", "2.two"⟩] ∧
    Lists nestedTable.graph [] nestedTable.root [⟨.get, "/health", "health"⟩, ⟨.post, "/flush", "internal.flush"⟩,
      ⟨.delete, "/users", "users.admin.drop"⟩, ⟨.put, "/users", "users.admin.put"⟩, ⟨.head, "/two", "2.two"⟩] := by
  have hd : nestedTable.IsFinite := by decide +kernel
  have hread : read nestedTable = .ok [⟨.get, "/health", "health"⟩, ⟨.post, "/flush", "internal.flush"⟩,
      ⟨.delete, "/users", "users.admin.drop"⟩, ⟨.put, "/users", "users.admin.put"⟩, ⟨.head, "/two", "2.two"⟩] := by
    decide +kernel
  exact ⟨hd, hread, ((read_lists hd).1 _).1 hread⟩

example : read ⟨⟨#[.list [.container 1], .mapping [(.text "method", .scalar (.text "get")),
    (.text "path", .scalar (.int (10 ^ 4300))), (.text "handler", .scalar (.text "h"))]]⟩, .container 0⟩ =
      .error (.breakdown .numberTooLong) := by
  decide +kernel

end RouteBinding.RouteTable
