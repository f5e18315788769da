import Mathlib.Logic.Relation
import RouteBinding.Proofs.Data.Graph
import RouteBinding.Proofs.Route.Declared
import RouteBinding.Proofs.Route.Shorthand
import RouteBinding.Proofs.Schema.Layer
import RouteBinding.Route.Table

/-!
# The routes of a table

What a table lists. A list has one route for every entry. A mapping has the routes of its routes part and then those of
its groups, in order, which are tables themselves (`RouteTable.Lists`). Finite data list routes exactly if no table in
them, at any depth, has a fault of its own (`RouteTable.exists_lists_iff`). A fault is also that a path, a handler or the
name of a group is a number with too many digits to have a text.
-/

namespace RouteBinding

open Text (lower startsWith)

/-- The data are finite: no container stands in itself. -/
def Document.IsFinite (d : Document) : Prop :=
  (d.graph.toTree? d.root).isSome

instance (d : Document) : Decidable d.IsFinite :=
  inferInstanceAs (Decidable (_ = true))

/-- Of the methods, the one with a property is found if no other has it. -/
theorem Method.find?_all {p : Method → Bool} {m : Method} (hunique : ∀ a b, p a → p b → a = b) :
    all.find? p = some m ↔ p m := by
  refine ⟨List.find?_some, fun hm => ?_⟩
  obtain ⟨found, hfound⟩ := Option.isSome_iff_exists.1 (List.find?_isSome.2 ⟨m, mem_all m, hm⟩)
  rw [hfound, hunique found m (List.find?_some hfound) hm]

/-- A text names a method if it is its name, but for capitals. -/
theorem Method.ofName?_eq_some {s : String} {m : Method} : ofName? s = some m ↔ m.name = lower s := by
  rw [ofName?, find?_all fun a b ha hb => ?_, decide_eq_true_eq]
  exact name_injective ((of_decide_eq_true ha).trans (of_decide_eq_true hb).symm)

/-- Bytes name a method if they are the name itself. -/
theorem Given.method?_bytes {bs : List UInt8} {m : Method} :
    (Given.bytes bs).method? = some m ↔ m.name.toUTF8.toList = bs := by
  have hbytes : ∀ a ∈ Method.all, ∀ b ∈ Method.all, a.name.toUTF8.toList = b.name.toUTF8.toList → a = b := by
    decide +kernel
  rw [method?, Method.find?_all fun a b ha hb => ?_, decide_eq_true_eq]
  exact hbytes a (Method.mem_all a) b (Method.mem_all b) ((of_decide_eq_true ha).trans (of_decide_eq_true hb).symm)

namespace Route

/-- A method is read if it is named, and can be routed to. -/
theorem readMethod_eq_ok {given : Given} {m : Method} :
    readMethod given = .ok m ↔ given.method? = some m ∧ m ≠ .trace := by
  unfold readMethod Method.isRoutable
  cases given.method? with
  | none => simp
  | some method =>
    simp only [decide_eq_true_eq, Option.some.injEq]
    split_ifs with htrace
    · rw [Except.ok.injEq]
      exact ⟨fun heq => ⟨heq, heq ▸ htrace⟩, fun h => h.1⟩
    · simp only [false_iff]
      rintro ⟨rfl, h⟩
      exact htrace h

/-- A path is read as it is, if it starts with a slash. -/
theorem readPath_text {path path' : String} :
    readPath (.text path) = .ok path' ↔ startsWith path "/" = true ∧ path = path' := by
  rw [readPath]
  split_ifs <;> simp [*]

/-- A declaration with a path and a handler that are texts is a route exactly if its method is one that can be routed
and the path starts with a slash. -/
theorem declare_text_eq_ok {method : Given} {path handler : String} {r : Route} :
    declare method (.text path) (.text handler) = .ok r ↔
      ∃ m, method.method? = some m ∧ m ≠ .trace ∧ startsWith path "/" = true ∧ r = ⟨m, path, handler⟩ := by
  obtain ⟨m, p, h⟩ := r
  rw [declare_eq_ok, readMethod_eq_ok, readPath_text, readHandler]
  simp only [Except.ok.injEq, Route.mk.injEq]
  constructor
  · rintro ⟨⟨hmethod, htrace⟩, ⟨hpath, rfl⟩, rfl⟩
    exact ⟨m, hmethod, htrace, hpath, rfl, rfl, rfl⟩
  · rintro ⟨m', hmethod, htrace, hpath, rfl, rfl, rfl⟩
    exact ⟨⟨hmethod, htrace⟩, ⟨hpath, rfl⟩, rfl⟩

end Route

namespace RouteTable

variable {g : Graph} {v w entry : Value} {entries groups : List (Scalar × Value)} {modules : List String}
  {owner place : String} {route : Route} {routes : List Route} {m : Method} {depth : Nat}

/-! ## Entries -/

/-- A value names a method: as a text in any case, or as the bytes of its name. -/
inductive NamesMethod (g : Graph) : Value → Method → Prop
  | text {v : Value} {s : String} {m : Method} (h : g.shape v = .scalar (.text s)) (hname : m.name = lower s) :
    NamesMethod g v m
  | bytes {v : Value} {bs : List UInt8} {m : Method} (h : g.shape v = .scalar (.bytes bs))
    (hname : m.name.toUTF8.toList = bs) : NamesMethod g v m

/-- What an entry declares by itself: as a shorthand, or as a mapping with a method, a path and a handler that are not
null, false, zero or empty. The path starts with a slash, and the method is not that of tracing. -/
inductive Declares (g : Graph) : Value → Route → Prop
  | shorthand {entry : Value} {s : String} {line : Shorthand} {m : Method} (h : g.shape entry = .scalar (.text s))
    (hline : Shorthand.Spells s.toList line) (hname : m.name = lower line.method) (hmethod : m ≠ .trace)
    (hpath : startsWith line.path "/") : Declares g entry ⟨m, line.path, line.handler⟩
  | mapping {entry method path handler : Value} {entries : List (Scalar × Value)} {m : Method} {s t : String}
    (h : g.entries? entry = some entries) (hhas : part? g entries "method" = some method)
    (hhas' : part? g entries "path" = some path) (hhas'' : part? g entries "handler" = some handler)
    (hname : NamesMethod g method m) (hmethod : m ≠ .trace) (htext : g.display? path = some s)
    (hpath : startsWith s "/") (htext' : g.display? handler = some t) : Declares g entry ⟨m, s, t⟩

/-- An entry has all of its parts, but one of them has no text, because it is a number with too many digits or holds
one. -/
def IsUnspelled (g : Graph) (entry : Value) : Prop :=
  ∃ entries method path handler, g.entries? entry = some entries ∧ part? g entries "method" = some method ∧
    part? g entries "path" = some path ∧ part? g entries "handler" = some handler ∧
      (g.display? path = none ∨ g.display? handler = none ∨ given? g method = none)

/-- The names of modules, from the outermost to the innermost, each with a dot behind it. -/
def ownerOf (modules : List String) : String :=
  String.join (modules.map (· ++ "."))

/-- The route of an entry in some modules has their names in front of the handler that the entry declares. -/
def RouteOf (g : Graph) (modules : List String) (entry : Value) (route : Route) : Prop :=
  ∃ own, Declares g entry own ∧ route = { own with handler := ownerOf modules ++ own.handler }

/-- The method that is given by a value is the one that the value names. -/
theorem exists_given?_iff : (∃ given, given? g v = some given ∧ given.method? = some m) ↔ NamesMethod g v m := by
  constructor
  · rintro ⟨given, hgiven, hmethod⟩
    unfold given? at hgiven
    split at hgiven
    · cases hgiven
      exact .text ‹_› (Method.ofName?_eq_some.1 hmethod)
    · cases hgiven
      exact .bytes ‹_› (Given.method?_bytes.1 hmethod)
    · obtain ⟨text, -, rfl⟩ := Option.map_eq_some_iff.1 hgiven
      cases hmethod
  · rintro (⟨hshape, hname⟩ | ⟨hshape, hname⟩)
    · rw [given?, hshape]
      exact ⟨_, rfl, Method.ofName?_eq_some.2 hname⟩
    · rw [given?, hshape]
      exact ⟨_, rfl, Given.method?_bytes.2 hname⟩

/-- A check that is passed is passed with its result. -/
theorem refuse_eq_ok_iff {α : Type} {x : Except RouteError α} {a : α} : refuse x = .ok a ↔ x = .ok a := by
  cases x <;> simp [refuse]

/-- A check that is not passed refuses the table; it never breaks the reading off. -/
theorem refuse_ne_breakdown {α : Type} {x : Except RouteError α} {b : Breakdown} :
    refuse x ≠ .error (.breakdown b) := by
  cases x <;> simp [refuse]

/-- An entry with all of its parts is read as the route of their texts. -/
theorem readEntry_of_parts {id : Nat} {method path handler : Value} (h : g.shape entry = .mapping id entries)
    (hmethod : part? g entries "method" = some method) (hpath : part? g entries "path" = some path)
    (hhandler : part? g entries "handler" = some handler) :
    readEntry g owner place entry = (do
      let path ← spelled .breakdown (g.display? path)
      let handler ← spelled .breakdown (g.display? handler)
      let method ← spelled .breakdown (given? g method)
      refuse (Route.declare method (.text path) (.text (owner ++ handler)))) := by
  rw [readEntry, h]
  dsimp only
  rw [hmethod, hpath, hhandler]

/-- An entry is read as the route that it declares in its modules, and not read if it declares none. -/
theorem readEntry_eq_ok : readEntry g (ownerOf modules) place entry = .ok route ↔ RouteOf g modules entry route := by
  constructor
  · intro h
    unfold readEntry at h
    split at h
    · rename_i s hshape
      split at h
      · rename_i line hline
        obtain ⟨m, hname, htrace, hpath, rfl⟩ := Route.declare_text_eq_ok.1 (refuse_eq_ok_iff.1 h)
        exact ⟨_, .shorthand hshape (Shorthand.read?_eq_some_iff.1 hline) (Method.ofName?_eq_some.1 hname) htrace hpath,
          rfl⟩
      · cases h
    · rename_i id entries hshape
      split at h
      · rename_i method path handler hmethod hpart hhandler
        obtain ⟨s, hs, h⟩ := bind_eq_ok.1 h
        obtain ⟨t, ht, h⟩ := bind_eq_ok.1 h
        obtain ⟨given, hgiven, h⟩ := bind_eq_ok.1 h
        obtain ⟨m, hname, htrace, hpath, rfl⟩ := Route.declare_text_eq_ok.1 (refuse_eq_ok_iff.1 h)
        exact ⟨_, .mapping (Graph.entries?_eq_some_iff.2 ⟨id, hshape⟩) hmethod hpart hhandler
          (exists_given?_iff.1 ⟨given, Step.spelled_eq_ok_iff.1 hgiven, hname⟩) htrace (Step.spelled_eq_ok_iff.1 hs)
          hpath (Step.spelled_eq_ok_iff.1 ht), rfl⟩
      · cases h
    · cases h
  · rintro ⟨own, hown, rfl⟩
    cases hown with
    | shorthand hshape hline hname htrace hpath =>
      rw [readEntry, hshape]
      dsimp only
      rw [Shorthand.read?_eq_some_iff.2 hline]
      exact refuse_eq_ok_iff.2
        (Route.declare_text_eq_ok.2 ⟨_, Method.ofName?_eq_some.2 hname, htrace, hpath, rfl⟩)
    | mapping hentries hmethod hpart hhandler hname htrace htext hpath htext' =>
      obtain ⟨id, hshape⟩ := Graph.entries?_eq_some_iff.1 hentries
      obtain ⟨given, hgiven, hname⟩ := exists_given?_iff.2 hname
      rw [readEntry_of_parts hshape hmethod hpart hhandler, htext, htext', hgiven]
      exact refuse_eq_ok_iff.2 (Route.declare_text_eq_ok.2 ⟨_, hname, htrace, hpath, rfl⟩)

/-- Reading an entry breaks off exactly if all of its parts are there and one of them has no text. -/
theorem readEntry_eq_breakdown {b : Breakdown} :
    readEntry g owner place entry = .error (.breakdown b) ↔ b = .numberTooLong ∧ IsUnspelled g entry := by
  constructor
  · intro h
    unfold readEntry at h
    split at h
    · split at h
      · exact absurd h refuse_ne_breakdown
      · cases h
    · rename_i id entries hshape
      split at h
      · rename_i method path handler hmethod hpart hhandler
        have hunspelled (hnone : g.display? path = none ∨ g.display? handler = none ∨ given? g method = none) :
            IsUnspelled g entry :=
          ⟨entries, method, path, handler, Graph.entries?_eq_some_iff.2 ⟨id, hshape⟩, hmethod, hpart, hhandler, hnone⟩
        rcases bind_eq_error.1 h with h | ⟨_, -, h⟩
        · obtain ⟨hnone, heq⟩ := Step.spelled_eq_error_iff.1 h
          exact ⟨RouteTableFailure.breakdown.inj heq, hunspelled (.inl hnone)⟩
        rcases bind_eq_error.1 h with h | ⟨_, -, h⟩
        · obtain ⟨hnone, heq⟩ := Step.spelled_eq_error_iff.1 h
          exact ⟨RouteTableFailure.breakdown.inj heq, hunspelled (.inr (.inl hnone))⟩
        rcases bind_eq_error.1 h with h | ⟨_, -, h⟩
        · obtain ⟨hnone, heq⟩ := Step.spelled_eq_error_iff.1 h
          exact ⟨RouteTableFailure.breakdown.inj heq, hunspelled (.inr (.inr hnone))⟩
        · exact absurd h refuse_ne_breakdown
      · cases h
    · cases h
  · rintro ⟨rfl, entries, method, path, handler, hentries, hmethod, hpart, hhandler, hnone⟩
    obtain ⟨id, hshape⟩ := Graph.entries?_eq_some_iff.1 hentries
    rw [readEntry_of_parts hshape hmethod hpart hhandler]
    rcases hnone with hnone | hnone | hnone
    · rw [hnone]
      rfl
    · rw [hnone]
      cases g.display? path <;> rfl
    · rw [hnone]
      cases g.display? path <;> cases g.display? handler <;> rfl

/-- A list is read as the routes of its entries, in order. -/
theorem readEntries_eq_ok {index : Nat} {items : List Value} :
    readEntries g (ownerOf modules) place index items = .ok routes ↔
      List.Forall₂ (RouteOf g modules) items routes := by
  induction items generalizing index routes with
  | nil =>
    rw [readEntries, List.forall₂_nil_left_iff, Except.ok.injEq, eq_comm]
  | cons entry rest ih =>
    rw [readEntries, List.forall₂_cons_left_iff, bind_eq_ok]
    simp only [bind_eq_ok, ih, readEntry_eq_ok]
    constructor
    · rintro ⟨route, hroute, later, hlater, heq⟩
      cases heq
      exact ⟨route, later, hroute, hlater, rfl⟩
    · rintro ⟨route, later, hroute, hlater, rfl⟩
      exact ⟨route, hroute, later, hlater, rfl⟩

/-- Along a list one comes to a member with a property, past members that all let one pass. -/
def ComesTo {α : Type} (passes found : α → Prop) (l : List α) : Prop :=
  ∃ before a after, l = before ++ a :: after ∧ (∀ b ∈ before, passes b) ∧ found a

theorem not_comesTo_nil {α : Type} {passes found : α → Prop} : ¬ ComesTo passes found [] := by
  rintro ⟨before, a, after, heq, -, -⟩
  simp at heq

/-- What a walk comes to is the first of a list, or it passes the first and comes to it behind. -/
theorem comesTo_cons {α : Type} {passes found : α → Prop} {a : α} {l : List α} :
    ComesTo passes found (a :: l) ↔ found a ∨ passes a ∧ ComesTo passes found l := by
  constructor
  · rintro ⟨before, b, after, heq, hbefore, hb⟩
    cases before with
    | nil =>
      cases heq
      exact .inl hb
    | cons c before =>
      cases heq
      obtain ⟨hc, hbefore⟩ := List.forall_mem_cons.1 hbefore
      exact .inr ⟨hc, before, b, after, rfl, hbefore, hb⟩
  · rintro (ha | ⟨ha, before, b, after, rfl, hbefore, hb⟩)
    · exact ⟨[], a, l, rfl, by simp, ha⟩
    · exact ⟨a :: before, b, after, rfl, List.forall_mem_cons.2 ⟨ha, hbefore⟩, hb⟩

/-- Entries are read in order, up to the first one that declares no route. -/
theorem readEntries_eq_breakdown {index : Nat} {items : List Value} {b : Breakdown} :
    readEntries g (ownerOf modules) place index items = .error (.breakdown b) ↔
      b = .numberTooLong ∧ ComesTo (fun entry => ∃ route, Declares g entry route) (IsUnspelled g) items := by
  induction items generalizing index with
  | nil => exact iff_of_false nofun fun h => not_comesTo_nil h.2
  | cons entry rest ih =>
    rw [readEntries, comesTo_cons, bind_eq_error]
    simp only [bind_eq_error, ih, readEntry_eq_breakdown, readEntry_eq_ok]
    constructor
    · rintro (⟨rfl, hentry⟩ | ⟨_, ⟨own, hown, -⟩, ⟨rfl, hrest⟩ | ⟨_, -, hnone⟩⟩)
      · exact ⟨rfl, .inl hentry⟩
      · exact ⟨rfl, .inr ⟨⟨own, hown⟩, hrest⟩⟩
      · cases hnone
    · rintro ⟨rfl, hentry | ⟨⟨own, hown⟩, hrest⟩⟩
      · exact .inl ⟨rfl, hentry⟩
      · exact .inr ⟨_, ⟨own, hown, rfl⟩, .inl ⟨rfl, hrest⟩⟩

/-! ## Tables -/

mutual

/-- The routes that a table in some modules lists: for a list one for every entry, for a mapping those of its routes
part and then those of its groups. A mapping has no other keys than these two. -/
inductive Lists (g : Graph) : List String → Value → List Route → Prop
  | list {modules : List String} {v : Value} {id : Nat} {items : List Value} {routes : List Route}
    (h : g.shape v = .list id items) (hroutes : List.Forall₂ (RouteOf g modules) items routes) :
    Lists g modules v routes
  | mapping {modules : List String} {v : Value} {entries : List (Scalar × Value)} {own grouped : List Route}
    (h : g.entries? v = some entries) (hkeys : ∀ e ∈ entries, e.1 = .text "routes" ∨ e.1 = .text "modules")
    (hown : ListsPart g modules (part? g entries "routes") own)
    (hgrouped : ListsModules g modules (part? g entries "modules") grouped) : Lists g modules v (own ++ grouped)

/-- The routes of a routes part; where it is absent there are none. -/
inductive ListsPart (g : Graph) : List String → Option Value → List Route → Prop
  | absent {modules : List String} : ListsPart g modules none []
  | present {modules : List String} {v : Value} {routes : List Route} (h : Lists g modules v routes) :
    ListsPart g modules (some v) routes

/-- The routes of a modules part; where it is absent there are none. -/
inductive ListsModules (g : Graph) : List String → Option Value → List Route → Prop
  | absent {modules : List String} : ListsModules g modules none []
  | present {modules : List String} {v : Value} {groups : List (Scalar × Value)} {routes : List Route}
    (h : g.entries? v = some groups) (hroutes : ListsGroups g modules groups routes) :
    ListsModules g modules (some v) routes

/-- The routes of groups one after the other, each in the module of its name. -/
inductive ListsGroups (g : Graph) : List String → List (Scalar × Value) → List Route → Prop
  | nil {modules : List String} : ListsGroups g modules [] []
  | cons {modules : List String} {group : Scalar × Value} {groups : List (Scalar × Value)} {name : String}
    {first later : List Route} (hname : group.1.display? = some name) (h : Lists g (modules ++ [name]) group.2 first)
    (hrest : ListsGroups g modules groups later) : ListsGroups g modules (group :: groups) (first ++ later)

end

/-- A table stands in another as its routes part or as one of its groups. -/
inductive Inside (g : Graph) : Value → Value → Prop
  | routes {v w : Value} {entries : List (Scalar × Value)} (h : g.entries? v = some entries)
    (hpart : part? g entries "routes" = some w) : Inside g v w
  | group {v modules : Value} {entries groups : List (Scalar × Value)} {group : Scalar × Value}
    (h : g.entries? v = some entries) (hpart : part? g entries "modules" = some modules)
    (hgroups : g.entries? modules = some groups) (hgroup : group ∈ groups) : Inside g v group.2

/-- What can be wrong with a table by itself: it is neither a list nor a mapping, it has a key that means nothing, its
modules part is no mapping, a group has a name without a text, or an entry declares no route. -/
inductive Faulty (g : Graph) : Value → Prop
  | shape {v : Value} (hlist : ∀ id items, g.shape v ≠ .list id items) (hmapping : g.entries? v = none) : Faulty g v
  | key {v : Value} {entries : List (Scalar × Value)} {e : Scalar × Value} (h : g.entries? v = some entries)
    (he : e ∈ entries) (hroutes : e.1 ≠ .text "routes") (hmodules : e.1 ≠ .text "modules") : Faulty g v
  | modules {v modules : Value} {entries : List (Scalar × Value)} (h : g.entries? v = some entries)
    (hpart : part? g entries "modules" = some modules) (hgroups : g.entries? modules = none) : Faulty g v
  | name {v modules : Value} {entries groups : List (Scalar × Value)} {group : Scalar × Value}
    (h : g.entries? v = some entries) (hpart : part? g entries "modules" = some modules)
    (hgroups : g.entries? modules = some groups) (hgroup : group ∈ groups) (hlong : group.1.display? = none) :
    Faulty g v
  | entry {v entry : Value} {id : Nat} {items : List Value} (h : g.shape v = .list id items) (hentry : entry ∈ items)
    (hmalformed : ∀ route, ¬ Declares g entry route) : Faulty g v

/-- No fault is in a table or in one that stands in it at any depth. -/
def Sound (g : Graph) (v : Value) : Prop :=
  ∀ w, Relation.ReflTransGen (Inside g) v w → ¬ Faulty g w

/-- A table is sound if it has no fault itself and everything inside it is sound. -/
theorem sound_iff : Sound g v ↔ ¬ Faulty g v ∧ ∀ w, Inside g v w → Sound g w := by
  constructor
  · exact fun h => ⟨h v .refl, fun w hw u hu => h u (.head hw hu)⟩
  · rintro ⟨hv, hinside⟩ w hw
    rcases hw.cases_head with rfl | ⟨u, hu, huw⟩
    · exact hv
    · exact hinside u hu w huw

/-! ## Lists -/

/-- Partners are found for a whole list if every one of it has a partner. -/
theorem exists_forall₂_iff {α β : Type} {R : α → β → Prop} {l : List α} :
    (∃ k, List.Forall₂ R l k) ↔ ∀ a ∈ l, ∃ b, R a b := by
  constructor
  · rintro ⟨k, hk⟩ a ha
    obtain ⟨b, -, hb⟩ := exists_of_forall₂ hk ha
    exact ⟨b, hb⟩
  · intro h
    induction l with
    | nil => exact ⟨[], .nil⟩
    | cons a rest ih =>
      obtain ⟨⟨b, hb⟩, hrest⟩ := List.forall_mem_cons.1 h
      obtain ⟨k, hk⟩ := ih hrest
      exact ⟨b :: k, .cons hb hk⟩

section Lists

variable {id : Nat} {items : List Value} (h : g.shape v = .list id items)

include h

theorem entries?_of_list : g.entries? v = none := by
  rw [Graph.entries?, h]

/-- A list lists the routes of its entries. -/
theorem lists_list_iff : Lists g modules v routes ↔ List.Forall₂ (RouteOf g modules) items routes := by
  constructor
  · rintro (⟨hshape, hroutes⟩ | ⟨hentries, -, -, -⟩)
    · rw [h] at hshape
      cases hshape
      exact hroutes
    · rw [entries?_of_list h] at hentries
      cases hentries
  · exact .list h

/-- A list is sound if each of its entries declares a route. -/
theorem sound_list_iff : Sound g v ↔ ∀ entry ∈ items, ∃ route, Declares g entry route := by
  have hentries := entries?_of_list h
  rw [sound_iff]
  constructor
  · rintro ⟨hv, -⟩ entry hentry
    by_contra hnone
    exact hv (.entry h hentry (not_exists.1 hnone))
  · intro hdeclares
    refine ⟨?_, ?_⟩
    · rintro (⟨hlist, -⟩ | ⟨hsome, -⟩ | ⟨hsome, -⟩ | ⟨hsome, -⟩ | ⟨hshape, hentry, hmalformed⟩)
      · exact hlist id items h
      · rw [hentries] at hsome; cases hsome
      · rw [hentries] at hsome; cases hsome
      · rw [hentries] at hsome; cases hsome
      · rw [h] at hshape
        cases hshape
        obtain ⟨route, hroute⟩ := hdeclares _ hentry
        exact hmalformed route hroute
    · rintro w (⟨hsome, -⟩ | ⟨hsome, -⟩)
      · rw [hentries] at hsome; cases hsome
      · rw [hentries] at hsome; cases hsome

end Lists

/-! ## Mappings -/

section Mappings

variable (h : g.entries? v = some entries)

include h

theorem ne_list_of_entries? (id : Nat) (items : List Value) : g.shape v ≠ .list id items := by
  intro hshape
  rw [entries?_of_list hshape] at h
  cases h

/-- A mapping lists its own routes and then those of its groups, and has no other keys. -/
theorem lists_mapping_iff : Lists g modules v routes ↔
    (∀ e ∈ entries, e.1 = .text "routes" ∨ e.1 = .text "modules") ∧
      ∃ own grouped, ListsPart g modules (part? g entries "routes") own ∧
        ListsModules g modules (part? g entries "modules") grouped ∧ routes = own ++ grouped := by
  constructor
  · rintro (⟨hshape, -⟩ | ⟨hentries, hkeys, hown, hgrouped⟩)
    · exact absurd hshape (ne_list_of_entries? h _ _)
    · rw [h] at hentries
      cases hentries
      exact ⟨hkeys, _, _, hown, hgrouped, rfl⟩
  · rintro ⟨hkeys, own, grouped, hown, hgrouped, rfl⟩
    exact .mapping h hkeys hown hgrouped

/-- A mapping has no fault itself if it has no other keys and its modules are a mapping of groups with names that can be
written. -/
theorem not_faulty_mapping_iff : ¬ Faulty g v ↔
    (∀ e ∈ entries, e.1 = .text "routes" ∨ e.1 = .text "modules") ∧
      ∀ m ∈ part? g entries "modules", ∃ groups, g.entries? m = some groups ∧
        ∀ e ∈ groups, ∃ name, e.1.display? = some name := by
  constructor
  · intro hv
    refine ⟨fun e he => ?_, fun m hm => ?_⟩
    · by_contra hkey
      obtain ⟨hroutes, hmodules⟩ := not_or.1 hkey
      exact hv (.key h he hroutes hmodules)
    · cases hgroups : g.entries? m with
      | none => exact absurd (Faulty.modules h hm hgroups) hv
      | some groups =>
        refine ⟨groups, rfl, fun e he => Option.ne_none_iff_exists'.1 fun hname => ?_⟩
        exact hv (.name h hm hgroups he hname)
  · rintro ⟨hkeys, hmodules⟩ hv
    cases hv with
    | shape _ hnone =>
      rw [h] at hnone
      cases hnone
    | key hentries he hne hne' =>
      rw [h] at hentries
      cases hentries
      exact (hkeys _ he).elim hne hne'
    | modules hentries hm hnone =>
      rw [h] at hentries
      cases hentries
      obtain ⟨groups, hsome, -⟩ := hmodules _ hm
      rw [hnone] at hsome
      cases hsome
    | name hentries hm hgroups he hlong =>
      rw [h] at hentries
      cases hentries
      obtain ⟨groups, hsome, hnamed⟩ := hmodules _ hm
      rw [hgroups] at hsome
      cases hsome
      obtain ⟨name, hname⟩ := hnamed _ he
      rw [hlong] at hname
      cases hname
    | entry hshape => exact ne_list_of_entries? h _ _ hshape

/-- Inside a mapping stand its routes part and the tables of its groups. -/
theorem inside_mapping_iff {w : Value} : Inside g v w ↔ part? g entries "routes" = some w ∨
    ∃ m, part? g entries "modules" = some m ∧ ∃ groups, g.entries? m = some groups ∧ ∃ e ∈ groups, e.2 = w := by
  constructor
  · rintro (⟨hentries, hw⟩ | ⟨hentries, hm, hgroups, he⟩)
    · rw [h] at hentries
      cases hentries
      exact .inl hw
    · rw [h] at hentries
      cases hentries
      exact .inr ⟨_, hm, _, hgroups, _, he, rfl⟩
  · rintro (hw | ⟨m, hm, groups, hgroups, e, he, rfl⟩)
    · exact .routes h hw
    · exact .group h hm hgroups he

/-- A mapping is sound if it has no other keys, and its parts and its groups are sound. -/
theorem sound_mapping_iff : Sound g v ↔
    (∀ e ∈ entries, e.1 = .text "routes" ∨ e.1 = .text "modules") ∧
      (∀ w ∈ part? g entries "routes", Sound g w) ∧
      ∀ m ∈ part? g entries "modules", ∃ groups, g.entries? m = some groups ∧
        ∀ e ∈ groups, ∃ name, e.1.display? = some name ∧ Sound g e.2 := by
  rw [sound_iff, not_faulty_mapping_iff h]
  simp only [inside_mapping_iff h]
  constructor
  · rintro ⟨⟨hkeys, hmodules⟩, hinside⟩
    refine ⟨hkeys, fun w hw => hinside w (.inl hw), fun m hm => ?_⟩
    obtain ⟨groups, hgroups, hnamed⟩ := hmodules m hm
    refine ⟨groups, hgroups, fun e he => ?_⟩
    obtain ⟨name, hname⟩ := hnamed e he
    exact ⟨name, hname, hinside e.2 (.inr ⟨m, hm, groups, hgroups, e, he, rfl⟩)⟩
  · rintro ⟨hkeys, hroutes, hmodules⟩
    refine ⟨⟨hkeys, fun m hm => ?_⟩, ?_⟩
    · obtain ⟨groups, hgroups, hnamed⟩ := hmodules m hm
      refine ⟨groups, hgroups, fun e he => ?_⟩
      obtain ⟨name, hname, -⟩ := hnamed e he
      exact ⟨name, hname⟩
    · rintro w (hw | ⟨m, hm, groups, hgroups, e, he, rfl⟩)
      · exact hroutes w hw
      · obtain ⟨groups', hgroups', hnamed⟩ := hmodules m hm
        cases hgroups.symm.trans hgroups'
        obtain ⟨name, -, hsound⟩ := hnamed e he
        exact hsound

end Mappings

/-! ## Finite data -/

/-- A part lists routes if the table that it holds does, when there is one. -/
theorem exists_listsPart_iff {part : Option Value} (modules : List String) :
    (∃ routes, ListsPart g modules part routes) ↔ ∀ w ∈ part, ∃ routes, Lists g modules w routes := by
  constructor
  · rintro ⟨routes, hroutes⟩ w hw
    cases hroutes with
    | absent => cases hw
    | present hlists =>
      cases hw
      exact ⟨routes, hlists⟩
  · intro h
    cases part with
    | none => exact ⟨[], .absent⟩
    | some w =>
      obtain ⟨routes, hroutes⟩ := h w rfl
      exact ⟨routes, .present hroutes⟩

/-- Groups list routes if each has a name that can be written, and its table does. -/
theorem exists_listsGroups_iff (modules : List String) :
    (∃ routes, ListsGroups g modules groups routes) ↔
      ∀ e ∈ groups, ∃ name, e.1.display? = some name ∧ ∃ routes, Lists g (modules ++ [name]) e.2 routes := by
  constructor
  · rintro ⟨routes, hroutes⟩
    induction groups generalizing routes with
    | nil => simp
    | cons group rest ih =>
      cases hroutes with
      | cons hname hfirst hrest => exact List.forall_mem_cons.2 ⟨⟨_, hname, _, hfirst⟩, ih _ hrest⟩
  · intro h
    induction groups with
    | nil => exact ⟨[], .nil⟩
    | cons group rest ih =>
      obtain ⟨⟨name, hname, first, hfirst⟩, hrest⟩ := List.forall_mem_cons.1 h
      obtain ⟨later, hlater⟩ := ih hrest
      exact ⟨first ++ later, .cons hname hfirst hlater⟩

/-- Modules list routes if they are a mapping of groups that do. -/
theorem exists_listsModules_iff {part : Option Value} (modules : List String) :
    (∃ routes, ListsModules g modules part routes) ↔ ∀ m ∈ part, ∃ groups, g.entries? m = some groups ∧
      ∀ e ∈ groups, ∃ name, e.1.display? = some name ∧ ∃ routes, Lists g (modules ++ [name]) e.2 routes := by
  constructor
  · rintro ⟨routes, hroutes⟩ m hm
    cases hroutes with
    | absent => cases hm
    | present hgroups hlists =>
      cases hm
      exact ⟨_, hgroups, (exists_listsGroups_iff modules).1 ⟨routes, hlists⟩⟩
  · intro h
    cases part with
    | none => exact ⟨[], .absent⟩
    | some m =>
      obtain ⟨groups, hgroups, hlists⟩ := h m rfl
      obtain ⟨routes, hroutes⟩ := (exists_listsGroups_iff modules).2 hlists
      exact ⟨routes, .present hgroups hroutes⟩

/-- A mapping with known keys lists routes exactly if its routes part and all of its groups do. -/
theorem exists_lists_mapping_iff (h : g.entries? v = some entries) (modules : List String) :
    (∃ routes, Lists g modules v routes) ↔
      (∀ e ∈ entries, e.1 = .text "routes" ∨ e.1 = .text "modules") ∧
        (∀ w ∈ part? g entries "routes", ∃ routes, Lists g modules w routes) ∧
        ∀ m ∈ part? g entries "modules", ∃ groups, g.entries? m = some groups ∧
          ∀ e ∈ groups, ∃ name, e.1.display? = some name ∧ ∃ routes, Lists g (modules ++ [name]) e.2 routes := by
  rw [← exists_listsPart_iff, ← exists_listsModules_iff]
  simp only [lists_mapping_iff h]
  constructor
  · rintro ⟨_, hkeys, own, grouped, hown, hgrouped, -⟩
    exact ⟨hkeys, ⟨own, hown⟩, grouped, hgrouped⟩
  · rintro ⟨hkeys, ⟨own, hown⟩, grouped, hgrouped⟩
    exact ⟨own ++ grouped, hkeys, own, grouped, hown, hgrouped, rfl⟩

/-- A list lists routes if each of its entries declares one. -/
theorem exists_lists_list_iff {id : Nat} {items : List Value} (h : g.shape v = .list id items)
    (modules : List String) :
    (∃ routes, Lists g modules v routes) ↔ ∀ entry ∈ items, ∃ route, Declares g entry route := by
  simp only [lists_list_iff h, exists_forall₂_iff]
  refine forall₂_congr fun entry _ => ⟨?_, ?_⟩
  · rintro ⟨_, own, hown, -⟩
    exact ⟨own, hown⟩
  · rintro ⟨own, hown⟩
    exact ⟨_, own, hown, rfl⟩

/-- What is neither a list nor a mapping lists no routes. -/
theorem not_lists_of_shape (hlist : ∀ id items, g.shape v ≠ .list id items) (hmapping : g.entries? v = none) :
    ¬ Lists g modules v routes := by
  rintro (⟨hshape, -⟩ | ⟨hentries, -, -, -⟩)
  · exact hlist _ _ hshape
  · rw [hmapping] at hentries
    cases hentries

/-- The values in a mapping that reads back as a tree do so within one step less. -/
theorem isSome_treeWithin {k : Nat} (hk : (g.treeWithin (k + 1) v).isSome) (hv : g.entries? v = some entries)
    {e : Scalar × Value} (he : e ∈ entries) : (g.treeWithin k e.2).isSome := by
  obtain ⟨id, hshape⟩ := Graph.entries?_eq_some_iff.1 hv
  rw [Graph.treeWithin, hshape, Option.isSome_map] at hk
  obtain ⟨trees, htrees⟩ := Option.isSome_iff_exists.1 hk
  obtain ⟨t, -, ht⟩ := exists_of_forall₂ (Giving.some.mapM_iff.1 htrees) he
  obtain ⟨inner, hinner, -⟩ := Option.map_eq_some_iff.1 ht
  exact Option.isSome_of_eq_some hinner

/-- In finite data no way into tables that stand in tables goes on without end. -/
theorem acc_inside {k : Nat} (hk : (g.treeWithin k v).isSome) : Acc (fun u w => Inside g w u) v := by
  -- by induction on the depth of the data; a group stands two steps below the table that holds it
  induction k using Nat.strong_induction_on generalizing v with
  | _ k ih =>
    refine ⟨_, fun w hw => ?_⟩
    cases k with
    | zero => cases hk
    | succ k =>
      have hpart {entries : List (Scalar × Value)} (h : g.entries? v = some entries) {key : String} {w : Value}
          (hw : part? g entries key = some w) : (g.treeWithin k w).isSome :=
        isSome_treeWithin hk h (mem_of_valueAt? (Option.filter_eq_some_iff.1 hw).1)
      cases hw with
      | routes h hw => exact ih k (Nat.lt_succ_self k) (hpart h hw)
      | group h hm hgroups hgroup =>
        have hm := hpart h hm
        cases k with
        | zero => cases hm
        | succ k => exact ih k (by omega) (isSome_treeWithin hm hgroups hgroup)

/-- A table that has no way into it without end lists routes exactly if no fault is in it, in whatever modules it
stands. -/
theorem exists_lists_iff (h : Acc (fun u w => Inside g w u) v) (modules : List String) :
    (∃ routes, Lists g modules v routes) ↔ Sound g v := by
  induction h generalizing modules with
  | intro v _ ih =>
    cases hshape : g.shape v with
    | list id items => rw [exists_lists_list_iff hshape, sound_list_iff hshape]
    | mapping id entries =>
      have hentries : g.entries? v = some entries := Graph.entries?_eq_some_iff.2 ⟨id, hshape⟩
      rw [exists_lists_mapping_iff hentries, sound_mapping_iff hentries]
      refine and_congr_right fun _ => and_congr ?_ ?_
      · exact forall₂_congr fun w hw => ih w (.routes hentries hw) modules
      · refine forall₂_congr fun m hm => exists_congr fun groups => and_congr_right fun hgroups => ?_
        refine forall₂_congr fun e he => exists_congr fun name => and_congr_right fun _ => ?_
        exact ih e.2 (.group hentries hm hgroups he) _
    | _ =>
      have hnone : g.entries? v = none := by rw [Graph.entries?, hshape]
      have hlist : ∀ id items, g.shape v ≠ .list id items := fun id items h => by rw [hshape] at h; cases h
      refine iff_of_false ?_ fun hsound => hsound v .refl (.shape hlist hnone)
      rintro ⟨routes, hroutes⟩
      exact not_lists_of_shape hlist hnone hroutes

/-! ## The parts of a reading -/

/-- The owner of a group is that of the table around it, its name and a point. -/
theorem ownerOf_append (modules : List String) (name : String) :
    ownerOf (modules ++ [name]) = ownerOf modules ++ name ++ "." := by
  simp [ownerOf, String.join_append, String.append_assoc]

/-- What a group of a table is read to. -/
def readGroup (g : Graph) (depth : Nat) (owner place : String) (group : Scalar × Value) :
    Except RouteTableFailure (List Route) := do
  let name ← spelled .breakdown group.1.display?
  readWithin g depth (owner ++ name ++ ".") (place ++ ".modules." ++ name) group.2

/-- What the modules part of a table is read to; where it is absent there are no routes. -/
def readModules (g : Graph) (depth : Nat) (owner place : String) (part : Option Value) :
    Except RouteTableFailure (List Route) :=
  part.elim (.ok []) fun modules =>
    match g.entries? modules with
    | some groups => List.flatten <$> groups.mapM (readGroup g depth owner place)
    | none => .error (.refused (.modulesNotMapping place))

/-- What the routes part of a table is read to; where it is absent there are no routes. -/
def readPart (g : Graph) (depth : Nat) (owner place : String) (part : Option Value) :
    Except RouteTableFailure (List Route) :=
  part.elim (.ok []) (readWithin g depth owner (place ++ ".routes"))

/-- What is read of the modules part of a table, put behind the routes that were read before. -/
def readBehind (g : Graph) (depth : Nat) (owner place : String) (own : List Route) (part : Option Value) :
    Except RouteTableFailure (List Route) := do
  let groups ←
    match part with
    | some modules =>
      match g.entries? modules with
      | some groups => pure groups
      | none => throw (.refused (.modulesNotMapping place))
    | none => pure []
  let grouped ← groups.mapM (readGroup g depth owner place)
  return own ++ grouped.flatten

theorem readBehind_eq (own : List Route) (part : Option Value) :
    readBehind g depth owner place own part = do return own ++ (← readModules g depth owner place part) := by
  unfold readBehind readModules
  cases part with
  | none => rfl
  | some modules =>
    dsimp only [Option.elim_some]
    cases g.entries? modules with
    | none => rfl
    | some groups =>
      dsimp only
      rw [pure_bind]
      cases groups.mapM (readGroup g depth owner place) <;> rfl

/-- A mapping is read as its routes part and then its groups, if it has only keys that mean something. -/
theorem readWithin_mapping {id : Nat} (h : g.shape v = .mapping id entries) :
    readWithin g (depth + 1) owner place v =
      match unknownKeys? entries with
      | some [] => do
        return (← readPart g depth owner place (part? g entries "routes")) ++
          (← readModules g depth owner place (part? g entries "modules"))
      | some unknown => .error (.refused (.unknownKeys place unknown))
      | none => .error (.breakdown .numberTooLong) := by
  rw [readWithin, h]
  dsimp only
  cases unknownKeys? entries with
  | none => rfl
  | some unknown =>
    cases unknown with
    | cons key rest => rfl
    | nil =>
      unfold readPart
      cases part? g entries "routes" with
      | none => exact readBehind_eq [] _
      | some inner =>
        dsimp only [Option.elim_some]
        cases hread : readWithin g depth owner (place ++ ".routes") inner with
        | error failure => rfl
        | ok own => exact readBehind_eq own _

/-- No key is unknown if each is one of the two that are known. -/
theorem unknownKeys?_eq_nil_iff :
    unknownKeys? entries = some [] ↔ ∀ e ∈ entries, e.1 = .text "routes" ∨ e.1 = .text "modules" := by
  have hsorted (texts : List String) : texts.mergeSort (fun a b => decide (a ≤ b)) = [] ↔ texts = [] := by
    rw [← List.length_eq_zero_iff, List.length_mergeSort, List.length_eq_zero_iff]
  simp only [unknownKeys?, Option.map_eq_some_iff, hsorted, exists_eq_right, mapM_eq_some_iff,
    List.forall₂_nil_right_iff, List.filter_eq_nil_iff, List.forall_mem_map]
  refine forall₂_congr fun e _ => ?_
  simp [or_iff_not_imp_left]

/-- The unknown keys cannot be named if one of them cannot be written. -/
theorem unknownKeys?_eq_none_iff :
    unknownKeys? entries = none ↔
      ∃ e ∈ entries, e.1 ≠ .text "routes" ∧ e.1 ≠ .text "modules" ∧ e.1.display? = none := by
  rw [unknownKeys?, Option.map_eq_none_iff, mapM_eq_none_iff]
  simp [and_assoc]

end RouteTable

end RouteBinding
