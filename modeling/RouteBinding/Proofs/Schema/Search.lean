import Mathlib.Data.List.Chain
import Mathlib.Data.List.Perm.Subperm
import Mathlib.Data.List.TakeWhile
import RouteBinding.Proofs.Schema.Form

/-!
# The search for a form

`Resolver.searchWithin` goes through a document as the resolution does, and gives the same errors, but it
remembers nothing between two schemas. It ends for every trail that holds no container twice, it finds the
form of every schema that has one (`searchWithin_of_hasForm`), and otherwise it finds a schema that breaks
the rules or one that holds itself (`search_error`).
-/

namespace RouteBinding.Resolver

open Relation (ReflTransGen TransGen)

variable {r : Resolver} {start site : Site} {depth : Nat} {trail : Trail} {form : SchemaNode}

/-- The form of a schema met inside the containers of the trail. -/
def searchWithin (r : Resolver) : (depth : Nat) → Trail → Site → Except Halt SchemaNode
  | 0, _, site => refuse (cyclic [site.pointer])
  | depth + 1, trail, site =>
    match r.document.graph.shape site.value with
    | .mapping id entries =>
      if trail.any (·.1 = id) then refuse (cyclic (trail.loop id site.pointer))
      else do
        let reading ← r.read entries site.pointer
        let layer ← (reading.layer.located site.pointer).traverse
          (r.searchWithin depth ((id, site.pointer) :: trail))
        let node ← assembleForm site.pointer reading.title layer
        return r.claimForm id node
    | _ =>
      refuse (.malformedSchema (.notMapping (r.document.graph.typeName site.value)) site.pointer)

/-- The form of the schema found at a pointer. -/
def search (r : Resolver) (raw : Value) (pointer : String) : Except Halt SchemaNode :=
  r.searchWithin (r.document.graph.size + 1) [] ⟨raw, pointer⟩

/-! ## Ways through a document -/

/-- A schema is met, at its pointer, from the schema around it. -/
def Meets (r : Resolver) (a b : Site) : Prop :=
  ∃ id reading, r.Reads a.value id reading ∧ b ∈ (reading.layer.located a.pointer).inner

theorem Meets.inner {a b : Site} (h : r.Meets a b) : r.Inner a.value b.value := by
  obtain ⟨id, reading, hreads, hb⟩ := h
  exact ⟨id, reading, hreads, Layer.value_mem_of_mem_located hb⟩

/-- A chain of pointers is that of a way which sets out from `start`, meets one schema from the other and
comes back to a schema that it has passed. The chain begins where that schema was met first. -/
def ComesBack (r : Resolver) (start : Site) (chain : List String) : Prop :=
  ∃ (before : List Site) (first : Site) (between : List Site) (back : Site),
    (before ++ first :: (between ++ [back])).IsChain r.Meets ∧
    (before ++ [first]).head? = some start ∧
    back.value = first.value ∧
    chain = (first :: (between ++ [back])).map Site.pointer

/-- On a way, what comes later stands inside what comes before. -/
theorem transGen_of_isChain {l : List Site} (h : (l ++ [site]).IsChain r.Meets) {a : Site}
    (ha : a ∈ l) : TransGen r.Inner a.value site.value := by
  have hway : (l ++ [site]).IsChain fun a b => TransGen r.Inner a.value b.value :=
    h.imp fun a b hab => .single hab.inner
  have htrans : IsTrans Site fun a b => TransGen r.Inner a.value b.value :=
    ⟨fun a b c hab hbc => hab.trans hbc⟩
  have hpair := List.isChain_iff_pairwise.1 hway
  exact (List.pairwise_append.1 hpair).2.2 a ha site List.mem_cons_self

theorem ComesBack.transGen {chain : List String} (h : r.ComesBack start chain) :
    ∃ w, ReflTransGen r.Inner start.value w ∧ TransGen r.Inner w w := by
  obtain ⟨before, first, between, back, hway, hstart, hback, -⟩ := h
  have hloop : TransGen r.Inner first.value back.value := by
    have hend : ((first :: between) ++ [back]).IsChain r.Meets := (List.isChain_append.1 hway).2.1
    exact transGen_of_isChain hend List.mem_cons_self
  rw [hback] at hloop
  refine ⟨first.value, ?_, hloop⟩
  have hbegin : (before ++ [first]).IsChain r.Meets := by
    rw [List.append_cons] at hway
    exact (List.isChain_append.1 hway).1
  cases before with
  | nil =>
    cases hstart
    exact .refl
  | cons a before =>
    cases hstart
    exact (transGen_of_isChain hbegin List.mem_cons_self).to_reflTransGen

/-! ## The trail -/

/-- The sites of the containers of a trail, in the order in which they were met. -/
def Trail.sites (trail : Trail) : List Site :=
  trail.reverse.map fun t => ⟨.container t.1, t.2⟩

/-- A search that set out from `start` stands at `site`: the trail is a way that leads there, it holds no
container twice, and the depth is enough for all containers that are not on it. -/
structure Underway (r : Resolver) (start : Site) (depth : Nat) (trail : Trail) (site : Site) :
    Prop where
  way : (trail.sites ++ [site]).IsChain r.Meets
  starts : (trail.sites ++ [site]).head? = some start
  nodup : (trail.map (·.1)).Nodup
  bounded : ∀ t ∈ trail, t.1 < r.document.graph.size
  enough : r.document.graph.size < depth + trail.length

namespace Underway

/-- Every search begins with an empty trail. -/
theorem initial (r : Resolver) (start : Site) (hdepth : r.document.graph.size < depth) :
    r.Underway start depth [] start where
  way := List.isChain_singleton start
  starts := rfl
  nodup := List.nodup_nil
  bounded := by simp
  enough := hdepth

/-- The depth is never used up: as many containers as there are cannot all be on the trail and yet another
one be met. -/
theorem depth_ne_zero (h : r.Underway start depth trail site) : depth ≠ 0 := by
  rintro rfl
  have hsub : trail.map (·.1) ⊆ List.range r.document.graph.size := by
    intro id hid
    obtain ⟨t, ht, rfl⟩ := List.mem_map.1 hid
    exact List.mem_range.2 (h.bounded t ht)
  have hlen := (List.subperm_of_subset h.nodup hsub).length_le
  have henough := h.enough
  simp only [List.length_map, List.length_range] at hlen
  omega

/-- What is on the trail holds the site. -/
theorem transGen (h : r.Underway start depth trail site) {t : Nat × String} (ht : t ∈ trail) :
    TransGen r.Inner (.container t.1) site.value := by
  have hmem : (⟨.container t.1, t.2⟩ : Site) ∈ trail.sites :=
    List.mem_map.2 ⟨t, List.mem_reverse.2 ht, rfl⟩
  exact transGen_of_isChain h.way hmem

/-- The site stands inside the schema that the search set out from, or is that schema. -/
theorem reachable (h : r.Underway start depth trail site) :
    ReflTransGen r.Inner start.value site.value := by
  have hstarts := h.starts
  have hway := h.way
  cases htrail : trail.sites with
  | nil =>
    rw [htrail] at hstarts
    cases hstarts
    exact .refl
  | cons a l =>
    rw [htrail] at hstarts hway
    cases hstarts
    exact (transGen_of_isChain hway List.mem_cons_self).to_reflTransGen

/-- The search goes on to what stands inside the site, with the site on the trail. -/
theorem cons (h : r.Underway start (depth + 1) trail site) {id : Nat} {reading : Reading}
    (hreads : r.Reads site.value id reading) (hid : ¬ trail.any (·.1 = id)) {next : Site}
    (hnext : next ∈ (reading.layer.located site.pointer).inner) :
    r.Underway start depth ((id, site.pointer) :: trail) next := by
  have hsites : Trail.sites ((id, site.pointer) :: trail) = trail.sites ++ [site] := by
    simp [Trail.sites, ← hreads.eq_container]
  refine ⟨?_, ?_, ?_, ?_, ?_⟩
  · rw [hsites, List.isChain_append]
    refine ⟨h.way, List.isChain_singleton next, ?_⟩
    simp only [List.getLast?_concat, Option.mem_some_iff, List.head?_cons]
    rintro a rfl b rfl
    exact ⟨id, reading, hreads, hnext⟩
  · rw [hsites, List.head?_append, h.starts]
    rfl
  · refine List.nodup_cons.2 ⟨fun hmem => hid ?_, h.nodup⟩
    obtain ⟨t, ht, htid⟩ := List.mem_map.1 hmem
    exact List.any_eq_true.2 ⟨t, ht, by simpa using htid⟩
  · intro t ht
    rcases List.mem_cons.1 ht with rfl | ht
    · exact hreads.lt_size
    · exact h.bounded t ht
  · have henough := h.enough
    simp only [List.length_cons]
    omega

/-- If the site is on the trail, the way comes back. -/
theorem comesBack (h : r.Underway start depth trail site) {id : Nat}
    (hsite : site.value = .container id) (hid : trail.any (·.1 = id)) :
    r.ComesBack start (trail.loop id site.pointer) := by
  have hway := h.way
  have hstarts := h.starts
  have hsplit := List.takeWhile_append_dropWhile (p := fun t : Nat × String => t.1 ≠ id)
    (l := trail.reverse)
  -- the way splits where the container was met first; the chain begins there
  cases hdrop : trail.reverse.dropWhile fun t => t.1 ≠ id with
  | nil =>
    obtain ⟨t, ht, htid⟩ := List.any_eq_true.1 hid
    have hne := List.dropWhile_eq_nil_iff.1 hdrop t (List.mem_reverse.2 ht)
    exact absurd (of_decide_eq_true htid) (of_decide_eq_true hne)
  | cons t rest =>
    have ht : t.1 = id := by
      have hhead := List.head?_dropWhile_not (fun t : Nat × String => t.1 ≠ id) trail.reverse
      rw [hdrop] at hhead
      simpa using hhead
    rw [hdrop] at hsplit
    rw [Trail.sites, ← hsplit] at hway hstarts
    simp only [List.map_append, List.map_cons, List.append_assoc, List.cons_append] at hway hstarts
    refine ⟨_, ⟨.container t.1, t.2⟩, rest.map fun t => ⟨.container t.1, t.2⟩, site, hway, ?_, ?_, ?_⟩
    · rw [← hstarts, List.head?_append, List.head?_append]
      rfl
    · rw [hsite, ht]
    · rw [Trail.loop, hdrop]
      simp [Function.comp_def]

end Underway

/-! ## What the search finds -/

/-- What the search finds is the form. -/
theorem formWithin_of_searchWithin (h : r.searchWithin depth trail site = .ok form) :
    r.formWithin depth site.value = some form := by
  induction depth generalizing trail site form with
  | zero => exact absurd h refuse_ne_ok
  | succ depth ih =>
    rw [searchWithin] at h
    split at h
    · rename_i id entries hshape
      split_ifs at h with hid
      · exact absurd h refuse_ne_ok
      · obtain ⟨reading, hread, h⟩ := bind_eq_ok.1 h
        obtain ⟨layer, hlayer, h⟩ := bind_eq_ok.1 h
        obtain ⟨node, hnode, h⟩ := bind_eq_ok.1 h
        cases h
        refine formWithin_succ_iff.2 ⟨id, reading, layer, node, .of_read hshape hread, ?_,
          assembleForm_pointer hnode "", rfl⟩
        rw [← Layer.map_value_located site.pointer reading.layer, Layer.Agree.map_left]
        exact (Layer.traverse_eq_ok_iff.1 hlayer).mono fun next _ k hk => ih hk
    · exact absurd h refuse_ne_ok

/-- The search finds the form of every schema that has one. Nothing on the trail is met again: the schema
would then hold itself. -/
theorem searchWithin_of_hasForm (hunder : r.Underway start depth trail site)
    (h : r.HasForm site.value form) : r.searchWithin depth trail site = .ok form := by
  induction depth generalizing trail site form with
  | zero => exact absurd rfl hunder.depth_ne_zero
  | succ depth ih =>
    have hacyclic := h.not_cyclic
    obtain ⟨d, hform⟩ := h
    cases d with
    | zero => cases hform
    | succ d =>
      obtain ⟨id, reading, layer, node, hreads, hlayer, hnode, hclaim⟩ := formWithin_succ_iff.1 hform
      -- on the trail, the schema would stand inside itself and have no form
      have hid : ¬ trail.any (·.1 = id) := by
        intro hany
        obtain ⟨t, ht, htid⟩ := List.any_eq_true.1 hany
        have hloop := hunder.transGen ht
        rw [of_decide_eq_true htid, ← hreads.eq_container] at hloop
        exact hacyclic hloop
      have hsearch : (reading.layer.located site.pointer).traverse
          (r.searchWithin depth ((id, site.pointer) :: trail)) = .ok layer := by
        rw [Layer.traverse_eq_ok_iff]
        rw [← Layer.map_value_located site.pointer reading.layer, Layer.Agree.map_left] at hlayer
        exact hlayer.mono fun next hnext k hk => ih (hunder.cons hreads hid hnext) ⟨d, hk⟩
      obtain ⟨entries, hshape, hread⟩ := hreads
      rw [searchWithin, hshape]
      simp only [if_neg hid]
      refine bind_eq_ok.2 ⟨reading, read_pointer hread site.pointer, ?_⟩
      refine bind_eq_ok.2 ⟨layer, hsearch, ?_⟩
      refine bind_eq_ok.2 ⟨node, assembleForm_pointer hnode site.pointer, ?_⟩
      rw [hclaim]
      rfl

/-- What keeps a search from finding a form: a schema that breaks the rules, or a way that comes back. Only
the way is reported as a cycle, and the run breaks off only where the reading of a schema does. -/
inductive Fault (r : Resolver) (start : Site) : Halt → Prop
  | illFormed {h : Halt} (w : Value) (hreach : ReflTransGen r.Inner start.value w)
    (hill : ¬ r.WellFormed w) (hplain : IsPlain h) : Fault r start h
  | broken {b : Breakdown} (w : Value) (id : Nat) (entries : List (Scalar × Value))
    (hreach : ReflTransGen r.Inner start.value w) (hill : ¬ r.WellFormed w)
    (hshape : r.document.graph.shape w = .mapping id entries)
    (hstops : StopsReading r.document.graph entries (.breakdown b)) : Fault r start (.breakdown b)
  | cycle (chain : List String) (hloop : r.ComesBack start chain) :
    Fault r start (.error (cyclic chain))

theorem fault_of_searchWithin (hunder : r.Underway start depth trail site) {halt : Halt}
    (h : r.searchWithin depth trail site = .error halt) : r.Fault start halt := by
  induction depth generalizing trail site with
  | zero => exact absurd rfl hunder.depth_ne_zero
  | succ depth ih =>
    rw [searchWithin] at h
    split at h
    · rename_i id entries hshape
      split_ifs at h with hid
      · -- the container is on the trail
        cases h
        exact .cycle _ (hunder.comesBack (eq_container_of_shape hshape) hid)
      · rcases bind_eq_error.1 h with hread | ⟨reading, hread, h⟩
        · -- the schema itself cannot be read
          have hill : ¬ r.WellFormed site.value := by
            rintro ⟨id', reading, ⟨entries', hshape', hread'⟩, -⟩
            rw [hshape] at hshape'
            cases hshape'
            rw [read_pointer hread' site.pointer] at hread
            cases hread
          cases halt with
          | breakdown b =>
            exact .broken site.value id entries hunder.reachable hill hshape (read_error hread)
          | error e =>
            cases read_error hread with
            | plain hplain => exact .illFormed site.value hunder.reachable hill hplain
        · have hreads : r.Reads site.value id reading := .of_read hshape hread
          rcases bind_eq_error.1 h with hlayer | ⟨layer, hlayer, h⟩
          · -- the fault lies in a schema inside it
            obtain ⟨next, hnext, hstop⟩ := Layer.traverse_eq_error hlayer
            exact ih (hunder.cons hreads hid hnext) hstop
          · rcases bind_eq_error.1 h with hnode | ⟨node, hnode, h⟩
            · -- all parts have forms, but a keyword is missing that only the whole asks for
              refine .illFormed site.value hunder.reachable ?_ (assembleForm_error hnode)
              rintro ⟨id', reading', hreads', hcomplete⟩
              obtain ⟨-, rfl⟩ := hreads.unique hreads'
              have hagree := Layer.traverse_eq_ok_iff.1 hlayer
              rw [← Layer.isComplete_located, hagree.isComplete_eq] at hcomplete
              obtain ⟨node, hok⟩ := exists_assembleForm_iff.2 hcomplete
              rw [hok] at hnode
              cases hnode
            · cases h
    · rename_i hshape
      cases h
      refine .illFormed site.value hunder.reachable ?_ trivial
      rintro ⟨id, reading, ⟨entries, hshape', -⟩, -⟩
      exact hshape id entries hshape'

/-- The search gives a form exactly for the schemas that have one. -/
theorem search_eq_ok_iff {raw : Value} {pointer : String} :
    r.search raw pointer = .ok form ↔ r.HasForm raw form := by
  constructor
  · intro h
    exact ⟨_, formWithin_of_searchWithin h⟩
  · intro h
    exact searchWithin_of_hasForm (.initial r ⟨raw, pointer⟩ (Nat.lt_succ_self _)) h

theorem fault_of_search {raw : Value} {pointer : String} {halt : Halt}
    (h : r.search raw pointer = .error halt) : r.Fault ⟨raw, pointer⟩ halt :=
  fault_of_searchWithin (.initial r ⟨raw, pointer⟩ (Nat.lt_succ_self _)) h

/-- A schema has a form exactly if all that is reached from it follows the rules and nothing reached
stands inside itself. -/
theorem exists_hasForm_iff {v : Value} :
    (∃ form, r.HasForm v form) ↔
      ∀ w, ReflTransGen r.Inner v w → r.WellFormed w ∧ ¬ TransGen r.Inner w w := by
  constructor
  · rintro ⟨form, h⟩ w hw
    obtain ⟨k, hk⟩ := h.reachable hw
    exact ⟨hk.wellFormed, hk.not_cyclic⟩
  · intro h
    -- the search decides: it gives the form, or it tells what is wrong
    cases hsearch : r.search v "" with
    | ok form => exact ⟨form, search_eq_ok_iff.1 hsearch⟩
    | error halt =>
      cases fault_of_search hsearch with
      | illFormed w hreach hill _ => exact absurd (h w hreach).1 hill
      | broken w _ _ hreach hill => exact absurd (h w hreach).1 hill
      | cycle chain hloop =>
        obtain ⟨w, hreach, hcycle⟩ := hloop.transGen
        exact absurd hcycle (h w hreach).2

end RouteBinding.Resolver
