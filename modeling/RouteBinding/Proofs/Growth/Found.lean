import RouteBinding.Proofs.Growth.Operation
import RouteBinding.Proofs.Operation.Source
import RouteBinding.Proofs.Schema.Form

/-!
# What is found stays found

A reference that leads nowhere may lead somewhere when there are more paths. What is found in a tree is found with more
paths as well, if these have keys that no path had (`Widening.find_of_ok`): a schema with a form keeps it
(`Resolver.Widens.hasForm`), and a path item or an operation declares the parameter objects that it declared
(`Resolver.Widens.exists_declares`).
-/

namespace RouteBinding

open Widening (Matches SameObject)
open Compilation (RawParameter)

/-- No path of a document has the key of an added one. -/
def Document.Lacks (added : List (Scalar × Value)) (d : Document) : Prop :=
  ∀ paths items, d.paths? = some paths → d.graph.entries? paths = some items →
    ∀ e ∈ added, ∀ e' ∈ items, e'.1 ≠ e.1

theorem SameOutcome.exists_of_ok {ε α β : Type} {rel : α → β → Prop} {x : Except ε α} {y : Except ε β}
    {a : α} (h : SameOutcome rel x y) (hx : x = .ok a) : ∃ b, y = .ok b ∧ rel a b := by
  cases h with
  | ok h =>
    cases hx
    exact ⟨_, rfl, h⟩
  | error e => cases hx

/-- What stands for the items of a list is matched by what stands for their images, one by one. -/
theorem exists_forall₂_map {α β γ δ : Type} {f : α → γ} {R : α → β → Prop} {R' : γ → δ → Prop}
    {S : β → δ → Prop} {l : List α} {ps : List β} (h : List.Forall₂ R l ps)
    (hf : ∀ a ∈ l, ∀ b, R a b → ∃ c, R' (f a) c ∧ S b c) :
    ∃ qs, List.Forall₂ R' (l.map f) qs ∧ List.Forall₂ S ps qs := by
  induction h with
  | nil => exact ⟨[], .nil, .nil⟩
  | cons hab _ ih =>
    obtain ⟨hfirst, hrest⟩ := List.forall_mem_cons.1 hf
    obtain ⟨q, hq, hs⟩ := hfirst _ hab
    obtain ⟨qs, hqs, hss⟩ := ih hrest
    exact ⟨q :: qs, .cons hq hqs, .cons hs hss⟩

/-! ## References -/

namespace Widening

variable {ρ : Nat → Nat} {added : List (Scalar × Value)} {d d' : Document} {v : Value}
  {pointer : String}

/-- A pointer that leads somewhere enters nothing that was added under new keys. -/
theorem not_enters_of_find (h : Widening ρ added d d') (hnew : d.Lacks added)
    (hfind : d.find pointer = .ok v) : ¬ Pointer.Enters added pointer := by
  rintro ⟨key, rest, hkeys, e, he, hkey⟩
  obtain ⟨keys, hkeys', hwalk⟩ := Document.find_eq_ok_iff.1 hfind
  obtain rfl := Option.some.inj (hkeys.symm.trans hkeys')
  obtain ⟨paths, hpaths, hstep⟩ := h.exists_paths
  obtain ⟨paths', items, items', hpaths', hitems, -⟩ := h.paths
  obtain rfl := Option.some.inj (hpaths.symm.trans hpaths')
  obtain ⟨id, hshape⟩ := Graph.entries?_eq_some_iff.1 hitems
  -- under the second key stands nothing
  have hnone : valueAt? key items = none := by
    cases hvalue : valueAt? key items with
    | none => rfl
    | some w => exact absurd hkey.symm (hnew _ _ hpaths hitems e he _ (mem_of_valueAt? hvalue))
  rw [Graph.walk, hstep] at hwalk
  dsimp only at hwalk
  rw [Graph.walk, Graph.step, hshape] at hwalk
  dsimp only at hwalk
  rw [hnone] at hwalk
  cases hwalk

theorem find_of_ok (h : Widening ρ added d d') (hnew : d.Lacks added)
    (hfind : d.find pointer = .ok v) : d'.find pointer = .ok (v.rename ρ) ∧ d.Referable v := by
  obtain ⟨w, hw, hreferable, rfl⟩ :=
    (h.find_rename (h.not_enters_of_find hnew hfind)).exists_of_ok hfind
  exact ⟨hw, hreferable⟩

/-- An object that references lead to says the same and is found at the same pointer. -/
theorem followObject_of_ok (h : Widening ρ added d d') (hnew : d.Lacks added) {fuel : Nat}
    {chain : List String} {raw : Value} {a : List (Scalar × Value) × Value × String}
    (hraw : d.Referable raw) (ha : Resolver.followObject d fuel chain raw pointer = .ok a) :
    ∃ b, Resolver.followObject d' fuel chain (raw.rename ρ) pointer = .ok b ∧ SameObject ρ d a b := by
  induction fuel generalizing chain raw pointer with
  | zero => cases ha
  | succ fuel ih =>
    rw [Resolver.followObject] at ha ⊢
    cases hentries : d.graph.entries? raw with
    | none =>
      rw [hentries] at ha
      cases ha
    | some entries =>
      obtain ⟨id, hshape⟩ := Graph.entries?_eq_some_iff.1 hentries
      obtain ⟨entries', hshape', hmatches⟩ := h.exists_matches hraw hshape
      rw [hentries] at ha
      rw [Graph.entries?_eq_some_iff.2 ⟨_, hshape'⟩]
      dsimp only at ha ⊢
      rw [hmatches.values "$ref" (by decide)]
      cases href : valueAt? "$ref" entries with
      | none =>
        rw [href] at ha
        cases ha
        exact ⟨_, rfl, hmatches, rfl⟩
      | some reference =>
        rw [href] at ha
        cases reference with
        | container id => cases ha
        | scalar s =>
          cases s with
          | text target =>
            dsimp only [Option.map_some, Value.rename] at ha ⊢
            split_ifs at ha ⊢ with hseen
            · exact absurd ha Resolver.refuse_ne_ok
            · cases hfind : d.find target with
              | error e =>
                rw [hfind] at ha
                exact absurd ha Resolver.refuse_ne_ok
              | ok next =>
                obtain ⟨hfind', hnext⟩ := h.find_of_ok hnew hfind
                rw [hfind] at ha
                rw [hfind']
                exact ih hnext ha
          | _ => cases ha

end Widening

/-! ## Schemas -/

namespace Resolver.Widens

variable {ρ : Nat → Nat} {added : List (Scalar × Value)} {r r' : Resolver}
  (h : Resolver.Widens ρ added r r') (hnew : r.document.Lacks added) {v : Value} {id depth : Nat}
  {pointer : String} {entries entries' : List (Scalar × Value)} {reading : Reading}
  {form : SchemaNode}

include h

theorem claimForm_eq (id : Nat) (node : SchemaNode) :
    r'.claimForm (ρ id) node = r.claimForm id node := by
  unfold claimForm
  rw [h.owner?_eq]

include hnew

/-- What reads as a schema is no reference that enters what was added. -/
theorem read_of_ok (hm : Matches ρ r.document entries entries')
    (hread : r.read entries pointer = .ok reading) :
    r'.read entries' pointer = .ok (reading.rename ρ) ∧
      ∀ w ∈ reading.layer.inner, r.document.Referable w := by
  -- a reference to no component has been followed already when the entries are read
  have hout : ∀ target, valueAt? "$ref" entries = some (.scalar (.text target)) →
      Pointer.componentName? target = none → ¬ Pointer.Enters added target := by
    intro target htarget hname
    unfold read at hread
    obtain ⟨title, -, hread⟩ := bind_eq_ok.1 hread
    rw [htarget] at hread
    obtain ⟨layer, hlayer, -⟩ := bind_eq_ok.1 hread
    unfold readReference at hlayer
    dsimp only at hlayer
    rw [hname] at hlayer
    dsimp only at hlayer
    cases hfind : r.document.find target with
    | ok w => exact h.document.not_enters_of_find hnew hfind
    | error e =>
      rw [hfind] at hlayer
      exact absurd hlayer refuse_ne_ok
  obtain ⟨_, hreading, rfl, hinner⟩ := (h.read_grows hm hout).exists_of_ok hread
  exact ⟨hreading, hinner⟩

theorem reads (hv : r.document.Referable v) (hreads : r.Reads v id reading) :
    r'.Reads (v.rename ρ) (ρ id) (reading.rename ρ) ∧
      ∀ w ∈ reading.layer.inner, r.document.Referable w := by
  obtain ⟨entries, hshape, hread⟩ := hreads
  obtain ⟨entries', hshape', hmatches⟩ := h.document.exists_matches hv hshape
  obtain ⟨hread', hinner⟩ := h.read_of_ok hnew hmatches hread
  exact ⟨⟨entries', hshape', hread'⟩, hinner⟩

theorem formWithin (hv : r.document.Referable v) (hform : r.formWithin depth v = some form) :
    r'.formWithin depth (v.rename ρ) = some form := by
  induction depth generalizing v form with
  | zero => cases hform
  | succ depth ih =>
    obtain ⟨id, reading, layer, node, hreads, hlayer, hnode, rfl⟩ := formWithin_succ_iff.1 hform
    obtain ⟨hreads', hinner⟩ := h.reads hnew hv hreads
    refine formWithin_succ_iff.2
      ⟨ρ id, reading.rename ρ, layer, node, hreads', ?_, hnode, h.claimForm_eq id node⟩
    exact Layer.Agree.map_left.2 (hlayer.mono fun w hw k hk => ih (hinner w hw) hk)

/-- A schema with a form has that form with more paths, too. -/
theorem hasForm (hv : r.document.Referable v) (hform : r.HasForm v form) :
    r'.HasForm (v.rename ρ) form := by
  obtain ⟨depth, hdepth⟩ := hform
  exact ⟨depth, h.formWithin hnew hv hdepth⟩

/-! ## Parameter objects -/

theorem exists_standsFor {list : String} {e : Value × Nat} {p : RawParameter}
    (he : r.document.Apart e.1) (hp : r.StandsFor list e p) :
    ∃ p', r'.StandsFor list (e.1.rename ρ, e.2) p' ∧ p.Same ρ r.document p' := by
  obtain ⟨v, hv⟩ := hp
  -- one bound that is enough for both documents
  have hlt : r.document.graph.size < r.document.graph.size + r'.document.graph.size + 1 := by omega
  have hlt' : r'.document.graph.size < r.document.graph.size + r'.document.graph.size + 1 := by omega
  rw [← followObject_eq_resolveObject r _ _ hlt] at hv
  obtain ⟨⟨entries', v', found⟩, hv', hmatches, hfound⟩ :=
    h.document.followObject_of_ok hnew (.inl he) hv
  rw [followObject_eq_resolveObject r' _ _ hlt'] at hv'
  exact ⟨⟨entries', found⟩, ⟨v', hv'⟩, hfound, hmatches⟩

omit hnew in
theorem listed_eq (hm : Matches ρ r.document entries entries') :
    r'.listed entries' = (r.listed entries).map (Value.rename ρ) ∧
      ∀ v ∈ r.listed entries, r.document.Apart v := by
  unfold listed
  rw [hm.values _ (by decide)]
  cases hvalue : valueAt? "parameters" entries with
  | none => exact ⟨rfl, fun v hv => (List.not_mem_nil hv).elim⟩
  | some value =>
    have happart := hm.apart_of_valueAt? hvalue
    simp only [Option.map_some, h.document.shape_rename happart]
    cases hshape : r.document.graph.shape value with
    | list id items => exact ⟨rfl, h.document.apart_of_mem_list happart hshape⟩
    | _ => exact ⟨rfl, fun v hv => (List.not_mem_nil hv).elim⟩

/-- The parameter objects that are declared say the same and are found at the same pointers. -/
theorem exists_declares (hm : Matches ρ r.document entries entries') {ps : List RawParameter}
    (hps : r.Declares pointer entries ps) :
    ∃ ps', r'.Declares pointer entries' ps' ∧ List.Forall₂ (RawParameter.Same ρ r.document) ps ps' := by
  obtain ⟨hlisted, happart⟩ := h.listed_eq hm
  unfold Declares
  rw [hlisted, List.zipIdx_map]
  refine exists_forall₂_map hps fun e he p hp => h.exists_standsFor hnew (happart _ ?_) hp
  exact List.fst_mem_of_mem_zipIdx he

end Resolver.Widens

end RouteBinding
