import RouteBinding.Proofs.Depth
import RouteBinding.Proofs.Pointer
import RouteBinding.Proofs.Schema.Reading

/-!
# Objects behind references

Following references from a value either ends at an object, or breaks off at a value that neither is an object nor
leads on, or never ends; and it is found out which (`Resolver.resolveObject_follows`). An error shows the reference at
which a walk breaks off, and where that has no text, the run breaks off with it. The walk stops as soon as a text
comes again that was followed before. Two texts may lead to one target, so that this need not be when a target comes
again; but there are no more texts than there are mappings that refer.
-/

namespace RouteBinding

namespace Document

variable {d : Document} {v w u : Value} {target pointer : String} {targets targets' : List String}
  {entries : List (Scalar × Value)} {e : CompileError} {halt : Halt}

/-! ## Ways along references -/

/-- The reference that stands in a value that is a mapping. -/
def reference? (d : Document) (v : Value) : Option Value :=
  (d.graph.entries? v).bind (valueAt? "$ref")

/-- A value refers to a target: it is a mapping, and the text of the target stands there as a reference. -/
def Refers (d : Document) (v : Value) (target : String) : Prop :=
  d.reference? v = some (.scalar (.text target))

/-- A value leads on to another one by a reference. -/
def LeadsOn (d : Document) (v : Value) (target : String) (w : Value) : Prop :=
  d.Refers v target ∧ d.find target = .ok w

/-- Following some references, one after the other, leads from one value to another. -/
inductive Follows (d : Document) : Value → List String → Value → Prop
  | here {v : Value} : Follows d v [] v
  | step {v w u : Value} {target : String} {targets : List String} (h : d.LeadsOn v target w)
    (hrest : Follows d w targets u) : Follows d v (target :: targets) u

/-- A value is an object with some entries: a mapping without a reference. -/
def IsObject (d : Document) (v : Value) (entries : List (Scalar × Value)) : Prop :=
  d.graph.entries? v = some entries ∧ d.reference? v = none

/-- From wherever the references from a value lead, a reference leads on. -/
def Endless (d : Document) (v : Value) : Prop :=
  ∀ targets w, d.Follows v targets w → ∃ target u, d.LeadsOn w target u

/-- The references from a value lead to one that is no pointer and has no text either. -/
def EndsUnwritable (d : Document) (v : Value) : Prop :=
  ∃ targets w reference, d.Follows v targets w ∧ d.reference? w = some reference ∧ d.graph.display? reference = none

/-- What is wrong with a value at a pointer that is no object and does not lead on. It is no mapping, or its reference
is no text, no internal pointer, or a pointer that something is missing for. A reference that is no text is shown, if it
has one. -/
inductive Breaks (d : Document) (pointer : String) (v : Value) : Halt → Prop
  | notMapping (h : d.graph.entries? v = none) :
    Breaks d pointer v (.error (.unresolvedReference pointer .notAnObject))
  | notText {reference : Value} {shown : String} (href : d.reference? v = some reference) (h : reference.text? = none)
    (hshown : d.graph.display? reference = some shown) :
    Breaks d pointer v (.error (.unresolvedReference shown .notInternal))
  | unwritable {reference : Value} (href : d.reference? v = some reference)
    (hshown : d.graph.display? reference = none) : Breaks d pointer v (.breakdown .numberTooLong)
  | notInternal {target : String} (href : d.Refers v target) (h : Pointer.keys? target = none) :
    Breaks d pointer v (.error (.unresolvedReference target .notInternal))
  | missing {target : String} {keys : List String} {fault : ReferenceFault} (href : d.Refers v target)
    (hkeys : Pointer.keys? target = some keys) (h : d.graph.walk d.root keys = .error fault) :
    Breaks d pointer v (.error (.unresolvedReference target fault))

theorem reference?_of_entries? (h : d.graph.entries? v = some entries) :
    d.reference? v = valueAt? "$ref" entries := by
  rw [reference?, h, Option.bind_some]

theorem reference?_eq_none (h : d.graph.entries? v = none) : d.reference? v = none := by
  rw [reference?, h, Option.bind_none]

/-- A reference leads to one value. -/
theorem LeadsOn.unique {target' : String} {w' : Value} (h : d.LeadsOn v target w) (h' : d.LeadsOn v target' w') :
    target = target' ∧ w = w' := by
  obtain ⟨href, hfind⟩ := h
  obtain ⟨href', hfind'⟩ := h'
  rw [Refers, href] at href'
  cases href'
  exact ⟨rfl, Except.ok.inj (hfind.symm.trans hfind')⟩

/-- An object leads nowhere else. -/
theorem IsObject.not_leadsOn (h : d.IsObject v entries) : ¬ d.LeadsOn v target w := by
  intro ⟨href, _⟩
  rw [Refers, h.2] at href
  cases href

/-- Where something is wrong with a value that has a reference, that is what following it comes to. -/
theorem Breaks.follow_eq {reference : Value} (h : d.Breaks pointer v halt) (href : d.reference? v = some reference) :
    d.follow reference = .error halt := by
  cases h with
  | notMapping h =>
    rw [reference?_eq_none h] at href
    cases href
  | @notText found shown hfound htext hshown =>
    rw [hfound] at href
    cases href
    unfold follow
    split
    · cases htext
    · rw [misreference, hshown]
      rfl
  | @unwritable found hfound hshown =>
    rw [hfound] at href
    cases href
    unfold follow
    split
    · cases hshown
    · rw [misreference, hshown]
      rfl
  | notInternal hrefers h =>
    rw [hrefers] at href
    cases href
    rw [follow, find, h]
    rfl
  | missing hrefers hkeys h =>
    rw [hrefers] at href
    cases href
    rw [follow, find_of_keys hkeys, h]
    rfl

/-- A reference that breaks leads nowhere. -/
theorem Breaks.not_leadsOn (h : d.Breaks pointer v halt) : ¬ d.LeadsOn v target w := by
  intro ⟨href, hfind⟩
  have herror := h.follow_eq href
  rw [follow, hfind] at herror
  cases herror

/-- A value without a reference is an object, or else it is no mapping. -/
theorem Breaks.notMapping_of_none (h : d.Breaks pointer v halt) (hnone : d.reference? v = none) :
    d.graph.entries? v = none ∧ halt = .error (.unresolvedReference pointer .notAnObject) := by
  cases h with
  | notMapping h => exact ⟨h, rfl⟩
  | notText href _ _ => rw [hnone] at href; cases href
  | unwritable href _ => rw [hnone] at href; cases href
  | notInternal href _ => rw [Refers, hnone] at href; cases href
  | missing href _ _ => rw [Refers, hnone] at href; cases href

theorem IsObject.not_breaks (h : d.IsObject v entries) : ¬ d.Breaks pointer v halt := by
  intro hbreaks
  obtain ⟨hv, -⟩ := hbreaks.notMapping_of_none h.2
  rw [h.1] at hv
  cases hv

/-- One thing is wrong with a value. -/
theorem Breaks.unique {halt' : Halt} (h : d.Breaks pointer v halt) (h' : d.Breaks pointer v halt') : halt = halt' := by
  cases href : d.reference? v with
  | none => exact (h.notMapping_of_none href).2.trans (h'.notMapping_of_none href).2.symm
  | some reference => exact Except.error.inj ((h.follow_eq href).symm.trans (h'.follow_eq href))

namespace Follows

/-- Ways of references that meet make one. -/
theorem append (h : d.Follows v targets w) (h' : d.Follows w targets' u) : d.Follows v (targets ++ targets') u := by
  induction h with
  | here => exact h'
  | step hstep _ ih => exact .step hstep (ih h')

/-- Of two ways from one value the longer one begins with the shorter one. -/
theorem exists_rest (h : d.Follows v targets w) (h' : d.Follows v targets' u)
    (hlength : targets.length ≤ targets'.length) : ∃ rest, targets' = targets ++ rest ∧ d.Follows w rest u := by
  induction h generalizing targets' with
  | here => exact ⟨targets', rfl, h'⟩
  | step hstep _ ih =>
    cases h' with
    | here => simp at hlength
    | step hstep' hrest' =>
      obtain ⟨rfl, rfl⟩ := hstep.unique hstep'
      obtain ⟨rest, rfl, hrest⟩ := ih hrest' (by simpa using hlength)
      exact ⟨rest, rfl, hrest⟩

/-- A way does not go beyond a value that does not lead on. -/
theorem unique (h : d.Follows v targets w) (hw : ∀ target x, ¬ d.LeadsOn w target x)
    (h' : d.Follows v targets' u) (hu : ∀ target x, ¬ d.LeadsOn u target x) : targets = targets' ∧ w = u := by
  have hstop {a b : Value} {rest : List String} (ha : ∀ target x, ¬ d.LeadsOn a target x)
      (hrest : d.Follows a rest b) : rest = [] ∧ a = b := by
    cases hrest with
    | here => exact ⟨rfl, rfl⟩
    | step hstep _ => exact absurd hstep (ha _ _)
  rcases Nat.le_total targets.length targets'.length with hle | hle
  · obtain ⟨rest, rfl, hrest⟩ := h.exists_rest h' hle
    obtain ⟨rfl, rfl⟩ := hstop hw hrest
    exact ⟨(List.append_nil _).symm, rfl⟩
  · obtain ⟨rest, rfl, hrest⟩ := h'.exists_rest h hle
    obtain ⟨rfl, rfl⟩ := hstop hu hrest
    exact ⟨List.append_nil _, rfl⟩

/-- A way of references can be split. -/
theorem split (h : d.Follows v (targets ++ targets') u) : ∃ w, d.Follows v targets w ∧ d.Follows w targets' u := by
  induction targets generalizing v with
  | nil => exact ⟨v, .here, h⟩
  | cons target rest ih =>
    cases h with
    | step hstep hrest =>
      obtain ⟨w, hw, hu⟩ := ih hrest
      exact ⟨w, .step hstep hw, hu⟩

/-- Where a way ends that is not empty is where its last reference leads. -/
theorem find_last (h : d.Follows v (targets ++ [target]) w) : d.find target = .ok w := by
  obtain ⟨u, -, hlast⟩ := h.split
  cases hlast with
  | step hstep hrest =>
    cases hrest with
    | here => exact hstep.2

/-- A way of references ends where its last target stands. -/
theorem find_getLastD (h : d.Follows v targets w) (hv : d.find pointer = .ok v) :
    d.find (targets.getLastD pointer) = .ok w := by
  rcases targets.eq_nil_or_concat' with rfl | ⟨front, target, rfl⟩
  · cases h with
    | here => exact hv
  · rw [List.getLastD_concat]
    exact h.find_last

theorem exists_find (h : d.Follows v targets w) (ht : target ∈ targets) : ∃ u, d.find target = .ok u := by
  induction h with
  | here => cases ht
  | step hstep _ ih =>
    rcases List.mem_cons.1 ht with rfl | ht
    · exact ⟨_, hstep.2⟩
    · exact ih ht

/-- The references that are followed are references of the document. -/
theorem subset_references (h : d.Follows v targets w) : targets ⊆ d.graph.references := by
  induction h with
  | here => exact List.nil_subset _
  | step hstep _ ih =>
    obtain ⟨entries, hv, href⟩ := Option.bind_eq_some_iff.1 hstep.1
    exact List.cons_subset.2 ⟨Graph.mem_references hv href, ih⟩

end Follows

/-! ## Ways without an end -/

/-- A way with an end is not endless. -/
theorem Follows.not_endless (h : d.Follows v targets w) (hw : ∀ target u, ¬ d.LeadsOn w target u) :
    ¬ d.Endless v := by
  intro hendless
  obtain ⟨target, u, hnext⟩ := hendless targets w h
  exact hw target u hnext

/-- A way that comes back to where it began, over and over. -/
theorem Follows.exists_longer (h : d.Follows v targets v) (hne : targets ≠ []) (n : Nat) :
    ∃ longer, n ≤ longer.length ∧ d.Follows v longer v := by
  induction n with
  | zero => exact ⟨[], Nat.le_refl 0, .here⟩
  | succ n ih =>
    obtain ⟨longer, hlength, hlonger⟩ := ih
    have hpos : 0 < targets.length := List.length_pos_iff.2 hne
    refine ⟨targets ++ longer, ?_, h.append hlonger⟩
    rw [List.length_append]
    omega

/-- A reference that is followed again leads around, and so never to an end. -/
theorem Follows.endless (h : d.Follows v (targets ++ [target]) w) (hmem : target ∈ targets) : d.Endless v := by
  obtain ⟨front, back, rfl⟩ := List.append_of_mem hmem
  have hsplit : front ++ target :: back ++ [target] = (front ++ [target]) ++ (back ++ [target]) := by simp
  rw [hsplit] at h
  obtain ⟨u, hfront, hback⟩ := h.split
  -- both times the reference leads to one value, and from there to itself
  have hsame : u = w := Except.ok.inj (hfront.find_last.symm.trans hback.find_last)
  subst hsame
  intro others x hothers
  obtain ⟨longer, hlength, hlonger⟩ := hback.exists_longer (by simp) (others.length + 1)
  have hround := hfront.append hlonger
  obtain ⟨rest, heq, hrest⟩ := hothers.exists_rest hround (by rw [List.length_append]; omega)
  cases hrest with
  | here =>
    have hcount := congrArg List.length heq
    simp only [List.length_append, List.length_nil] at hcount
    omega
  | step hstep _ => exact ⟨_, _, hstep⟩

/-! ## What a walk comes to -/

/-- What following references from a value at a pointer comes to: an object, a reference that was followed before, or
what is wrong where it breaks off. -/
inductive Outcome (d : Document) (v : Value) (pointer : String) :
    Except Halt (List (Scalar × Value) × Value × String) → Prop
  | object {targets : List String} {w : Value} {entries : List (Scalar × Value)} (h : d.Follows v targets w)
    (hw : d.IsObject w entries) : Outcome d v pointer (.ok (entries, w, targets.getLastD pointer))
  | loop {targets : List String} {target : String} {w : Value} (h : d.Follows v (targets ++ [target]) w)
    (hnodup : targets.Nodup) (hmem : target ∈ targets) :
    Outcome d v pointer (.error (.error (.cyclicSchema target (targets ++ [target]))))
  | broken {targets : List String} {w : Value} {halt : Halt} (h : d.Follows v targets w)
    (hw : d.Breaks (targets.getLastD pointer) w halt) : Outcome d v pointer (.error halt)

/-- What is wrong where a walk breaks off is a reference that leads nowhere, unless it cannot be shown. -/
theorem Breaks.exists_eq (h : d.Breaks pointer v halt) :
    (∃ target fault, halt = .error (.unresolvedReference target fault)) ∨
      halt = .breakdown .numberTooLong ∧ ∃ reference, d.reference? v = some reference ∧
        d.graph.display? reference = none := by
  cases h with
  | unwritable href hshown => exact .inr ⟨rfl, _, href, hshown⟩
  | _ => exact .inl ⟨_, _, rfl⟩

/-- What is wrong with a reference whose target is not found. -/
theorem breaks_of_find (href : d.Refers v target) (h : d.find target = .error e) : d.Breaks pointer v (.error e) := by
  unfold find at h
  split at h
  · rename_i hkeys
    cases h
    exact .notInternal href hkeys
  · rename_i keys hkeys
    split at h
    · cases h
    · rename_i fault hwalk
      cases h
      exact .missing href hkeys hwalk

/-- What is wrong with a reference that is no text. -/
theorem breaks_of_misreference {reference : Value} (href : d.reference? v = some reference)
    (h : reference.text? = none) : d.Breaks pointer v (d.misreference reference) := by
  unfold misreference
  cases hshown : d.graph.display? reference with
  | none => exact .unwritable href hshown
  | some shown => exact .notText href h hshown

namespace Outcome

variable {outcome : Except Halt (List (Scalar × Value) × Value × String)}

/-- A walk that can end at an object comes to that object. -/
theorem eq_object (h : d.Outcome v pointer outcome) (hw : d.Follows v targets w) (hobject : d.IsObject w entries) :
    outcome = .ok (entries, w, targets.getLastD pointer) := by
  have hstop : ∀ target u, ¬ d.LeadsOn w target u := fun _ _ => hobject.not_leadsOn
  cases h with
  | object h' hobject' =>
    obtain ⟨rfl, rfl⟩ := hw.unique hstop h' fun _ _ => hobject'.not_leadsOn
    have hentries := hobject.1.symm.trans hobject'.1
    cases hentries
    rfl
  | loop h' _ hmem => exact absurd (h'.endless hmem) (hw.not_endless hstop)
  | broken h' hbreaks =>
    obtain ⟨rfl, rfl⟩ := hw.unique hstop h' fun _ _ => hbreaks.not_leadsOn
    exact absurd hbreaks hobject.not_breaks

/-- A walk that can break off does so there. -/
theorem eq_broken (h : d.Outcome v pointer outcome) (hw : d.Follows v targets w)
    (hbreaks : d.Breaks (targets.getLastD pointer) w halt) : outcome = .error halt := by
  have hstop : ∀ target u, ¬ d.LeadsOn w target u := fun _ _ => hbreaks.not_leadsOn
  cases h with
  | object h' hobject =>
    obtain ⟨rfl, rfl⟩ := hw.unique hstop h' fun _ _ => hobject.not_leadsOn
    exact absurd hbreaks hobject.not_breaks
  | loop h' _ hmem => exact absurd (h'.endless hmem) (hw.not_endless hstop)
  | broken h' hbreaks' =>
    obtain ⟨rfl, rfl⟩ := hw.unique hstop h' fun _ _ => hbreaks'.not_leadsOn
    rw [hbreaks.unique hbreaks']

/-- A walk without an end comes to a loop. -/
theorem exists_loop (h : d.Outcome v pointer outcome) (hendless : d.Endless v) :
    ∃ target chain, outcome = .error (.error (.cyclicSchema target chain)) := by
  cases h with
  | object h' hobject => exact absurd hendless (h'.not_endless fun _ _ => hobject.not_leadsOn)
  | loop => exact ⟨_, _, rfl⟩
  | broken h' hbreaks => exact absurd hendless (h'.not_endless fun _ _ => hbreaks.not_leadsOn)

/-- A walk that leads neither to an object nor on without an end breaks off, with an error if it can be shown. -/
theorem exists_unresolved (h : d.Outcome v pointer outcome)
    (hends : ¬ ∃ targets w entries, d.Follows v targets w ∧ d.IsObject w entries) (hendless : ¬ d.Endless v)
    (hshown : ¬ d.EndsUnwritable v) :
    ∃ target fault, outcome = .error (.error (.unresolvedReference target fault)) := by
  cases h with
  | object h' hobject => exact absurd ⟨_, _, _, h', hobject⟩ hends
  | loop h' _ hmem => exact absurd (h'.endless hmem) hendless
  | broken h' hbreaks =>
    rcases hbreaks.exists_eq with ⟨target, fault, rfl⟩ | ⟨-, reference, href, hnone⟩
    · exact ⟨target, fault, rfl⟩
    · exact absurd ⟨_, _, reference, h', href, hnone⟩ hshown

/-- An object that a walk came to is what the references end at. -/
theorem follows_of_ok {found : String} (h : d.Outcome v pointer (.ok (entries, w, found))) :
    ∃ targets, d.Follows v targets w ∧ d.IsObject w entries ∧ found = targets.getLastD pointer := by
  cases h with
  | object h' hobject => exact ⟨_, h', hobject, rfl⟩

/-- A loop that a walk came to consists of references that were followed, the last one twice. -/
theorem follows_of_cyclic {chain : List String}
    (h : d.Outcome v pointer (.error (.error (.cyclicSchema target chain)))) :
    ∃ earlier w, chain = earlier ++ [target] ∧ earlier.Nodup ∧ target ∈ earlier ∧ d.Follows v chain w := by
  cases h with
  | loop h' hnodup hmem => exact ⟨_, _, rfl, hnodup, hmem, h'⟩
  | broken _ hbreaks =>
    rcases hbreaks.exists_eq with ⟨_, _, heq⟩ | ⟨heq, -⟩ <;> cases heq

/-- A reference that a walk came to and that leads nowhere is what is wrong where the walk breaks off. -/
theorem follows_of_unresolved {fault : ReferenceFault}
    (h : d.Outcome v pointer (.error (.error (.unresolvedReference target fault)))) :
    ∃ targets w, d.Follows v targets w ∧
      d.Breaks (targets.getLastD pointer) w (.error (.unresolvedReference target fault)) := by
  cases h with
  | broken h' hbreaks => exact ⟨_, _, h', hbreaks⟩

/-- Only a reference that cannot be shown breaks the run off. -/
theorem endsUnwritable_of_breakdown {b : Breakdown} (h : d.Outcome v pointer (.error (.breakdown b))) :
    b = .numberTooLong ∧ d.EndsUnwritable v := by
  cases h with
  | broken h' hbreaks =>
    rcases hbreaks.exists_eq with ⟨_, _, heq⟩ | ⟨heq, reference, href, hnone⟩
    · cases heq
    · cases heq
      exact ⟨rfl, _, _, reference, h', href, hnone⟩

end Outcome

/-- A way to where something is wrong does not lead to an object. -/
theorem Follows.not_exists_object (h : d.Follows v targets w) (hbreaks : d.Breaks pointer w halt) :
    ¬ ∃ targets u entries, d.Follows v targets u ∧ d.IsObject u entries := by
  intro ⟨_, _, _, hfollows, hobject⟩
  obtain ⟨-, rfl⟩ := h.unique (fun _ _ => hbreaks.not_leadsOn) hfollows fun _ _ => hobject.not_leadsOn
  exact hobject.not_breaks hbreaks

end Document

namespace Resolver

open Document (Outcome reference?_of_entries?)

variable {d : Document} {v : Value} {pointer : String}

/-- After some references were followed, the others are followed until the walk comes to something. -/
theorem outcome_followObject {fuel : Nat} {chain : List String} {raw : Value}
    (h : d.Follows v chain.reverse raw) (hnodup : chain.Nodup) (hfuel : d.graph.size < fuel + chain.length) :
    Outcome d v pointer (followObject d fuel chain raw (chain.reverse.getLastD pointer)) := by
  -- by induction on the fuel; as no text is followed twice, it is not used up
  induction fuel generalizing chain raw with
  | zero =>
    have hsub : chain ⊆ d.graph.references := by
      intro target htarget
      exact h.subset_references (List.mem_reverse.2 htarget)
    have hlength := Graph.length_le_of_references hnodup hsub
    omega
  | succ fuel ih =>
    rw [followObject]
    cases hentries : d.graph.entries? raw with
    | none => exact .broken h (.notMapping hentries)
    | some entries =>
      have hreference := reference?_of_entries? hentries
      dsimp only
      split
      · rename_i hnone
        exact .object h ⟨hentries, hreference.trans hnone⟩
      · rename_i target href
        have hrefers : d.Refers raw target := hreference.trans href
        by_cases hmem : target ∈ chain
        · obtain ⟨next, hnext⟩ := h.exists_find (List.mem_reverse.2 hmem)
          rw [if_pos (List.contains_iff_mem.2 hmem), List.reverse_cons]
          have hagain : d.Follows v (chain.reverse ++ [target]) next :=
            h.append (.step ⟨hrefers, hnext⟩ .here)
          exact .loop hagain (List.nodup_reverse.2 hnodup) (List.mem_reverse.2 hmem)
        · rw [if_neg fun hcontains => hmem (List.contains_iff_mem.1 hcontains)]
          cases hfind : d.find target with
          | error e => exact .broken h (Document.breaks_of_find hrefers hfind)
          | ok next =>
            dsimp only
            have hnext : d.Follows v (target :: chain).reverse next := by
              rw [List.reverse_cons]
              exact h.append (.step ⟨hrefers, hfind⟩ .here)
            have hlast : (target :: chain).reverse.getLastD pointer = target := by
              simp
            have hlater := ih hnext (List.nodup_cons.2 ⟨hmem, hnodup⟩) (by rw [List.length_cons]; omega)
            rwa [hlast] at hlater
      · rename_i other hother href
        have htext : other.text? = none := by
          cases other with
          | container id => rfl
          | scalar s =>
            cases s with
            | text target => exact absurd rfl (hother target)
            | _ => rfl
        exact .broken h (Document.breaks_of_misreference (hreference.trans href) htext)

/-- An object is found at the end of its references, or these break or come back. -/
theorem outcome_resolveObject (r : Resolver) (raw : Value) (pointer : String) :
    Outcome r.document raw pointer (r.resolveObject raw pointer) :=
  outcome_followObject .here List.nodup_nil (Nat.lt_succ_self _)

/-- An object behind references is what they end at. -/
theorem exists_follows_of_resolveObject {r : Resolver} {raw : Value} {entries : List (Scalar × Value)} {found : String}
    (h : r.resolveObject raw pointer = .ok (entries, v, found)) :
    ∃ targets, r.document.Follows raw targets v ∧ r.document.IsObject v entries ∧
      found = targets.getLastD pointer :=
  (h ▸ outcome_resolveObject r raw pointer).follows_of_ok

/-- Following references from a value gives the object that they end at, with the last of them as its pointer; if there
was none, with that of the value itself. It gives a loop exactly if they never end, with those that were followed until
one came again; and in all other cases, and only then, what is wrong where they break off. That is an error, unless they
break off at a reference without a text: exactly then the run breaks off as well. -/
theorem resolveObject_follows (r : Resolver) (raw : Value) (pointer : String) :
    (∀ entries v found, r.resolveObject raw pointer = .ok (entries, v, found) ↔
      ∃ targets, r.document.Follows raw targets v ∧ r.document.IsObject v entries ∧
        found = targets.getLastD pointer) ∧
      (∀ entries v found, r.resolveObject raw pointer = .ok (entries, v, found) →
        r.document.find pointer = .ok raw → r.document.find found = .ok v) ∧
      ((∃ target chain, r.resolveObject raw pointer = .error (.error (.cyclicSchema target chain))) ↔
        r.document.Endless raw) ∧
      (∀ target chain, r.resolveObject raw pointer = .error (.error (.cyclicSchema target chain)) →
        ∃ earlier v, chain = earlier ++ [target] ∧ earlier.Nodup ∧ target ∈ earlier ∧
          r.document.Follows raw chain v) ∧
      (∀ target fault, r.resolveObject raw pointer = .error (.error (.unresolvedReference target fault)) ↔
        ∃ targets v, r.document.Follows raw targets v ∧
          r.document.Breaks (targets.getLastD pointer) v (.error (.unresolvedReference target fault))) ∧
      ((∃ target fault, r.resolveObject raw pointer = .error (.error (.unresolvedReference target fault))) ↔
        (¬ ∃ targets v entries, r.document.Follows raw targets v ∧ r.document.IsObject v entries) ∧
          ¬ r.document.Endless raw ∧ ¬ r.document.EndsUnwritable raw) ∧
      (∀ b, r.resolveObject raw pointer = .error (.breakdown b) ↔
        b = .numberTooLong ∧ r.document.EndsUnwritable raw) := by
  have h := outcome_resolveObject r raw pointer
  have hbroken {b : Breakdown} (hb : b = .numberTooLong ∧ r.document.EndsUnwritable raw) :
      r.resolveObject raw pointer = .error (.breakdown b) := by
    obtain ⟨rfl, targets, w, reference, hw, href, hnone⟩ := hb
    exact h.eq_broken hw (.unwritable href hnone)
  refine ⟨fun entries v found => ⟨exists_follows_of_resolveObject, fun ⟨targets, hv, hobject, hfound⟩ => ?_⟩,
    fun entries v found hok hraw => ?_, ⟨fun ⟨target, chain, herror⟩ => ?_, h.exists_loop⟩,
    fun target chain herror => ?_,
    fun target fault => ⟨fun herror => ?_, fun ⟨targets, v, hv, hbreaks⟩ => h.eq_broken hv hbreaks⟩,
    ⟨fun ⟨target, fault, herror⟩ => ?_, fun ⟨hends, hendless, hshown⟩ => h.exists_unresolved hends hendless hshown⟩,
    fun b => ⟨fun herror => ?_, hbroken⟩⟩
  · rw [h.eq_object hv hobject, hfound]
  · obtain ⟨targets, hfollows, -, rfl⟩ := exists_follows_of_resolveObject hok
    exact hfollows.find_getLastD hraw
  · rw [herror] at h
    obtain ⟨earlier, v, rfl, -, hmem, hfollows⟩ := h.follows_of_cyclic
    exact hfollows.endless hmem
  · rw [herror] at h
    exact h.follows_of_cyclic
  · rw [herror] at h
    exact h.follows_of_unresolved
  · rw [herror] at h
    obtain ⟨targets, v, hfollows, hbreaks⟩ := h.follows_of_unresolved
    refine ⟨hfollows.not_exists_object hbreaks, hfollows.not_endless fun _ _ => hbreaks.not_leadsOn, fun hends => ?_⟩
    have hshown := hbroken ⟨rfl, hends⟩
    rw [herror] at hshown
    cases hshown
  · rw [herror] at h
    exact h.endsUnwritable_of_breakdown

/-- A reference to itself in another spelling: its place in the list has a zero in front. -/
example :
    let refers : Container := .mapping [(.text "$ref", .scalar (.text "#/parts/00"))]
    let d : Document := ⟨⟨#[.mapping [(.text "parts", .container 1)], .list [.container 2], refers]⟩, .container 0⟩
    d.find "#/parts/0" = .ok (.container 2) ∧
      Resolver.resolveObject ⟨d, []⟩ (.container 2) "#/parts/0" =
        .error (.error (.cyclicSchema "#/parts/00" ["#/parts/00", "#/parts/00"])) := by
  decide

end Resolver

end RouteBinding
