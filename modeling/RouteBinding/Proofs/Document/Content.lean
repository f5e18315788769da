import RouteBinding.Document.Content
import RouteBinding.Json.Reader
import RouteBinding.Proofs.Data.Graph
import RouteBinding.Proofs.Outcome
import RouteBinding.Yaml.Reader

/-!
# Mappings in documents

In the document of a text no mapping holds a text as a key twice, whatever the format of the text
(`Document.distinctKeys_of_ofText`). The tree of a JSON text holds none (`Json.distinctKeys_of_read`). In a YAML text
every step that makes values keeps it so (`Yaml.Construct.Keeps`), and a mapping is filled with entries that are merged.
-/

namespace RouteBinding.Json

variable {s rest : List Char}

/-- A scalar of a JSON text has no keys at all. -/
theorem distinctKeys_of_readScalar {t : Tree} (h : readScalar s = .ok (t, rest)) :
    t.DistinctKeys := by
  unfold readScalar at h
  split at h
  · cases h
    exact .scalar
  · obtain ⟨found, -, hfound⟩ := map_eq_ok.1 h
    cases hfound
    exact .scalar

/-- What is read with some fuel has distinct keys. -/
structure ReadsDistinct (fuel : Nat) : Prop where
  value : ∀ s t rest, readValue fuel s = .ok (t, rest) → t.DistinctKeys
  items : ∀ s items rest, readItems fuel s = .ok (items, rest) → ∀ t ∈ items, t.DistinctKeys
  members : ∀ s entries rest, readMembers fuel s = .ok (entries, rest) →
    ∀ t ∈ entries.map (·.2), t.DistinctKeys

variable {fuel : Nat}

/-- A value has distinct keys if what is read inside it has. -/
theorem ReadsDistinct.value_succ (h : ReadsDistinct fuel) {t : Tree}
    (ht : readValue (fuel + 1) s = .ok (t, rest)) : t.DistinctKeys := by
  rw [readValue.eq_def] at ht
  dsimp only at ht
  split at ht
  · obtain ⟨found, -, hfound⟩ := map_eq_ok.1 ht
    cases hfound
    exact .scalar
  · split at ht
    · cases ht
      exact .list fun _ hmem => (List.not_mem_nil hmem).elim
    · obtain ⟨found, hitems, hfound⟩ := map_eq_ok.1 ht
      cases hfound
      exact .list (h.items _ _ _ hitems)
  · split at ht
    · cases ht
      exact .mapping List.nodup_nil fun _ hmem => (List.not_mem_nil hmem).elim
    · obtain ⟨found, hmembers, hfound⟩ := map_eq_ok.1 ht
      cases hfound
      refine .mapping (nodup_keyTexts_mergeEntries _) fun t hmem => ?_
      exact h.members _ _ _ hmembers t (mem_values_mergeEntries hmem)
  · exact distinctKeys_of_readScalar ht

/-- The items of a list have distinct keys if what is read inside them has. -/
theorem ReadsDistinct.items_succ (h : ReadsDistinct fuel) {items : List Tree}
    (hitems : readItems (fuel + 1) s = .ok (items, rest)) : ∀ t ∈ items, t.DistinctKeys := by
  rw [readItems] at hitems
  split at hitems
  · cases hitems
  · rename_i item rest' hitem
    have hhead := h.value _ _ _ hitem
    split at hitems
    · cases hitems
      exact List.forall_mem_singleton.2 hhead
    · obtain ⟨found, hfound, heq⟩ := map_eq_ok.1 hitems
      cases heq
      exact List.forall_mem_cons.2 ⟨hhead, h.items _ _ _ hfound⟩
    · cases hitems

/-- The values of a record have distinct keys if what is read inside them has. -/
theorem ReadsDistinct.members_succ (h : ReadsDistinct fuel) {entries : List (Scalar × Tree)}
    (hentries : readMembers (fuel + 1) s = .ok (entries, rest)) :
    ∀ t ∈ entries.map (·.2), t.DistinctKeys := by
  rw [readMembers.eq_def] at hentries
  dsimp only at hentries
  split at hentries
  · split at hentries
    · cases hentries
    · split at hentries
      · split at hentries
        · cases hentries
        · rename_i value rest' hvalue
          have hhead := h.value _ _ _ hvalue
          split at hentries
          · cases hentries
            exact List.forall_mem_singleton.2 hhead
          · obtain ⟨found, hfound, heq⟩ := map_eq_ok.1 hentries
            cases heq
            exact List.forall_mem_cons.2 ⟨hhead, h.members _ _ _ hfound⟩
          · cases hentries
      · cases hentries
  · cases hentries

/-- Whatever is read from a JSON text, each of its records has distinct keys. -/
theorem readsDistinct (fuel : Nat) : ReadsDistinct fuel := by
  -- the three readers call each other with less fuel, so that they go together
  induction fuel with
  | zero =>
    refine ⟨fun s t rest h => ?_, fun s items rest h => ?_, fun s entries rest h => ?_⟩
    · rw [readValue] at h
      cases h
    · rw [readItems] at h
      cases h
    · rw [readMembers] at h
      cases h
  | succ fuel ih =>
    exact ⟨fun _ _ _ => ih.value_succ, fun _ _ _ => ih.items_succ, fun _ _ _ => ih.members_succ⟩

/-- In what is read no text is a key twice in one mapping. -/
theorem distinctKeys_of_read {content : String} {t : Tree} (h : read content = .ok t) :
    t.DistinctKeys := by
  unfold read at h
  dsimp only at h
  split at h
  · cases h
  · rename_i value rest hvalue
    split_ifs at h
    cases h
    exact (readsDistinct _).value _ _ _ hvalue

end RouteBinding.Json

namespace RouteBinding.Yaml

namespace Construct

variable {α β : Type} {Q : α → Prop} {R : β → Prop}

/-! ## Steps -/

/-- A step keeps the keys of the mappings made so far distinct, and what it gives is good. -/
def Keeps (x : Construct α) (Q : α → Prop) : Prop :=
  ∀ s a t, s.graph.DistinctKeys → x.run s = .ok (a, t) → t.graph.DistinctKeys ∧ Q a

/-- A value that needs no step keeps what holds of it. -/
theorem keeps_pure {a : α} (h : Q a) : Keeps (pure a) Q := by
  intro s b t hs hx
  cases hx
  exact ⟨hs, h⟩

theorem keeps_throw {e : ReadError} : Keeps (throw e) Q := by
  intro s a t hs hx
  cases hx

/-- One step after another keeps the keys distinct if both do. -/
theorem Keeps.bind {x : Construct α} {f : α → Construct β} (hx : Keeps x Q)
    (hf : ∀ a, Q a → Keeps (f a) R) : Keeps (x >>= f) R := by
  intro s b u hs hb
  rw [StateT.run_bind] at hb
  cases hrun : x.run s with
  | error e =>
    rw [hrun] at hb
    cases hb
  | ok found =>
    obtain ⟨a, t⟩ := found
    rw [hrun] at hb
    obtain ⟨ht, ha⟩ := hx s a t hs hrun
    exact hf a ha t b u ht hb

theorem keeps_get : Keeps get fun s => s.graph.DistinctKeys := by
  intro s a t hs hx
  cases hx
  exact ⟨hs, hs⟩

theorem keeps_set {s : Construction} (h : s.graph.DistinctKeys) : Keeps (set s) fun _ => True := by
  intro _ a t _ hx
  cases hx
  exact ⟨h, trivial⟩

/-- A change of the construction keeps the keys distinct if it does so for every construction. -/
theorem keeps_modify {f : Construction → Construction}
    (h : ∀ s, s.graph.DistinctKeys → (f s).graph.DistinctKeys) : Keeps (modify f) fun _ => True := by
  intro s a t hs hx
  cases hx
  exact ⟨h s hs, trivial⟩

/-- A step for each of a list keeps the keys distinct if every one does. -/
theorem keeps_mapM {f : α → Construct β} (l : List α) (h : ∀ a, Keeps (f a) fun _ => True) :
    Keeps (l.mapM f) fun _ => True := by
  induction l with
  | nil =>
    rw [List.mapM_nil]
    exact keeps_pure trivial
  | cons a rest ih =>
    rw [List.mapM_cons]
    exact (h a).bind fun _ _ => ih.bind fun _ _ => keeps_pure trivial

theorem keeps_forM {f : α → Construct Unit} (l : List α) (h : ∀ a, Keeps (f a) fun _ => True) :
    Keeps (l.forM f) fun _ => True := by
  induction l with
  | nil => exact keeps_pure trivial
  | cons a rest ih => exact (h a).bind fun _ _ => ih

/-! ## Nodes -/

theorem keeps_nodeAt (id : Nat) : Keeps (nodeAt id) fun _ => True := by
  unfold nodeAt
  refine keeps_get.bind fun s _ => ?_
  split
  · exact keeps_pure trivial
  · exact keeps_throw

theorem keeps_findKey? (kind : Tag) (entries : List (Nat × Nat)) :
    Keeps (findKey? kind entries) fun _ => True :=
  keeps_get.bind fun _ _ => keeps_pure trivial

theorem keeps_entriesOf (id : Nat) : Keeps (entriesOf id) fun _ => True := by
  refine (keeps_nodeAt id).bind fun n _ => ?_
  split
  · exact keeps_pure trivial
  · exact keeps_throw

theorem keeps_setEntries (id : Nat) (entries : List (Nat × Nat)) :
    Keeps (setEntries id entries) fun _ => True :=
  (keeps_nodeAt id).bind fun _ _ => keeps_modify fun _ hs => hs

theorem keeps_readKeyAsText (id : Nat) : Keeps (readKeyAsText id) fun _ => True := by
  refine (keeps_nodeAt id).bind fun n _ => ?_
  split_ifs
  · exact keeps_modify fun _ hs => hs
  · exact keeps_pure trivial

/-! ## Merging -/

theorem keeps_takeMerge (id : Nat) : Keeps (takeMerge id) fun _ => True := by
  refine (keeps_entriesOf id).bind fun entries _ => ?_
  refine (keeps_findKey? _ entries).bind fun mark _ => ?_
  split
  · exact (keeps_setEntries id _).bind fun _ _ => keeps_pure trivial
  · exact keeps_pure trivial

theorem keeps_mergedNodes (id : Nat) : Keeps (mergedNodes id) fun _ => True := by
  refine (keeps_nodeAt id).bind fun n _ => ?_
  split
  · exact keeps_pure trivial
  · exact keeps_pure trivial
  · exact keeps_throw

/-- Merging adds to the nodes that are still to be read, not to what has been built. -/
theorem keeps_mergeInto (fuel id : Nat) (merged : List (Nat × Nat)) :
    Keeps (mergeInto fuel id merged) fun _ => True := by
  induction fuel generalizing id merged with
  | zero => exact keeps_pure trivial
  | succ fuel ih =>
    -- what is merged may itself merge other mappings, with less fuel
    have hpart (part : Nat) : Keeps (mergeInto fuel part [] >>= fun _ => entriesOf part)
        fun _ => True :=
      (ih part []).bind fun _ _ => keeps_entriesOf part
    rw [mergeInto]
    refine (keeps_takeMerge id).bind fun found _ => ?_
    cases found with
    | some source =>
      refine (keeps_mergedNodes source).bind fun parts _ => ?_
      exact (keeps_mapM parts hpart).bind fun _ _ => ih id _
    | none =>
      refine (keeps_entriesOf id).bind fun own _ => ?_
      have hkeys : Keeps (own.forM fun e => readKeyAsText e.1) fun _ => True :=
        keeps_forM own fun e => keeps_readKeyAsText e.1
      refine hkeys.bind fun _ _ => ?_
      split_ifs
      · exact keeps_setEntries id _
      · exact keeps_pure trivial

/-! ## Values -/

/-- To remember what a node is built as changes no keys. -/
theorem keeps_remember (id : Nat) (v : Value) : Keeps (remember id v) fun _ => True := by
  refine Keeps.bind (keeps_modify fun s hs => ?_) fun _ _ => keeps_pure trivial
  exact hs

/-- A container that is promised must have distinct keys itself. -/
theorem keeps_promise (id : Nat) {c : Container} (hc : c.DistinctKeys) :
    Keeps (promise id c) fun _ => True :=
  keeps_get.bind fun _ hs => (keeps_set (hs.push hc)).bind fun _ _ => keeps_remember id _

/-- The text of a node is read without building anything. -/
theorem keeps_textWithin (depth id : Nat) : Keeps (textWithin depth id) fun _ => True := by
  induction depth generalizing id with
  | zero => exact keeps_throw
  | succ depth ih =>
    rw [textWithin]
    refine (keeps_nodeAt id).bind fun n _ => ?_
    split
    · exact keeps_pure trivial
    · exact keeps_throw
    · refine (keeps_findKey? _ _).bind fun mark _ => ?_
      split
      · exact ih _
      · exact keeps_throw

theorem keeps_readScalar (id : Nat) (n : Node) : Keeps (readScalar id n) fun _ => True := by
  unfold readScalar
  refine keeps_get.bind fun s _ => (keeps_textWithin _ id).bind fun text _ => ?_
  dsimp only
  split_ifs
  · exact Keeps.bind (Q := fun _ => False) keeps_throw fun _ h => h.elim
  · split
    · exact keeps_pure trivial
    · exact keeps_throw

/-- What a node is built as is built with distinct keys. -/
theorem keeps_valueOf (id : Nat) : Keeps (valueOf id) fun _ => True := by
  refine keeps_get.bind fun s _ => ?_
  split
  · exact keeps_pure trivial
  · refine (keeps_nodeAt id).bind fun n _ => ?_
    split
    · exact keeps_promise id trivial
    · exact keeps_promise id trivial
    · exact keeps_promise id trivial
    · exact keeps_promise id List.nodup_nil
    · exact keeps_promise id trivial
    · exact keeps_throw
    · exact keeps_throw
    · exact keeps_throw
    · exact (keeps_readScalar id n).bind fun _ _ => keeps_remember id _

/-- A key is built like any value. -/
theorem keeps_keyOf (id : Nat) : Keeps (keyOf id) fun _ => True := by
  refine (keeps_valueOf id).bind fun v _ => ?_
  split
  · exact keeps_pure trivial
  · exact keeps_throw

theorem keeps_listOf (id : Nat) : Keeps (listOf id) fun _ => True := by
  refine (keeps_nodeAt id).bind fun n _ => ?_
  split
  · exact keeps_mapM _ keeps_valueOf
  · exact keeps_throw

/-- A mapping is filled with entries that are merged. -/
theorem keeps_mappingOf (id : Nat) : Keeps (mappingOf id) fun es => (keyTexts es).Nodup := by
  refine keeps_get.bind fun s _ => (keeps_mergeInto _ id []).bind fun _ _ => ?_
  refine (keeps_entriesOf id).bind fun entries _ => ?_
  refine (keeps_mapM entries fun e => ?_).bind fun es _ => ?_
  · refine (keeps_keyOf e.1).bind fun key _ => (keeps_valueOf e.2).bind fun v _ => ?_
    exact keeps_pure trivial
  · exact keeps_pure (nodup_keyTexts_mergeEntries es)

theorem keeps_pairOf (id : Nat) : Keeps (pairOf id) fun _ => True := by
  refine (keeps_entriesOf id).bind fun entries _ => ?_
  split
  · refine (keeps_valueOf _).bind fun key _ => (keeps_valueOf _).bind fun value _ => ?_
    refine keeps_get.bind fun s hs => ?_
    have hpush : (s.graph.push (.pair key value)).1.DistinctKeys := hs.push trivial
    exact (keeps_set hpush).bind fun _ _ => keeps_pure trivial
  · exact keeps_throw

/-- The pairs of a list of pairs are built like any values. -/
theorem keeps_pairsOf (id : Nat) : Keeps (pairsOf id) fun _ => True := by
  refine (keeps_nodeAt id).bind fun n _ => ?_
  split
  · exact keeps_mapM _ keeps_pairOf
  · exact keeps_throw

/-- The contents of a node have distinct keys, since entries of one key become one. -/
theorem keeps_contentsOf (id : Nat) : Keeps (contentsOf id) Container.DistinctKeys := by
  refine (keeps_nodeAt id).bind fun n _ => ?_
  split
  · exact (keeps_listOf id).bind fun _ _ => keeps_pure trivial
  · exact (keeps_pairsOf id).bind fun _ _ => keeps_pure trivial
  · exact (keeps_pairsOf id).bind fun _ _ => keeps_pure trivial
  · exact (keeps_mappingOf id).bind fun _ _ => keeps_pure trivial
  · exact (keeps_mappingOf id).bind fun _ hes => keeps_pure hes

/-- Every container that waits is filled with contents of distinct keys. -/
theorem keeps_fillWaiting (fuel : Nat) : Keeps (fillWaiting fuel) fun _ => True := by
  induction fuel with
  | zero => exact keeps_pure trivial
  | succ fuel ih =>
    rw [fillWaiting]
    refine keeps_get.bind fun s _ => ?_
    dsimp only
    split_ifs
    · exact keeps_pure trivial
    · refine Keeps.bind (keeps_modify fun t ht => ?_) fun _ _ => ?_
      · exact ht
      refine (keeps_forM _ fun e => ?_).bind fun _ _ => ih
      exact (keeps_contentsOf e.1).bind fun c hc => keeps_modify fun t ht => ht.set hc e.2

/-- The whole of a stream is built with distinct keys. -/
theorem keeps_rootValue (root : Nat) : Keeps (rootValue root) fun _ => True := by
  refine (keeps_valueOf root).bind fun v _ => keeps_get.bind fun s _ => ?_
  exact (keeps_fillWaiting _).bind fun _ _ => keeps_pure trivial

end Construct

/-- The document of a YAML stream has distinct keys. -/
theorem distinctKeys_of_document {g : NodeGraph} {d : Document} (h : g.document = .ok d) :
    d.graph.DistinctKeys := by
  unfold NodeGraph.document at h
  split at h
  · cases h
    exact Graph.distinctKeys_empty
  · rename_i root hroot
    dsimp only at h
    obtain ⟨⟨v, s⟩, hrun, hpure⟩ := bind_eq_ok.1 h
    cases hpure
    exact (Construct.keeps_rootValue root _ _ _ Graph.distinctKeys_empty hrun).1

/-- In the document of a text no text is a key twice in one mapping. -/
theorem distinctKeys_of_read {content : String} {d : Document} (h : read content = .ok d) :
    d.graph.DistinctKeys := by
  obtain ⟨nodes, -, hdocument⟩ := bind_eq_ok.1 h
  exact distinctKeys_of_document hdocument

end RouteBinding.Yaml

namespace RouteBinding.Document

/-- A tree with distinct keys gives a graph with distinct keys. -/
theorem distinctKeys_ofTree {t : Tree} (h : t.DistinctKeys) : (ofTree t).graph.DistinctKeys :=
  Graph.distinctKeys_empty.ofTree h

/-- What is read as YAML has distinct keys. -/
theorem distinctKeys_of_ofYaml {triedJson : Bool} {content : String} {d : Document}
    (h : ofYaml triedJson content = .ok d) : d.graph.DistinctKeys := by
  unfold ofYaml at h
  split at h
  · rename_i d' hread
    cases h
    exact Yaml.distinctKeys_of_read hread
  · cases h
  · cases h
  · cases h

/-- In the document of a text no text is a key twice in one mapping. -/
theorem distinctKeys_of_ofText {format : Option DataFormat} {content : String} {d : Document}
    (h : ofText format content = .ok d) : d.graph.DistinctKeys := by
  unfold ofText at h
  split at h
  · exact distinctKeys_of_ofYaml h
  · split at h
    · rename_i t hread
      cases h
      exact distinctKeys_ofTree (Json.distinctKeys_of_read hread)
    · cases h
    · split_ifs at h
      exact distinctKeys_of_ofYaml h

end RouteBinding.Document
