import RouteBinding.Proofs.Data.Unfolding
import RouteBinding.Yaml.Reader

/-!
# The value of nodes

A node that describes a tree, with texts as keys and without marks of merging (`Gives`), is made into a value that reads
back as the tree (`exists_document_of_gives`). The containers are made empty and filled level by level; as long as some
are still to be filled, what is known of the others stays as it is (`Construction.Sound`).
-/

namespace RouteBinding.Yaml

variable {nodes : Array Node} {s s' : Construction} {id c depth : Nat} {t : Tree} {v : Value} {x : Scalar}
  {pending : List (Nat × Nat)}

/-! ## Trees of nodes -/

/-- A node stands for a scalar. -/
def IsScalar (nodes : Array Node) (id : Nat) (x : Scalar) : Prop :=
  ∃ tag text, nodes[id]? = some ⟨tag, .scalar text⟩ ∧ scalarOf tag text = .ok x

/-- A node describes a tree in which at most `depth` lists and mappings are one inside another. -/
def Gives (nodes : Array Node) : (depth : Nat) → (id : Nat) → Tree → Prop
  | 0, id, t => ∃ x, IsScalar nodes id x ∧ t = .scalar x
  | depth + 1, id, t =>
    (∃ x, IsScalar nodes id x ∧ t = .scalar x) ∨
      (∃ ids trees, nodes[id]? = some ⟨.sequence, .sequence ids⟩ ∧ List.Forall₂ (Gives nodes depth) ids trees ∧
        t = .list trees) ∨
      ∃ entries fields, nodes[id]? = some ⟨.mapping, .mapping entries⟩ ∧
        List.Forall₂ (fun e f => (∃ key, nodes[e.1]? = some ⟨.text, .scalar key⟩ ∧ f.1 = .text key) ∧
          Gives nodes depth e.2 f.2) entries fields ∧ t = .mapping (mergeEntries fields)

/-- What a node gives is a scalar, a list of what its items give, or a mapping of what its entries give. -/
theorem Gives.cases (h : Gives nodes depth id t) :
    (∃ x, IsScalar nodes id x ∧ t = .scalar x) ∨
      (∃ n ids trees, depth = n + 1 ∧ nodes[id]? = some ⟨.sequence, .sequence ids⟩ ∧
        List.Forall₂ (Gives nodes n) ids trees ∧ t = .list trees) ∨
      ∃ n entries fields, depth = n + 1 ∧ nodes[id]? = some ⟨.mapping, .mapping entries⟩ ∧
        List.Forall₂ (fun e f => (∃ key, nodes[e.1]? = some ⟨.text, .scalar key⟩ ∧ f.1 = .text key) ∧
          Gives nodes n e.2 f.2) entries fields ∧ t = .mapping (mergeEntries fields) := by
  cases depth with
  | zero => exact .inl h
  | succ n =>
    rcases h with h | ⟨ids, trees, h⟩ | ⟨entries, fields, h⟩
    · exact .inl h
    · exact .inr (.inl ⟨n, ids, trees, rfl, h⟩)
    · exact .inr (.inr ⟨n, entries, fields, rfl, h⟩)

/-- A sequence and a mapping are no scalars. -/
theorem not_isScalar {n : Node} (hnode : nodes[id]? = some n) (hn : ∀ text, n.content ≠ .scalar text) (x : Scalar) :
    ¬IsScalar nodes id x := by
  rintro ⟨tag, text, hscalar, -⟩
  cases hnode.symm.trans hscalar
  exact hn text rfl

/-- A text stands for itself. -/
theorem isScalar_text {key : String} (h : nodes[id]? = some ⟨.text, .scalar key⟩) : IsScalar nodes id (.text key) :=
  ⟨.text, key, h, rfl⟩

/-- A scalar is given at every depth. -/
theorem IsScalar.gives (h : IsScalar nodes id x) (depth : Nat) : Gives nodes depth id (.scalar x) := by
  cases depth with
  | zero => exact ⟨x, h, rfl⟩
  | succ depth => exact .inl ⟨x, h, rfl⟩

/-- A node is not two scalars. -/
theorem IsScalar.unique {y : Scalar} (h : IsScalar nodes id x) (h' : IsScalar nodes id y) : x = y := by
  obtain ⟨tag, text, hnode, hx⟩ := h
  obtain ⟨tag', text', hnode', hy⟩ := h'
  cases hnode.symm.trans hnode'
  exact Except.ok.inj (hx.symm.trans hy)

namespace Construction

/-! ## States -/

/-- A node has a value. -/
def Has (s : Construction) (id : Nat) (v : Value) : Prop :=
  s.values[id]? = some (some v)

/-- What the container of a node is filled with: the values of what stands in the node. -/
inductive Holds (s : Construction) (id : Nat) : Container → Prop
  | list (ids : List Nat) (values : List Value) (hnode : s.nodes[id]? = some ⟨.sequence, .sequence ids⟩)
    (hitems : List.Forall₂ s.Has ids values) : Holds s id (.list values)
  | mapping (entries : List (Nat × Nat)) (fields : List (Scalar × Value))
    (hnode : s.nodes[id]? = some ⟨.mapping, .mapping entries⟩)
    (hentries : List.Forall₂ (fun e f => s.Has e.1 (.scalar f.1) ∧ s.Has e.2 f.2) entries fields) :
    Holds s id (.mapping (mergeEntries fields))

/-- The container of a node is filled. -/
def Filled (s : Construction) (id c : Nat) : Prop :=
  ∃ content, s.graph.containers[c]? = some content ∧ s.Holds id content

/-- A container of a node is still to be filled, with what the node describes. -/
structure Owes (s : Construction) (depth : Nat) (p : Nat × Nat) : Prop where
  has : s.Has p.1 (.container p.2)
  gives : ∃ t, Gives s.nodes depth p.1 t

/-- What holds while values are made: every container but those that wait and those in `pending` is filled, and what
waits has at most `depth` levels. No two nodes share a container. -/
structure Sound (s : Construction) (depth : Nat) (pending : List (Nat × Nat)) : Prop where
  size : s.values.size = s.nodes.size
  scalar : ∀ id x, s.Has id (.scalar x) → IsScalar s.nodes id x
  compound : ∀ id c, s.Has id (.container c) → ∀ x, ¬IsScalar s.nodes id x
  isIn : ∀ id c, s.Has id (.container c) → c < s.graph.size
  filled : ∀ id c, s.Has id (.container c) → s.Filled id c ∨ (id, c) ∈ s.waiting ++ pending
  injective : ∀ id id' c, s.Has id (.container c) → s.Has id' (.container c) → id = id'
  waiting : ∀ p ∈ s.waiting, s.Owes depth p

/-- Values are only added. -/
structure Grows (s s' : Construction) : Prop where
  nodes : s'.nodes = s.nodes
  has : ∀ id v, s.Has id v → s'.Has id v
  size : s.graph.size ≤ s'.graph.size
  containers : ∀ c < s.graph.size, s'.graph.containers[c]? = s.graph.containers[c]?

theorem Grows.refl (s : Construction) : s.Grows s :=
  ⟨rfl, fun _ _ h => h, Nat.le_refl _, fun _ _ => rfl⟩

/-- A construction that grows twice has grown. -/
theorem Grows.trans {s'' : Construction} (h : s.Grows s') (h' : s'.Grows s'') : s.Grows s'' := by
  refine ⟨h'.nodes.trans h.nodes, fun i w hw => h'.has i w (h.has i w hw), h.size.trans h'.size, fun c hc => ?_⟩
  rw [h'.containers c (Nat.lt_of_lt_of_le hc h.size), h.containers c hc]

/-- What a container holds for a content it holds as long as no value is forgotten. -/
theorem Holds.mono {content : Container} (h : s.Holds id content) (hnodes : s'.nodes = s.nodes)
    (hhas : ∀ id v, s.Has id v → s'.Has id v) : s'.Holds id content := by
  cases h with
  | list ids values hnode hitems => exact .list ids values (hnodes ▸ hnode) (hitems.imp fun _ _ => hhas _ _)
  | mapping entries fields hnode hentries =>
    exact .mapping entries fields (hnodes ▸ hnode) (hentries.imp fun _ _ h => ⟨hhas _ _ h.1, hhas _ _ h.2⟩)

/-- A container that has been filled stays filled. -/
theorem Filled.of_grows (h : s.Filled id c) (hs : s.Grows s') (hc : c < s.graph.size) : s'.Filled id c := by
  obtain ⟨content, hget, hholds⟩ := h
  exact ⟨content, (hs.containers c hc).trans hget, hholds.mono hs.nodes hs.has⟩

/-- A node that is still owed its contents stays so. -/
theorem Owes.of_grows {p : Nat × Nat} (h : s.Owes depth p) (hs : s.Grows s') : s'.Owes depth p :=
  ⟨hs.has _ _ h.has, hs.nodes ▸ h.gives⟩

/-- With a value for a node. -/
def put (s : Construction) (id : Nat) (v : Value) : Construction :=
  { s with values := s.values.set! id (some v) }

/-- A value that is put is had for its node, and the others are as they were. -/
theorem has_put {i : Nat} {w : Value} (hid : id < s.values.size) :
    (s.put id v).Has i w ↔ (i = id ∧ w = v) ∨ (i ≠ id ∧ s.Has i w) := by
  unfold Has put
  simp only [Array.set!_eq_setIfInBounds, Array.getElem?_setIfInBounds, hid, if_true]
  by_cases hi : id = i
  · simp [hi, eq_comm]
  · simp [hi, Ne.symm hi]

/-- A value is given to a node that has none. -/
theorem grows_put (hid : id < s.values.size) (hnone : ∀ w, ¬s.Has id w) : s.Grows (s.put id v) := by
  refine ⟨rfl, fun i w h => (has_put hid).2 (.inr ⟨?_, h⟩), Nat.le_refl _, fun _ _ => rfl⟩
  rintro rfl
  exact hnone w h

/-- A construction stays sound when a scalar is put for a node that had no value. -/
theorem Sound.put_scalar (h : s.Sound depth pending) (hid : id < s.values.size) (hx : IsScalar s.nodes id x)
    (hnone : ∀ w, ¬s.Has id w) : (s.put id (.scalar x)).Sound depth pending := by
  have hgrows : s.Grows (s.put id (.scalar x)) := grows_put hid hnone
  have hcontainer {i c : Nat} (hi : (s.put id (.scalar x)).Has i (.container c)) : s.Has i (.container c) := by
    rcases (has_put hid).1 hi with ⟨-, hv⟩ | ⟨-, hi⟩
    · cases hv
    · exact hi
  refine ⟨?_, fun i y hi => ?_, fun i c hi => h.compound i c (hcontainer hi), fun i c hi => h.isIn i c (hcontainer hi),
    fun i c hi => ?_, fun i j c hi hj => h.injective i j c (hcontainer hi) (hcontainer hj),
    fun p hp => (h.waiting p hp).of_grows hgrows⟩
  · exact (Array.size_setIfInBounds ..).trans h.size
  · rcases (has_put hid).1 hi with ⟨rfl, hv⟩ | ⟨-, hi⟩
    · cases hv
      exact hx
    · exact h.scalar i y hi
  · have hi := hcontainer hi
    exact (h.filled i c hi).imp_left fun hfilled => hfilled.of_grows hgrows (h.isIn i c hi)

/-- With an empty container for a node, which waits. -/
def promised (s : Construction) (id : Nat) (empty : Container) : Construction :=
  { s with graph := (s.graph.push empty).1, waiting := (id, s.graph.size) :: s.waiting }.put id
    (.container s.graph.size)

/-- A promise adds one empty container. -/
theorem size_promised (s : Construction) (id : Nat) (empty : Container) :
    (s.promised id empty).graph.size = s.graph.size + 1 :=
  Array.size_push ..

/-- A construction grows by a promise for a node that had no value. -/
theorem grows_promised (hid : id < s.values.size) (hnone : ∀ w, ¬s.Has id w) (empty : Container) :
    s.Grows (s.promised id empty) := by
  have hput := grows_put (s := { s with graph := (s.graph.push empty).1, waiting := (id, s.graph.size) :: s.waiting })
    (v := .container s.graph.size) hid hnone
  refine ⟨rfl, hput.has, by rw [size_promised]; omega, fun c hc => ?_⟩
  show (s.graph.containers.push empty)[c]? = _
  rw [Array.getElem?_push]
  exact if_neg (Nat.ne_of_lt hc)

/-- A construction stays sound by a promise of what the node gives. -/
theorem Sound.promised (h : s.Sound depth pending) (hid : id < s.values.size) (hgives : Gives s.nodes depth id t)
    (hcompound : ∀ x, ¬IsScalar s.nodes id x) (hnone : ∀ w, ¬s.Has id w) (empty : Container) :
    (s.promised id empty).Sound depth pending := by
  have hgrows := grows_promised hid hnone empty
  -- a container that a node has is the new one or one from before
  have hcases {i c : Nat} (hi : (s.promised id empty).Has i (.container c)) :
      (i = id ∧ c = s.graph.size) ∨ s.Has i (.container c) := by
    rcases (has_put hid).1 hi with ⟨rfl, hv⟩ | ⟨-, hi⟩
    · cases hv
      exact .inl ⟨rfl, rfl⟩
    · exact .inr hi
  have hnew : (s.promised id empty).Has id (.container s.graph.size) := (has_put hid).2 (.inl ⟨rfl, rfl⟩)
  refine ⟨?_, fun i y hi => ?_, fun i c hi => ?_, fun i c hi => ?_, fun i c hi => ?_, fun i j c hi hj => ?_,
    fun p hp => ?_⟩
  · exact (Array.size_setIfInBounds ..).trans h.size
  · rcases (has_put hid).1 hi with ⟨-, hv⟩ | ⟨-, hi⟩
    · cases hv
    · exact h.scalar i y hi
  · rcases hcases hi with ⟨rfl, -⟩ | hi
    · exact hcompound
    · exact h.compound i c hi
  · have hsize := s.size_promised id empty
    rcases hcases hi with ⟨-, rfl⟩ | hi
    · omega
    · have hlt := h.isIn i c hi
      omega
  · rcases hcases hi with ⟨rfl, rfl⟩ | hi
    · exact .inr List.mem_cons_self
    · exact (h.filled i c hi).imp (fun hfilled => hfilled.of_grows hgrows (h.isIn i c hi)) (List.mem_cons_of_mem _)
  · rcases hcases hi with ⟨hi, hc⟩ | hi' <;> rcases hcases hj with ⟨hj, hc'⟩ | hj'
    · rw [hi, hj]
    · exact absurd (hc ▸ h.isIn j c hj') (Nat.lt_irrefl _)
    · exact absurd (hc' ▸ h.isIn i c hi') (Nat.lt_irrefl _)
    · exact h.injective i j c hi' hj'
  · rcases List.mem_cons.1 hp with rfl | hp
    · exact ⟨hnew, t, hgives⟩
    · exact (h.waiting p hp).of_grows hgrows

/-- What waits is no scalar, so that it has a level. -/
theorem Sound.waiting_eq_nil (h : s.Sound 0 pending) : s.waiting = [] := by
  refine List.eq_nil_iff_forall_not_mem.2 fun p hp => ?_
  obtain ⟨hhas, t, x, hx, -⟩ := h.waiting p hp
  exact h.compound _ _ hhas x hx

/-- With contents in a container. -/
def fill (s : Construction) (c : Nat) (content : Container) : Construction :=
  { s with graph := ⟨s.graph.containers.set! c content⟩ }

/-- When a container is filled, the others stay as they are. -/
theorem Sound.fill {content : Container} (h : s.Sound depth ((id, c) :: pending)) (hhas : s.Has id (.container c))
    (hholds : s.Holds id content) : (s.fill c content).Sound depth pending := by
  have hmono {i : Nat} {found : Container} (hi : s.Holds i found) : (s.fill c content).Holds i found :=
    hi.mono rfl fun _ _ h => h
  have hget (c' : Nat) (hc' : c' < s.graph.size) : (s.fill c content).graph.containers[c']? =
      if c = c' then some content else s.graph.containers[c']? := by
    show (s.graph.containers.setIfInBounds c content)[c']? = _
    rw [Array.getElem?_setIfInBounds]
    split_ifs with hsame hin
    · rfl
    · exact absurd (hsame ▸ hc') hin
    · rfl
  have hsize : (s.fill c content).graph.size = s.graph.size := Array.size_setIfInBounds ..
  refine ⟨h.size, h.scalar, h.compound, fun i c' hi => ?_, fun i c' hi => ?_, h.injective,
    fun p hp => ⟨(h.waiting p hp).has, (h.waiting p hp).gives⟩⟩
  · rw [hsize]
    exact h.isIn i c' hi
  · have hlt := h.isIn i c' hi
    by_cases hsame : c = c'
    · subst hsame
      obtain rfl := h.injective i id c hi hhas
      exact .inl ⟨content, by rw [hget c hlt, if_pos rfl], hmono hholds⟩
    · refine (h.filled i c' hi).imp ?_ fun hmem => ?_
      · rintro ⟨found, hfound, hi⟩
        exact ⟨found, by rw [hget c' hlt, if_neg hsame, hfound], hmono hi⟩
      · rcases List.mem_append.1 hmem with hmem | hmem
        · exact List.mem_append_left _ hmem
        · rcases List.mem_cons.1 hmem with heq | hmem
          · exact absurd (Prod.mk.inj heq).2.symm hsame
          · exact List.mem_append_right _ hmem

end Construction

namespace Construct

open Construction

/-! ## Values -/

theorem run_get_bind {α : Type} (f : Construction → Construct α) (s : Construction) :
    (get >>= f).run s = (f s).run s :=
  rfl

theorem run_nodeAt {n : Node} (h : s.nodes[id]? = some n) : (nodeAt id).run s = .ok (n, s) := by
  rw [nodeAt, run_get_bind]
  simp only [h]
  rfl

/-- A node that has a value is built as that one. -/
theorem run_valueOf_of_has (h : s.Has id v) : (valueOf id).run s = .ok (v, s) := by
  have hjoin : (s.values[id]?).join = some v := by rw [h]; rfl
  rw [valueOf, run_get_bind]
  simp only [hjoin]
  rfl

/-- A node without a value has none. -/
theorem not_has (h : (s.values[id]?).join = none) (w : Value) : ¬s.Has id w := by
  intro hw
  rw [hw] at h
  cases h

/-- A node without a value is read by its kind. -/
theorem run_valueOf_sequence {content : Content} (hnone : (s.values[id]?).join = none)
    (h : s.nodes[id]? = some ⟨.sequence, content⟩) :
    (valueOf id).run s = .ok (.container s.graph.size, s.promised id (.list [])) := by
  rw [valueOf, run_get_bind]
  simp only [hnone]
  rw [run_bind_ok (run_nodeAt h)]
  rfl

/-- A mapping that has not been built yet is promised, to be filled later. -/
theorem run_valueOf_mapping {content : Content} (hnone : (s.values[id]?).join = none)
    (h : s.nodes[id]? = some ⟨.mapping, content⟩) :
    (valueOf id).run s = .ok (.container s.graph.size, s.promised id (.mapping [])) := by
  rw [valueOf, run_get_bind]
  simp only [hnone]
  rw [run_bind_ok (run_nodeAt h)]
  rfl

/-- A scalar is read by its tag, and nothing else changes. -/
theorem run_readScalar {tag : Tag} {text : String} (h : s.nodes[id]? = some ⟨tag, .scalar text⟩)
    (hx : scalarOf tag text = .ok x) : (readScalar id ⟨tag, .scalar text⟩).run s = .ok (x, s) := by
  have htext (n : Nat) : (textWithin (n + 1) id).run s = .ok (text, s) := by
    rw [textWithin, run_bind_ok (run_nodeAt h)]
    rfl
  rw [readScalar, run_get_bind, run_bind_ok (htext _)]
  simp [hx]
  rfl

/-- A scalar that has not been built yet is read and put. -/
theorem run_valueOf_scalar (hnone : (s.values[id]?).join = none) (h : IsScalar s.nodes id x) :
    (valueOf id).run s = .ok (.scalar x, s.put id (.scalar x)) := by
  obtain ⟨tag, text, hnode, hx⟩ := h
  have hread := run_readScalar hnode hx
  have hremember : (readScalar id ⟨tag, .scalar text⟩ >>= fun x => remember id (.scalar x)).run s =
      .ok (.scalar x, s.put id (.scalar x)) := by
    rw [run_bind_ok hread]
    rfl
  rw [valueOf, run_get_bind]
  simp only [hnone]
  rw [run_bind_ok (run_nodeAt hnode)]
  -- only the kinds of scalars have scalars as their values
  cases tag with
  | null | bool | int | float | timestamp | binary | text => exact hremember
  | _ => cases hx

/-- A step makes values, and what is known stays known. -/
def Makes {α : Type} (s : Construction) (depth : Nat) (pending : List (Nat × Nat)) (y : Construct α)
    (Q : Construction → α → Prop) : Prop :=
  ∃ a s', y.run s = .ok (a, s') ∧ s'.Sound depth pending ∧ s.Grows s' ∧ Q s' a

/-- A result that needs no step is made of a sound construction. -/
theorem makes_pure {α : Type} {Q : Construction → α → Prop} {a : α} (h : s.Sound depth pending) (hQ : Q s a) :
    Makes s depth pending (pure a) Q :=
  ⟨a, s, rfl, h, .refl s, hQ⟩

/-- What is made of what was made before is made by both steps. -/
theorem Makes.bind {α β : Type} {y : Construct α} {f : α → Construct β} {Q : Construction → α → Prop}
    {R : Construction → β → Prop} (h : Makes s depth pending y Q)
    (hf : ∀ a s', s'.Sound depth pending → s.Grows s' → Q s' a → Makes s' depth pending (f a) R) :
    Makes s depth pending (y >>= f) R := by
  obtain ⟨a, s', hy, hs', hgrows, hQ⟩ := h
  obtain ⟨b, s'', hfa, hs'', hgrows', hR⟩ := hf a s' hs' hgrows hQ
  exact ⟨b, s'', by rw [run_bind_ok hy, hfa], hs'', hgrows.trans hgrows', hR⟩

/-- What is made for each of a list is made for the list, if nothing later undoes it. -/
theorem makes_mapM {α β : Type} {f : α → Construct β} {Q : Construction → α → β → Prop} {l : List α}
    (hmono : ∀ {s s' a b}, Construction.Grows s s' → Q s a b → Q s' a b) (h : s.Sound depth pending)
    (hf : ∀ a ∈ l, ∀ s', s'.Sound depth pending → s.Grows s' → Makes s' depth pending (f a) fun s b => Q s a b) :
    Makes s depth pending (l.mapM f) fun s bs => List.Forall₂ (Q s) l bs := by
  induction l generalizing s with
  | nil =>
    rw [List.mapM_nil]
    exact makes_pure h .nil
  | cons a l ih =>
    rw [List.mapM_cons]
    refine (hf a List.mem_cons_self s h (.refl s)).bind fun b s' hs' hgrows hb => ?_
    refine (ih hs' fun a' ha' s'' hs'' hgrows' => ?_).bind fun bs s'' hs'' hgrows' hbs => ?_
    · exact hf a' (List.mem_cons_of_mem a ha') s'' hs'' (hgrows.trans hgrows')
    · exact makes_pure hs'' (.cons (hmono hgrows' hb) hbs)

/-- A node that describes a tree has a value, which is made if there is none yet. -/
theorem makes_valueOf (h : s.Sound depth pending) (hgives : Gives s.nodes depth id t) :
    Makes s depth pending (valueOf id) fun s v => s.Has id v := by
  cases hnone : (s.values[id]?).join with
  | some v =>
    have hv : s.Has id v := by simpa [Has, Option.join_eq_some_iff] using hnone
    exact ⟨v, s, run_valueOf_of_has hv, h, .refl s, hv⟩
  | none =>
    have hid {n : Node} (hnode : s.nodes[id]? = some n) : id < s.values.size := by
      rw [h.size]
      exact (Array.getElem?_eq_some_iff.1 hnode).1
    have hnot := not_has hnone
    rcases hgives.cases with ⟨x, hx, -⟩ | ⟨n, ids, trees, -, hnode, -⟩ | ⟨n, entries, fields, -, hnode, -⟩
    · have hid := hid hx.choose_spec.choose_spec.1
      exact ⟨_, _, run_valueOf_scalar hnone hx, h.put_scalar hid hx hnot, grows_put hid hnot,
        (has_put hid).2 (.inl ⟨rfl, rfl⟩)⟩
    · have hcompound := not_isScalar hnode fun text => nofun
      exact ⟨_, _, run_valueOf_sequence hnone hnode, h.promised (hid hnode) hgives hcompound hnot _,
        grows_promised (hid hnode) hnot _, (has_put (hid hnode)).2 (.inl ⟨rfl, rfl⟩)⟩
    · have hcompound := not_isScalar hnode fun text => nofun
      exact ⟨_, _, run_valueOf_mapping hnone hnode, h.promised (hid hnode) hgives hcompound hnot _,
        grows_promised (hid hnode) hnot _, (has_put (hid hnode)).2 (.inl ⟨rfl, rfl⟩)⟩

/-- A key that is a text. -/
theorem makes_keyOf {key : String} (h : s.Sound depth pending) (hnode : s.nodes[id]? = some ⟨.text, .scalar key⟩) :
    Makes s depth pending (keyOf id) fun s k => k = .text key ∧ s.Has id (.scalar k) := by
  have hscalar := isScalar_text hnode
  refine (makes_valueOf h (hscalar.gives depth)).bind fun v s' hs' hgrows hv => ?_
  rw [← hgrows.nodes] at hscalar
  cases v with
  | scalar x =>
    obtain rfl := (hs'.scalar id x hv).unique hscalar
    exact makes_pure hs' ⟨rfl, hv⟩
  | container c => exact absurd hscalar (hs'.compound id c hv _)

/-! ## Contents -/

section Mapping

variable {entries : List (Nat × Nat)}

/-- The entries of a mapping are those of its node. -/
theorem run_entriesOf {tag : Tag} (hnode : s.nodes[id]? = some ⟨tag, .mapping entries⟩) :
    (entriesOf id).run s = .ok (entries, s) := by
  rw [entriesOf, run_bind_ok (run_nodeAt hnode)]
  rfl

/-- A mapping whose keys are texts merges nothing. -/
theorem run_mergeInto {tag : Tag} (fuel : Nat) (hnode : s.nodes[id]? = some ⟨tag, .mapping entries⟩)
    (hkeys : ∀ e ∈ entries, ∃ key, s.nodes[e.1]? = some ⟨.text, .scalar key⟩) :
    (mergeInto fuel id []).run s = .ok ((), s) := by
  cases fuel with
  | zero => rfl
  | succ fuel =>
    have hfind : (findKey? .merge entries).run s = .ok (none, s) := by
      have hnone : (entries.find? fun e => (s.nodes[e.1]?.map (·.tag)) = some Tag.merge) = none := by
        rw [List.find?_eq_none]
        intro e he
        obtain ⟨key, hkey⟩ := hkeys e he
        simp [hkey]
      rw [findKey?, run_get_bind]
      exact congrArg (fun found => Except.ok (found, s)) hnone
    have htake : (takeMerge id).run s = .ok (none, s) := by
      rw [takeMerge, run_bind_ok (run_entriesOf hnode), run_bind_ok hfind]
      rfl
    have hread : (entries.forM fun e => readKeyAsText e.1).run s = .ok ((), s) := by
      clear hnode hfind htake
      induction entries with
      | nil => rfl
      | cons e rest ih =>
        obtain ⟨⟨key, hkey⟩, hrest⟩ := List.forall_mem_cons.1 hkeys
        have hone : (readKeyAsText e.1).run s = .ok ((), s) := by
          rw [readKeyAsText, run_bind_ok (run_nodeAt hkey), if_neg (by rintro ⟨⟩)]
          rfl
        show (readKeyAsText e.1 >>= fun _ => rest.forM fun e => readKeyAsText e.1).run s = _
        rw [run_bind_ok hone]
        exact ih hrest
    rw [mergeInto, run_bind_ok htake]
    dsimp only
    rw [run_bind_ok (run_entriesOf hnode), run_bind_ok hread]
    rfl

end Mapping

/-- The contents of a container are made of the values of what stands in its node. -/
theorem makes_contentsOf (h : s.Sound depth pending) (hgives : Gives s.nodes (depth + 1) id t)
    (hcompound : ∀ x, ¬IsScalar s.nodes id x) :
    Makes s depth pending (contentsOf id) fun s content => s.Holds id content := by
  rcases hgives with ⟨x, hx, -⟩ | ⟨ids, trees, hnode, hitems, -⟩ | ⟨entries, fields, hnode, hentries, -⟩
  · exact absurd hx (hcompound x)
  · have hlist : Makes s depth pending (ids.mapM valueOf) fun s values => List.Forall₂ s.Has ids values := by
      refine makes_mapM (fun hgrows hv => hgrows.has _ _ hv) h fun i hi s' hs' hgrows => ?_
      obtain ⟨tree, -, hgives⟩ := exists_of_forall₂ hitems hi
      exact makes_valueOf hs' (by rwa [hgrows.nodes])
    obtain ⟨values, s', hrun, hs', hgrows, hvalues⟩ := hlist
    refine ⟨.list values, s', ?_, hs', hgrows, .list ids values (by rwa [hgrows.nodes]) hvalues⟩
    have hlist : (listOf id).run s = .ok (values, s') := by
      rw [listOf, run_bind_ok (run_nodeAt hnode)]
      exact hrun
    rw [contentsOf, run_bind_ok (run_nodeAt hnode)]
    dsimp only
    rw [run_bind_ok hlist]
    rfl
  · have hkeys : ∀ e ∈ entries, ∃ key, s.nodes[e.1]? = some ⟨.text, .scalar key⟩ := by
      intro e he
      obtain ⟨f, -, ⟨key, hkey, -⟩, -⟩ := exists_of_forall₂ hentries he
      exact ⟨key, hkey⟩
    have hfields : Makes s depth pending
        (entries.mapM fun e => do let key ← keyOf e.1; return (key, ← valueOf e.2)) fun s fields =>
          List.Forall₂ (fun e f => s.Has e.1 (.scalar f.1) ∧ s.Has e.2 f.2) entries fields := by
      refine makes_mapM (fun hgrows hv => ⟨hgrows.has _ _ hv.1, hgrows.has _ _ hv.2⟩) h fun e he s' hs' hgrows => ?_
      obtain ⟨f, -, ⟨key, hkey, -⟩, hgives⟩ := exists_of_forall₂ hentries he
      rw [← hgrows.nodes] at hkey hgives
      refine (makes_keyOf hs' hkey).bind fun k s₁ hs₁ hgrows₁ hk => ?_
      refine (makes_valueOf hs₁ (by rwa [hgrows₁.nodes])).bind fun v s₂ hs₂ hgrows₂ hv => ?_
      exact makes_pure hs₂ ⟨hgrows₂.has _ _ hk.2, hv⟩
    obtain ⟨fields, s', hrun, hs', hgrows, hvalues⟩ := hfields
    refine ⟨.mapping (mergeEntries fields), s', ?_, hs', hgrows,
      .mapping entries fields (by rwa [hgrows.nodes]) hvalues⟩
    have hmapping : (mappingOf id).run s = .ok (mergeEntries fields, s') := by
      rw [mappingOf, run_get_bind, run_bind_ok (run_mergeInto _ hnode hkeys),
        run_bind_ok (run_entriesOf hnode), run_bind_ok hrun]
      rfl
    rw [contentsOf, run_bind_ok (run_nodeAt hnode)]
    dsimp only
    rw [run_bind_ok hmapping]
    rfl

/-! ## Filling -/

/-- Fills the container of a node. -/
def fillOne (p : Nat × Nat) : Construct Unit := do
  let content ← contentsOf p.1
  modify fun s => s.fill p.2 content

/-- What is filled one by one: each container with what its node describes. -/
theorem exists_run_fill (h : s.Sound depth pending) (howes : ∀ p ∈ pending, s.Owes (depth + 1) p) :
    ∃ s', (pending.forM fillOne).run s = .ok ((), s') ∧ s'.Sound depth [] ∧ s'.nodes = s.nodes ∧
      ∀ id v, s.Has id v → s'.Has id v := by
  induction pending generalizing s with
  | nil => exact ⟨s, rfl, h, rfl, fun _ _ h => h⟩
  | cons p pending ih =>
    obtain ⟨⟨hhas, t, hgives⟩, hrest⟩ := List.forall_mem_cons.1 howes
    obtain ⟨content, s₁, hrun, hs₁, hgrows, hholds⟩ := makes_contentsOf h hgives (h.compound _ _ hhas)
    have hs₂ : (s₁.fill p.2 content).Sound depth pending := hs₁.fill (hgrows.has _ _ hhas) hholds
    obtain ⟨s', hrun', hs', hnodes, hmono⟩ := ih hs₂ fun q hq =>
      ⟨hgrows.has _ _ (hrest q hq).has, by
        have hgives := (hrest q hq).gives
        rw [← hgrows.nodes] at hgives
        exact hgives⟩
    refine ⟨s', ?_, hs', hnodes.trans hgrows.nodes, fun i v hv => hmono i v (hgrows.has i v hv)⟩
    have hone : (fillOne p).run s = .ok ((), s₁.fill p.2 content) := by
      rw [fillOne, run_bind_ok hrun]
      rfl
    show (fillOne p >>= fun _ => pending.forM fillOne).run s = _
    rw [run_bind_ok hone]
    exact hrun'

/-- What waits is filled within as many rounds as it has levels: each round leaves one level less. -/
theorem exists_run_fillWaiting (fuel : Nat) (h : s.Sound depth []) (hfuel : depth ≤ fuel) :
    ∃ s', (fillWaiting fuel).run s = .ok ((), s') ∧ (∃ depth, s'.Sound depth []) ∧ s'.waiting = [] ∧
      s'.nodes = s.nodes ∧ ∀ id v, s.Has id v → s'.Has id v := by
  induction fuel generalizing s depth with
  | zero =>
    obtain rfl := Nat.le_zero.1 hfuel
    exact ⟨s, rfl, ⟨0, h⟩, h.waiting_eq_nil, rfl, fun _ _ h => h⟩
  | succ fuel ih =>
    cases hwaiting : s.waiting with
    | nil =>
      refine ⟨s, ?_, ⟨depth, h⟩, hwaiting, rfl, fun _ _ h => h⟩
      rw [fillWaiting, run_get_bind, hwaiting]
      rfl
    | cons p rest =>
      obtain ⟨n, rfl⟩ : ∃ n, depth = n + 1 := by
        cases depth with
        | zero => exact absurd h.waiting_eq_nil (by simp [hwaiting])
        | succ n => exact ⟨n, rfl⟩
      let s₀ : Construction := { s with waiting := [] }
      have hs₀ : s₀.Sound n s.waiting.reverse := by
        refine ⟨h.size, h.scalar, h.compound, h.isIn, fun i c hi => ?_, h.injective, List.forall_mem_nil _⟩
        refine (h.filled i c hi).imp ?_ fun hmem => by simpa [s₀] using hmem
        rintro ⟨content, hget, hholds⟩
        exact ⟨content, hget, hholds.mono rfl fun _ _ h => h⟩
      have howes : ∀ p ∈ s.waiting.reverse, s₀.Owes (n + 1) p := fun p hp =>
        ⟨(h.waiting p (List.mem_reverse.1 hp)).has, (h.waiting p (List.mem_reverse.1 hp)).gives⟩
      obtain ⟨s₁, hrun₁, hs₁, hnodes₁, hmono₁⟩ := exists_run_fill hs₀ howes
      obtain ⟨s', hrun', hs', hnone, hnodes', hmono'⟩ := ih hs₁ (Nat.le_of_succ_le_succ hfuel)
      refine ⟨s', ?_, hs', hnone, hnodes'.trans hnodes₁, fun i v hv => hmono' i v (hmono₁ i v hv)⟩
      have hsome : s.waiting.isEmpty = false := by rw [hwaiting]; rfl
      rw [fillWaiting, run_get_bind]
      simp only [hsome]
      rw [if_neg Bool.false_ne_true]
      show (s.waiting.reverse.forM fillOne >>= fun _ => fillWaiting fuel).run s₀ = _
      rw [run_bind_ok hrun₁]
      exact hrun'

end Construct

namespace Construction

/-- In a sound construction the value of a scalar is that scalar. -/
theorem Sound.unfolds_scalar (h : s.Sound depth pending) (hx : IsScalar s.nodes id x) (hv : s.Has id v) :
    s.graph.Unfolds v (.scalar x) := by
  cases v with
  | scalar y =>
    obtain rfl := (h.scalar id y hv).unique hx
    exact s.graph.unfolds_scalar y
  | container c => exact absurd hx (h.compound id c hv x)

/-- Where nothing waits, the value of a node reads back as the tree that the node describes. -/
theorem Sound.unfolds {n : Nat} (h : s.Sound depth []) (hwaiting : s.waiting = []) (hgives : Gives s.nodes n id t)
    (hv : s.Has id v) : s.graph.Unfolds v t := by
  have hfilled (id c : Nat) (hc : s.Has id (.container c)) : s.Filled id c :=
    (h.filled id c hc).resolve_right (by simp [hwaiting])
  induction n generalizing id t v with
  | zero =>
    obtain ⟨x, hx, rfl⟩ := hgives
    exact h.unfolds_scalar hx hv
  | succ n ih =>
    rcases hgives with ⟨x, hx, rfl⟩ | ⟨ids, trees, hnode, hitems, rfl⟩ | ⟨entries, fields, hnode, hentries, rfl⟩
    · exact h.unfolds_scalar hx hv
    · cases v with
      | scalar x => exact absurd (h.scalar id x hv) (not_isScalar hnode (fun _ => nofun) x)
      | container c =>
        obtain ⟨content, hget, hholds⟩ := hfilled id c hv
        cases hholds with
        | list ids' values hnode' hvalues =>
          cases hnode.symm.trans hnode'
          exact .list hget (forall₂_comp hvalues.flip hitems fun v i t hv ht => ih ht hv)
        | mapping entries' fields' hnode' => cases hnode.symm.trans hnode'
    · cases v with
      | scalar x => exact absurd (h.scalar id x hv) (not_isScalar hnode (fun _ => nofun) x)
      | container c =>
        obtain ⟨content, hget, hholds⟩ := hfilled id c hv
        cases hholds with
        | list ids values hnode' => cases hnode.symm.trans hnode'
        | mapping entries' values hnode' hvalues =>
          cases hnode.symm.trans hnode'
          refine .mapping hget (forall₂_mergeEntries (forall₂_comp hvalues.flip hentries ?_))
          rintro e i f ⟨hkey, hvalue⟩ ⟨⟨key, hnode, hf⟩, hgives⟩
          exact ⟨((h.scalar _ _ hkey).unique (isScalar_text hnode)).trans hf.symm, ih hgives hvalue⟩

end Construction

/-! ## Documents -/

/-- The document of nodes reads back as the tree that they describe. -/
theorem exists_document_of_gives {root : Nat} (h : Gives nodes depth root t) (hdepth : depth ≤ nodes.size + 1) :
    ∃ d, NodeGraph.document ⟨nodes, some root⟩ = .ok d ∧ d.graph.toTree? d.root = some t := by
  let s : Construction :=
    ⟨nodes, NodeGraph.entryCount ⟨nodes, some root⟩, .empty, Array.replicate nodes.size none, []⟩
  have hnone (id : Nat) (v : Value) : ¬s.Has id v := by
    intro hv
    have hget : (Array.replicate nodes.size (none : Option Value))[id]? = some (some v) := hv
    rw [Array.getElem?_replicate] at hget
    split_ifs at hget
    cases hget
  have hs : s.Sound depth [] :=
    ⟨Array.size_replicate, fun id x h => absurd h (hnone _ _), fun id c h => absurd h (hnone _ _),
      fun id c h => absurd h (hnone _ _), fun id c h => absurd h (hnone _ _),
      fun id _ c h => absurd h (hnone _ _), List.forall_mem_nil _⟩
  obtain ⟨v, s₁, hroot, hs₁, hgrows, hv⟩ := Construct.makes_valueOf hs h
  have hsize : depth ≤ s₁.nodes.size + 1 := by rwa [hgrows.nodes]
  obtain ⟨s', hfill, ⟨depth', hs'⟩, hwaiting, hnodes, hmono⟩ := Construct.exists_run_fillWaiting _ hs₁ hsize
  have hrun : (Construct.rootValue root).run s = .ok (v, s') := by
    rw [Construct.rootValue, run_bind_ok hroot, Construct.run_get_bind,
      run_bind_ok hfill]
    rfl
  refine ⟨⟨s'.graph, v⟩, ?_, ?_⟩
  · show ((Construct.rootValue root).run s >>= _) = _
    rw [hrun]
    rfl
  · have hgives : Gives s'.nodes depth root t := by rwa [hnodes, hgrows.nodes]
    exact Graph.toTree?_of_unfolds (hs'.unfolds hwaiting hgives (hmono root v hv))

end RouteBinding.Yaml
