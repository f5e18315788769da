import RouteBinding.Proofs.Schema.Recorded

/-!
# The mappings that nodes are read from

A node may be remembered for many mappings: for the one that it was read from, and for every one that leads there by
references. There is one among them that it belongs to (`Resolver.BelongsTo`): the component that it carries the name
of, or, if it is none, the mapping that it says the title of and the kind. What stands inside a node is remembered as
well (`Resolver.Rooted`).
-/

namespace RouteBinding.Resolver

open Course (Runs)

variable {r : Resolver} {s t : State} {trail : Trail} {nodes nodes' : List (Nat × SchemaNode)} {id : Nat}
  {n m : SchemaNode}

/-! ## Components -/

/-- The component that a container is, is bound to it. -/
theorem mem_of_owner? {name : String} (h : r.owner? id = some name) :
    (Scalar.text name, Value.container id) ∈ r.schemas := by
  have hamong (schemas : List (Scalar × Value)) (h : r.ownerAmong id schemas = some name) :
      (Scalar.text name, Value.container id) ∈ schemas := by
    induction schemas with
    | nil => cases h
    | cons e rest ih =>
      obtain ⟨key, value⟩ := e
      cases key with
      | text found =>
        rw [ownerAmong] at h
        split at h
        · rename_i hshape
          split_ifs at h with heq
          · cases h
            rw [eq_container_of_shape hshape, heq]
            exact List.mem_cons_self
          · exact List.mem_cons_of_mem _ (ih h)
        · exact List.mem_cons_of_mem _ (ih h)
      | _ => exact List.mem_cons_of_mem _ (ih h)
  exact hamong r.schemas h

/-! ## Where nodes belong -/

/-- A node belongs to a mapping: it is remembered for it and is the component that the mapping is. If the mapping is
none, it has the title that the node has and is of its kind. -/
structure BelongsTo (r : Resolver) (nodes : List (Nat × SchemaNode)) (n : SchemaNode) (id : Nat) : Prop where
  remembered : nodes.lookup id = some n
  component : n.info.component = r.owner? id
  titled : r.owner? id = none → ∃ reading, r.Reads (.container id) id reading ∧ n.info.title = reading.title ∧
    Layer.Agree (fun _ _ => True) reading.layer n.layer

/-- A node belongs to a mapping, and what stands inside it is remembered. -/
structure Rooted (r : Resolver) (nodes : List (Nat × SchemaNode)) (n : SchemaNode) : Prop where
  inner : ∀ c ∈ n.layer.inner, ∃ id, nodes.lookup id = some c
  root : ∃ id, BelongsTo r nodes n id

theorem BelongsTo.mono (h : Remembered nodes nodes') (hn : BelongsTo r nodes n id) : BelongsTo r nodes' n id :=
  ⟨h id n hn.remembered, hn.component, hn.titled⟩

theorem Rooted.mono (h : Remembered nodes nodes') (hn : Rooted r nodes n) : Rooted r nodes' n where
  inner c hc := (hn.inner c hc).imp fun id hid => h id c hid
  root := hn.root.imp fun _ hid => hid.mono h

/-! ## Rooted nodes -/

/-- A node that is made for a mapping is rooted, and so are those of before. -/
theorem Made.rooted (h : Made r nodes id m) (hnodes : ∀ p ∈ nodes, Rooted r nodes p.2) :
    ∀ p ∈ (id, m) :: nodes, Rooted r ((id, m) :: nodes) p.2 := by
  obtain ⟨hremembered, reading, layer, n, hreads, hagree, hn, hm⟩ := h
  refine List.forall_mem_cons.2 ⟨?_, fun p hp => (hnodes p hp).mono hremembered⟩
  have hlookup : List.lookup id ((id, m) :: nodes) = some m := List.lookup_cons_self
  have hstored {c : SchemaNode} (hc : c ∈ layer.inner) : ∃ id', nodes.lookup id' = some c := by
    obtain ⟨v, -, hv⟩ := hagree.exists_left hc
    cases v with
    | container id' => exact ⟨id', hv⟩
    | scalar value => cases hv
  rcases hn with ⟨reference, rfl⟩ | ⟨hlayer, hcomponent, htitle⟩
  · -- the node of what the reference leads to is rooted already
    obtain ⟨id', hid'⟩ := hstored List.mem_cons_self
    have hrooted := (hnodes _ (mem_of_lookup hid')).mono hremembered
    rcases hm with ⟨rfl, -⟩ | ⟨howner, -, hown, hsame⟩
    · exact hrooted
    · exact ⟨fun c hc => hrooted.inner c (hsame ▸ hc), id, hlookup, hown, fun hnone => absurd hnone howner⟩
  · -- a new node belongs to the mapping that it was read from
    have hinner : ∀ c ∈ m.layer.inner, ∃ id', List.lookup id' ((id, m) :: nodes) = some c := by
      intro c hc
      rw [hm.layer_eq, hlayer] at hc
      exact (hstored hc).imp fun id' hid' => hremembered id' c hid'
    have hsays : Layer.Agree (fun _ _ => True) reading.layer m.layer := by
      rw [hm.layer_eq, hlayer]
      exact hagree.mono fun _ _ _ _ => trivial
    rcases hm with ⟨rfl, howner | hne⟩ | ⟨howner, -, hown, -⟩
    · exact ⟨hinner, id, hlookup, by rw [hcomponent, howner], fun _ => ⟨reading, hreads, htitle, hsays⟩⟩
    · exact absurd hcomponent hne
    · exact ⟨hinner, id, hlookup, hown, fun hnone => absurd hnone howner⟩

/-- A resolver that was asked for a schema holds rooted nodes only, if it did before. -/
theorem rooted_resolve (hrecords : Records r s.nodes) (hs : ∀ p ∈ s.nodes, Rooted r s.nodes p.2) (v : Value)
    (pointer : String) : ∀ p ∈ (r.resolve v pointer s).2.nodes, Rooted r (r.resolve v pointer s).2.nodes p.2 := by
  have hinv : (r.keeping (fun nodes => ∀ p ∈ nodes, Rooted r nodes p.2) []).inv s :=
    ⟨⟨hrecords, fun _ ht => absurd ht List.not_mem_nil⟩, hs⟩
  have hrun : (r.keeping (fun nodes => ∀ p ∈ nodes, Rooted r nodes p.2) []).Runs (r.resolve v pointer) s
      fun n t => nodeOf? t.nodes v = some n :=
    keeping_expandWithin (fun _ _ _ hnodes hmade => hmade.rooted hnodes) _ hinv
  exact hrun.1.2

end RouteBinding.Resolver
