import RouteBinding.Proofs.Operation.Meaning

/-!
# Names in a compiled description

Every name that a definition or an operation of a compiled description mentions is defined in it
(`Compiled.contains_of_mentions`). A reference is typed by the name of a component before the component has its
turn; without errors every component gets it.
-/

namespace RouteBinding

open Compilation

/-- The types that stand in an operation. -/
def Operation.types (op : Operation) : List TypeRef :=
  op.parameters.map (·.type)
    ++ ((op.body.map (·.entries)).getD []).filterMap (·.2.type)
    ++ op.responses.map (·.2)

/-- A name stands in a compiled description: in a definition or in an operation. -/
def CompiledApi.Mentions (api : CompiledApi) (name : String) : Prop :=
  (∃ d ∈ api.types.definitions, ∃ t ∈ d.2.types, t.Mentions name) ∨
    ∃ op ∈ api.operations, ∃ t ∈ op.types, t.Mentions name

/-! ## The types of an operation -/

theorem mem_putResponse {status : String} {ref : TypeRef} {done : List (String × TypeRef)}
    {x : String × TypeRef} (h : x ∈ putResponse status ref done) : x = (status, ref) ∨ x ∈ done := by
  induction done with
  | nil => exact .inl (List.mem_singleton.1 h)
  | cons e rest ih =>
    rw [putResponse] at h
    split_ifs at h with hstatus
    · rcases List.mem_cons.1 h with rfl | h
      · exact .inl (by rw [hstatus])
      · exact .inr (List.mem_cons_of_mem _ h)
    · rcases List.mem_cons.1 h with rfl | h
      · exact .inr List.mem_cons_self
      · exact (ih h).imp_right (List.mem_cons_of_mem _)

theorem mem_putResponses {done : List (String × TypeRef)} {typed : List (String × Option TypeRef)}
    {x : String × TypeRef} (h : x ∈ putResponses done typed) : (x.1, some x.2) ∈ typed ∨ x ∈ done := by
  induction typed generalizing done with
  | nil => exact .inr h
  | cons e rest ih =>
    obtain ⟨status, type⟩ := e
    cases type with
    | none => exact (ih h).imp_left (List.mem_cons_of_mem _)
    | some type =>
      rcases ih h with h | h
      · exact .inl (List.mem_cons_of_mem _ h)
      · refine (mem_putResponse h).imp_left fun heq => ?_
        subst heq
        exact List.mem_cons_self

theorem exists_of_optionRel {α β : Type} {R : α → β → Prop} {o : Option α} {b : β}
    (h : Option.Rel R o (some b)) : ∃ a, R a b := by
  cases h with
  | some h => exact ⟨_, h⟩

namespace OperationFor

variable {r : Resolver} {M : Value → TypeRef → Prop} {item entries : List (Scalar × Value)}
  {P : RawParameter → ParameterOutcome → Prop} {op : Operation} {t : TypeRef}
  (h : OperationFor r M P item entries op)

include h

theorem exists_of_body (ht : t ∈ ((op.body.map (·.entries)).getD []).filterMap (·.2.type)) :
    ∃ schema, M schema t := by
  have hbody := h.body
  cases hop : op.body with
  | none =>
    rw [hop] at ht
    cases ht
  | some body =>
    rw [hop] at ht hbody
    obtain ⟨raw, object, v, place, content, -, -, hentries, -⟩ := exists_of_optionRel hbody
    obtain ⟨b, hb, hbt⟩ := List.mem_filterMap.1 ht
    obtain ⟨e, -, he⟩ := exists_of_forall₂ hentries.flip hb
    have htype := he.type
    rw [hbt] at htype
    exact exists_of_optionRel htype

theorem exists_of_response {x : String × TypeRef} (hx : x ∈ op.responses) :
    ∃ schema, M schema x.2 := by
  obtain ⟨typed, htyped, hresponses⟩ := h.responses
  rw [hresponses] at hx
  rcases mem_putResponses hx with hx | hx
  · obtain ⟨e, -, -, object, v, place, -, htype⟩ := exists_of_forall₂ htyped.flip hx
    exact exists_of_optionRel htype
  · cases hx

end OperationFor

namespace Compilation

variable {r : Resolver} {nodes : List (String × SchemaNode)} {c : Compilation} {api : CompiledApi}

/-- Every type of an operation was given to a schema. -/
theorem Faithful.meant {op : Operation} (h : Faithful r c op) {t : TypeRef} (ht : t ∈ op.types) :
    ∃ schema, Meant r c schema t := by
  obtain ⟨item, entries, hop⟩ := h
  rcases List.mem_append.1 ht with ht | ht
  · rcases List.mem_append.1 ht with ht | ht
    · obtain ⟨q, hq, rfl⟩ := List.mem_map.1 ht
      obtain ⟨found, hfor⟩ := exists_parameterFor hop hq
      exact hfor.type.imp fun _ hs => hs.2
    · exact hop.exists_of_body ht
  · obtain ⟨x, hx, rfl⟩ := List.mem_map.1 ht
    exact hop.exists_of_response hx

/-! ## Defined names -/

/-- The name of every component that can be referred to is defined. -/
theorem Compiled.contains_of_pending (h : Compiled r nodes c api) {name : String}
    (hname : r.Pending name) : api.types.contains name := by
  obtain ⟨component, hdeclared, hne, rfl⟩ := hname
  obtain ⟨raw, hraw⟩ := Option.isSome_iff_exists.1 hdeclared
  obtain ⟨node, hlookup, hresolves⟩ := h.complete.lookup hraw
  obtain ⟨t, -, -, htyped⟩ := exists_of_forall₂ h.typed (mem_of_lookup hlookup)
  rcases htyped.named_or_alias hne hresolves.component with ⟨-, hdefined⟩ | halias
  · exact hdefined
  · exact TypeModel.contains_of_get? halias

theorem Compiled.contains_of_closed (h : Compiled r nodes c api) {t : TypeRef}
    (ht : c.builder.model.Closed r.Pending t) {name : String} (hname : t.Mentions name) :
    api.types.contains name := by
  rcases ht name hname with hdefined | hpending
  · rwa [h.model]
  · exact h.contains_of_pending hpending

/-- A name that stands anywhere in a compiled description is defined. -/
theorem Compiled.contains_of_mentions (h : Compiled r nodes c api) {name : String}
    (hname : api.Mentions name) : api.types.contains name := by
  rcases hname with ⟨d, hd, t, ht, hname⟩ | ⟨op, hop, t, ht, hname⟩
  · rw [h.model] at hd
    exact h.contains_of_closed (h.steady.right.closed d hd t ht) hname
  · obtain ⟨schema, hm⟩ := (h.operations op hop).meant ht
    exact h.contains_of_closed (hm.closed h.steady) hname

end Compilation

end RouteBinding
