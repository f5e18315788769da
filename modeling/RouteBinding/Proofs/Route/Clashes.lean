import RouteBinding.Proofs.Route.Group

/-!
# Fields that clash

An operation can be bound exactly if every parameter has a field of its own and none has the field that is kept for
the body (`Operation.bind_fields`). Otherwise every clash is an error: first the parameters that would take the field
of the body, then the other fields that several parameters share.
-/

namespace RouteBinding

/-- The field that a parameter is bound to. -/
def Parameter.field (p : Parameter) : String :=
  Naming.fieldName p.name

namespace Operation

variable {op : Operation} {handler slot : String}

/-! ## What a binding should be -/

/-- The parameters that a field is for, in order. -/
def sharing (op : Operation) (field : String) : List Parameter :=
  op.parameters.filter (·.field = field)

/-- The parameters of an operation are told apart by their fields, and none of them has the field of the body. -/
structure Separated (op : Operation) (slot : String) : Prop where
  free : ∀ p ∈ op.parameters, p.field ≠ slot
  distinct : (op.parameters.map Parameter.field).Nodup

/-- A contract binds an operation: every parameter in order to its field, each to another one and none to that of the
body, which is bound if the operation has one. -/
structure BoundBy (op : Operation) (handler slot : String) (contract : BindingContract) : Prop where
  operation : contract.operation = op
  handler : contract.handler = handler
  parameters : List.Forall₂ (fun p b => b.parameter = p ∧ b.field = p.field) op.parameters contract.parameters
  distinct : (contract.parameters.map (·.field)).Nodup
  free : slot ∉ contract.parameters.map (·.field)
  body : Option.Rel (fun body b => b.slot = slot ∧ b.contract = body) op.body contract.body

/-- The errors of the parameters that would take the field of the body, in order. -/
def reservedErrors (op : Operation) (slot : String) : List CompileError :=
  (op.sharing slot).map fun p => .reservedName p.name op.label

/-- The other fields that several parameters share, in the order in which they first come. -/
def sharedFields (op : Operation) (slot : String) : List String :=
  (firstKeys Parameter.field op.parameters).filter fun field => field ≠ slot ∧ 1 < (op.sharing field).length

/-- The errors of these fields: each with the names of all its parameters. -/
def sharedErrors (op : Operation) (slot : String) : List CompileError :=
  (op.sharedFields slot).map fun field =>
    .bindingCollision field ((op.sharing field).map (·.name)) op.label

/-! ## Clashes -/

/-- The bindings to some fields are those of the parameters that have these fields. -/
theorem filter_bindings (p : String → Bool) :
    op.bindings.filter (fun b => p b.field) =
      (op.parameters.filter fun q => p q.field).map fun q => ⟨q, q.field⟩ := by
  rw [bindings, List.filter_map]
  rfl

theorem firstKeys_bindings (p : String → Bool) :
    firstKeys (·.field) (op.bindings.filter fun b => p b.field) =
      (firstKeys Parameter.field op.parameters).filter p := by
  rw [firstKeys_filter, bindings, firstKeys, List.map_map]
  rfl

/-- The names that are bound to a field are those of the parameters that have it. -/
theorem names_bindings {p : String → Bool} {field : String} (h : p field) :
    ((op.bindings.filter fun b => p b.field).filter (·.field = field)).map (·.parameter.name) =
      (op.sharing field).map (·.name) := by
  have hfilter : (op.bindings.filter fun b => p b.field).filter (·.field = field) =
      op.bindings.filter (·.field = field) := by
    rw [List.filter_filter]
    refine List.filter_congr fun b _ => ?_
    by_cases hb : b.field = field
    · simp [hb, h]
    · simp [hb]
  rw [hfilter, filter_bindings fun f => decide (f = field), List.map_map]
  rfl

/-- The names that are bound to each of some fields. -/
theorem byField_eq (p : String → Bool) :
    byField (op.bindings.filter fun b => p b.field) =
      ((firstKeys Parameter.field op.parameters).filter p).map fun field =>
        (field, (op.sharing field).map (·.name)) := by
  rw [byField, groupBy_eq, firstKeys_bindings, List.map_map]
  refine List.map_congr_left fun field hfield => ?_
  have hp : p field := (List.mem_filter.1 hfield).2
  rw [Function.comp_apply, names_bindings hp]

/-- What clashes are the parameters with the field of the body, and then the other fields with several. -/
theorem clashes_eq : op.clashes slot = op.reservedErrors slot ++ op.sharedErrors slot := by
  have hreserved : (op.bindings.filter fun b => decide (b.field = slot)).map
        (fun b => CompileError.reservedName b.parameter.name op.label) = op.reservedErrors slot := by
    rw [filter_bindings fun field => decide (field = slot), List.map_map]
    rfl
  have hshared : ((byField (op.bindings.filter fun b => !decide (b.field = slot))).filter
        fun e => decide (1 < e.2.length)).map (fun e => CompileError.bindingCollision e.1 e.2 op.label) =
      op.sharedErrors slot := by
    rw [byField_eq fun field => !decide (field = slot), List.filter_map, List.filter_filter, List.map_map,
      sharedErrors, sharedFields]
    refine congrArg (List.map _) (List.filter_congr fun field _ => ?_)
    simp [Bool.and_comm]
  unfold clashes
  rw [List.partition_eq_filter_filter]
  exact congrArg₂ (· ++ ·) hreserved hshared

/-- Nothing clashes exactly where the fields tell the parameters apart. -/
theorem clashes_eq_nil_iff : op.clashes slot = [] ↔ op.Separated slot := by
  have hreserved : op.reservedErrors slot = [] ↔ ∀ p ∈ op.parameters, p.field ≠ slot := by
    rw [reservedErrors, List.map_eq_nil_iff, sharing, List.filter_eq_nil_iff]
    simp
  have hshared : op.sharedErrors slot = [] ↔
      ∀ field ∈ firstKeys Parameter.field op.parameters, field ≠ slot → (op.sharing field).length ≤ 1 := by
    rw [sharedErrors, List.map_eq_nil_iff, sharedFields, List.filter_eq_nil_iff]
    simp
  rw [clashes_eq, List.append_eq_nil_iff, hreserved, hshared]
  constructor
  · intro ⟨hfree, hshared⟩
    refine ⟨hfree, nodup_map_iff.2 fun field hfield => hshared field hfield ?_⟩
    obtain ⟨p, hp, rfl⟩ := List.mem_map.1 (mem_firstKeys.1 hfield)
    exact hfree p hp
  · intro h
    exact ⟨h.free, fun field hfield _ => nodup_map_iff.1 h.distinct field hfield⟩

/-! ## Bindings -/

theorem bind_of_separated (h : op.Separated slot) :
    op.bind handler slot = .ok ⟨op, handler, op.bindings, op.body.map fun body => ⟨slot, body⟩⟩ := by
  rw [bind, clashes_eq_nil_iff.2 h]

theorem bind_of_not_separated (h : ¬ op.Separated slot) :
    op.bind handler slot = .error (op.reservedErrors slot ++ op.sharedErrors slot) := by
  have hne : op.clashes slot ≠ [] := fun hnil => h (clashes_eq_nil_iff.1 hnil)
  rw [← clashes_eq, bind]
  split
  · exact absurd ‹_› hne
  · rfl

theorem boundBy_bindings (h : op.Separated slot) :
    op.BoundBy handler slot ⟨op, handler, op.bindings, op.body.map fun body => ⟨slot, body⟩⟩ := by
  have hfields : op.bindings.map (·.field) = op.parameters.map Parameter.field := by
    rw [bindings, List.map_map]
    rfl
  constructor
  · rfl
  · rfl
  · exact List.forall₂_map_right_iff.2 (List.forall₂_same.2 fun p _ => ⟨rfl, rfl⟩)
  · show (op.bindings.map (·.field)).Nodup
    rw [hfields]
    exact h.distinct
  · show slot ∉ op.bindings.map (·.field)
    rw [hfields]
    intro hmem
    obtain ⟨p, hp, heq⟩ := List.mem_map.1 hmem
    exact h.free p hp heq
  · cases op.body with
    | none => exact .none
    | some body => exact .some ⟨rfl, rfl⟩

/-- An operation can be bound exactly if its parameters are told apart by their fields, and then the contract binds
it. Otherwise the errors are, in order, one for every parameter with the field of the body, whether there is a body or
not, and one for every other field that several parameters share. -/
theorem bind_fields (op : Operation) (handler slot : String) :
    ((∃ contract, op.bind handler slot = .ok contract) ↔ op.Separated slot) ∧
      (∀ contract, op.bind handler slot = .ok contract → op.BoundBy handler slot contract) ∧
      ∀ errors, op.bind handler slot = .error errors →
        errors = op.reservedErrors slot ++ op.sharedErrors slot := by
  by_cases h : op.Separated slot
  · rw [bind_of_separated h]
    refine ⟨iff_of_true ⟨_, rfl⟩ h, fun contract hcontract => ?_, fun errors herrors => by cases herrors⟩
    cases hcontract
    exact boundBy_bindings h
  · rw [bind_of_not_separated h]
    refine ⟨iff_of_false ?_ h, fun contract hcontract => (by cases hcontract), fun errors herrors => ?_⟩
    · intro ⟨contract, hcontract⟩
      cases hcontract
    · exact (Except.error.inj herrors).symm

/-- Two parameters that share a field, and one between them that has the field of the body. -/
example :
    Operation.bind ⟨.get, "/pets", "GetPets", none, none,
        [⟨"petId", .query, false, .primitive .string, .form, true, none⟩,
          ⟨"body", .query, false, .primitive .string, .form, true, none⟩,
          ⟨"pet-id", .query, false, .primitive .string, .form, true, none⟩], none, []⟩ "list" "body" =
      .error [.reservedName "body" "GET /pets",
        .bindingCollision "pet_id" ["petId", "pet-id"] "GET /pets"] := by
  decide

end Operation

end RouteBinding
