import RouteBinding.Proofs.Operation.Template

/-!
# The parameters of an operation

Which parameter objects an operation of a compiled description is bound by, in which order, and that each of its
parameters says what its own object says (`compile_parameters`). Parameters are remembered under the pointers of
their objects while a description is compiled, and overridden by the texts of their names and locations; neither
gives an operation the parameter of another object.
-/

namespace RouteBinding

namespace Compilation

/-- A parameter object at a location that is known and not bound. -/
def RawParameter.IsSkipped (p : RawParameter) : Prop :=
  ∃ place ∈ skippedLocations, valueAt? "in" p.entries = some (.scalar (.text place))

instance (p : RawParameter) : Decidable p.IsSkipped :=
  inferInstanceAs (Decidable (∃ place ∈ skippedLocations, _))

/-- The parameter objects that bind an operation: those of the path whose name and location no object of the
operation has, then those of the operation, without the ones that are skipped. -/
def bindingObjects (g : Graph) (ofPath own : List RawParameter) : List RawParameter :=
  (ofPath.filter (fun p => ∀ q ∈ own, q.key? g ≠ p.key? g) ++ own).filter (¬ ·.IsSkipped)

end Compilation

open Compilation

variable {g : Graph} {r : Resolver} {M : Value → TypeRef → Prop} {p : RawParameter} {q : Parameter}

theorem mergeParameters_eq (ofPath own : List RawParameter) :
    mergeParameters g ofPath own = ofPath.filter (fun p => ∀ q ∈ own, q.key? g ≠ p.key? g) ++ own := by
  unfold mergeParameters
  dsimp only
  congr 1
  refine List.filter_congr fun p _ => ?_
  rw [Bool.eq_iff_iff]
  simp

/-- An object that binds a parameter is not skipped: a parameter is in the path or in the query. -/
theorem ParameterFor.not_isSkipped (h : ParameterFor r M p.entries q) : ¬ p.IsSkipped := by
  rintro ⟨place, hplace, hin⟩
  rw [h.location] at hin
  cases hin
  revert hplace
  cases q.location <;> decide

/-- The parameters that are bound are those of the objects that are not skipped, one for each. -/
theorem forall₂_bound {ps : List RawParameter} {outcomes : List ParameterOutcome}
    {bound : List Parameter} (h : List.Forall₂ (fun p => OutcomeFor r M p.entries) ps outcomes)
    (hbound : boundParameters? outcomes = some bound) :
    List.Forall₂ (fun p => ParameterFor r M p.entries) (ps.filter (¬ ·.IsSkipped)) bound := by
  induction h generalizing bound with
  | nil =>
    cases hbound
    exact .nil
  | cons hp _ ih =>
    cases hp with
    | bound hq =>
      obtain ⟨later, hlater, rfl⟩ := Option.map_eq_some_iff.1 hbound
      rw [List.filter_cons_of_pos (by simpa using hq.not_isSkipped)]
      exact .cons hq (ih hlater)
    | skipped hskipped hplace =>
      rw [List.filter_cons_of_neg (by simpa using ⟨_, hskipped, hplace⟩)]
      exact ih hbound
    | refused => cases hbound

/-- The parameters of an operation are those that its path item and its operation object declare. -/
structure ParametersOf (r : Resolver) (M : Value → TypeRef → Prop) (item entries : List (Scalar × Value))
    (op : Operation) : Prop where
  path : r.PathItem op.path item
  method : r.operation? item op.method = some entries
  objects : ∃ ofPath own,
    r.Declares (Resolver.itemPointer op.path) item ofPath ∧
    r.Declares (Pointer.child (Resolver.itemPointer op.path) op.method.name) entries own ∧
    List.Forall₂ (fun p => ParameterFor r M p.entries)
      (bindingObjects r.document.graph ofPath own) op.parameters
  distinct : (op.parameters.map fun q => (q.name, q.location)).Nodup

theorem OperationChecked.parametersOf {m : TypeModel} {item entries : List (Scalar × Value)}
    {op : Operation} (hd : r.document.graph.DistinctKeys)
    (hfor : OperationFor r M (fun p => OutcomeAt r M p.pointer) item entries op)
    (hchecked : OperationChecked r m item entries op) : ParametersOf r M item entries op := by
  obtain ⟨ofPath, own, outcomes, hofPath, hown, houtcomes, hbound⟩ := hfor.exists_outcomes hd
  refine ⟨hfor.path, hfor.method, ⟨ofPath, own, hofPath, hown, ?_⟩, ?_⟩
  · rw [bindingObjects, ← mergeParameters_eq]
    exact forall₂_bound houtcomes hbound
  · -- no two objects have one name and location, and their parameters keep both
    have hkeys : (op.parameters.map fun q => (q.name, q.location.name)).Nodup :=
      (hchecked.fits ofPath own hofPath hown).nodup_keys houtcomes hbound
    have hnames : (op.parameters.map fun q => (q.name, q.location)).map
        (Prod.map id Location.name) = op.parameters.map fun q => (q.name, q.location.name) := by
      rw [List.map_map]
      rfl
    rw [← hnames] at hkeys
    exact hkeys.of_map _

/-- The parameters of an operation of a compiled description are exactly those of its path that it does not
override, and its own after them, in order and without those that are not bound. Each says what its own object
says, its type included, and no two have one name and location. -/
theorem compile_parameters {d : Document} {version : Option String} {api : CompiledApi}
    (hd : d.graph.DistinctKeys) (h : compile d version = .ok api) :
    ∃ r, Resolver.ofDocument d = .ok r ∧ ∀ op ∈ api.operations, ∃ item entries,
      ParametersOf r (Agrees r api.types) item entries op := by
  obtain ⟨r, nodes, c, hr, hcompiled, -, hoperations⟩ := Compilation.operations_of_compile h
  have hdocument : r.document = d := Resolver.document_of_ofDocument hr
  refine ⟨r, hr, fun op hop => ?_⟩
  obtain ⟨key, -, -, item, entries, hfor, hchecked⟩ := exists_of_forall₂ hoperations.flip hop
  have hagrees : ∀ v t, Meant r c v t → Agrees r api.types v t := fun _ _ => hcompiled.agrees
  exact ⟨item, entries, hchecked.parametersOf (hdocument ▸ hd)
    (hfor.mono hagrees fun p o _ ho => ho.mono hagrees)⟩

/-- The first operation declares the parameter in the path anew, in another style, and the second takes it from the
path. -/
theorem compile_parameters_ordersDocument : ordersDocument.graph.DistinctKeys ∧
    ∃ api, compile ordersDocument none = .ok api ∧
      (api.operations.map fun op => op.parameters.map fun q => (q.name, q.style)) =
        [[("fields", .pipeDelimited), ("id", .label)], [("id", .simple)], []] ∧
      ∃ r, Resolver.ofDocument ordersDocument = .ok r ∧ ∀ op ∈ api.operations, ∃ item entries,
        ParametersOf r (Agrees r api.types) item entries op := by
  have hparameters : (compile ordersDocument none).toOption.map (·.operations.map fun op =>
      op.parameters.map fun q => (q.name, q.style)) =
        some [[("fields", .pipeDelimited), ("id", .label)], [("id", .simple)], []] := by
    decide +kernel
  obtain ⟨api, h, -⟩ := exists_compile_ordersDocument
  rw [h] at hparameters
  exact ⟨distinctKeys_ordersDocument, api, h, Option.some.inj hparameters,
    compile_parameters distinctKeys_ordersDocument h⟩

end RouteBinding
