import RouteBinding.Proofs.Operation.Inventory

/-!
# Path parameters and placeholders

The placeholders in the path of a compiled operation are the names of its path parameters, each once
(`compile_placeholders`). The path is checked against the names that stand in the parameter objects, and the
parameters are compiled apart from that check; what both have in common is the name and the location of an object,
which no two objects of an operation share.
-/

namespace RouteBinding

open Compilation
open PathTemplate (placeholders)

variable {g : Graph} {r : Resolver} {M : Value → TypeRef → Prop} {p : RawParameter} {q : Parameter}

/-! ## Names and locations -/

theorem entryText?_of_text {key absent text : String} {entries : List (Scalar × Value)}
    (h : valueAt? key entries = some (.scalar (.text text))) :
    entryText? g key absent entries = some text := by
  unfold entryText?
  rw [h]
  rfl

/-- A parameter keeps the name and the location that tell its object apart. -/
theorem ParameterFor.key? (h : ParameterFor r M p.entries q) :
    p.key? g = some (q.name, q.location.name) := by
  unfold RawParameter.key?
  rw [entryText?_of_text h.name, entryText?_of_text h.location]
  rfl

theorem ParameterFor.inPath_iff (h : ParameterFor r M p.entries q) :
    valueAt? "in" p.entries = some (.scalar (.text "path")) ↔ q.location = .path := by
  rw [h.location]
  cases q.location <;> decide

section

variable {ps : List RawParameter} {outcomes : List ParameterOutcome} {bound : List Parameter}

/-- The parameters that are bound have the names and locations of their objects, some left out. -/
theorem keys_sublist (h : List.Forall₂ (fun p => OutcomeFor r M p.entries) ps outcomes)
    (hbound : boundParameters? outcomes = some bound) :
    (bound.map fun q => some (q.name, q.location.name)).Sublist (ps.map (·.key? g)) := by
  induction h generalizing bound with
  | nil =>
    cases hbound
    exact .slnil
  | cons hp _ ih =>
    cases hp with
    | bound hq =>
      obtain ⟨later, hlater, rfl⟩ := Option.map_eq_some_iff.1 hbound
      rw [List.map_cons, List.map_cons, hq.key?]
      exact (ih hlater).cons_cons _
    | skipped _ _ => exact (ih hbound).cons _
    | refused => cases hbound

/-- The parameters of objects that fit a path have different names and locations. -/
theorem Fits.nodup_keys {path : String} (hfits : Fits g path ps)
    (h : List.Forall₂ (fun p => OutcomeFor r M p.entries) ps outcomes)
    (hbound : boundParameters? outcomes = some bound) :
    (bound.map fun q => (q.name, q.location.name)).Nodup := by
  have hsome : ((bound.map fun q => (q.name, q.location.name)).map some).Nodup := by
    rw [List.map_map]
    exact hfits.keys.sublist (keys_sublist h hbound)
  exact hsome.of_map _

/-- The parameters in the path have the names that the objects in the path show: none of these is left out. -/
theorem pathNames?_eq (h : List.Forall₂ (fun p => OutcomeFor r M p.entries) ps outcomes)
    (hbound : boundParameters? outcomes = some bound) :
    pathNames? g ps = some ((bound.filter (·.location = .path)).map (·.name)) := by
  induction h generalizing bound with
  | nil =>
    cases hbound
    rfl
  | cons hp _ ih =>
    unfold pathNames? at ih ⊢
    cases hp with
    | @bound q hq =>
      obtain ⟨later, hlater, rfl⟩ := Option.map_eq_some_iff.1 hbound
      by_cases hpath : q.location = .path
      · rw [List.filter_cons_of_pos (by simpa using hq.inPath_iff.2 hpath),
          List.filter_cons_of_pos (by simpa using hpath), List.mapM_cons,
          ih hlater, entryText?_of_text hq.name]
        rfl
      · have hin := mt hq.inPath_iff.1 hpath
        rw [List.filter_cons_of_neg (by simpa using hin),
          List.filter_cons_of_neg (by simpa using hpath), ih hlater]
    | @skipped place hskipped hplace =>
      -- an object that is not bound is not in the path
      have hne : place ≠ "path" := by
        rintro rfl
        exact absurd hskipped (by decide)
      rw [List.filter_cons_of_neg (by simpa [hplace] using hne)]
      exact ih hbound
    | refused => cases hbound

/-- If no two parameters have one name and location, no two in the path have one name. -/
theorem nodup_names_filter {location : Location}
    (h : (bound.map fun q => (q.name, q.location.name)).Nodup) :
    ((bound.filter (·.location = location)).map (·.name)).Nodup := by
  have hkeys : ((bound.filter (·.location = location)).map fun q => (q.name, q.location.name)).Nodup :=
    h.sublist (List.filter_sublist.map _)
  -- among those at one location the names alone tell them apart
  have hname : ((bound.filter (·.location = location)).map (·.name)).map (·, location.name) =
      (bound.filter (·.location = location)).map fun q => (q.name, q.location.name) := by
    rw [List.map_map]
    refine List.map_congr_left fun q hq => ?_
    have hlocation : q.location = location := by simpa using (List.mem_filter.1 hq).2
    rw [Function.comp_apply, hlocation]
  rw [← hname] at hkeys
  exact hkeys.of_map _

end

/-! ## Operations -/

/-- The parameter objects of an operation of a compiled description, and what became of them. -/
theorem OperationFor.exists_outcomes {item entries : List (Scalar × Value)} {op : Operation}
    (hd : r.document.graph.DistinctKeys)
    (h : OperationFor r M (fun p => OutcomeAt r M p.pointer) item entries op) :
    ∃ ofPath own outcomes,
      r.Declares (Resolver.itemPointer op.path) item ofPath ∧
      r.Declares (Pointer.child (Resolver.itemPointer op.path) op.method.name) entries own ∧
      List.Forall₂ (fun p => OutcomeFor r M p.entries) (mergeParameters r.document.graph ofPath own)
        outcomes ∧
      boundParameters? outcomes = some op.parameters :=
  (h.mono (fun _ _ hm => hm) fun _ _ hp ho => ho.outcomeFor hd hp).parameters

/-- The placeholders of an operation that is checked are the names of its path parameters. -/
theorem OperationChecked.placeholders {m : TypeModel} {item entries : List (Scalar × Value)}
    {op : Operation} (hd : r.document.graph.DistinctKeys)
    (hfor : OperationFor r M (fun p => OutcomeAt r M p.pointer) item entries op)
    (hchecked : OperationChecked r m item entries op) :
    (placeholders op.path).Nodup ∧
      (placeholders op.path).Perm ((op.parametersIn .path).map (·.name)) := by
  obtain ⟨ofPath, own, outcomes, hofPath, hown, houtcomes, hbound⟩ := hfor.exists_outcomes hd
  have hfits := hchecked.fits ofPath own hofPath hown
  have hnames : ((op.parametersIn .path).map (·.name)).Nodup := nodup_names_filter (hfits.nodup_keys houtcomes hbound)
  -- both were compared with the names in the objects
  have hsame (name : String) :
      name ∈ PathTemplate.placeholders op.path ↔ name ∈ (op.parametersIn .path).map (·.name) := by
    obtain ⟨declared, hdeclared, hplaceholders⟩ := hfits.names
    rw [pathNames?_eq houtcomes hbound] at hdeclared
    obtain rfl := Option.some.inj hdeclared
    exact hplaceholders name
  exact ⟨hfits.placeholders, (List.perm_ext_iff_of_nodup hfits.placeholders hnames).2 hsame⟩

/-- In a description that compiles every placeholder of a path comes once, and the placeholders are the names of
the path parameters: every one of them is bound by one parameter, and every parameter has a placeholder. -/
theorem compile_placeholders {d : Document} {version : Option String} {api : CompiledApi}
    (hd : d.graph.DistinctKeys) (h : compile d version = .ok api) :
    ∀ op ∈ api.operations, (placeholders op.path).Nodup ∧
      (placeholders op.path).Perm ((op.parametersIn .path).map (·.name)) := by
  obtain ⟨r, c, hr, hoperations⟩ := Compilation.checked_of_compile h
  have hdocument : r.document = d := Resolver.document_of_ofDocument hr
  intro op hop
  obtain ⟨item, entries, hfor, hchecked⟩ := hoperations op hop
  exact hchecked.placeholders (hdocument ▸ hd) hfor

theorem compile_placeholders_ordersDocument : ordersDocument.graph.DistinctKeys ∧
    ∃ api, compile ordersDocument none = .ok api ∧ api.operations.length = 3 ∧
      ∀ op ∈ api.operations, (placeholders op.path).Nodup ∧
        (placeholders op.path).Perm ((op.parametersIn .path).map (·.name)) := by
  obtain ⟨api, h, hkeys⟩ := exists_compile_ordersDocument
  have hlength : api.operations.length = 3 := by simpa using congrArg List.length hkeys
  exact ⟨distinctKeys_ordersDocument, api, h, hlength,
    compile_placeholders distinctKeys_ordersDocument h⟩

end RouteBinding
