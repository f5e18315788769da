import RouteBinding.Proofs.Operation.Payload

/-!
# Compiling operations

A description that is compiled without errors has an operation for every method and path that it declares one for,
in their order, and every one says what its object says and is checked (`runs_compilePaths`). An operation is left
out only where an error is left, be it an earlier one of a parameter that it shares.
-/

namespace RouteBinding.Compilation

open Course (Runs)
open Resolver (itemPointer)

variable {r : Resolver} {c c' : Compilation}

/-- An operation says what an operation object of the description says, by the types given so far. -/
def Faithful (r : Resolver) (c : Compilation) (op : Operation) : Prop :=
  ∃ item entries, OperationFor r (Meant r c) (fun p => OutcomeAt r (Meant r c) p.pointer)
    item entries op

/-- An operation is that of a method and a path: it says what their object says, by the types given so far, and it is
checked against them. -/
def CompiledAs (r : Resolver) (c : Compilation) (key : Method × String) (op : Operation) : Prop :=
  (op.method, op.path) = key ∧ ∃ item entries,
    OperationFor r (Meant r c) (fun p => OutcomeAt r (Meant r c) p.pointer) item entries op ∧
      OperationChecked r c.builder.model item entries op

theorem CompiledAs.mono {key : Method × String} {op : Operation} (hop : CompiledAs r c key op)
    (h : Later c c') : CompiledAs r c' key op := by
  obtain ⟨hkey, item, entries, hfor, hchecked⟩ := hop
  refine ⟨hkey, item, entries, hfor.mono (fun _ _ hm => hm.mono h) fun _ _ _ ho => ?_,
    hchecked.mono h.model⟩
  exact ho.mono fun _ _ hm => hm.mono h

theorem CompiledAs.faithful {key : Method × String} {op : Operation} (h : CompiledAs r c key op) :
    Faithful r c op := by
  obtain ⟨-, item, entries, hfor, -⟩ := h
  exact ⟨item, entries, hfor⟩

/-! ## One operation -/

theorem runs_takeName (hc : Steady r c) (name : String) :
    (steady r).Runs (takeName name) c fun _ _ => True := by
  unfold takeName
  refine Course.runs_get_bind (Runs.bind (Course.runs_set ?_ ?_) fun _ c' hc' _ _ => ?_)
  · exact hc.aside rfl rfl rfl List.prefix_rfl List.prefix_rfl
  · exact .aside rfl rfl List.prefix_rfl List.prefix_rfl
  · exact Course.runs_pure hc' trivial

/-- Recording some errors leaves none only if there were none to record. -/
theorem runs_records (hc : Steady r c) (es : List CompileError) :
    (steady r).Runs (es.forM record) c fun _ c' => c'.errors = [] → es = [] := by
  have hall (es : List CompileError) {c : Compilation} (hc : Steady r c) :
      (steady r).Runs (es.forM record) c fun _ _ => True :=
    Course.runs_forM hc fun e _ _ ht _ => (runs_record ht e).mono fun _ _ _ _ _ => trivial
  cases es with
  | nil => exact Course.runs_pure hc fun _ => rfl
  | cons e rest =>
    refine runs_record_bind hc e (fun c' hc' => hall rest hc') fun _ c' _ herror hnil => ?_
    exact absurd hnil herror

theorem runs_parameterOutcomes (hc : Steady r c) (operation : String) {ps : List RawParameter}
    (hps : ∀ p ∈ ps, r.Declared p) :
    (steady r).Runs (ps.mapM (parameterOutcome r operation)) c fun outcomes c' =>
      List.Forall₂ (fun p o => OutcomeAt r (Meant r c') p.pointer o ∧ Checked c' o) ps outcomes := by
  refine Course.runs_mapM hc (fun p o t u hle h => ?_) fun p hp t ht _ =>
    runs_parameterOutcome ht operation (hps p hp)
  exact ⟨h.1.mono fun _ _ hm => hm.mono hle, h.2.mono hle⟩

/-- Only a refused outcome stands in the way. -/
theorem exists_boundParameters? {outcomes : List ParameterOutcome} (h : .refused ∉ outcomes) :
    ∃ ps, boundParameters? outcomes = some ps := by
  induction outcomes with
  | nil => exact ⟨[], rfl⟩
  | cons o rest ih =>
    obtain ⟨ps, hps⟩ := ih fun hmem => h (List.mem_cons_of_mem o hmem)
    cases o with
    | bound q => exact ⟨q :: ps, by rw [boundParameters?, hps, Option.map_some]⟩
    | skipped => exact ⟨ps, hps⟩
    | refused => exact absurd List.mem_cons_self h

/-- Without errors every parameter that was checked can be bound or be left out. -/
theorem exists_boundParameters?_of_checked {outcomes : List ParameterOutcome}
    (h : ∀ o ∈ outcomes, Checked c o) (hnil : c.errors = []) :
    ∃ ps, boundParameters? outcomes = some ps :=
  exists_boundParameters? fun hmem => h .refused hmem hnil

theorem mem_of_boundParameters? {outcomes : List ParameterOutcome} {ps : List Parameter}
    {q : Parameter} (h : boundParameters? outcomes = some ps) (hq : q ∈ ps) :
    .bound q ∈ outcomes := by
  induction outcomes generalizing ps with
  | nil =>
    cases h
    cases hq
  | cons o rest ih =>
    cases o with
    | bound p =>
      obtain ⟨later, hlater, rfl⟩ := Option.map_eq_some_iff.1 h
      rcases List.mem_cons.1 hq with rfl | hq
      · exact List.mem_cons_self
      · exact List.mem_cons_of_mem _ (ih hlater hq)
    | skipped => exact List.mem_cons_of_mem _ (ih h hq)
    | refused => cases h

/-- Every parameter of an operation says what the entries of an object say. -/
theorem exists_parameterFor {M : Value → TypeRef → Prop} {item entries : List (Scalar × Value)}
    {op : Operation} (h : OperationFor r M (fun p => OutcomeAt r M p.pointer) item entries op)
    {q : Parameter} (hq : q ∈ op.parameters) : ∃ found, ParameterFor r M found q := by
  obtain ⟨ofPath, own, outcomes, -, -, houtcomes, hbound⟩ := h.parameters
  obtain ⟨-, -, p, -, -, houtcome⟩ :=
    exists_of_forall₂ houtcomes.flip (mem_of_boundParameters? hbound hq)
  cases houtcome with
  | bound hfor => exact ⟨p.entries, hfor⟩

/-- The objects that were found without errors are the only ones that are declared; they fit the path if there is
nothing wrong with its template. -/
theorem FoundAt.fits {pointer path template : String} {item entries : List (Scalar × Value)}
    {ofPath own ofPath' own' : List RawParameter} (hofPath : FoundAt r (itemPointer path) item ofPath c)
    (hown : FoundAt r pointer entries own c) (hnil : c.errors = [])
    {declared : List String}
    (hdeclared : pathNames? r.document.graph (mergeParameters r.document.graph ofPath own) = some declared)
    (htemplate : templateErrors path template declared = [])
    (hofPath' : r.Declares (itemPointer path) item ofPath') (hown' : r.Declares pointer entries own') :
    Fits r.document.graph path (mergeParameters r.document.graph ofPath' own') := by
  obtain rfl := hofPath'.unique (hofPath.complete hnil)
  obtain rfl := hown'.unique (hown.complete hnil)
  obtain ⟨hnodup, hnames⟩ := templateErrors_eq_nil_iff.1 htemplate
  exact ⟨nodup_keys_mergeParameters hofPath.keys hown.keys, hnodup, declared, hdeclared, hnames⟩

section

variable {path : String} {method : Method} {item entries : List (Scalar × Value)} {ofPath : List RawParameter}
  (hitem : r.PathItem path item) (hentries : r.operation? item method = some entries)

include hitem hentries

/-- Without errors the parts of an operation make one, and it is the one of its method and path. -/
theorem runs_compileNamed (hc : Steady r c) (hofPath : FoundAt r (itemPointer path) item ofPath c)
    (operationId summary : Option String) (name : String) :
    (steady r).Runs (compileNamed r path method ofPath entries
      (Pointer.child (itemPointer path) method.name) operationId summary name) c fun o c' =>
        c'.errors = [] → ∃ op, o = some op ∧ CompiledAs r c' (method, path) op := by
  unfold compileNamed
  refine Course.runs_get_bind ?_
  refine Runs.bind (runs_declaredParameters hc (.operation hitem hentries))
    fun own c₂ hc₂ hle₂ hown => ?_
  have hraw : ∀ p ∈ mergeParameters r.document.graph ofPath own, r.Declared p := fun p hp =>
    (mem_mergeParameters hp).elim (hofPath.declared p) (hown.declared p)
  refine Runs.bind (runs_parameterOutcomes hc₂ name hraw) fun outcomes c₃ hc₃ hle₃ houtcomes => ?_
  refine Runs.bind (Course.runs_ofOutcome hc₃) fun declared t _ _ ⟨hspelled, ht⟩ => ?_
  obtain rfl := ht.symm
  have hdeclared := Step.spelled_eq_ok_iff.1 hspelled
  refine Runs.bind (runs_records hc₃ _) fun _ c₄ hc₄ hle₄ htemplate => ?_
  refine Runs.bind (runs_compileBody hc₄ name entries _) fun body c₅ hc₅ hle₅ hbody => ?_
  refine Runs.bind (runs_compileResponses hc₅ name entries _)
    fun responses c₆ hc₆ hle₆ hresponses => ?_
  refine Course.runs_get_bind ?_
  -- errors are only added: none at the end means none after each part
  have hle₄₆ : Later c₄ c₆ := hle₅.trans hle₆
  have hle₃₆ : Later c₃ c₆ := hle₄.trans hle₄₆
  have hle₂₆ : Later c₂ c₆ := hle₃.trans hle₃₆
  have hfoundOfPath := hofPath.mono (hle₂.trans hle₂₆)
  have hfoundOwn := hown.mono hle₂₆
  have hchecked : ∀ o ∈ outcomes, Checked c₃ o := by
    intro o ho
    obtain ⟨p, -, -, hchecked⟩ := exists_of_forall₂ houtcomes.flip ho
    exact hchecked
  split_ifs with hcount
  · -- more errors than before are not none
    refine Course.runs_pure hc₆ fun hnil => ?_
    rw [hnil] at hcount
    exact absurd hcount (Nat.not_lt_zero _)
  · cases hbound : boundParameters? outcomes with
    | none =>
      -- an outcome that stands in the way was refused, now or earlier, and that left an error
      refine Course.runs_pure hc₆ fun hnil => ?_
      obtain ⟨ps, hps⟩ := exists_boundParameters?_of_checked hchecked (hle₃₆.errors_eq_nil hnil)
      rw [hbound] at hps
      cases hps
    | some parameters =>
      refine Course.runs_pure hc₆ fun hnil => ⟨_, rfl, rfl, item, entries, ?_, ?_⟩
      · -- what the parts said when they were compiled they say in the end
        have hright : List.Forall₂ (fun p o => OutcomeAt r (Meant r c₆) p.pointer o)
            (mergeParameters r.document.graph ofPath own) outcomes :=
          houtcomes.imp fun p o h => h.1.mono fun _ _ hm => hm.mono hle₃₆
        have hsays := optionRel_mono (hbody.2 (hle₆.errors_eq_nil hnil))
          fun _ _ h => h.mono fun _ _ hm => hm.mono hle₆
        exact ⟨hitem, hentries, ⟨ofPath, own, outcomes, hfoundOfPath.complete hnil,
          hfoundOwn.complete hnil, hright, hbound⟩, hsays, hresponses hnil⟩
      · -- and what was checked of them holds of the types that have come since
        have htemplates := htemplate (hle₄₆.errors_eq_nil hnil)
        refine ⟨?_, ?_, ?_⟩
        · intro q hq
          exact (hchecked _ (mem_of_boundParameters? hbound hq)).mono hle₃₆
        · intro ofPath' own' hofPath' hown'
          exact hfoundOfPath.fits hfoundOwn hnil hdeclared htemplates hofPath' hown'
        · intro b hb
          exact (hbody.1 b hb).mono hle₆.model

/-- Without errors there is an operation, and it is the one of its method and path. -/
theorem runs_compileOperation (hc : Steady r c) (hofPath : FoundAt r (itemPointer path) item ofPath c) :
    (steady r).Runs (compileOperation r path method ofPath entries
      (Pointer.child (itemPointer path) method.name)) c fun o c' =>
        c'.errors = [] → ∃ op, o = some op ∧ CompiledAs r c' (method, path) op := by
  unfold compileOperation
  refine Runs.bind (Course.runs_ofOutcome hc).attempt fun texts c₁ hc₁ hle₁ _ => ?_
  rcases texts with e | ⟨operationId, summary⟩
  · -- an operation whose texts cannot be read has an error and no parts
    exact runs_record_bind hc₁ e (fun _ hc' => Course.runs_pure hc' trivial)
      fun _ _ (_ : True) herror hnil => absurd hnil herror
  · refine Runs.bind (runs_takeName hc₁ _) fun name c₂ hc₂ hle₂ _ => ?_
    exact runs_compileNamed hitem hentries hc₂ (hofPath.mono (hle₁.trans hle₂)) operationId summary name

end

/-! ## All operations -/

theorem runs_compileMethods (hc : Steady r c) {path : String} {item : List (Scalar × Value)}
    {ofPath : List RawParameter} (hitem : r.PathItem path item)
    (hofPath : FoundAt r (itemPointer path) item ofPath c) (methods : List Method) :
    (steady r).Runs (compileMethods r path ofPath item methods) c fun ops c' =>
      c'.errors = [] → List.Forall₂ (CompiledAs r c')
        ((methods.filter fun m => (r.operation? item m).isSome).map fun m => (m, path)) ops := by
  -- by induction on the methods; what was found of the path's parameters is handed on from one to the next
  induction methods generalizing c with
  | nil => exact Course.runs_pure hc fun _ => .nil
  | cons method rest ih =>
    rw [compileMethods]
    cases hentries : (valueAt? method.name item).bind r.document.graph.entries? with
    | none =>
      have hnone : ¬ (r.operation? item method).isSome := by
        rw [Resolver.operation?, hentries]
        exact Bool.false_ne_true
      have hfilter : (method :: rest).filter (fun m => (r.operation? item m).isSome) =
          rest.filter fun m => (r.operation? item m).isSome := List.filter_cons_of_neg hnone
      rw [hfilter]
      exact ih hc hofPath
    | some entries =>
      have hsome : (r.operation? item method).isSome := by
        rw [Resolver.operation?, hentries]
        rfl
      have hfilter : (method :: rest).filter (fun m => (r.operation? item m).isSome) =
          method :: rest.filter fun m => (r.operation? item m).isSome :=
        List.filter_cons_of_pos hsome
      rw [hfilter, List.map_cons]
      refine Runs.bind (runs_compileOperation hitem hentries hc hofPath)
        fun compiled c₁ hc₁ hle₁ hop => ?_
      refine Runs.bind (ih hc₁ (hofPath.mono hle₁)) fun later c₂ hc₂ hle₂ hlater => ?_
      refine Course.runs_pure hc₂ fun hnil => ?_
      obtain ⟨op, rfl, hcompiled⟩ := hop (hle₂.errors_eq_nil hnil)
      exact .cons (hcompiled.mono hle₂) (hlater hnil)

theorem runs_compilePathItems (hc : Steady r c) {paths : List (Scalar × Value)}
    (hpaths : r.paths? = some paths) {items : List (Scalar × Value)} (hitems : items ⊆ paths) :
    (steady r).Runs (compilePathItems r items) c fun ops c' =>
      (∀ e ∈ items, ∃ path, e.1 = .text path) ∧
        (c'.errors = [] → List.Forall₂ (CompiledAs r c') (items.flatMap r.entryKeys) ops) := by
  -- by induction on the items that are left, which are all among the paths
  induction items generalizing c with
  | nil => exact Course.runs_pure hc ⟨fun e he => (List.not_mem_nil he).elim, fun _ => .nil⟩
  | cons e rest ih =>
    obtain ⟨hmem, hrest⟩ := List.cons_subset.1 hitems
    obtain ⟨key, value⟩ := e
    cases key with
    | text path =>
      have htexts (h : ∀ e ∈ rest, ∃ path, e.1 = .text path) :
          ∀ e ∈ (.text path, value) :: rest, ∃ path, e.1 = .text path :=
        List.forall_mem_cons.2 ⟨⟨path, rfl⟩, h⟩
      rw [compilePathItems, List.flatMap_cons]
      cases hitem : r.document.graph.entries? value with
      | none =>
        have hkeys : r.entryKeys (.text path, value) = [] := by
          simp only [Resolver.entryKeys, hitem]
        rw [hkeys]
        exact (ih hc hrest).mono fun _ _ _ _ h => ⟨htexts h.1, h.2⟩
      | some item =>
        have hkeys : r.entryKeys (.text path, value) =
            (Method.all.filter fun m => (r.operation? item m).isSome).map fun m => (m, path) := by
          simp only [Resolver.entryKeys, hitem]
        rw [hkeys]
        have hpath : r.PathItem path item := ⟨paths, value, hpaths, hmem, hitem⟩
        refine Runs.bind (runs_declaredParameters hc (.item hpath)) fun ofPath c₁ hc₁ _ hofPath => ?_
        refine Runs.bind (runs_compileMethods hc₁ hpath hofPath Method.all) fun ops c₂ hc₂ _ hops => ?_
        refine Runs.bind (ih hc₂ hrest) fun later c₃ hc₃ hle₃ hlater => ?_
        refine Course.runs_pure hc₃ ⟨htexts hlater.1, fun hnil => ?_⟩
        have hfirst := hops (hle₃.errors_eq_nil hnil)
        exact List.rel_append (hfirst.imp fun _ _ hop => hop.mono hle₃) (hlater.2 hnil)
    | _ => exact Course.runs_breakOff hc

/-- What counts as absent has no entries, whatever it is. -/
theorem entries?_of_not_isTruthy {g : Graph} {v : Value} (h : g.isTruthy v = false) :
    (g.entries? v).getD [] = [] := by
  unfold Graph.isTruthy at h
  unfold Graph.entries?
  cases hshape : g.shape v with
  | mapping id entries =>
    rw [hshape] at h
    simpa using h
  | _ => rfl

/-- Without errors every path is a text, and there is an operation for every method and path that the description
declares one for. -/
theorem runs_compilePaths (hc : Steady r c) :
    (steady r).Runs (compilePaths r) c fun ops c' => c'.errors = [] →
      (∀ e ∈ r.paths?.getD [], ∃ path, e.1 = .text path) ∧
        List.Forall₂ (CompiledAs r c') r.operationKeys ops := by
  -- where there are no paths there is nothing to do
  have hnone : (steady r).Runs (pure [] : Compile (List Operation)) c fun ops c' => c'.errors = [] →
      (∀ e ∈ ([] : List (Scalar × Value)), ∃ path, e.1 = .text path) ∧
        List.Forall₂ (CompiledAs r c') ([].flatMap r.entryKeys) ops :=
    Course.runs_pure hc fun _ => ⟨fun e he => (List.not_mem_nil he).elim, .nil⟩
  have hpaths : r.paths? = ((r.document.graph.entries? r.document.root).bind
      (valueAt? "paths")).bind r.document.graph.entries? := (Option.bind_assoc ..).symm
  unfold compilePaths Resolver.operationKeys
  dsimp only
  rw [hpaths]
  cases hvalue : (r.document.graph.entries? r.document.root).bind (valueAt? "paths") with
  | none => exact hnone
  | some value =>
    rw [Option.bind_some]
    cases htruthy : r.document.graph.isTruthy value with
    | false =>
      rw [Option.filter_some_neg (by simp [htruthy]), entries?_of_not_isTruthy htruthy]
      exact hnone
    | true =>
      rw [Option.filter_some_pos htruthy]
      dsimp only
      cases hentries : r.document.graph.entries? value with
      | none =>
        exact runs_record_bind hc _ (fun _ hc' => Course.runs_pure hc' trivial)
          fun _ _ (_ : True) herror hnil => absurd hnil herror
      | some paths =>
        have hsome : r.paths? = some paths := by
          rw [hpaths, hvalue, Option.bind_some, hentries]
        refine (runs_compilePathItems hc hsome (List.Subset.refl paths)).mono ?_
        exact fun _ _ _ _ h hnil => ⟨h.1, h.2 hnil⟩

end RouteBinding.Compilation
