import RouteBinding.Proofs.Schema.Components

/-!
# Any calls before

A resolver may have been asked for anything before, with or without success. A schema then resolves as on a
resolver of its own, and the errors of the component schemas are those of each component alone, followed by
the loops among those that resolve. Two faults stand apart, a type that cannot be looked up and a value without a text
that an error was to show: they break the whole run off, so that the components behind come to nothing.
-/

namespace RouteBinding.Resolver

open Relation (ReflTransGen)

variable {r : Resolver} {s t u : State}

/-- A call on a resolver. -/
inductive Call
  | resolve (raw : Value) (pointer : String)
  | components

/-- What a call leaves behind, whether it succeeds or not. -/
def run (r : Resolver) (s : State) : Call → State
  | .resolve raw pointer => (r.resolve raw pointer s).2
  | .components => (r.resolveComponents s).2

/-- What calls leave behind, one after the other, on a new resolver. -/
def after (r : Resolver) (calls : List Call) : State :=
  calls.foldl r.run .initial

theorem after_append (r : Resolver) (before calls : List Call) :
    r.after (before ++ calls) = calls.foldl r.run (r.after before) :=
  List.foldl_append

/-! ## What calls keep -/

theorem Extends.trans (hst : r.Extends s t) (htu : r.Extends t u) : r.Extends s u where
  sound := htu.sound
  components := htu.components.trans hst.components
  errors := htu.errors.trans hst.errors
  componentsDone := htu.componentsDone.trans hst.componentsDone

/-- Once the components are resolved, they are only given back. -/
theorem resolveComponents_of_done (h : s.componentsDone = true) :
    r.resolveComponents s = (.ok s.components, s) := by
  rw [resolveComponents, Step.bind_apply, Step.get_apply]
  simp only [h, if_true]
  rfl

/-- A call leaves the state sound. -/
theorem sound_run (hs : r.Sound s) (call : Call) : r.Sound (r.run s call) := by
  cases call with
  | resolve raw pointer => exact (extends_resolve hs raw pointer).sound
  | components =>
    rw [run]
    cases hdone : s.componentsDone with
    | true => rwa [resolveComponents_of_done hdone]
    | false => exact (resolveComponents_spec hs hdone).2.1

theorem sound_foldl (hs : r.Sound s) (calls : List Call) : r.Sound (calls.foldl r.run s) := by
  induction calls generalizing s with
  | nil => exact hs
  | cons call rest ih => exact ih (sound_run hs call)

/-- After any calls the state is sound. -/
theorem sound_after (r : Resolver) (calls : List Call) : r.Sound (r.after calls) :=
  sound_foldl sound_initial calls

/-- The calls change nothing but the memory if they do not ask for the components, or the components are
resolved already. -/
theorem extends_foldl (hs : r.Sound s) {calls : List Call}
    (h : s.componentsDone = true ∨ Call.components ∉ calls) :
    r.Extends s (calls.foldl r.run s) := by
  induction calls generalizing s with
  | nil => exact hs.extends
  | cons call rest ih =>
    have hfirst : r.Extends s (r.run s call) := by
      cases call with
      | resolve raw pointer => exact extends_resolve hs raw pointer
      | components =>
        rcases h with hdone | hnot
        · rw [run, resolveComponents_of_done hdone]
          exact hs.extends
        · exact absurd List.mem_cons_self hnot
    refine hfirst.trans (ih hfirst.sound ?_)
    rcases h with hdone | hnot
    · exact .inl (hfirst.componentsDone.trans hdone)
    · exact .inr fun hmem => hnot (List.mem_cons_of_mem call hmem)

/-! ## What becomes of each component -/

/-- The error that a component has by itself. -/
def ownError? (r : Resolver) (e : Scalar × Value) : Option CompileError :=
  error? (r.entry e)

/-- The error of a component that resolves, but is nothing but a chain of references that comes back. -/
def loopError? (r : Resolver) (e : Scalar × Value) : Option CompileError :=
  (component? (r.entry e)).bind fun c => aliasError? r.resolvedForms c.1

/-- The component, by its form, if it has no error. -/
def kept? (r : Resolver) (e : Scalar × Value) : Option (String × SchemaNode) :=
  (component? (r.entry e)).filter fun c => (aliasError? r.resolvedForms c.1).isNone

/-- A component has the error of a loop if its aliases come back. -/
theorem loopError?_eq_some_iff {e : Scalar × Value} {error : CompileError} :
    r.loopError? e = some error ↔
      ∃ c chain, component? (r.entry e) = some c ∧ Loops r.resolvedForms c.1 chain ∧
        error = cyclic (chain.map (Pointer.componentHead ++ ·)) := by
  rw [loopError?, Option.bind_eq_some_iff]
  simp only [aliasError?_eq_some_iff]
  constructor
  · rintro ⟨c, hc, chain, hloops, herror⟩
    exact ⟨c, chain, hc, hloops, herror⟩
  · rintro ⟨c, chain, hc, hloops, herror⟩
    exact ⟨c, hc, chain, hloops, herror⟩

/-- Some entry of the component schemas breaks the run off: its schema does so by itself, or its key is no text and has
none that an error could show. -/
def BreaksOff (r : Resolver) : Prop :=
  ∃ e ∈ r.schemas, e.1.literal? = none ∨
    ∃ name b, e.1 = .text name ∧ r.fresh e.2 (Pointer.component name) = .error (.breakdown b)

/-- Only a type that cannot be looked up, or a part without a text, breaks the resolution of a schema off. -/
theorem stopsReading_of_fresh {raw : Value} {pointer : String} {b : Breakdown}
    (h : r.fresh raw pointer = .error (.breakdown b)) :
    ∃ w id entries, ReflTransGen r.Inner raw w ∧ r.document.graph.shape w = .mapping id entries ∧
      StopsReading r.document.graph entries (.breakdown b) := by
  have hsearch := form_fresh (r := r) raw pointer
  rw [h] at hsearch
  cases fault_of_search hsearch.symm with
  | illFormed w hreach hill hplain => exact hplain.elim
  | broken w id entries hreach hill hshape hstops => exact ⟨w, id, entries, hreach, hshape, hstops⟩

/-- A component breaks the collection off if its name cannot be written, or its schema breaks off. -/
theorem entry_eq_breakdown_iff {e : Scalar × Value} :
    (∃ b, r.entry e = .error (.breakdown b)) ↔ e.1.literal? = none ∨
      ∃ name b, e.1 = .text name ∧ r.fresh e.2 (Pointer.component name) = .error (.breakdown b) := by
  rcases e with ⟨key, raw⟩
  cases key with
  | text name =>
    simp only [entry, Scalar.literal?, reduceCtorEq, false_or, Scalar.text.injEq, exists_and_left, exists_eq_left']
    cases r.fresh raw (Pointer.component name) <;> simp [Except.map]
  | _ =>
    simp only [entry, reduceCtorEq, false_and, exists_false, or_false]
    cases Scalar.literal? _ <;> simp [Halt.showing]

/-- A component is collected unless it breaks off. -/
theorem collected_eq_ok_iff {α : Type} {outcome : Except Halt α} :
    collected outcome = .ok () ↔ ∀ b, outcome ≠ .error (.breakdown b) := by
  rcases outcome with (e | b) | a <;> simp [collected]

theorem forM_eq_ok_iff {α ε : Type} {f : α → Except ε Unit} {l : List α} :
    l.forM f = .ok () ↔ ∀ a ∈ l, f a = .ok () := by
  induction l with
  | nil => simp [List.forM, Pure.pure, Except.pure]
  | cons a rest ih =>
    have hcons : (a :: rest).forM f = f a >>= fun _ => rest.forM f := rfl
    rw [hcons, bind_eq_ok, List.forall_mem_cons, ← ih]
    constructor
    · rintro ⟨⟨⟩, hfirst, hrest⟩
      exact ⟨hfirst, hrest⟩
    · rintro ⟨hfirst, hrest⟩
      exact ⟨(), hfirst, hrest⟩

/-- The collection does not break off if every component is collected. -/
theorem not_breaksOff_iff : ¬ r.BreaksOff ↔ ∀ e ∈ r.schemas, collected (r.entry e) = .ok () := by
  simp only [collected_eq_ok_iff, BreaksOff, ← entry_eq_breakdown_iff, not_exists, not_and, ne_eq]

/-- The components are given back exactly if none of them breaks the run off. -/
theorem exists_resolveComponents_iff (hs : r.Sound s) (hdone : s.componentsDone = false) :
    (∃ components, (r.resolveComponents s).1 = .ok components) ↔ ¬ r.BreaksOff := by
  have hout := (resolveComponents_spec hs hdone).1
  have hok : (∃ components, (r.resolveComponents s).1 = .ok components) ↔
      (r.resolveComponents s).1.map (fun _ => ()) = .ok () := by
    cases (r.resolveComponents s).1 <;> simp [Except.map]
  rw [hok, hout, forM_eq_ok_iff, not_breaksOff_iff]

/-- Without a breakdown, each component is kept or has one error. -/
theorem exactly_one (h : ¬ r.BreaksOff) {e : Scalar × Value} (he : e ∈ r.schemas) :
    (r.kept? e).toList.length + (r.ownError? e).toList.length + (r.loopError? e).toList.length =
      1 := by
  unfold kept? ownError? loopError?
  rcases hentry : r.entry e with (e' | b) | c
  · rfl
  · exact absurd ⟨e, he, entry_eq_breakdown_iff.1 ⟨b, hentry⟩⟩ h
  · cases hloop : aliasError? r.resolvedForms c.1 <;>
      simp [component?, error?, Option.filter, hloop]

/-! ## The outcome of every call -/

/-- The errors and the components of a resolver, said entry by entry. -/
theorem ResolvesAll.entries {components : List (String × SchemaNode)}
    (h : r.ResolvesAll s t components) (hs : s.errors = []) :
    t.errors = r.schemas.filterMap r.ownError? ++ r.schemas.filterMap r.loopError? ∧
      componentForms components = r.schemas.filterMap r.kept? := by
  constructor
  · rw [h.errors, hs, List.nil_append, resolvedForms, List.filterMap_filterMap]
    rfl
  · rw [h.forms, resolvedForms, List.filter_filterMap]
    rfl

/-- After any calls, a schema resolves as on a new resolver. The components are given back, at the first time
they are asked for, exactly if none of them breaks the run off; then at every later time the errors are
those of each entry by itself, followed by the loops, and each entry is kept or has exactly one error. A schema breaks
the run off only if a mapping is reached from it whose type cannot be looked up, or that has a part which an error
cannot show. -/
theorem memory_transparent (r : Resolver) :
    (∀ (calls : List Call) (raw : Value) (pointer : String),
      (r.resolve raw pointer (r.after calls)).1.map SchemaNode.form =
        (r.fresh raw pointer).map SchemaNode.form) ∧
    (∀ before later : List Call, Call.components ∉ before →
      ((∃ components, (r.resolveComponents (r.after before)).1 = .ok components) ↔
        ¬ r.BreaksOff) ∧
      (¬ r.BreaksOff →
        let last := r.after (before ++ .components :: later)
        last.errors = r.schemas.filterMap r.ownError? ++ r.schemas.filterMap r.loopError? ∧
        (∃ components, (r.resolveComponents (r.after before)).1 = .ok components ∧
          (r.resolveComponents last).1 = .ok components ∧
          componentForms components = r.schemas.filterMap r.kept?) ∧
        ∀ e ∈ r.schemas, (r.kept? e).toList.length + (r.ownError? e).toList.length +
          (r.loopError? e).toList.length = 1)) ∧
    (∀ e error, r.loopError? e = some error ↔
      ∃ c chain, component? (r.entry e) = some c ∧ Loops r.resolvedForms c.1 chain ∧
        error = cyclic (chain.map (Pointer.componentHead ++ ·))) ∧
    ∀ raw pointer b, r.fresh raw pointer = .error (.breakdown b) →
      ∃ w id entries, ReflTransGen r.Inner raw w ∧
        r.document.graph.shape w = .mapping id entries ∧
        (b = .unhashableKey ∧ HasUnhashableType r.document.graph entries ∨
          b = .numberTooLong ∧ HasUnwritablePart r.document.graph entries) := by
  refine ⟨fun calls raw pointer => ?_, fun before later hbefore => ?_,
    fun e error => loopError?_eq_some_iff, fun raw pointer b h => ?_⟩
  · rw [form_resolve (sound_after r calls), form_fresh]
  · have hsound := sound_after r before
    have hkept : r.Extends .initial (r.after before) := extends_foldl sound_initial (.inr hbefore)
    have hiff := exists_resolveComponents_iff hsound hkept.componentsDone
    refine ⟨hiff, fun hunbroken => ?_⟩
    obtain ⟨components, hrun⟩ := hiff.2 hunbroken
    obtain ⟨-, hsound', hall⟩ := resolveComponents_spec hsound hkept.componentsDone
    have hfirst := hall components hkept.components hrun
    obtain ⟨herrors, hforms⟩ := hfirst.entries hkept.errors
    have hlast : r.Extends (r.resolveComponents (r.after before)).2
        (r.after (before ++ .components :: later)) := by
      rw [after_append]
      exact extends_foldl hsound' (.inl hfirst.componentsDone)
    intro last
    refine ⟨hlast.errors.trans herrors, ⟨components, hrun, ?_, hforms⟩, fun e he => ?_⟩
    · have hdone := hlast.componentsDone.trans hfirst.componentsDone
      rw [resolveComponents_of_done hdone, hlast.components, hfirst.returned]
    · exact exactly_one hunbroken he
  · obtain ⟨w, id, entries, hreach, hshape, hstops⟩ := stopsReading_of_fresh h
    refine ⟨w, id, entries, hreach, hshape, ?_⟩
    cases hstops with
    | plain hplain => exact hplain.elim
    | unhashable htype => exact .inl ⟨rfl, htype⟩
    | unwritable hpart => exact .inr ⟨rfl, hpart⟩

/-- A resolver for a document with three components: two that only refer to each other, and a text. -/
def circling : Resolver where
  document :=
    { graph := ⟨#[
        .mapping [(.text "$ref", .scalar (.text "#/components/schemas/B"))],
        .mapping [(.text "$ref", .scalar (.text "#/components/schemas/A"))],
        .mapping [(.text "type", .scalar (.text "string"))]]⟩
      root := .scalar .null }
  schemas := [(.text "A", .container 0), (.text "B", .container 1), (.text "C", .container 2)]

/-- Components whose aliases circle are reported the same after another call. -/
theorem memory_transparent_circling :
    Call.components ∉ [Call.resolve (.container 1) "#/b"] ∧ ¬ circling.BreaksOff ∧
      (circling.after [.resolve (.container 1) "#/b", .components]).errors =
        circling.schemas.filterMap circling.ownError? ++
          circling.schemas.filterMap circling.loopError? := by
  have hfirst : Call.components ∉ [Call.resolve (.container 1) "#/b"] := by simp
  have hunbroken : ¬ circling.BreaksOff := not_breaksOff_iff.2 (by decide)
  exact ⟨hfirst, hunbroken, (((memory_transparent circling).2.1 _ [] hfirst).2 hunbroken).1⟩

end RouteBinding.Resolver
