import RouteBinding.Proofs.Model.Blame
import RouteBinding.Proofs.Operation.Discipline
import RouteBinding.Proofs.Schema.Faithful

/-!
# What a compilation collects

Every error that is recorded in a compilation points into the description (`Compilation.Located`), and nothing but a
breakdown with a reason ends the run. A compilation collects errors, operations, findings and types side by side; what
it gives at the end is chosen by whether there are errors (`compile_eq`). What has been collected can be told apart even
where the description is refused (`breaks_of_collect`).
-/

namespace RouteBinding

namespace Compilation

open Step (Keeps)

variable {r : Resolver}

/-- A compilation in which the nodes come from where they say, the errors point into the description, and what was
noticed only informs. -/
structure Located (r : Resolver) (c : Compilation) : Prop where
  resolved : r.Remembers r.Begins c.resolved
  errors : ∀ e ∈ c.errors, r.document.PointsInto r.Begins e
  findings : ∀ d ∈ c.diagnostics, d.level = .info

/-- The type of a schema is refused for what stands at pointers of the description. -/
theorem located_typeOf {raw : Value} {pointer : String} (hv : r.StandsAt pointer raw) (context : String) :
    Keeps (Located r) (typeOf r raw pointer context) (fun _ => True) fun h _ => r.document.Accounts r.Begins h := by
  have hnode : Keeps (Located r) (resolveSchema r raw pointer) (fun n => n.Placed r.document r.Begins)
      fun h _ => r.document.Accounts r.Begins h := by
    refine Step.Keeps.zoom ((Resolver.keeps_resolve (fun _ _ h => .found h) hv).imp ?_)
      (fun c hc => hc.resolved) (fun c t hc ht => ⟨ht, hc.errors, hc.findings⟩) fun _ _ _ h => h
    exact fun n hn => hn.placed
  refine hnode.bind fun n hn => ?_
  refine Step.keeps_get_bind fun c hc => ?_
  obtain ⟨-, -, herror⟩ := TypeBuilder.keeps_refFor hn context c.builder trivial
  rcases hrun : TypeBuilder.refFor n context c.builder with ⟨outcome, builder⟩
  rw [hrun] at herror
  refine (Step.keeps_set ⟨hc.resolved, hc.errors, hc.findings⟩).bind fun _ _ => ?_
  exact Step.keeps_ofExcept (fun _ _ => trivial) fun e he _ => herror e he

/-- Errors point into the description all along, and breakdowns have their reasons. -/
def locating (r : Resolver) : Discipline r where
  inv := Located r
  expects h _ := r.document.Accounts r.Begins h
  error _ hpoints _ := hpoints
  breakdown _ hbreaks := hbreaks
  record e c hc he := by
    refine ⟨hc.resolved, fun e' he' => ?_, hc.findings⟩
    rcases List.mem_append.1 he' with he' | he'
    · exact hc.errors e' he'
    · rw [List.mem_singleton.1 he']
      exact he
  notice d c hd hc :=
    ⟨hc.resolved, hc.errors, List.forall_mem_append.2 ⟨hc.findings, List.forall_mem_singleton.2 hd⟩⟩
  remember _ c hc := ⟨hc.resolved, hc.errors, hc.findings⟩
  typeOf hv _ := located_typeOf hv _

/-- The component schemas are resolved and built, unless the run breaks off with a reason, and the errors of those
that cannot be built point into the description. -/
theorem neverFails_compileComponents (hschemas : r.SchemasStand r.Begins) :
    (locating r).NeverFails (compileComponents r) fun errors => ∀ e ∈ errors, r.document.PointsInto r.Begins e := by
  have hresolve := Resolver.keeps_resolveComponents (fun _ _ h => .found h) hschemas
  refine Keeps.bind (hresolve.zoom (fun c hc => hc.resolved) (fun c t hc ht => ⟨ht, hc.errors, hc.findings⟩)
    fun _ _ _ h => h) fun components hcomponents => ?_
  refine Step.keeps_get_bind fun c hc => ?_
  have hplaced : ∀ n ∈ components, n.2.Placed r.document r.Begins := by
    intro n hn
    obtain ⟨raw, -, htraced⟩ := hcomponents n hn
    exact htraced.placed
  have herrors := TypeBuilder.pointsInto_buildComponents hplaced c.builder
  rcases hrun : TypeBuilder.buildComponents components c.builder with ⟨errors, builder⟩
  rw [hrun] at herrors
  exact (Step.keeps_set ⟨hc.resolved, hc.errors, hc.findings⟩).bind fun _ _ => Step.keeps_pure herrors

theorem located_initial : Located r initial where
  resolved := Resolver.remembers_initial
  errors _ he := absurd he List.not_mem_nil
  findings _ hd := absurd hd List.not_mem_nil

end Compilation

open Compilation (Compile Located compileComponents compilePaths)

/-- What has been collected in a compilation that came to its end. -/
structure Collected where
  componentErrors : List CompileError
  typeErrors : List CompileError
  operationErrors : List CompileError
  operations : List Operation
  diagnostics : List Diagnostic
  types : TypeModel

/-- All errors, in the order in which they are given. -/
def Collected.errors (c : Collected) : List CompileError :=
  c.componentErrors ++ c.typeErrors ++ c.operationErrors

/-- Compiles the component schemas and then the operations. -/
def Compilation.compileAll (r : Resolver) : Compile (List CompileError × List Operation) := do
  let typeErrors ← compileComponents r
  let operations ← compilePaths r
  return (typeErrors, operations)

/-- What has been collected when a run has come to its end. -/
def Compilation.outcome :
    Except Halt (List CompileError × List Operation) × Compilation → Except Breakdown Collected
  | (.error (.error e), _) => .ok ⟨[], [], [e], [], [], .empty⟩
  | (.error (.breakdown b), _) => .error b
  | (.ok (typeErrors, operations), s) =>
    .ok ⟨s.resolved.errors, typeErrors, s.errors, operations, s.diagnostics, s.builder.model⟩

/-- What is collected in the compilation of a description, unless it breaks off. -/
def collect (d : Document) : Except Breakdown Collected :=
  match Resolver.ofDocument d with
  | .error (.error e) => .ok ⟨[e], [], [], [], [], .empty⟩
  | .error (.breakdown b) => .error b
  | .ok r => Compilation.outcome (Compilation.compileAll r .initial)

/-- A compilation gives what has been collected: the errors if there are any, and else all the rest. -/
theorem compile_eq (d : Document) (version : Option String) :
    compile d version = match collect d with
      | .error b => .error (.breakdown b)
      | .ok c =>
        if c.errors.isEmpty then .ok ⟨c.types, c.operations, c.diagnostics, version⟩
        else .error (.errors c.errors) := by
  unfold compile collect
  cases Resolver.ofDocument d with
  | error halt => cases halt <;> rfl
  | ok r =>
    have hrun : (do
        let typeErrors ← compileComponents r
        let operations ← compilePaths r
        return (typeErrors, operations)) = Compilation.compileAll r := rfl
    dsimp only
    rw [hrun]
    rcases Compilation.compileAll r .initial with ⟨(e | b) | out, s⟩ <;> rfl

/-- All is compiled to the end, unless the run breaks off with a reason, and the errors of the types point into the
description. -/
theorem Compilation.neverFails_compileAll {r : Resolver} (hschemas : r.SchemasStand r.Begins) :
    (locating r).NeverFails (compileAll r) fun out => ∀ e ∈ out.1, r.document.PointsInto r.Begins e := by
  refine Step.Keeps.bind (neverFails_compileComponents hschemas) fun _ htypes => ?_
  refine Step.Keeps.bind ((locating r).neverFails_compilePaths fun c _ hc => ?_) fun _ _ => Step.keeps_pure htypes
  exact ⟨hc.resolved, hc.errors, hc.findings⟩

section Runs

variable {d : Document} {r : Resolver} (hr : Resolver.ofDocument d = .ok r)

include hr

/-- The compilation of a document for which a resolver can be made: it comes to an end in which all errors point
into the description, or show components, or it breaks off with a reason. -/
theorem run_of_ofDocument :
    let run := Compilation.compileAll r .initial
    Located r run.2 ∧
      (∀ out, run.1 = .ok out → ∀ e ∈ out.1, r.document.PointsInto r.Begins e) ∧
      ∀ h, run.1 = .error h → h.BreaksFor r.document.graph.Breaks :=
  Compilation.neverFails_compileAll
    (Resolver.schemasStand_of_ofDocument hr fun _ _ h => .found h) _ Compilation.located_initial

theorem exists_run_of_collect {c : Collected} (h : collect d = .ok c) :
    ∃ typeErrors operations s, Compilation.compileAll r .initial = (.ok (typeErrors, operations), s) ∧
      c = ⟨s.resolved.errors, typeErrors, s.errors, operations, s.diagnostics, s.builder.model⟩ := by
  obtain ⟨-, -, hhalt⟩ := run_of_ofDocument hr
  simp only [collect, hr] at h
  rcases hrun : Compilation.compileAll r .initial with ⟨(e | b) | ⟨typeErrors, operations⟩, s⟩
  · rw [hrun] at hhalt
    exact (hhalt _ rfl).elim
  · rw [hrun] at h
    cases h
  · rw [hrun] at h
    cases h
    exact ⟨typeErrors, operations, s, rfl, rfl⟩

end Runs

/-- What is noticed in a description that compiles only informs. -/
theorem level_of_compile {d : Document} {version : Option String} {api : CompiledApi}
    (h : compile d version = .ok api) : ∀ finding ∈ api.diagnostics, finding.level = .info := by
  rw [compile_eq] at h
  split at h
  · cases h
  · rename_i c hc
    split_ifs at h with hempty
    cases h
    cases hr : Resolver.ofDocument d with
    | error halt =>
      rcases halt with e | b <;> simp only [collect, hr] at hc
      · cases hc
        cases hempty
      · cases hc
    | ok r =>
      obtain ⟨hlocated, -⟩ := run_of_ofDocument hr
      obtain ⟨typeErrors, operations, s, hrun, rfl⟩ := exists_run_of_collect hr hc
      rw [hrun] at hlocated
      exact hlocated.findings

/-- A run that breaks off does so for a reason: the document or its components are no mappings, or a mapping in the
document is one that cannot be worked with. -/
theorem breaks_of_collect {d : Document} {b : Breakdown} (h : collect d = .error b) :
    Resolver.ofDocument d = .error (.breakdown b) ∨ d.graph.Breaks b := by
  unfold collect at h
  split at h
  · cases h
  · rename_i b' hr
    cases h
    exact .inl hr
  · rename_i r hr
    obtain ⟨-, -, hhalt⟩ := run_of_ofDocument hr
    rcases hrun : Compilation.compileAll r .initial with ⟨(e | b') | out, s⟩
    · rw [hrun] at h
      cases h
    · rw [hrun] at h hhalt
      cases h
      rw [← Resolver.document_of_ofDocument hr]
      exact .inr (hhalt _ rfl)
    · rw [hrun] at h
      cases h

end RouteBinding
