import RouteBinding.Proofs.Operation.Check
import RouteBinding.Proofs.Operation.Collected
import RouteBinding.Proofs.Operation.Titled
import RouteBinding.Proofs.Step

/-!
# Names that do not collide

A description whose schemas have names that differ is never refused for a name (`compile_apart`). An error about a
name can come from nowhere but a type that is built, and there it shows that two known nodes claim one name. What is
collected all along a compilation is therefore free of such errors, as far as the names of all that was read so far
differ (`Compilation.Clean`).
-/

namespace RouteBinding

open Resolver (Founded Known)
open TypeBuilder (Composing refFor)

namespace Compilation

variable {r : Resolver} {earlier : List CompileError} {c : Compilation} {e : CompileError}

/-! ## Clean compilations -/

/-- A compilation that holds what it should, and whose errors, as well as some from earlier, are not about names if the
names of all that was read differ. -/
structure Clean (r : Resolver) (earlier : List CompileError) (c : Compilation) : Prop where
  founded : Founded r c.resolved
  composing : Composing (Known c.resolved) r.Pending c.builder
  clean : r.Titled c.resolved → ∀ e ∈ earlier ++ c.errors, ¬ e.IsCollision

/-- An error is not about a name if the names of all that was read differ. -/
def Innocent (r : Resolver) (e : CompileError) (c : Compilation) : Prop :=
  r.Titled c.resolved → ¬ e.IsCollision

theorem innocent_of_not (he : ¬ e.IsCollision) (c : Compilation) : Innocent r e c :=
  fun _ => he

theorem Clean.record (hc : Clean r earlier c) (he : Innocent r e c) :
    Clean r earlier { c with errors := c.errors ++ [e] } where
  founded := hc.founded
  composing := hc.composing
  clean ht e' he' := by
    rw [← List.append_assoc] at he'
    rcases List.mem_append.1 he' with he' | he'
    · exact hc.clean ht e' he'
    · rw [List.mem_singleton.1 he']
      exact he ht

/-! ## Types of schemas -/

/-- More is read while the builder keeps what it holds. -/
theorem Clean.resolve (hc : Clean r earlier c) (raw : Value) (pointer : String) :
    Clean r earlier { c with resolved := (r.resolve raw pointer c.resolved).2 } := by
  obtain ⟨-, hgrows⟩ := Resolver.prepared_resolve hc.founded.prepared raw pointer
  have hknown : ∀ n, Known c.resolved n → Known (r.resolve raw pointer c.resolved).2 n := fun n hn => hgrows.known hn
  refine ⟨Resolver.founded_resolve hc.founded raw pointer, ?_, fun ht => hc.clean (ht.of_remembered hgrows.remembered)⟩
  exact ⟨hc.composing.1.mono hknown, hc.composing.2.mono hknown⟩

/-- A known node is built, or there is an error that is innocent. -/
theorem Clean.build (hschemas : (keyTexts r.schemas).Nodup) (hc : Clean r earlier c) {n : SchemaNode}
    (hn : Known c.resolved n) (context : String) :
    Clean r earlier { c with builder := (refFor n context c.builder).2 } ∧
      ∀ e, (refFor n context c.builder).1 = .error e → Innocent r e c := by
  have hfamily := hc.founded.prepared.family
  obtain ⟨hcomposed, herror⟩ := TypeBuilder.buildsComposed r.Pending n _ hfamily hn context c.builder hc.composing
  obtain ⟨hright, -⟩ := TypeBuilder.buildsRight r.Pending n _ hfamily hn context c.builder hc.composing.1
  exact ⟨⟨hc.founded, ⟨hright, hcomposed⟩, hc.clean⟩, fun e he ht => herror e he (hc.founded.separated hschemas ht)⟩

/-- A step of the builder changes the builder only, and its error is that of the step. -/
theorem building_apply {α : Type} (step : TypeBuilder.Build α) (c : Compilation) :
    building step c = ((step c.builder).1.mapError .error, { c with builder := (step c.builder).2 }) := by
  unfold building
  rw [Step.get_bind_apply]
  rcases step c.builder with ⟨e | a, builder⟩ <;> rfl

variable (hschemas : (keyTexts r.schemas).Nodup)

include hschemas

/-- The type of a schema is built from one that is read, or refused for an error that is innocent. -/
theorem clean_typeOf (raw : Value) (pointer context : String) :
    Step.Keeps (Clean r earlier) (typeOf r raw pointer context) (fun _ => True)
      fun h c => ∀ e, h = .error e → Innocent r e c := by
  intro c hc
  have hresolved := hc.resolve raw pointer
  have hreliable := hc.founded.prepared.reliable
  obtain ⟨-, -, hnode⟩ := Resolver.runs_resolve hreliable raw pointer
  have hinnocent : ∀ e, (r.resolve raw pointer c.resolved).1 = .error (.error e) → ¬ e.IsCollision :=
    fun _ he => Resolver.not_isCollision_of_resolve hreliable.sound he
  unfold typeOf
  rw [Step.bind_apply]
  unfold resolveSchema Step.zoom
  rcases hrun : r.resolve raw pointer c.resolved with ⟨halt | n, t⟩
  · -- nothing is built for a schema that does not resolve
    rw [hrun] at hresolved hinnocent
    refine ⟨hresolved, fun _ _ => trivial, fun h hh e he => ?_⟩
    subst he
    cases hh
    exact innocent_of_not (hinnocent e rfl) _
  · rw [hrun] at hresolved hnode
    obtain ⟨hbuilt, herror⟩ := hresolved.build hschemas (Resolver.known_of_nodeOf? (hnode n rfl)) context
    dsimp only
    rw [building_apply]
    refine ⟨hbuilt, fun _ _ => trivial, fun h hh e he => ?_⟩
    subst he
    obtain ⟨e', he', heq⟩ := mapError_eq_error.1 hh
    cases heq
    exact herror e he'

/-- A compilation stays clean all along: an error that is not about a name is innocent anyway. -/
def cleaning (earlier : List CompileError) : Discipline r where
  inv := Clean r earlier
  expects h c := ∀ e, h = .error e → Innocent r e c
  error c _ he := fun _ heq => (by cases heq; exact innocent_of_not he c)
  breakdown _ _ := nofun
  record e _ hc he := hc.record (he e rfl)
  notice _ _ _ hc := ⟨hc.founded, hc.composing, hc.clean⟩
  remember _ _ hc := ⟨hc.founded, hc.composing, hc.clean⟩
  typeOf _ _ := clean_typeOf hschemas _ _ _

/-! ## Components -/

/-- The components are resolved and built without an error about a name, as far as the names of all that is read
differ. -/
theorem clean_of_compileComponents {typeErrors : List CompileError}
    (h : Step.Gives (compileComponents r) initial typeErrors c) : Clean r typeErrors c := by
  obtain ⟨nodes, t, ⟨hout, hstate⟩, rfl, rfl⟩ := gives_compileComponents h
  have hfounded := Resolver.founded_resolveComponents hschemas hout
  obtain ⟨-, -, hreturned⟩ := Resolver.prepared_resolveComponents (r := r) Resolver.prepared_initial
  have heq := hreturned nodes hout
  rw [hstate] at hfounded heq
  have hfamily := hfounded.prepared.family
  have hknown : ∀ e ∈ nodes, Known t e.2 ∧ e.2.info.component = some e.1 := by
    intro e he
    rw [heq] at he
    exact ⟨.component he, (hfounded.prepared.carried e he).component⟩
  obtain ⟨hcomposed, hblameless⟩ := TypeBuilder.composes_buildComponents hfamily hknown
    ⟨TypeBuilder.right_empty, TypeBuilder.composed_empty⟩
  obtain ⟨hright, -⟩ := TypeBuilder.buildComponents_spec hfamily (fun e he => (hknown e he).1)
    TypeBuilder.right_empty
  refine ⟨hfounded, ⟨hright, hcomposed⟩, fun ht e he => ?_⟩
  rcases List.mem_append.1 he with he | he
  · exact hblameless e he (hfounded.separated hschemas ht)
  · cases he

/-! ## A whole compilation -/

/-- All is compiled without an error about a name, if the names of all that was read in the end differ. -/
theorem innocent_of_compileAll {typeErrors : List CompileError} {operations : List Operation}
    (h : Step.Gives (compileAll r) initial (typeErrors, operations) c) (ht : r.Titled c.resolved) :
    ∀ e ∈ c.resolved.errors ++ typeErrors ++ c.errors, ¬ e.IsCollision := by
  obtain ⟨errors, c₁, hcomponents, h⟩ := Step.gives_bind.1 h
  obtain ⟨later, c₂, hpaths, h⟩ := Step.gives_bind.1 h
  obtain ⟨heq, rfl⟩ := Step.gives_pure.1 h
  cases heq
  -- the errors of the types count as earlier ones for all that the operations add
  obtain ⟨hclean, -⟩ := (cleaning hschemas typeErrors).neverFails_compilePaths
    (fun _ _ hc => ⟨hc.founded, hc.composing, hc.clean⟩) c₁ (clean_of_compileComponents hschemas hcomponents)
  rw [hpaths.2] at hclean
  intro e he
  rw [List.append_assoc] at he
  rcases List.mem_append.1 he with he | he
  · exact hclean.founded.innocent e he
  · exact hclean.clean ht e he

end Compilation

/-- The names in a description differ: no component has an empty key, every schema that is read as an object or a union
is a component or has a title that is not empty, and the names of the components and of the titles of the other schemas
that are read differ. -/
def Document.Titled (d : Document) : Prop :=
  ∀ r, Resolver.ofDocument d = .ok r → r.Titled (Compilation.compileAll r .initial).2.resolved

instance (d : Document) : Decidable d.Titled :=
  decidable_of_iff
    (∀ r ∈ (Resolver.ofDocument d).toOption, r.Titled (Compilation.compileAll r .initial).2.resolved)
    (forall_congr' fun _ => imp_congr_left toOption_eq_some)

/-- A description whose names differ is not refused for a name, in whatever places its schemas stand and however often
they are referred to. No text is a key twice in a mapping, as in every document that is read from a text
(`Document.distinctKeys_of_ofText`). -/
theorem compile_apart {d : Document} {version : Option String} {errors : List CompileError}
    (hd : d.graph.DistinctKeys) (ht : d.Titled) (h : compile d version = .error (.errors errors)) :
    ∀ e ∈ errors, ¬ e.IsCollision := by
  rw [compile_eq] at h
  split at h
  · cases h
  · rename_i collected hcollect
    split_ifs at h
    cases h
    cases hr : Resolver.ofDocument d with
    | error halt =>
      -- nothing is compiled if the component schemas are no mapping
      cases halt with
      | error e =>
        simp only [collect, hr] at hcollect
        cases hcollect
        obtain ⟨rfl, -⟩ := Resolver.ofDocument_eq_error hr
        intro e he
        rw [List.mem_singleton.1 he]
        exact id
      | breakdown b =>
        simp only [collect, hr] at hcollect
        cases hcollect
    | ok r =>
      obtain ⟨typeErrors, operations, s, hrun, rfl⟩ := exists_run_of_collect hr hcollect
      have hgives : Step.Gives (Compilation.compileAll r) .initial (typeErrors, operations) s :=
        ⟨congrArg Prod.fst hrun, congrArg Prod.snd hrun⟩
      have htitled := ht r hr
      rw [hgives.2] at htitled
      exact Compilation.innocent_of_compileAll (Resolver.nodup_schemas_of_ofDocument hd hr) hgives htitled

/-- A description of a shelter. Pets and animals are one mapping, which stands in a page as well. The schema of the
drafts is a reference to that page, which has a title, and two operations respond with it. A parameter has no schema. -/
def shelterDocument : Document where
  graph := ⟨#[
    .mapping [(.text "components", .container 1), (.text "paths", .container 6)],
    .mapping [(.text "schemas", .container 2)],
    .mapping [(.text "Pet", .container 3), (.text "Animal", .container 3), (.text "Draft", .container 5)],
    .mapping [(.text "type", .scalar (.text "object")), (.text "properties", .container 4)],
    .mapping [(.text "name", .container 18)],
    .mapping [(.text "$ref",
      .scalar (.text "#/paths/~1pets/get/responses/200/content/application~1json/schema"))],
    .mapping [(.text "/pets", .container 7), (.text "/drafts", .container 9)],
    .mapping [(.text "get", .container 8)],
    .mapping [(.text "responses", .container 11)],
    .mapping [(.text "get", .container 10)],
    .mapping [(.text "responses", .container 11), (.text "parameters", .container 19)],
    .mapping [(.text "200", .container 12)],
    .mapping [(.text "content", .container 13)],
    .mapping [(.text "application/json", .container 14)],
    .mapping [(.text "schema", .container 15)],
    .mapping [(.text "type", .scalar (.text "object")), (.text "title", .scalar (.text "Page")),
      (.text "properties", .container 16)],
    .mapping [(.text "pet", .container 3), (.text "animal", .container 17)],
    .mapping [(.text "$ref", .scalar (.text "#/components/schemas/Animal"))],
    .mapping [(.text "type", .scalar (.text "string"))],
    .list [.container 20],
    .mapping [(.text "name", .scalar (.text "limit")), (.text "in", .scalar (.text "query"))]]⟩
  root := .container 0

theorem compile_apart_shelterDocument : shelterDocument.graph.DistinctKeys ∧ shelterDocument.Titled ∧
    ∃ errors, compile shelterDocument none = .error (.errors errors) ∧ ∀ e ∈ errors, ¬ e.IsCollision := by
  have hd : shelterDocument.graph.DistinctKeys := by decide +kernel
  have ht : shelterDocument.Titled := by decide +kernel
  have h : compile shelterDocument none =
      .error (.errors [.invalidParameter "limit" "#/paths/~1drafts/get/parameters/0" .missingSchema]) := by
    decide +kernel
  exact ⟨hd, ht, _, h, compile_apart hd ht h⟩

end RouteBinding
