import RouteBinding.Proofs.Model.Builder
import RouteBinding.Proofs.Model.Kind
import RouteBinding.Proofs.Operation.Contract
import RouteBinding.Proofs.Schema.Recorded

/-!
# Schemas in a compilation

A schema that is given a type has a node that is remembered for it, and the type is the one that this node was
given (`Compilation.Meant`); that stays so. Through a whole compilation the resolver stays sound and coherent, the
builder holds right types of known nodes, and what became of a parameter is right for what it says and has passed
its check, or has left an error (`Steady`).
-/

namespace RouteBinding

open Course (Runs)
open Resolver (Known Coherent Records Remembered nodeOf?)
open TypeBuilder (givenType?)

namespace Resolver

variable {r : Resolver} {s t : State}

/-! ## Resolving a schema -/

/-- What a resolver has read so far is right: the nodes have the forms of their schemas, serial numbers tell them
apart, and every mapping was read once. -/
structure Reliable (r : Resolver) (s : State) : Prop where
  sound : r.Sound s
  coherent : Coherent s
  records : Records r s.nodes

/-- A resolver that was asked for more schemas. -/
structure State.Later (s t : State) : Prop where
  nodes : s.nodes ⊆ t.nodes
  remembered : Remembered s.nodes t.nodes
  components : t.components = s.components
  errors : t.errors = s.errors

theorem State.Later.refl (s : State) : s.Later s :=
  ⟨List.Subset.refl _, fun _ _ h => h, rfl, rfl⟩

theorem State.Later.trans {u : State} (h : s.Later t) (h' : t.Later u) : s.Later u where
  nodes := List.Subset.trans h.nodes h'.nodes
  remembered id n hn := h'.remembered id n (h.remembered id n hn)
  components := h'.components.trans h.components
  errors := h'.errors.trans h.errors

/-- The states of a resolver that is asked for schemas only. -/
def schemaCourse (r : Resolver) : Course State where
  inv := Reliable r
  le := State.Later
  refl := State.Later.refl
  trans := State.Later.trans

/-- A schema resolves to the node that is remembered for it. -/
theorem runs_resolve (hs : r.Reliable s) (raw : Value) (pointer : String) :
    r.schemaCourse.Runs (r.resolve raw pointer) s fun n t => nodeOf? t.nodes raw = some n := by
  obtain ⟨hcoherent, hle, -⟩ :=
    runs_expandWithin hs.coherent r (r.document.graph.size + 1) [] ⟨raw, pointer⟩
  obtain ⟨⟨hrecords, -⟩, ⟨hremembered, -⟩, hnode⟩ := recording_resolve hs.records raw pointer
  have hext := extends_resolve hs.sound raw pointer
  exact ⟨⟨hext.sound, hcoherent, hrecords⟩, ⟨hle.1, hremembered, hext.components, hext.errors⟩, hnode⟩

/-- A node that is found for a value is known. -/
theorem known_of_nodeOf? {n : SchemaNode} {v : Value} (h : nodeOf? s.nodes v = some n) : Known s n := by
  cases v with
  | container id => exact .stored (mem_of_lookup h)
  | scalar value => cases h

/-- The node that is remembered for a schema has the form of it. -/
theorem Sound.hasForm_of_nodeOf? {n : SchemaNode} {v : Value} (hs : r.Sound s)
    (h : nodeOf? s.nodes v = some n) : r.HasForm v n.form := by
  cases v with
  | container id => exact hs _ (mem_of_lookup h)
  | scalar value => cases h

/-- The names of the types of the components that can be referred to. -/
def Pending (r : Resolver) (name : String) : Prop :=
  ∃ component, r.declares component ∧ component ≠ "" ∧ Naming.typeName component = name

/-- Every node that a state knows shows a schema, if its components do. -/
theorem Known.shows {n : SchemaNode} (h : Known s n) (hs : r.Sound s)
    (hcomponents : ∀ c ∈ s.components, ∃ v, r.Shows v c.2) : ∃ v, r.Shows v n := by
  induction h with
  | stored h => exact ⟨_, (hs _ h).shows⟩
  | component h => exact hcomponents _ h
  | inner _ hc ih =>
    obtain ⟨v, hv⟩ := ih
    exact hv.inner hc

/-- The nodes of a sound state are a family that can be built from. -/
theorem family_of_coherent (hs : r.Sound s) (hc : Coherent s)
    (hcomponents : ∀ c ∈ s.components, ∃ v, r.Shows v c.2) : Family (Known s) r.Pending where
  inner _ _ hn hmem := hn.inner hmem
  unique := hc.unique
  pending info target hn := by
    obtain ⟨v, hv⟩ := hn.shows hs hcomponents
    obtain ⟨hdeclared, hname⟩ := hv.declares
    exact ⟨target, hdeclared, hname, rfl⟩

end Resolver

namespace Compilation

variable {r : Resolver} {c c' : Compilation}

/-! ## The course of a compilation -/

/-- What grows in a compilation. -/
structure Later (c c' : Compilation) : Prop where
  resolved : c.resolved.Later c'.resolved
  builder : TypeBuilder.Later c.builder c'.builder
  errors : c.errors <+: c'.errors
  diagnostics : c.diagnostics <+: c'.diagnostics

theorem Later.model (h : Later c c') : c.builder.model.Extends c'.builder.model :=
  h.builder.model

/-- The errors of the resolver do not change any more. -/
theorem Later.resolverErrors (h : Later c c') : c'.resolved.errors = c.resolved.errors :=
  h.resolved.errors

theorem Later.refl (c : Compilation) : Later c c where
  resolved := .refl _
  builder := .refl _
  errors := List.prefix_rfl
  diagnostics := List.prefix_rfl

theorem Later.trans {c'' : Compilation} (h : Later c c') (h' : Later c' c'') : Later c c'' where
  resolved := h.resolved.trans h'.resolved
  builder := h.builder.trans h'.builder
  errors := h.errors.trans h'.errors
  diagnostics := h.diagnostics.trans h'.diagnostics

/-- Without errors later there were none before. -/
theorem Later.errors_eq_nil (h : Later c c') (hnil : c'.errors = []) : c.errors = [] := by
  have hprefix := h.errors
  rw [hnil] at hprefix
  exact List.prefix_nil.1 hprefix

/-- A node that is known is known later too. -/
theorem Later.known {n : SchemaNode} (h : Later c c') (hn : Known c.resolved n) :
    Known c'.resolved n :=
  Resolver.known_mono h.resolved.nodes (by rw [h.resolved.components]; exact List.Subset.refl _) hn

/-- In a compilation, a schema has been given a type: the one of the node that is remembered for it. -/
def Meant (r : Resolver) (c : Compilation) (schema : Value) (type : TypeRef) : Prop :=
  ∃ n, nodeOf? c.resolved.nodes schema = some n ∧ r.Shows schema n ∧
    givenType? c.builder.built n = some type

/-- A type that is meant by a schema is meant later too. -/
theorem Meant.mono {schema : Value} {type : TypeRef} (h : Later c c')
    (hm : Meant r c schema type) : Meant r c' schema type := by
  obtain ⟨n, hn, hshows, hgiven⟩ := hm
  exact ⟨n, h.resolved.remembered.nodeOf? hn, hshows, h.builder.given hgiven⟩

/-- What became of a parameter has been checked: a bound one has the type of a scalar or of an array of scalars,
and one that was refused has left an error. -/
def Checked (c : Compilation) : ParameterOutcome → Prop
  | .bound q => c.builder.model.IsScalarLike q.type
  | .skipped => True
  | .refused => c.errors ≠ []

/-- An outcome that was checked is checked later too. -/
theorem Checked.mono {outcome : ParameterOutcome} (h : Later c c') (ho : Checked c outcome) :
    Checked c' outcome := by
  cases outcome with
  | bound q => exact TypeModel.IsScalarLike.mono h.model ho
  | skipped => trivial
  | refused => exact fun hnil => ho (h.errors_eq_nil hnil)

/-- What stays so in a compilation: of the schemas, of the types and of the parameters met so far. -/
structure Steady (r : Resolver) (c : Compilation) : Prop where
  reliable : r.Reliable c.resolved
  components : ∀ e ∈ c.resolved.components, ∃ v, r.Shows v e.2
  right : TypeBuilder.Right (Known c.resolved) r.Pending c.builder
  parameters : ∀ e ∈ c.parameters, OutcomeAt r (Meant r c) e.1 e.2
  checked : ∀ e ∈ c.parameters, Checked c e.2

/-- What is known of a steady compilation can be built from. -/
theorem Steady.family (h : Steady r c) : Family (Known c.resolved) r.Pending :=
  Resolver.family_of_coherent h.reliable.sound h.reliable.coherent h.components

/-- What became of parameters stays right and checked later on. -/
theorem Steady.parameters_mono (hc : Steady r c) (h : Later c c') :
    ∀ e ∈ c.parameters, OutcomeAt r (Meant r c') e.1 e.2 ∧ Checked c' e.2 :=
  fun e he => ⟨(hc.parameters e he).mono fun _ _ hm => hm.mono h, (hc.checked e he).mono h⟩

/-- A compilation is later if nothing was done but to add errors and findings. -/
theorem Later.aside (hresolved : c'.resolved = c.resolved) (hbuilder : c'.builder = c.builder)
    (herrors : c.errors <+: c'.errors) (hdiagnostics : c.diagnostics <+: c'.diagnostics) :
    Later c c' where
  resolved := by
    rw [hresolved]
    exact .refl _
  builder := by
    rw [hbuilder]
    exact .refl _
  errors := herrors
  diagnostics := hdiagnostics

/-- A change beside the schemas, the types and the parameters leaves a compilation steady. -/
theorem Steady.aside (hc : Steady r c) (hresolved : c'.resolved = c.resolved)
    (hbuilder : c'.builder = c.builder) (hparameters : c'.parameters = c.parameters)
    (herrors : c.errors <+: c'.errors) (hdiagnostics : c.diagnostics <+: c'.diagnostics) :
    Steady r c' := by
  have hkept := hc.parameters_mono (.aside hresolved hbuilder herrors hdiagnostics)
  rw [← hparameters] at hkept
  refine ⟨?_, ?_, ?_, fun e he => (hkept e he).1, fun e he => (hkept e he).2⟩
  · exact hresolved ▸ hc.reliable
  · exact hresolved ▸ hc.components
  · rw [hresolved, hbuilder]
    exact hc.right

/-- A type that a schema has been given is right for a known node of the form of the schema. -/
theorem Meant.typed {schema : Value} {type : TypeRef} (hc : Steady r c) (h : Meant r c schema type) :
    ∃ n, Known c.resolved n ∧ r.HasForm schema n.form ∧ Typed c.builder.model n type := by
  obtain ⟨n, hn, -, hgiven⟩ := h
  have hknown := Resolver.known_of_nodeOf? hn
  exact ⟨n, hknown, hc.reliable.sound.hasForm_of_nodeOf? hn, hc.right.typed hc.family hknown hgiven⟩

/-- A type that a schema has been given mentions only names that are accounted for. -/
theorem Meant.closed {schema : Value} {type : TypeRef} (hc : Steady r c)
    (h : Meant r c schema type) : c.builder.model.Closed r.Pending type := by
  obtain ⟨n, hknown, -, htyped⟩ := h.typed hc
  exact htyped.closed hc.family hknown

/-- The compilations that stay steady. -/
def steady (r : Resolver) : Course Compilation where
  inv := Steady r
  le := Later
  refl := Later.refl
  trans := Later.trans

/-- A schema that is resolved is remembered with its node. -/
theorem runs_resolveSchema (hc : Steady r c) (raw : Value) (pointer : String) :
    (steady r).Runs (resolveSchema r raw pointer) c fun n c' => nodeOf? c'.resolved.nodes raw = some n := by
  refine (Resolver.runs_resolve hc.reliable raw pointer).zoom (fun t ht hle => ?_)
    fun n t _ _ hn => hn
  have hlater : Later c { c with resolved := t } := ⟨hle, .refl _, List.prefix_rfl, List.prefix_rfl⟩
  have hkept := hc.parameters_mono hlater
  refine ⟨⟨ht, fun e he => ?_, hc.right.mono fun n hn => hlater.known hn,
    fun e he => (hkept e he).1, fun e he => (hkept e he).2⟩, hlater⟩
  rw [hle.components] at he
  exact hc.components e he

/-- A step of the builder is a step of the compilation. -/
theorem runs_building {α : Type} {step : TypeBuilder.Build α} {good : α → TypeBuilder → Prop}
    (hc : Steady r c)
    (h : (TypeBuilder.building (Known c.resolved) r.Pending).Runs step c.builder good) :
    (steady r).Runs (building step) c fun a c' =>
      c'.resolved = c.resolved ∧ good a c'.builder := by
  obtain ⟨hinv, hle, hgood⟩ := h
  unfold building
  refine Course.runs_get_bind ?_
  rcases hrun : step c.builder with ⟨outcome, b⟩
  rw [hrun] at hinv hle hgood
  dsimp only
  have hlater : Later c { c with builder := b } :=
    ⟨.refl _, hle, List.prefix_rfl, List.prefix_rfl⟩
  have hkept := hc.parameters_mono hlater
  have hsteady : Steady r { c with builder := b } :=
    ⟨hc.reliable, hc.components, hinv, fun e he => (hkept e he).1,
      fun e he => (hkept e he).2⟩
  refine Runs.bind (Course.runs_set hsteady hlater) fun _ c' hc' _ heq => ?_
  refine (Course.runs_ofExcept hc').mono fun a t _ _ ha => ?_
  rw [ha.2, heq]
  exact ⟨rfl, hgood a ha.1⟩

/-- A schema is given the type of its node. -/
theorem runs_typeOf (hc : Steady r c) (raw : Value) (pointer context : String) :
    (steady r).Runs (typeOf r raw pointer context) c fun type c' => Meant r c' raw type := by
  refine Runs.bind (runs_resolveSchema hc raw pointer) fun n c' hc' _ hn => ?_
  have hbuild := TypeBuilder.buildsRight r.Pending n _ hc'.family (Resolver.known_of_nodeOf? hn) context
    c'.builder hc'.right
  refine (runs_building hc' hbuild).mono fun type c'' _ hle h => ?_
  exact ⟨n, hle.resolved.remembered.nodeOf? hn, (hc'.reliable.sound.hasForm_of_nodeOf? hn).shows, h.2⟩

/-! ## The components -/

/-- Compiling the components resolves them and then builds what was resolved. -/
theorem gives_compileComponents {errors : List CompileError}
    (h : Step.Gives (compileComponents r) initial errors c) :
    ∃ nodes t, Step.Gives r.resolveComponents .initial nodes t ∧
      errors = (TypeBuilder.buildComponents nodes .empty).1 ∧
      c = { initial with resolved := t, builder := (TypeBuilder.buildComponents nodes .empty).2 } := by
  unfold compileComponents at h
  obtain ⟨nodes, c₁, hnodes, h⟩ := Step.gives_bind.1 h
  obtain ⟨t, hresolve, rfl⟩ := Step.gives_zoom.1 hnodes
  obtain ⟨c₂, c₃, hget, h⟩ := Step.gives_bind.1 h
  obtain ⟨rfl, rfl⟩ := Step.gives_get.1 hget
  dsimp only at h
  obtain ⟨_, c₄, hset, h⟩ := Step.gives_bind.1 h
  obtain rfl := Step.gives_set.1 hset
  obtain ⟨rfl, rfl⟩ := Step.gives_pure.1 h
  exact ⟨nodes, t, hresolve, rfl, rfl⟩

end Compilation

end RouteBinding
