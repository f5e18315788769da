import RouteBinding.Proofs.Model.Outline
import RouteBinding.Proofs.Operation.Walk

/-!
# What a compiled description means

If a description compiles, every type in the compiled form has the outline of the schema that it was compiled
from, to every depth: the types of the components, and those of the parameters, bodies and responses of the
operations (`compile_meaning`).
-/

namespace RouteBinding

open Compilation
open TypeBuilder (TypedComponent componentTypes givenType?)

/-! ## Compiling without errors -/

namespace Compilation

variable {r : Resolver} {c c' : Compilation} {nodes : List (String × SchemaNode)}

/-- What the components of a description have come to: their nodes, and their types if there are no errors. -/
structure Begun (r : Resolver) (nodes : List (String × SchemaNode)) (errors : List CompileError)
    (c : Compilation) : Prop where
  resolved : (r.resolveComponents .initial).1 = .ok nodes
  components : c.resolved.components = nodes
  steady : Steady r c
  complete : c.resolved.errors = [] → r.Complete nodes
  recorded : ∀ n ∈ nodes, Resolver.RecordedAs r c.resolved.nodes n
  typed : errors = [] → List.Forall₂ (fun n t => t.1 = n.1 ∧ TypedComponent c.builder.model n t.2 ∧
    givenType? c.builder.built n.2 = some t.2) nodes (componentTypes nodes .empty)

/-- A component that is kept shows its schema. -/
theorem shows_of_resolvesAll {s t : Resolver.State} (h : r.ResolvesAll s t nodes)
    {n : String × SchemaNode} (hn : n ∈ nodes) : ∃ v, r.Shows v n.2 := by
  have hmem : (n.1, n.2.form) ∈ Resolver.componentForms nodes := List.mem_map_of_mem hn
  rw [h.forms] at hmem
  obtain ⟨e, -, he⟩ := List.mem_filterMap.1 (List.mem_filter.1 hmem).1
  refine ⟨e.2, (Resolver.resolves_of_entry (c := n) ?_).shows⟩
  cases hentry : r.entry e with
  | error halt => rw [hentry] at he; cases he
  | ok c => rw [hentry] at he; rw [Option.some.inj he]

/-- Compiling the components begins a compilation. -/
theorem begun_of_compileComponents {errors : List CompileError}
    (h : Step.Gives (compileComponents r) initial errors c) : ∃ nodes, Begun r nodes errors c := by
  obtain ⟨nodes, t, ⟨hout, hstate⟩, rfl, rfl⟩ := gives_compileComponents h
  obtain ⟨-, hsound, hall⟩ := Resolver.resolveComponents_spec (r := r) Resolver.sound_initial rfl
  have hcoherent := Resolver.coherent_resolveComponents Resolver.coherent_initial r
  have hrecords := Resolver.records_resolveComponents r
  have hresolves := hall nodes rfl hout
  rw [hstate] at hsound hcoherent hrecords hresolves
  have hcomponents : ∀ e ∈ t.components, ∃ v, r.Shows v e.2 := by
    intro e he
    rw [hresolves.returned] at he
    exact shows_of_resolvesAll hresolves he
  have hfamily := Resolver.family_of_coherent hsound hcoherent hcomponents
  have hknown : ∀ n ∈ nodes, Resolver.Known t n.2 := by
    intro n hn
    rw [← hresolves.returned] at hn
    exact .component hn
  obtain ⟨hright, -, htyped⟩ := TypeBuilder.buildComponents_spec hfamily hknown TypeBuilder.right_empty
  refine ⟨nodes, hout, hresolves.returned, ⟨⟨hsound, hcoherent, hrecords.1⟩, hcomponents, hright,
    fun e he => ?_, fun e he => ?_⟩, fun hnil => ?_, hresolves.returned ▸ hrecords.2, htyped⟩
  · cases he
  · cases he
  · exact (Resolver.complete_of_resolveComponents (Prod.ext hout hstate) hnil).1

/-- A description has been compiled: what is left at the end tells what the compiled form means. -/
structure Compiled (r : Resolver) (nodes : List (String × SchemaNode)) (c : Compilation)
    (api : CompiledApi) : Prop where
  resolved : (r.resolveComponents .initial).1 = .ok nodes
  components : c.resolved.components = nodes
  steady : Steady r c
  model : api.types = c.builder.model
  complete : r.Complete nodes
  typed : List.Forall₂ (fun n t => t.1 = n.1 ∧ TypedComponent api.types n t.2) nodes
    (componentTypes nodes .empty)
  recorded : ∀ n ∈ nodes, Resolver.RecordedAs r c.resolved.nodes n
  given : List.Forall₂ (fun n t => t.1 = n.1 ∧ givenType? c.builder.built n.2 = some t.2) nodes
    (componentTypes nodes .empty)
  operations : ∀ op ∈ api.operations, Faithful r c op

/-- A description that compiles has left no errors anywhere, so that its operations are those that it declares. -/
theorem operations_of_compile {d : Document} {version : Option String} {api : CompiledApi}
    (h : compile d version = .ok api) :
    ∃ r nodes c, Resolver.ofDocument d = .ok r ∧ Compiled r nodes c api ∧
      (∀ e ∈ r.paths?.getD [], ∃ path, e.1 = .text path) ∧
      List.Forall₂ (CompiledAs r c) r.operationKeys api.operations := by
  unfold compile at h
  split at h
  · cases h
  · cases h
  · rename_i r hr
    dsimp only at h
    split at h
    · cases h
    · cases h
    · rename_i typeErrors operations c hrun
      split_ifs at h with hempty
      cases h
      -- the errors of the resolver, of the types and of the operations are all empty
      have herrors := List.isEmpty_iff.1 hempty
      obtain ⟨hrest, hcompile⟩ := List.append_eq_nil_iff.1 herrors
      obtain ⟨hresolver, htypes⟩ := List.append_eq_nil_iff.1 hrest
      have hgives : Step.Gives _ initial (typeErrors, operations) c :=
        ⟨congrArg Prod.fst hrun, congrArg Prod.snd hrun⟩
      obtain ⟨errors, c₁, hcomponents, hgives⟩ := Step.gives_bind.1 hgives
      obtain ⟨ops, c₂, hpaths, hgives⟩ := Step.gives_bind.1 hgives
      obtain ⟨heq, rfl⟩ := Step.gives_pure.1 hgives
      cases heq
      obtain ⟨nodes, hbegun⟩ := begun_of_compileComponents hcomponents
      obtain ⟨hsteady, hlater, hops⟩ := runs_compilePaths hbegun.steady
      rw [hpaths.2] at hsteady hlater hops
      have htyped := hbegun.typed htypes
      obtain ⟨htexts, hcompiled⟩ := hops operations hpaths.1 hcompile
      refine ⟨r, nodes, c₂, hr, ⟨hbegun.resolved, hlater.resolved.components.trans hbegun.components,
        hsteady, rfl, hbegun.complete ?_, ?_, ?_, ?_, ?_⟩, htexts, hcompiled⟩
      · rw [← hlater.resolverErrors]
        exact hresolver
      · exact htyped.imp fun n t ht => ⟨ht.1, ht.2.1.mono hlater.model⟩
      · exact fun n hn => (hbegun.recorded n hn).mono hlater.resolved.remembered
      · exact htyped.imp fun n t ht => ⟨ht.1, hlater.builder.given ht.2.2⟩
      · intro op hop
        obtain ⟨key, -, hkey⟩ := exists_of_forall₂ hcompiled.flip hop
        exact CompiledAs.faithful hkey

theorem compiled_of_compile {d : Document} {version : Option String} {api : CompiledApi}
    (h : compile d version = .ok api) :
    ∃ r nodes c, Resolver.ofDocument d = .ok r ∧ Compiled r nodes c api := by
  obtain ⟨r, nodes, c, hr, hcompiled, -⟩ := operations_of_compile h
  exact ⟨r, nodes, c, hr, hcompiled⟩

/-- The operations of a description that compiles are checked against the types that are defined in the end. -/
theorem checked_of_compile {d : Document} {version : Option String} {api : CompiledApi}
    (h : compile d version = .ok api) :
    ∃ r c, Resolver.ofDocument d = .ok r ∧ ∀ op ∈ api.operations, ∃ item entries,
      OperationFor r (Meant r c) (fun p => OutcomeAt r (Meant r c) p.pointer) item entries op ∧
        OperationChecked r api.types item entries op := by
  obtain ⟨r, nodes, c, hr, hcompiled, -, hoperations⟩ := operations_of_compile h
  refine ⟨r, c, hr, fun op hop => ?_⟩
  obtain ⟨key, -, -, item, entries, hfor, hchecked⟩ := exists_of_forall₂ hoperations.flip hop
  rw [← hcompiled.model] at hchecked
  exact ⟨item, entries, hfor, hchecked⟩

end Compilation

/-! ## Meaning -/

/-- A type means a schema: they have the same outline, to every depth. -/
def Agrees (r : Resolver) (m : TypeModel) (schema : Value) (type : TypeRef) : Prop :=
  ∀ depth, ∃ o, r.outline depth schema = some o ∧ m.outline depth type = some o

/-- A component means its schema, by the type that it was given and by its name, unless that is empty. -/
structure ComponentMeans (r : Resolver) (m : TypeModel) (e : Scalar × Value) (t : String × TypeRef) :
    Prop where
  key : e.1 = .text t.1
  given : Agrees r m e.2 t.2
  named : t.1 ≠ "" → Agrees r m e.2 (.named (Naming.typeName t.1))

/-- The types of a compiled description mean the schemas that they were compiled from. -/
structure Meaning (r : Resolver) (api : CompiledApi) : Prop where
  components : ∃ nodes, (r.resolveComponents .initial).1 = .ok nodes ∧
    List.Forall₂ (ComponentMeans r api.types) r.schemas (componentTypes nodes .empty)
  operations : ∀ op ∈ api.operations, ∃ item entries,
    OperationFor r (Agrees r api.types) (fun p => OutcomeFor r (Agrees r api.types) p.entries)
      item entries op

/-- Behind an alias stands what stands behind its target. -/
theorem TypeModel.outline_eq_of_alias {m : TypeModel} {ref target : TypeRef} {n : SchemaNode}
    (h : m.aliasTarget? ref = some target) (hend : m.EndsAt target n) (depth : Nat) :
    m.outline depth ref = m.outline depth target := by
  obtain ⟨k, last, hlead, -⟩ := hend
  cases depth with
  | zero => rfl
  | succ depth =>
    simp only [outline, unalias_of_leads hlead, unalias_of_leads (.step h hlead)]

namespace Compilation.Compiled

variable {r : Resolver} {nodes : List (String × SchemaNode)} {c : Compilation} {api : CompiledApi}

theorem linked (h : Compiled r nodes c api) : Linked r nodes api.types where
  complete := h.complete
  typed n hn := by
    obtain ⟨e, -, he⟩ := exists_of_forall₂ h.complete.resolves.flip hn
    obtain ⟨t, -, ht⟩ := exists_of_forall₂ h.typed hn
    exact ⟨he.component, t.2, ht.2⟩

theorem agrees (h : Compiled r nodes c api) {schema : Value} {type : TypeRef}
    (hm : Meant r c schema type) : Agrees r api.types schema type := by
  obtain ⟨n, -, hform, htyped⟩ := hm.typed h.steady
  rw [← h.model] at htyped
  exact fun depth => h.linked.outline_eq depth hform.shows htyped

/-- The name of a component means the schema that the component's node shows. -/
theorem agrees_named (h : Compiled r nodes c api) {schema : Value} {n : String × SchemaNode}
    {type : TypeRef} (hshows : r.Shows schema n.2) (hcomponent : n.2.info.component = some n.1)
    (ht : TypedComponent api.types n type) (hname : n.1 ≠ "") :
    Agrees r api.types schema (.named (Naming.typeName n.1)) := by
  intro depth
  obtain ⟨o, hschema, htype⟩ := h.linked.outline_eq depth hshows ht.typed
  refine ⟨o, hschema, ?_⟩
  rcases ht.named_or_alias hname hcomponent with ⟨hnamed, -⟩ | halias
  · rwa [← hnamed]
  · obtain ⟨k, last, hlead, hlast⟩ := h.complete.exists_leads hshows
    have hend := h.linked.endsAt hlead hshows ht.typed hlast
    rwa [TypeModel.outline_eq_of_alias (TypeModel.aliasTarget?_of_get? halias) hend]

theorem meaning (h : Compiled r nodes c api) (hd : r.document.graph.DistinctKeys) :
    Meaning r api where
  components := by
    refine ⟨nodes, h.resolved, forall₂_comp h.complete.resolves h.typed fun e n t he ht => ?_⟩
    obtain ⟨hname, htyped⟩ := ht
    refine ⟨hname ▸ he.key, fun depth => h.linked.outline_eq depth he.shows htyped.typed, ?_⟩
    rw [hname]
    exact h.agrees_named he.shows he.component htyped
  operations op hop := by
    obtain ⟨item, entries, hfor⟩ := h.operations op hop
    refine ⟨item, entries, hfor.mono (fun _ _ hm => h.agrees hm) fun p o hp ho => ?_⟩
    exact (ho.outcomeFor hd hp).mono fun _ _ hm => h.agrees hm

end Compilation.Compiled

/-- A description that compiles means what it says. No text is a key twice in a mapping, as in every document
that is read from a text (`Document.distinctKeys_of_ofText`). -/
theorem compile_meaning {d : Document} {version : Option String} {api : CompiledApi}
    (hd : d.graph.DistinctKeys) (h : compile d version = .ok api) :
    ∃ r, Resolver.ofDocument d = .ok r ∧ Meaning r api := by
  obtain ⟨r, nodes, c, hr, hcompiled⟩ := Compilation.compiled_of_compile h
  have hdocument : r.document = d := Resolver.document_of_ofDocument hr
  exact ⟨r, hr, hcompiled.meaning (hdocument ▸ hd)⟩

/-- A description of nodes that refer to each other. The mapping of a text stands in two places, as the label of
a node and as the schema of a parameter. -/
def nodesDocument : Document where
  graph := ⟨#[
    .mapping [(.text "components", .container 1), (.text "paths", .container 6)],
    .mapping [(.text "schemas", .container 2)],
    .mapping [(.text "Node", .container 3)],
    .mapping [(.text "type", .scalar (.text "object")), (.text "properties", .container 4)],
    .mapping [(.text "next", .container 5), (.text "label", .container 8)],
    .mapping [(.text "$ref", .scalar (.text "#/components/schemas/Node"))],
    .mapping [(.text "/nodes/\x7bid\x7d", .container 7)],
    .mapping [(.text "get", .container 9)],
    .mapping [(.text "type", .scalar (.text "string"))],
    .mapping [(.text "parameters", .container 10), (.text "responses", .container 12)],
    .list [.container 11],
    .mapping [(.text "name", .scalar (.text "id")), (.text "in", .scalar (.text "path")),
      (.text "schema", .container 8)],
    .mapping [(.text "200", .container 13)],
    .mapping [(.text "content", .container 14)],
    .mapping [(.text "application/json", .container 15)],
    .mapping [(.text "schema", .container 5)]]⟩
  root := .container 0

theorem compile_meaning_nodesDocument : nodesDocument.graph.DistinctKeys ∧
    ∃ api, compile nodesDocument none = .ok api ∧
      ∃ r, Resolver.ofDocument nodesDocument = .ok r ∧ Meaning r api := by
  have hd : nodesDocument.graph.DistinctKeys := by decide +kernel
  have hcompiles : (compile nodesDocument none).isOk = true := by decide +kernel
  cases h : compile nodesDocument none with
  | error e => rw [h] at hcompiles; cases hcompiles
  | ok api => exact ⟨hd, api, rfl, compile_meaning hd h⟩

end RouteBinding
