import RouteBinding.Proofs.Model.Kind
import RouteBinding.Proofs.Operation.Inventory

/-!
# Aliases come to an end

In a description that compiles, every chain of aliases ends, at a type that is no alias (`compile_aliases`). What
is refused as a loop is a loop of components that refer to each other by their own names, while aliases stand under
the names of types, and two components may share one. So the chains of aliases are followed back to components: the
target of an alias is no name, or it is the name of a reference that the description holds, and where the
references of its node end, the aliases of its name end.
-/

namespace RouteBinding

open Resolver (Known)

variable {r : Resolver} {nodes : List (String × SchemaNode)} {c : Compilation} {api : CompiledApi}
  {m : TypeModel} {ref target : TypeRef}

namespace TypeModel

/-! ## Models -/

/-- All chains of aliases of a model end, and `unalias` finds the ends: where all names are defined, these are no
aliases. No chain comes back to where it began. -/
structure AliasesEnd (m : TypeModel) : Prop where
  reached : ∀ ref, ∃ n, Leads m.aliasTarget? n ref (m.unalias ref)
  settled : ∀ ref, (∀ name, ref.Mentions name → m.contains name) → m.Settled (m.unalias ref)
  acyclic : ∀ ref, ¬ Relation.TransGen (fun a b => m.aliasTarget? a = some b) ref ref

/-- A type that says what a layer says stands for itself. -/
theorem Describes.settled {α : Type} {R : α → TypeRef → Prop} {l : Layer α} (h : m.Describes R l ref) :
    m.Settled ref := by
  cases h with
  | primitive kind => trivial
  | array h => trivial
  | object hget _ => exact ⟨_, hget, fun _ _ => TypeDef.noConfusion⟩
  | oneOf hget _ => exact ⟨_, hget, fun _ _ => TypeDef.noConfusion⟩

/-- A type that is no alias stands for itself, if it is no name that is not defined. -/
theorem settled_of_aliasTarget? (h : m.aliasTarget? ref = none)
    (hnames : ∀ name, ref.Mentions name → m.contains name) : m.Settled ref := by
  cases ref with
  | named name =>
    obtain ⟨d, hget⟩ := Option.isSome_iff_exists.1 (hnames name rfl)
    refine ⟨d, hget, ?_⟩
    rintro own target rfl
    rw [aliasTarget?_of_get? hget] at h
    cases h
  | _ => trivial

/-- If behind the target of every alias a type stands that is no alias, all chains of aliases end. -/
theorem aliasesEnd_of_targets
    (h : ∀ ref target, m.aliasTarget? ref = some target →
      ∃ n last, Leads m.aliasTarget? n target last ∧ m.Settled last) : m.AliasesEnd := by
  have hends (ref : TypeRef) : ∃ n last, Leads m.aliasTarget? n ref last ∧
      (m.aliasTarget? ref = none ∧ last = ref ∨ m.Settled last) := by
    cases hnext : m.aliasTarget? ref with
    | none => exact ⟨0, ref, .done hnext, .inl ⟨rfl, rfl⟩⟩
    | some target =>
      obtain ⟨n, last, hlead, hsettled⟩ := h ref target hnext
      exact ⟨n + 1, last, .step hnext hlead, .inr hsettled⟩
  refine ⟨fun ref => ?_, fun ref hnames => ?_, fun ref => ?_⟩
  · obtain ⟨n, last, hlead, -⟩ := hends ref
    rw [unalias_of_leads hlead]
    exact ⟨n, hlead⟩
  · obtain ⟨n, last, hlead, ⟨hnone, rfl⟩ | hsettled⟩ := hends ref
    · rw [unalias_of_leads hlead]
      exact settled_of_aliasTarget? hnone hnames
    · rwa [unalias_of_leads hlead]
  · obtain ⟨n, last, hlead, -⟩ := hends ref
    exact hlead.not_transGen

end TypeModel

/-! ## Compiled descriptions -/

namespace Compilation.Compiled

/-- Where the references of a node end among the components, the aliases of its name end. -/
theorem leads_of_reference (h : Compiled r nodes c api) {info : NodeInfo} {name : String}
    (hn : Known c.resolved (.reference info name)) :
    ∃ n last, Leads api.types.aliasTarget? n (.named (Naming.typeName name)) last ∧
      api.types.Settled last := by
  obtain ⟨v, hshows⟩ := hn.shows h.steady.reliable.sound h.steady.components
  obtain ⟨k, last, hlead, hlast⟩ := h.complete.exists_leads hshows
  have htyped : Typed api.types (.reference info name) (.named (Naming.typeName name)) := by
    rw [Typed]
  obtain ⟨n, type, htype, hdescribes⟩ := h.linked.endsAt hlead hshows htyped hlast
  exact ⟨n, type, htype, hdescribes.settled⟩

theorem leads_of_aliasTarget? (h : Compiled r nodes c api)
    (htarget : api.types.aliasTarget? ref = some target) :
    ∃ n last, Leads api.types.aliasTarget? n target last ∧ api.types.Settled last := by
  obtain ⟨name, own, rfl, hget⟩ := TypeModel.aliasTarget?_eq_some htarget
  rw [h.model] at hget
  have hgrounded := h.steady.right.grounded _ (mem_of_lookup hget)
  cases target with
  | primitive kind => exact ⟨0, _, .done rfl, trivial⟩
  | array item => exact ⟨0, _, .done rfl, trivial⟩
  | named name =>
    obtain ⟨info, component, hn, rfl⟩ := hgrounded
    exact h.leads_of_reference hn

end Compilation.Compiled

/-- In a description that compiles all chains of aliases end, at types that are no aliases. -/
theorem compile_aliases {d : Document} {version : Option String} {api : CompiledApi}
    (h : compile d version = .ok api) : api.types.AliasesEnd := by
  obtain ⟨r, nodes, c, -, hcompiled⟩ := Compilation.compiled_of_compile h
  exact TypeModel.aliasesEnd_of_targets fun ref target => hcompiled.leads_of_aliasTarget?

/-- A description of an owner, who is a user, who is an id. Two of the components have one name as types. -/
def ownersDocument : Document where
  graph := ⟨#[
    .mapping [(.text "components", .container 1)],
    .mapping [(.text "schemas", .container 2)],
    .mapping [(.text "Owner", .container 3), (.text "user-id", .container 4), (.text "UserId", .container 4),
      (.text "Id", .container 5)],
    .mapping [(.text "$ref", .scalar (.text "#/components/schemas/UserId"))],
    .mapping [(.text "$ref", .scalar (.text "#/components/schemas/Id"))],
    .mapping [(.text "type", .scalar (.text "integer"))]]⟩
  root := .container 0

theorem compile_aliases_ownersDocument :
    ∃ api, compile ownersDocument none = .ok api ∧
      api.types.definitions = [("Owner", .alias "Owner" (.named "UserId")),
        ("UserId", .alias "UserId" (.named "Id")), ("Id", .alias "Id" (.primitive .integer))] ∧
      api.types.AliasesEnd := by
  have hdefinitions : (compile ownersDocument none).toOption.map (·.types.definitions) =
      some [("Owner", .alias "Owner" (.named "UserId")), ("UserId", .alias "UserId" (.named "Id")),
        ("Id", .alias "Id" (.primitive .integer))] := by
    decide +kernel
  cases h : compile ownersDocument none with
  | error e =>
    rw [h] at hdefinitions
    cases hdefinitions
  | ok api =>
    rw [h] at hdefinitions
    exact ⟨api, rfl, Option.some.inj hdefinitions, compile_aliases h⟩

end RouteBinding
