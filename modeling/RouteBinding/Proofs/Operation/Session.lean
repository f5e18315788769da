import RouteBinding.Proofs.Model.Composed
import RouteBinding.Proofs.Operation.Components

/-!
# A builder that is called again and again

A builder is given the nodes of a resolver, one after the other, and the components whenever they are asked for; calls
that fail are among them. Each call leaves the definitions of before where they stand and adds others behind them. A
definition stands under its own name, an object gives each field a name of its own, and a union each branch. A node that
was given a type is given the same one by every later call, which then adds nothing (`Session.calls_keep`).
-/

namespace RouteBinding

open Relation (ReflTransGen)
open Resolver (Known Prepared)
open TypeBuilder (Composing Composed NamesBranches refFor givenType?)

/-! ## Nodes that are built -/

namespace Resolver

variable {r : Resolver} {v : Value} {info : NodeInfo}

/-- The properties of an object that shows a schema have different names. -/
theorem Shows.nodup_properties (hd : r.document.graph.DistinctKeys) {properties : List (String × SchemaNode)}
    {required : List String} (h : r.Shows v (.object info properties required)) : (properties.map (·.1)).Nodup := by
  refine h.induct (P := fun _ => (properties.map Prod.fst).Nodup) (fun _ _ _ _ _ _ _ hw => hw)
    fun v id reading hreads hagree => ?_
  obtain ⟨entries, -, hread⟩ := hreads
  have hpart := partOf_of_read hread
  generalize reading.layer = layer at hagree hpart
  cases hagree with
  | @object found _ _ hproperties =>
    have hnames : found.map (·.1) = properties.map (·.1) := by
      rw [← List.forall₂_eq_eq_eq, List.forall₂_map_left_iff, List.forall₂_map_right_iff]
      exact hproperties.imp fun _ _ h => h.1
    rw [← hnames]
    cases hpart with
    | noProperties required => exact List.nodup_nil
    | object required hmapping hentries =>
      have hnodup := hd.nodup hentries
      have htexts : keyTexts (found.map fun p => (Scalar.text p.1, p.2)) = found.map (·.1) := by
        rw [keyTexts, List.filterMap_map]
        exact congrFun List.filterMap_eq_map found
      rwa [htexts] at hnodup

theorem readStructure_ne_oneOf_nil {g : Graph} {entries : List (Scalar × Value)} {pointer : String} :
    readStructure g entries pointer ≠ .ok (.oneOf []) := by
  intro h
  unfold readStructure at h
  split at h
  · exact absurd h refuse_ne_ok
  · split at h
    · split at h
      · cases h
      · exact absurd h refuse_ne_ok
    · obtain ⟨kind, -, h⟩ := bind_eq_ok.1 h
      cases kind with
      | primitive kind => cases h
      | array =>
        dsimp only at h
        split at h
        · cases h
        · exact absurd h refuse_ne_ok
      | object =>
        obtain ⟨properties, -, h⟩ := bind_eq_ok.1 h
        cases h

/-- A schema that is read as a union has a branch. -/
theorem Reads.ne_oneOf_nil {id : Nat} {reading : Reading} (h : r.Reads v id reading) : reading.layer ≠ .oneOf [] := by
  obtain ⟨entries, -, hread⟩ := h
  intro hlayer
  unfold read at hread
  obtain ⟨title, -, hread⟩ := bind_eq_ok.1 hread
  split at hread
  · obtain ⟨layer, hreference, hread⟩ := bind_eq_ok.1 hread
    cases hread
    cases hlayer
    have hpart : PartOf r.document [] (.oneOf []) := partOf_of_readReference hreference
    cases hpart with
    | oneOf hlist => cases hlist
  · obtain ⟨layer, hstructure, hread⟩ := bind_eq_ok.1 hread
    cases hread
    cases hlayer
    exact readStructure_ne_oneOf_nil hstructure

/-- A union that shows a schema has a branch. -/
theorem Shows.branches_ne_nil {branches : List SchemaNode} (h : r.Shows v (.oneOf info branches)) : branches ≠ [] := by
  refine h.induct (P := fun _ => branches ≠ []) (fun _ _ _ _ _ _ _ hw => hw) fun v id reading hreads hagree => ?_
  rintro rfl
  have hne := hreads.ne_oneOf_nil
  generalize reading.layer = layer at hagree hne
  cases hagree with
  | oneOf hbranches =>
    cases hbranches
    exact hne rfl

end Resolver

namespace TypeBuilder

variable {b : TypeBuilder} {n : SchemaNode} {ref : TypeRef}

/-- What was built already is given back. -/
theorem unlessBuilt_of_lookup {serial : Nat} (h : b.built.lookup serial = some ref) (step : Build TypeRef) :
    (do
      match (← get).built.lookup serial with
      | some ref => return ref
      | none => step : Build TypeRef) b = (.ok ref, b) := by
  rw [Step.get_bind_apply, h]
  rfl

/-- A node that was given a type is given it again, whatever name it would fall back to, and nothing is added. -/
theorem refFor_of_given (h : givenType? b.built n = some ref) (fallback : String) :
    refFor n fallback b = (.ok ref, b) := by
  cases n with
  | reference info target =>
    rw [refFor]
    cases h
    rfl
  | primitive info kind =>
    rw [refFor]
    exact unlessBuilt_of_lookup h _
  | array info item =>
    rw [refFor]
    exact unlessBuilt_of_lookup h _
  | object info properties required =>
    rw [refFor]
    exact unlessBuilt_of_lookup h _
  | oneOf info branches =>
    rw [refFor]
    exact unlessBuilt_of_lookup h _

end TypeBuilder

/-! ## Calls -/

/-- A resolver and the builder that is given its nodes, with the errors of the components. -/
structure Session where
  resolved : Resolver.State
  builder : TypeBuilder
  errors : List CompileError

namespace Session

variable {r : Resolver} {s t : Session} {n : SchemaNode}

/-- Nothing was called yet. -/
def initial : Session := ⟨.initial, .empty, []⟩

/-- A call on the resolver or on the builder. -/
inductive Call
  | resolve (raw : Value) (pointer : String)
  | resolveComponents
  | buildComponents
  | build (n : SchemaNode) (context : String)

/-- What a call leaves behind, whether it succeeds or not. -/
def run (r : Resolver) (s : Session) : Call → Session
  | .resolve raw pointer => { s with resolved := (r.resolve raw pointer s.resolved).2 }
  | .resolveComponents => { s with resolved := (r.resolveComponents s.resolved).2 }
  | .buildComponents =>
    match r.resolveComponents s.resolved with
    | (.error _, resolved) => { s with resolved }
    | (.ok components, resolved) =>
      let (errors, builder) := TypeBuilder.buildComponents components s.builder
      ⟨resolved, builder, s.errors ++ errors⟩
  | .build n context => { s with builder := (refFor n context s.builder).2 }

/-- The builder is only given nodes of the resolver. -/
def Call.Allowed (s : Session) : Call → Prop
  | .build n _ => Known s.resolved n
  | _ => True

/-- One session comes after another by a call. -/
def Next (r : Resolver) (s t : Session) : Prop :=
  ∃ call : Call, call.Allowed s ∧ run r s call = t

/-- What stays so in a session: the resolver holds what it should, and the definitions of the builder are made for
nodes of the resolver. -/
structure Intact (r : Resolver) (s : Session) : Prop where
  prepared : Prepared r s.resolved
  composing : Composing (Known s.resolved) r.Pending s.builder

/-- A session that goes on: nothing of the resolver or of the builder is lost. -/
structure Later (s t : Session) : Prop where
  resolved : s.resolved.Grows t.resolved
  builder : TypeBuilder.Later s.builder t.builder

theorem Later.refl (s : Session) : Later s s :=
  ⟨.refl _, .refl _⟩

theorem Later.trans {u : Session} (h : Later s t) (h' : Later t u) : Later s u :=
  ⟨h.resolved.trans h'.resolved, h.builder.trans h'.builder⟩

theorem intact_initial : Intact r .initial :=
  ⟨Resolver.prepared_initial, TypeBuilder.right_empty, TypeBuilder.composed_empty⟩

/-- The builder keeps what it holds while its resolver is asked for more. -/
theorem Intact.grow {resolved : Resolver.State} (hs : Intact r s) (hprepared : Prepared r resolved)
    (hgrows : s.resolved.Grows resolved) (errors : List CompileError) :
    Intact r ⟨resolved, s.builder, errors⟩ ∧ Later s ⟨resolved, s.builder, errors⟩ := by
  have hknown : ∀ n, Known s.resolved n → Known resolved n := fun n hn => hgrows.known hn
  exact ⟨⟨hprepared, hs.composing.1.mono hknown, hs.composing.2.mono hknown⟩, hgrows, .refl _⟩

theorem Intact.build (hs : Intact r s) (hn : Known s.resolved n) (context : String) :
    Intact r (run r s (.build n context)) ∧ Later s (run r s (.build n context)) := by
  have hfamily := hs.prepared.family
  obtain ⟨hcomposed, -⟩ := TypeBuilder.buildsComposed r.Pending n _ hfamily hn context s.builder hs.composing
  obtain ⟨hright, hlater, -⟩ := TypeBuilder.buildsRight r.Pending n _ hfamily hn context s.builder hs.composing.1
  exact ⟨⟨hs.prepared, hright, hcomposed⟩, .refl _, hlater⟩

theorem Intact.buildComponents (hs : Intact r s) (errors : List CompileError) :
    Intact r ⟨s.resolved, (TypeBuilder.buildComponents s.resolved.components s.builder).2, errors⟩ ∧
      Later s ⟨s.resolved, (TypeBuilder.buildComponents s.resolved.components s.builder).2, errors⟩ := by
  have hfamily := hs.prepared.family
  have hknown : ∀ e ∈ s.resolved.components, Known s.resolved e.2 ∧ e.2.info.component = some e.1 :=
    fun e he => ⟨.component he, (hs.prepared.carried e he).component⟩
  obtain ⟨hcomposed, -⟩ := TypeBuilder.composes_buildComponents hfamily hknown hs.composing
  obtain ⟨hright, hlater, -⟩ :=
    TypeBuilder.buildComponents_spec hfamily (fun e he => (hknown e he).1) hs.composing.1
  exact ⟨⟨hs.prepared, hright, hcomposed⟩, .refl _, hlater⟩

/-- Every call leaves an intact session intact and loses nothing. -/
theorem Intact.run (hs : Intact r s) {call : Call} (hcall : call.Allowed s) :
    Intact r (run r s call) ∧ Later s (run r s call) := by
  cases call with
  | resolve raw pointer =>
    obtain ⟨hprepared, hgrows⟩ := Resolver.prepared_resolve hs.prepared raw pointer
    exact hs.grow hprepared hgrows s.errors
  | resolveComponents =>
    obtain ⟨hprepared, hgrows, -⟩ := Resolver.prepared_resolveComponents hs.prepared
    exact hs.grow hprepared hgrows s.errors
  | buildComponents =>
    obtain ⟨hprepared, hgrows, hcomponents⟩ := Resolver.prepared_resolveComponents hs.prepared
    obtain ⟨hgrown, hlater⟩ := hs.grow hprepared hgrows s.errors
    unfold Session.run
    rcases hrun : r.resolveComponents s.resolved with ⟨halt | components, resolved⟩
    · rw [hrun] at hgrown hlater
      exact ⟨hgrown, hlater⟩
    · rw [hrun] at hgrown hlater hcomponents
      have hreturned : components = resolved.components := hcomponents components rfl
      subst hreturned
      obtain ⟨hbuilt, hlater'⟩ := hgrown.buildComponents _
      exact ⟨hbuilt, hlater.trans hlater'⟩
  | build n context => exact hs.build hcall context

/-- Any calls leave an intact session intact and lose nothing. -/
theorem Intact.calls (hs : Intact r s) (h : ReflTransGen (Next r) s t) : Intact r t ∧ Later s t := by
  induction h with
  | refl => exact ⟨hs, .refl s⟩
  | tail _ hnext ih =>
    obtain ⟨call, hcall, rfl⟩ := hnext
    obtain ⟨hintact, hlater⟩ := ih.1.run hcall
    exact ⟨hintact, ih.2.trans hlater⟩

/-! ## Definitions -/

/-- An object definition has as many names as fields. -/
theorem Intact.nodup_fields (hs : Intact r s) (hd : r.document.graph.DistinctKeys) {key name : String}
    {fields : List Field} (h : (key, TypeDef.object name fields) ∈ s.builder.model.definitions) :
    (fields.map (·.name)).Nodup := by
  obtain ⟨n, hn, hmade, -⟩ := hs.composing.2.made _ h
  obtain ⟨v, hshows⟩ := hs.prepared.shows hn
  cases n with
  | object info properties required =>
    obtain ⟨-, fields', hdef, hnames⟩ := hmade
    obtain ⟨-, rfl⟩ := TypeDef.object.inj hdef
    rw [hnames]
    exact hshows.nodup_properties hd
  | primitive info kind => cases hmade.2
  | reference info target => cases hmade.2
  | array info item =>
    obtain ⟨-, t, ht⟩ := hmade
    cases ht
  | oneOf info branches =>
    obtain ⟨-, variants, hdef, -⟩ := hmade
    cases hdef

/-- A union definition is made for a union of the resolver, which has a branch. -/
theorem Intact.union (hs : Intact r s) {key name : String} {variants : List Variant}
    (h : (key, TypeDef.union name variants) ∈ s.builder.model.definitions) :
    variants ≠ [] ∧
      ∃ info branches, Known s.resolved (.oneOf info branches) ∧ NamesBranches name branches variants := by
  obtain ⟨n, hn, hmade, -⟩ := hs.composing.2.made _ h
  obtain ⟨v, hshows⟩ := hs.prepared.shows hn
  cases n with
  | oneOf info branches =>
    obtain ⟨-, variants', hdef, hnames⟩ := hmade
    obtain ⟨rfl, rfl⟩ := TypeDef.union.inj hdef
    refine ⟨?_, info, branches, hn, hnames⟩
    rintro rfl
    exact hshows.branches_ne_nil (List.forall₂_nil_right_iff.1 hnames.named)
  | primitive info kind => cases hmade.2
  | reference info target => cases hmade.2
  | array info item =>
    obtain ⟨-, t, ht⟩ := hmade
    cases ht
  | object info properties required =>
    obtain ⟨-, fields, hdef, -⟩ := hmade
    cases hdef

/-- After any calls, every definition stands under its own name, and no two under the same. No object gives two fields
one name; a union has a branch, its variants are those of the branches of a node, in their order, and no two have one
name. Any further calls add definitions behind these. A node that the builder was given and has given a type is given
the same one ever after, under every name, and nothing is added then. -/
theorem calls_keep (hd : r.document.graph.DistinctKeys) (hs : ReflTransGen (Next r) .initial s) :
    (∀ e ∈ s.builder.model.definitions, e.2.name = e.1) ∧ s.builder.model.names.Nodup ∧
    (∀ key name fields, (key, TypeDef.object name fields) ∈ s.builder.model.definitions →
      (fields.map (·.name)).Nodup) ∧
    (∀ key name variants, (key, TypeDef.union name variants) ∈ s.builder.model.definitions → variants ≠ [] ∧
      ∃ info branches, Known s.resolved (.oneOf info branches) ∧ NamesBranches name branches variants) ∧
    (∀ t, ReflTransGen (Next r) s t → s.builder.model.definitions <+: t.builder.model.definitions) ∧
    ∀ n context ref, Known s.resolved n → (refFor n context s.builder).1 = .ok ref →
      ∀ t, ReflTransGen (Next r) (run r s (.build n context)) t →
        ∀ context', refFor n context' t.builder = (.ok ref, t.builder) := by
  obtain ⟨hintact, -⟩ := intact_initial.calls hs
  refine ⟨hintact.composing.1.names, hintact.composing.2.nodup, fun key name fields h => hintact.nodup_fields hd h,
    fun key name variants h => hintact.union h, fun t ht => (hintact.calls ht).2.builder.model, ?_⟩
  intro n context ref hn href t ht context'
  obtain ⟨-, -, hgiven⟩ :=
    TypeBuilder.buildsRight r.Pending n _ hintact.prepared.family hn context s.builder hintact.composing.1
  obtain ⟨-, hlater⟩ := (hintact.build hn context).1.calls ht
  exact TypeBuilder.refFor_of_given (hlater.builder.given (hgiven ref href)) context'

/-- A resolver for a document with one component: a union of a cat and of an object without a name. -/
def petsResolver : Resolver where
  document :=
    { graph := ⟨#[
        .mapping [(.text "type", .scalar (.text "object")), (.text "title", .scalar (.text "Cat"))],
        .mapping [(.text "type", .scalar (.text "object"))],
        .list [.container 0, .container 1],
        .mapping [(.text "oneOf", .container 2)]]⟩
      root := .scalar .null }
  schemas := [(.text "Pet", .container 3)]

/-- The node of the cat. -/
def catNode : SchemaNode :=
  .object ⟨0, "#/components/schemas/Pet/oneOf/0", some "Cat", none⟩ [] []

/-- The union fails after its first branch was defined. That definition stays, and the branch is given its name however
it is called. -/
theorem calls_keep_petsResolver :
    petsResolver.document.graph.DistinctKeys ∧
    ∃ s, ReflTransGen (Next petsResolver) .initial s ∧ s.errors ≠ [] ∧ s.builder.model.names = ["Cat"] ∧
      Known s.resolved catNode ∧ (refFor catNode "Animal" s.builder).1 = .ok (.named "Cat") ∧
      ∀ context, refFor catNode context (run petsResolver s (.build catNode "Animal")).builder =
        (.ok (.named "Cat"), (run petsResolver s (.build catNode "Animal")).builder) := by
  have hd : petsResolver.document.graph.DistinctKeys := by
    decide
  have hs : ReflTransGen (Next petsResolver) .initial (run petsResolver .initial .buildComponents) :=
    .single ⟨.buildComponents, trivial, rfl⟩
  have hcat : Known (run petsResolver .initial .buildComponents).resolved catNode := by
    have hlookup : (run petsResolver .initial .buildComponents).resolved.nodes.lookup 0 = some catNode := by
      rfl
    exact .stored (mem_of_lookup hlookup)
  have hbuild : (refFor catNode "Animal" (run petsResolver .initial .buildComponents).builder).1 =
      .ok (.named "Cat") := by
    rfl
  obtain ⟨-, -, -, -, -, hgiven⟩ := calls_keep hd hs
  refine ⟨hd, _, hs, ?_, ?_, hcat, hbuild, hgiven catNode "Animal" _ hcat hbuild _ .refl⟩
  · decide
  · decide

end Session

end RouteBinding
