import RouteBinding.Proofs.Schema.Provenance

/-!
# Pointers of nodes

Whatever a resolver was asked for, as long as every schema was asked for at its pointer: the pointer of each node
leads to a schema that says by itself what the node says (`pointers_faithful`).
-/

namespace RouteBinding.Resolver

open Step (Keeps)

variable {r : Resolver} {base : String → Value → Prop} {v : Value} {n : SchemaNode}
  {pointer : String} {s : State}

/-! ## The component schemas -/

/-- The pointer of every component leads to its schema, or its schema stands there. -/
def SchemasStand (r : Resolver) (base : String → Value → Prop) : Prop :=
  ∀ key raw, (key, raw) ∈ r.schemas →
    (∃ v, r.document.Stands base "#/components/schemas" v ∧ r.document.graph.entries? v = some r.schemas) ∧
      ∀ name, key = .text name → r.document.Stands base (Pointer.component name) raw

theorem schemasStand_of_ofDocument {d : Document} (h : ofDocument d = .ok r)
    (hbase : ∀ p u, r.document.find p = .ok u → base p u) : r.SchemasStand base := by
  obtain ⟨rfl, hschemas⟩ := ofDocument_eq_ok h
  intro key raw hmem
  rcases hschemas with hnil | ⟨v, hfind, hentries⟩
  · rw [hnil] at hmem
    exact absurd hmem List.not_mem_nil
  · have hv : r.document.Stands base "#/components/schemas" v := .base (hbase _ _ hfind)
    refine ⟨⟨v, hv, hentries⟩, ?_⟩
    rintro name rfl
    exact hv.entry hentries hmem

/-- The chain of a loop holds only names of components, and some. -/
theorem showsAliases_of_aliasError? {components : List (String × SchemaNode)} {name : String}
    {e : CompileError} (h : aliasError? components name = some e)
    (hcomponents : ∀ c ∈ components, ∃ raw, (.text c.1, raw) ∈ r.schemas) : r.ShowsAliases e := by
  obtain ⟨chain, ⟨before, last, rfl, -, -, hlast, hchain⟩, rfl⟩ := aliasError?_eq_some_iff.1 h
  have hbefore : ∀ a ∈ before, ∃ raw, (.text a, raw) ∈ r.schemas := by
    intro a ha
    obtain ⟨c, hc, rfl⟩ := List.mem_map.1 (mem_of_isChain hchain ha)
    exact hcomponents c hc
  refine ⟨before ++ [last], by simp, fun a ha => ?_, rfl⟩
  rcases List.mem_append.1 ha with ha | ha
  · exact hbefore a ha
  · rw [List.mem_singleton.1 ha]
    exact hbefore last hlast

theorem keeps_record {e : CompileError} (he : r.document.PointsInto base e ∨ r.ShowsAliases e)
    {expected : Halt → State → Prop} :
    Keeps (r.Remembers base) (record e) (fun _ => True) expected := by
  refine Step.keeps_modify fun s hs => ⟨hs.nodes, hs.components, fun e' he' => ?_⟩
  rcases List.mem_append.1 he' with he' | he'
  · exact hs.errors e' he'
  · rw [List.mem_singleton.1 he']
    exact he

variable (hbase : ∀ p u, r.document.find p = .ok u → base p u)

include hbase

/-- The node of a component is traced, or an error is recorded that points into the document. -/
theorem keeps_resolveComponent (hschemas : r.SchemasStand base) {key : Scalar} {raw : Value}
    (hmem : (key, raw) ∈ r.schemas) :
    Keeps (r.Remembers base) (r.resolveComponent key raw) (fun _ => True)
      fun (h : Halt) _ => h.BreaksFor r.document.graph.Breaks := by
  obtain ⟨⟨v, hv, hentries⟩, hstands⟩ := hschemas key raw hmem
  cases key with
  | text name =>
    have hresolve := keeps_resolve hbase (hstands name rfl)
    refine Keeps.bind (hresolve.attempt fun b _ hb => hb) fun outcome ⟨hok, herror⟩ => ?_
    cases outcome with
    | error e =>
      obtain ⟨_, he⟩ := herror e rfl
      exact keeps_record (.inl he)
    | ok node =>
      have hnode := hok node rfl
      have hstore {node : SchemaNode} (hnode : r.Traced (r.document.Stands base) raw node) :
          Keeps (r.Remembers base)
            (modify fun s => { s with components := s.components ++ [(name, node)] })
            (fun _ => True) fun (h : Halt) _ => h.BreaksFor r.document.graph.Breaks := by
        refine Step.keeps_modify fun s hs => ⟨hs.nodes, fun c hc => ?_, hs.errors⟩
        rcases List.mem_append.1 hc with hc | hc
        · exact hs.components c hc
        · rw [List.mem_singleton.1 hc]
          exact ⟨raw, hmem, hnode⟩
      dsimp only
      split_ifs
      · exact (Step.keeps_pure hnode).bind fun _ hnode => hstore hnode
      · exact (keeps_asComponent name hnode).bind fun _ hnode => hstore hnode
  | _ =>
    refine Keeps.bind (Step.keeps_spelled (fun _ _ => trivial) fun hnone _ => ?_) fun name (_ : True) => ?_
    · exact Graph.Breaks.entry hentries hmem (.inl hnone)
    · exact keeps_record (.inl (Document.pointsInto_of_pointers rfl hv))

/-- The components that are given back are traced to the schemas under their names. -/
theorem keeps_resolveComponents (hschemas : r.SchemasStand base) :
    Keeps (r.Remembers base) r.resolveComponents
      (fun components => ∀ c ∈ components, ∃ raw, (.text c.1, raw) ∈ r.schemas ∧
        r.Traced (r.document.Stands base) raw c.2)
      fun (h : Halt) _ => h.BreaksFor r.document.graph.Breaks := by
  have hreturn : Keeps (r.Remembers base) (do return (← get).components)
      (fun components => ∀ c ∈ components, ∃ raw, (.text c.1, raw) ∈ r.schemas ∧
        r.Traced (r.document.Stands base) raw c.2)
      fun (h : Halt) _ => h.BreaksFor r.document.graph.Breaks :=
    Step.keeps_get_bind fun s hs => Step.keeps_pure hs.components
  unfold resolveComponents
  refine Step.keeps_get_bind fun s hs => ?_
  split_ifs
  · exact hreturn
  · refine (Step.keeps_modify fun t ht => ⟨ht.nodes, ht.components, ht.errors⟩).bind fun _ _ => ?_
    refine (Step.keeps_forM fun e he => keeps_resolveComponent hbase hschemas he).bind fun _ _ => ?_
    refine (Step.keeps_modify fun t ht => ?_).bind fun _ _ => hreturn
    refine ⟨ht.nodes, fun c hc => ht.components c (List.mem_of_mem_filter hc), fun e he => ?_⟩
    rcases List.mem_append.1 he with he | he
    · exact ht.errors e he
    · obtain ⟨c, hc, halias⟩ := List.mem_filterMap.1 he
      refine .inr (showsAliases_of_aliasError? halias fun c hc => ?_)
      obtain ⟨raw, hmem, -⟩ := ht.components c hc
      exact ⟨raw, hmem⟩

omit hbase

/-! ## Any calls before -/

/-- A call asks for a schema at its pointer, or for the components. -/
def Call.AtPointer (d : Document) : Call → Prop
  | .resolve raw pointer => d.find pointer = .ok raw
  | .components => True

section Calls

variable (hbase : ∀ p u, r.document.find p = .ok u → base p u)

include hbase

theorem remembers_run (hschemas : r.SchemasStand base) (hs : r.Remembers base s) {call : Call}
    (hcall : call.AtPointer r.document) : r.Remembers base (r.run s call) := by
  cases call with
  | resolve raw pointer => exact (keeps_resolve hbase (.base (hbase _ _ hcall)) s hs).1
  | components => exact (keeps_resolveComponents hbase hschemas s hs).1

theorem remembers_after (hschemas : r.SchemasStand base) {calls : List Call}
    (hcalls : ∀ call ∈ calls, call.AtPointer r.document) : r.Remembers base (r.after calls) := by
  refine List.foldlRecOn calls r.run remembers_initial fun s hs call hcall => ?_
  exact remembers_run hbase hschemas hs (hcalls call hcall)

end Calls

theorem Traced.mono {place place' : String → Value → Prop} (h : r.Traced place v n)
    (hplace : ∀ p u, place p u → place' p u) : r.Traced place' v n := by
  have hcomes {w : Value} {m : SchemaNode} (hw : r.ComesFrom place w m) : r.ComesFrom place' w m := by
    obtain ⟨u, hleads, hu⟩ := hw
    exact ⟨u, hleads, hplace _ _ hu⟩
  refine ⟨hcomes h.comes, fun m hm => ?_⟩
  obtain ⟨u, hu, id, reading, hreads, hne, htitle, hlayer⟩ := h.mirrored m hm
  exact ⟨u, hplace _ _ hu, id, reading, hreads, hne, htitle, hlayer.mono fun _ _ _ hw => hcomes hw⟩

/-- After any calls that asked for every schema at its pointer: a schema that is found at a pointer, and so every
component, resolves to a node that comes from it, and for each node that stands in the node, the pointer of the node
leads to a schema, no reference to be followed, that says by itself what the node says. No text is a key twice in a
mapping, and no list has places that are too long to be read. -/
theorem pointers_faithful {d : Document} (hd : d.graph.DistinctKeys) (hi : d.graph.Indexable)
    (hr : ofDocument d = .ok r) {calls : List Call} (hcalls : ∀ call ∈ calls, call.AtPointer d) :
    (∀ components, (r.resolveComponents (r.after calls)).1 = .ok components →
      ∀ c ∈ components, ∃ raw, (.text c.1, raw) ∈ r.schemas ∧
        d.find (Pointer.component c.1) = .ok raw ∧
        r.Traced (fun p u => d.find p = .ok u) raw c.2) ∧
    ∀ raw pointer n, d.find pointer = .ok raw →
      (r.resolve raw pointer (r.after calls)).1 = .ok n →
      r.Traced (fun p u => d.find p = .ok u) raw n := by
  have hdocument : r.document = d := (ofDocument_eq_ok hr).1
  have hschemas := schemasStand_of_ofDocument hr fun p u (h : r.document.find p = .ok u) => h
  subst hdocument
  have hstands {p : String} {u : Value}
      (h : r.document.Stands (fun p u => r.document.find p = .ok u) p u) :
      r.document.find p = .ok u :=
    h.find hd hi fun _ _ h => h
  have hafter := remembers_after (fun _ _ h => h) hschemas hcalls
  refine ⟨fun components hrun c hc => ?_, fun raw pointer n hfind hrun => ?_⟩
  · have hkeeps := keeps_resolveComponents (fun _ _ h => h) hschemas _ hafter
    obtain ⟨raw, hmem, htraced⟩ := hkeeps.2.1 components hrun c hc
    refine ⟨raw, hmem, hstands ((hschemas _ _ hmem).2 _ rfl), htraced.mono fun p u h => hstands h⟩
  · have hkeeps := keeps_resolve (fun _ _ h => h) (.base hfind) _ hafter
    exact (hkeeps.2.1 n hrun).mono fun p u h => hstands h

/-- A document with a component of which both properties lead to one text in two steps. -/
def hopsDocument : Document where
  graph := ⟨#[
    .mapping [(.text "components", .container 1), (.text "paths", .container 8)],
    .mapping [(.text "schemas", .container 2), (.text "parts", .container 6)],
    .mapping [(.text "a/b", .container 3)],
    .mapping [(.text "type", .scalar (.text "object")), (.text "properties", .container 4)],
    .mapping [(.text "x", .container 5), (.text "y", .container 5)],
    .mapping [(.text "$ref", .scalar (.text "#/components/parts/near"))],
    .mapping [(.text "near", .container 7), (.text "far", .container 9)],
    .mapping [(.text "$ref", .scalar (.text "#/components/parts/far"))],
    .mapping [],
    .mapping [(.text "title", .scalar (.text "Label")), (.text "type", .scalar (.text "string"))]]⟩
  root := .container 0

theorem pointers_faithful_hopsDocument :
    let calls : List Call := [.resolve (.container 7) "#/components/parts/near", .components]
    hopsDocument.graph.DistinctKeys ∧ hopsDocument.graph.Indexable ∧
      (∀ call ∈ calls, call.AtPointer hopsDocument) ∧ ∃ r, ofDocument hopsDocument = .ok r ∧
        hopsDocument.find "#/components/schemas/a~1b/properties/y" = .ok (.container 5) ∧
        ∃ n, (r.resolve (.container 5) "#/components/schemas/a~1b/properties/y"
            (r.after calls)).1 = .ok n ∧
          n.info.pointer = "#/components/parts/far" ∧
          r.Traced (fun p u => hopsDocument.find p = .ok u) (.container 5) n := by
  intro calls
  let r : Resolver := ⟨hopsDocument, [(.text "a/b", .container 3)]⟩
  let inside := "#/components/schemas/a~1b/properties/y"
  have hd : hopsDocument.graph.DistinctKeys := by decide
  have hi : hopsDocument.graph.Indexable := by decide
  have hr : ofDocument hopsDocument = .ok r := by rfl
  have hcalls : ∀ call ∈ calls, call.AtPointer hopsDocument := by
    have hnear : hopsDocument.find "#/components/parts/near" = .ok (.container 7) :=
      toOption_eq_some.1 (by decide)
    intro call hcall
    rcases List.mem_pair.1 hcall with rfl | rfl
    · exact hnear
    · trivial
  have hinside : hopsDocument.find inside = .ok (.container 5) :=
    toOption_eq_some.1 (by decide)
  have hpointer : (r.resolve (.container 5) inside (r.after calls)).1.toOption.map (·.info.pointer) =
      some "#/components/parts/far" := by
    decide
  obtain ⟨n, hn, hpointer⟩ := Option.map_eq_some_iff.1 hpointer
  have hrun := toOption_eq_some.1 hn
  have htraced := (pointers_faithful hd hi hr hcalls).2 _ _ n hinside hrun
  exact ⟨hd, hi, hcalls, r, hr, hinside, n, hrun, hpointer, htraced⟩

end RouteBinding.Resolver
