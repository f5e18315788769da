import RouteBinding.Proofs.Operation.ParameterList
import RouteBinding.Proofs.Operation.Typing

/-!
# One schema, one type

In a description that compiles, two schemas that are one mapping, or lead to one by references that are not to
components, are given the same type, in whatever contexts they stand and whichever was compiled first
(`compile_sharing`). Names of types are made up from contexts only for the first of them: the resolver remembers
one node for every mapping, and the builder one type for every node, and both are kept to the end.
-/

namespace RouteBinding

open Compilation
open Resolver (nodeOf? Known Records)
open TypeBuilder (givenType? componentTypes)

/-! ## What stands inside a type -/

namespace TypeModel

/-- A schema stands inside a layer where a type stands inside the type of that layer. -/
inductive Part (m : TypeModel) : Layer Value → TypeRef → Value → TypeRef → Prop
  | item {v : Value} {t : TypeRef} : Part m (.array v) (.array t) v t
  | property {properties : List (String × Value)} {required : Option (List String)} {name own : String}
    {fields : List Field} {p : String × Value} {f : Field}
    (hget : m.get? name = some (.object own fields)) (h : (p, f) ∈ properties.zip fields) :
    Part m (.object properties required) (.named name) p.2 f.type
  | branch {branches : List Value} {name own : String} {variants : List Variant} {v : Value} {b : Variant}
    (hget : m.get? name = some (.union own variants)) (h : (v, b) ∈ branches.zip variants) :
    Part m (.oneOf branches) (.named name) v b.type

end TypeModel

/-- A schema inside a layer has the type of the node at its place, if the layer says what the node says. -/
theorem TypedBy.part {m : TypeModel} {R : SchemaNode → TypeRef → Prop} {S : Value → SchemaNode → Prop}
    {n : SchemaNode} {ref t : TypeRef} {layer : Layer Value} {v : Value} (h : TypedBy m R n ref)
    (hlayer : Layer.Agree S layer n.layer) (hpart : m.Part layer (m.unalias ref) v t) :
    ∃ c, S v c ∧ R c t := by
  cases n with
  | primitive info kind => cases hlayer; cases hpart
  | reference info target => cases hlayer; cases hpart
  | array info item =>
    obtain ⟨type, htype, halias⟩ := h
    rw [halias.unalias rfl] at hpart
    cases hlayer with
    | array hitem =>
      cases hpart
      exact ⟨item, hitem, htype⟩
  | object info properties required =>
    obtain ⟨name, fields, -, rfl, hget, hfields⟩ := h
    rw [TypeModel.unalias_of_get? hget fun _ _ => TypeDef.noConfusion] at hpart
    cases hlayer with
    | object _ hproperties =>
      cases hpart with
      | property hget' hmem =>
        rw [hget] at hget'
        cases hget'
        exact List.forall₂_zip (forall₂_comp hproperties hfields
          (U := fun p f => ∃ c, S p.2 c ∧ R c f.type) fun _ q _ hp hf => ⟨q.2, hp.2, hf.2.1⟩) hmem
  | oneOf info branches =>
    obtain ⟨name, variants, -, rfl, hget, hvariants⟩ := h
    rw [TypeModel.unalias_of_get? hget fun _ _ => TypeDef.noConfusion] at hpart
    cases hlayer with
    | oneOf hbranches =>
      cases hpart with
      | branch hget' hmem =>
        rw [hget] at hget'
        cases hget'
        exact List.forall₂_zip (forall₂_comp hbranches hvariants
          (U := fun v b => ∃ c, S v c ∧ R c b.type) fun _ c _ hv hb => ⟨c, hv, hb⟩) hmem

/-! ## Responses -/

/-- The status of a response and the schema that types it. -/
def responseSchema? (r : Resolver) (pointer : String) (e : Scalar × Value) : Option (String × Value) := do
  let status ← e.1.display?
  let (object, _, _) ← (r.resolveObject e.2 (Pointer.child (Pointer.child pointer "responses")
    (Pointer.escape status))).toOption
  (typingSchema? r.document.graph object).map (status, ·.2)

/-- The schemas that type responses, by status. -/
def responseSchemas (r : Resolver) (pointer : String) (responses : List (Scalar × Value)) :
    List (String × Value) :=
  responses.filterMap (responseSchema? r pointer)

theorem lookup_putResponse (status key : String) (type : TypeRef) (done : List (String × TypeRef)) :
    (putResponse status type done).lookup key = if key = status then some type else done.lookup key := by
  induction done with
  | nil =>
    by_cases hkey : key = status
    · simp [putResponse, hkey]
    · simp [putResponse, List.lookup_cons, beq_false_of_ne hkey, hkey]
  | cons e rest ih =>
    rcases e with ⟨s, t⟩
    rw [putResponse]
    by_cases hs : s = status
    · subst hs
      rw [if_pos rfl]
      by_cases hkey : key = s
      · simp [hkey]
      · simp [List.lookup_cons, beq_false_of_ne hkey, hkey]
    · rw [if_neg hs, List.lookup_cons, List.lookup_cons, ih]
      by_cases hkey : key = s
      · subst hkey
        simp [hs]
      · simp [beq_false_of_ne hkey]

theorem ResponseFor.rel {r : Resolver} {M : Value → TypeRef → Prop} {pointer : String}
    {e : Scalar × Value} {typed : String × Option TypeRef} (h : ResponseFor r M pointer e typed) :
    Option.Rel (fun s t => s.1 = typed.1 ∧ M s.2 t) (responseSchema? r pointer e) typed.2 := by
  obtain ⟨status, type⟩ := typed
  obtain ⟨hstatus, object, v, place, hobject, htype⟩ := h
  have hschema : responseSchema? r pointer e =
      (typingSchema? r.document.graph object).map (status, ·.2) := by
    simp only [responseSchema?, hstatus, hobject, Except.toOption, Option.bind_eq_bind, Option.bind_some]
  rw [hschema]
  generalize typingSchema? r.document.graph object = schema at htype
  cases schema <;> cases htype
  · exact .none
  · exact .some ⟨rfl, ‹_›⟩

/-- Of the schemas with one status the last one has the type under that status. -/
theorem lookup_putResponses {r : Resolver} {M : Value → TypeRef → Prop} {pointer : String}
    {responses : List (Scalar × Value)} {typed : List (String × Option TypeRef)}
    (h : List.Forall₂ (ResponseFor r M pointer) responses typed) (status : String)
    (done : List (String × TypeRef)) :
    match (responseSchemas r pointer responses).reverse.lookup status with
    | none => (putResponses done typed).lookup status = done.lookup status
    | some v => ∃ t, (putResponses done typed).lookup status = some t ∧ M v t := by
  -- by induction on the responses, for any types of the earlier ones
  induction h generalizing done with
  | nil => rfl
  | @cons e first rest typed he _ ih =>
    obtain ⟨shown, type⟩ := first
    have hrel := he.rel
    generalize hschema : responseSchema? r pointer e = schema at hrel
    cases hrel with
    | none =>
      have hschemas : responseSchemas r pointer (e :: rest) = responseSchemas r pointer rest :=
        List.filterMap_cons_none hschema
      rw [hschemas]
      exact ih done
    | @some first type hm =>
      obtain ⟨shown', v⟩ := first
      obtain ⟨rfl, hm⟩ : shown' = shown ∧ M v type := hm
      have hschemas : responseSchemas r pointer (e :: rest) = (shown', v) :: responseSchemas r pointer rest :=
        List.filterMap_cons_some hschema
      rw [hschemas, List.reverse_cons, List.lookup_append]
      have hrest := ih (putResponse shown' type done)
      rw [lookup_putResponse] at hrest
      cases hlookup : (responseSchemas r pointer rest).reverse.lookup status with
      | some w =>
        rw [hlookup] at hrest
        exact hrest
      | none =>
        rw [hlookup] at hrest
        by_cases hstatus : status = shown'
        · rw [if_pos hstatus] at hrest
          simpa [putResponses, hstatus] using ⟨type, hstatus ▸ hrest, hm⟩
        · rw [if_neg hstatus] at hrest
          simpa [putResponses, List.lookup_cons, beq_false_of_ne hstatus] using hrest

/-! ## Positions -/

/-- Inside a schema with a type, where its references end, a schema stands with a type. -/
def Inside (r : Resolver) (m : TypeModel) (v : Value) (t : TypeRef) (w : Value) (u : TypeRef) : Prop :=
  ∃ last id reading, r.LeadsTo v last ∧ r.Reads last id reading ∧ m.Part reading.layer (m.unalias t) w u

/-- A schema stands in a position of a description and has been given a type there: as the schema of a parameter
that is bound, of an entry of a body or of a response, or inside a component or inside a schema in another position, as
a property, an item or a branch. -/
inductive Position (r : Resolver) (api : CompiledApi) : Value → TypeRef → Prop
  | parameter {op : Operation} {item entries : List (Scalar × Value)} {ofPath own : List RawParameter}
    {p : RawParameter} {q : Parameter} {v : Value} (hop : op ∈ api.operations)
    (hpath : r.PathItem op.path item) (hmethod : r.operation? item op.method = some entries)
    (hofPath : r.Declares (Resolver.itemPointer op.path) item ofPath)
    (hown : r.Declares (Pointer.child (Resolver.itemPointer op.path) op.method.name) entries own)
    (hq : (p, q) ∈ (bindingObjects r.document.graph ofPath own).zip op.parameters)
    (hv : valueAt? "schema" p.entries = some v) : Position r api v q.type
  | body {op : Operation} {item entries content : List (Scalar × Value)} {raw v : Value}
    {body : BodyContract} {e : Scalar × Value} {b : String × BodyEntry} {t : TypeRef}
    (hop : op ∈ api.operations) (hpath : r.PathItem op.path item)
    (hmethod : r.operation? item op.method = some entries)
    (hraw : Resolver.keyword? "requestBody" entries = some raw) (hbody : op.body = some body)
    (hcontent : contentOf? r raw (Pointer.child (Pointer.child (Resolver.itemPointer op.path) op.method.name)
      "requestBody") = some content)
    (hb : (e, b) ∈ content.zip body.entries) (hv : bodySchema? r e = some v) (ht : b.2.type = some t) :
    Position r api v t
  | response {op : Operation} {item entries : List (Scalar × Value)} {status : String} {v : Value}
    {t : TypeRef} (hop : op ∈ api.operations) (hpath : r.PathItem op.path item)
    (hmethod : r.operation? item op.method = some entries)
    (hv : (responseSchemas r (Pointer.child (Resolver.itemPointer op.path) op.method.name)
      (responseEntries r entries)).reverse.lookup status = some v)
    (ht : op.responses.lookup status = some t) : Position r api v t
  | component {nodes : List (String × SchemaNode)} {name : String} {raw v : Value} {u t : TypeRef}
    (hnodes : (r.resolveComponents .initial).1 = .ok nodes) (hraw : (.text name, raw) ∈ r.schemas)
    (hu : (name, u) ∈ componentTypes nodes .empty) (hin : Inside r api.types raw u v t) :
    Position r api v t
  | inner {w v : Value} {u t : TypeRef} (h : Position r api w u) (hin : Inside r api.types w u v t) :
    Position r api v t

/-- One schema, one type: schemas in two positions that reach one mapping have one type, and if the mapping is a
component, other than a reference, this is the name of the component. -/
structure OneType (r : Resolver) (api : CompiledApi) : Prop where
  same : ∀ v v' t t' id, Position r api v t → Position r api v' t' → r.Reaches v id → r.Reaches v' id →
    t = t'
  component : ∀ v t id entries name, Position r api v t → r.Reaches v id →
    r.document.graph.shape (.container id) = .mapping id entries → valueAt? "$ref" entries = none →
    r.owner? id = some name → name ≠ "" → t = .named (Naming.typeName name)

/-! ## The types of positions -/

variable {r : Resolver} {nodes : List (String × SchemaNode)} {c : Compilation} {api : CompiledApi}

namespace Compilation.Compiled

variable (h : Compiled r nodes c api)

include h

/-- What an operation says is known of the item and the operation object that it stands for. -/
theorem operationFor (hd : r.document.graph.DistinctKeys) {op : Operation} (hop : op ∈ api.operations)
    {item entries : List (Scalar × Value)} (hpath : r.PathItem op.path item)
    (hmethod : r.operation? item op.method = some entries) :
    OperationFor r (Meant r c) (fun p => OutcomeAt r (Meant r c) p.pointer) item entries op := by
  obtain ⟨item', entries', hfor⟩ := h.operations op hop
  obtain rfl := hpath.unique hd hfor.path
  obtain rfl := Option.some.inj (hmethod.symm.trans hfor.method)
  exact hfor

/-- A schema inside one whose node says what a node with a type says is given a type with that. -/
theorem meant_of_inside {v w : Value} {t u : TypeRef} {m n : SchemaNode}
    (hm : nodeOf? c.resolved.nodes v = some m) (hlayer : n.layer = m.layer) (hn : Known c.resolved n)
    (hgiven : givenType? c.builder.built n = some t) (hin : Inside r api.types v t w u) :
    Meant r c w u := by
  obtain ⟨last, id, reading, hlead, hreads, hpart⟩ := hin
  have hne : ∀ reference target, reading.layer ≠ .inlined reference target := by
    rintro reference target heq
    rw [heq] at hpart
    cases hpart
  have hagree := hlead.agree h.steady.reliable.records hm hreads hne
  rw [← hlayer] at hagree
  have htyped := h.steady.right.typedBy h.steady.family hn hgiven
  rw [h.model] at hpart
  obtain ⟨child, hchild, htype⟩ := htyped.part hagree hpart
  exact ⟨child, hchild, (h.steady.reliable.sound.hasForm_of_nodeOf? hchild).shows, htype⟩

theorem meant_of_component (hschemas : (keyTexts r.schemas).Nodup) {name : String} {raw v : Value}
    {u t : TypeRef} (hraw : (.text name, raw) ∈ r.schemas)
    (hu : (name, u) ∈ componentTypes nodes .empty) (hin : Inside r api.types raw u v t) :
    Meant r c v t := by
  obtain ⟨n, hn, hname, hgiven⟩ := exists_of_forall₂ h.given.flip hu
  obtain ⟨raw', m, hraw', hm, hlayer⟩ := h.recorded n hn
  -- the name of the component is declared once
  rw [← show name = n.1 from hname] at hraw'
  have hsame : raw' = raw :=
    Option.some.inj ((valueAt?_of_mem hschemas hraw').symm.trans (valueAt?_of_mem hschemas hraw))
  rw [hsame] at hm
  have hknown : Known c.resolved n.2 := .component (h.components ▸ hn)
  exact h.meant_of_inside hm hlayer hknown hgiven hin

/-- A type in a position is the one that was given to the schema there. -/
theorem meant_of_position (hd : r.document.graph.DistinctKeys) (hschemas : (keyTexts r.schemas).Nodup)
    {v : Value} {t : TypeRef} (hp : Position r api v t) : Meant r c v t := by
  induction hp with
  | @parameter op item entries ofPath own p q v hop hpath hmethod hofPath hown hq hv =>
    obtain ⟨ofPath', own', outcomes, hofPath', hown', houtcomes, hbound⟩ :=
      (h.operationFor hd hop hpath hmethod).exists_outcomes hd
    obtain rfl := hofPath.unique hofPath'
    obtain rfl := hown.unique hown'
    have hfor := forall₂_bound houtcomes hbound
    rw [mergeParameters_eq] at hfor
    obtain ⟨schema, hschema, hm⟩ := (List.forall₂_zip hfor hq).type
    rw [hv] at hschema
    cases hschema
    exact hm
  | @body op item entries content raw v body e b t hop hpath hmethod hraw hbody hcontent hb hv ht =>
    have hfor := (h.operationFor hd hop hpath hmethod).body
    rw [hraw, hbody] at hfor
    cases hfor with
    | some hfor =>
      obtain ⟨object, u, place, content', hobject, hcontent', hentries, -⟩ := hfor
      rw [contentOf?, hobject] at hcontent
      obtain rfl := Option.some.inj (hcontent.symm.trans hcontent')
      have htype := (List.forall₂_zip hentries hb).type
      rw [hv, ht] at htype
      cases htype with
      | some hm => exact hm
  | @response op item entries status v t hop hpath hmethod hv ht =>
    obtain ⟨typed, htyped, hresponses⟩ := (h.operationFor hd hop hpath hmethod).responses
    have hlookup := lookup_putResponses htyped status []
    rw [hv, ← hresponses] at hlookup
    obtain ⟨t', ht', hm⟩ := hlookup
    obtain rfl := Option.some.inj (ht.symm.trans ht')
    exact hm
  | component hnodes hraw hu hin =>
    obtain rfl := Except.ok.inj (hnodes.symm.trans h.resolved)
    exact h.meant_of_component hschemas hraw hu hin
  | inner _ hin ih =>
    obtain ⟨n, hn, -, hgiven⟩ := ih
    exact h.meant_of_inside hn rfl (Resolver.known_of_nodeOf? hn) hgiven hin

/-- The types of positions are those that are remembered for mappings, and for each only one is. -/
theorem oneType (hd : r.document.graph.DistinctKeys) (hschemas : (keyTexts r.schemas).Nodup) :
    OneType r api where
  same v v' t t' id hv hv' hid hid' := by
    obtain ⟨n, hn, -, hgiven⟩ := h.meant_of_position hd hschemas hv
    obtain ⟨n', hn', -, hgiven'⟩ := h.meant_of_position hd hschemas hv'
    have hrecords := h.steady.reliable.records
    obtain rfl := Option.some.inj ((hid.nodeOf? hrecords hn).symm.trans (hid'.nodeOf? hrecords hn'))
    exact Option.some.inj (hgiven.symm.trans hgiven')
  component v t id entries name hv hid hshape href howner hname := by
    obtain ⟨n, hn, -, hgiven⟩ := h.meant_of_position hd hschemas hv
    have hrecords := h.steady.reliable.records
    obtain ⟨htarget, hcomponent⟩ := hrecords.component_eq (hid.nodeOf? hrecords hn) hshape href
    have hdeclared : TypeBuilder.declaredName? n.info = some (Naming.typeName name) := by
      simp [TypeBuilder.declaredName?, hcomponent, howner, Option.filter, hname]
    have htyped := h.steady.right.typed h.steady.family (Resolver.known_of_nodeOf? hn) hgiven
    exact (htyped.of_declaredName hdeclared htarget).1

end Compilation.Compiled

/-- In a description that compiles, one schema has one type. -/
theorem compile_sharing {d : Document} {version : Option String} {api : CompiledApi}
    (hd : d.graph.DistinctKeys) (h : compile d version = .ok api) :
    ∃ r, Resolver.ofDocument d = .ok r ∧ OneType r api := by
  obtain ⟨r, nodes, c, hr, hcompiled⟩ := Compilation.compiled_of_compile h
  have hschemas := Resolver.nodup_schemas_of_ofDocument hd hr
  obtain ⟨rfl, -⟩ := Resolver.ofDocument_eq_ok hr
  exact ⟨r, hr, hcompiled.oneType hd hschemas⟩

/-- A description of invoices. The schema of the drafts is a reference to that of the invoices, and the mapping of a
component stands in two more places. -/
def invoicesDocument : Document where
  graph := ⟨#[
    .mapping [(.text "paths", .container 1), (.text "components", .container 14)],
    .mapping [(.text "/invoices", .container 2), (.text "/drafts", .container 8)],
    .mapping [(.text "get", .container 3)],
    .mapping [(.text "responses", .container 4)],
    .mapping [(.text "200", .container 5)],
    .mapping [(.text "content", .container 6)],
    .mapping [(.text "application/json", .container 7)],
    .mapping [(.text "schema", .container 15)],
    .mapping [(.text "get", .container 9)],
    .mapping [(.text "responses", .container 10)],
    .mapping [(.text "200", .container 11)],
    .mapping [(.text "content", .container 12)],
    .mapping [(.text "application/json", .container 13)],
    .mapping [(.text "schema", .container 16)],
    .mapping [(.text "schemas", .container 17)],
    .mapping [(.text "type", .scalar (.text "object")), (.text "properties", .container 18)],
    .mapping [(.text "$ref",
      .scalar (.text "#/paths/~1invoices/get/responses/200/content/application~1json/schema"))],
    .mapping [(.text "Tag", .container 19)],
    .mapping [(.text "tag", .container 19), (.text "tags", .container 20)],
    .mapping [(.text "type", .scalar (.text "string"))],
    .mapping [(.text "type", .scalar (.text "array")), (.text "items", .container 19)]]⟩
  root := .container 0

/-- The description with its one component. -/
def invoicesResolver : Resolver :=
  ⟨invoicesDocument, [(.text "Tag", .container 19)]⟩

theorem exists_compile_invoicesDocument : ∃ api, compile invoicesDocument none = .ok api ∧
    (api.operations.map fun op => (op.path, op.method, op.responses)) =
      [("/invoices", .get, [("200", .named "GetInvoicesResponse200")]),
        ("/drafts", .get, [("200", .named "GetInvoicesResponse200")])] := by
  have hoperations : (compile invoicesDocument none).toOption.map (·.operations.map fun op =>
      (op.path, op.method, op.responses)) =
      some [("/invoices", .get, [("200", .named "GetInvoicesResponse200")]),
        ("/drafts", .get, [("200", .named "GetInvoicesResponse200")])] := by
    decide +kernel
  obtain ⟨api, hapi, hsame⟩ := Option.map_eq_some_iff.1 hoperations
  exact ⟨api, toOption_eq_some.1 hapi, hsame⟩

/-- The schema of the drafts has the type that was named after the invoices. -/
theorem compile_sharing_invoicesDocument : invoicesDocument.graph.DistinctKeys ∧
    ∃ api, compile invoicesDocument none = .ok api ∧
      ∃ r, Resolver.ofDocument invoicesDocument = .ok r ∧ OneType r api ∧
        Position r api (.container 16) (.named "GetInvoicesResponse200") ∧
        r.Reaches (.container 16) 15 := by
  have hd : invoicesDocument.graph.DistinctKeys := by decide +kernel
  obtain ⟨api, h, hoperations⟩ := exists_compile_invoicesDocument
  obtain ⟨r, hr, htypes⟩ := compile_sharing hd h
  obtain rfl : invoicesResolver = r := Except.ok.inj hr
  refine ⟨hd, api, h, _, hr, htypes, ?_, ?_⟩
  · -- the operation of the drafts is the second one
    obtain ⟨first, rest, hsplit, -, hrest⟩ := List.map_eq_cons_iff.1 hoperations
    obtain ⟨op, later, rfl, hop, -⟩ := List.map_eq_cons_iff.1 hrest
    obtain ⟨hpath, hmethod, hresponses⟩ : op.path = "/drafts" ∧ op.method = .get ∧
        op.responses = [("200", .named "GetInvoicesResponse200")] := by
      simpa using hop
    have hmem : op ∈ api.operations := by
      rw [hsplit]
      simp
    have hitem : invoicesResolver.PathItem op.path [(.text "get", .container 9)] := by
      rw [hpath]
      exact ⟨_, .container 8, rfl, by simp, rfl⟩
    have hentries : invoicesResolver.operation? [(.text "get", .container 9)] op.method =
        some [(.text "responses", .container 10)] := by
      rw [hmethod]
      rfl
    have hschema : (responseSchemas invoicesResolver
        (Pointer.child (Resolver.itemPointer op.path) op.method.name) (responseEntries invoicesResolver
          [(.text "responses", .container 10)])).reverse.lookup "200" = some (.container 16) := by
      rw [hpath, hmethod]
      decide +kernel
    refine .response hmem hitem hentries hschema ?_
    rw [hresponses]
    rfl
  · have hreads : invoicesResolver.Reads (.container 16) 16
        ⟨none, .inlined "#/paths/~1invoices/get/responses/200/content/application~1json/schema"
          (.container 15)⟩ :=
      ⟨_, rfl, rfl⟩
    exact .step hreads rfl rfl (.here 15)

end RouteBinding
