import RouteBinding.Proofs.Operation.Meaning
import RouteBinding.Route.Binding

/-!
# The operations of a compiled description

A description that compiles has exactly the operations that it declares, in its order (`compile_operations`). So
no two have one method and path, and looking an operation up by them finds that operation.
-/

namespace RouteBinding

open CompiledApi (operationKey)

variable {r : Resolver}

/-! ## Methods and paths -/

theorem Resolver.nodup_entryKeys (r : Resolver) (e : Scalar × Value) : (r.entryKeys e).Nodup := by
  unfold entryKeys
  split
  · rename_i path item _ _
    have hinjective : Function.Injective fun m : Method => (m, path) :=
      fun a b heq => congrArg Prod.fst heq
    have hmethods : Method.all.Nodup := by decide
    exact (hmethods.filter _).map hinjective
  · exact List.nodup_nil

/-- No method and path comes twice, because no path is a key twice. -/
theorem Resolver.nodup_operationKeys (hd : r.document.graph.DistinctKeys) :
    r.operationKeys.Nodup := by
  unfold operationKeys
  cases hpaths : r.paths? with
  | none => exact List.nodup_nil
  | some paths =>
    rw [Option.getD_some]
    have hkeys : (keyTexts paths).Nodup := by
      obtain ⟨top, -, hrest⟩ := Option.bind_eq_some_iff.1 hpaths
      obtain ⟨value, -, hentries⟩ := Option.bind_eq_some_iff.1 hrest
      exact hd.nodup hentries
    refine List.nodup_flatMap.2 ⟨fun e _ => r.nodup_entryKeys e, ?_⟩
    refine (List.pairwise_filterMap.1 hkeys).imp fun {e e'} hne => ?_
    -- what two entries had in common would have the path of both
    rintro ⟨method, path⟩ he he'
    have hpath : e.1 = .text path := (mem_entryKeys.1 he).1
    have hpath' : e'.1 = .text path := (mem_entryKeys.1 he').1
    exact hne path (by rw [hpath]; rfl) path (by rw [hpath']; rfl) rfl

/-! ## Looking operations up -/

theorem CompiledApi.find?_of_mem {api : CompiledApi} (h : (api.operations.map operationKey).Nodup)
    {op : Operation} (hop : op ∈ api.operations) : api.find? op.method op.path = some op := by
  have hsome : (api.find? op.method op.path).isSome :=
    List.find?_isSome.2 ⟨op, hop, by simp⟩
  obtain ⟨found, hfound⟩ := Option.isSome_iff_exists.1 hsome
  -- what is found has the same method and path, and no two operations have them
  have hkey : operationKey found = operationKey op := by
    have hboth := List.find?_some hfound
    rw [Bool.and_eq_true, decide_eq_true_eq, decide_eq_true_eq] at hboth
    exact Prod.ext hboth.1 hboth.2
  rw [hfound, List.inj_on_of_nodup_map h (List.mem_of_find?_eq_some hfound) hop hkey]

theorem CompiledApi.find?_eq_none {api : CompiledApi} {method : Method} {path : String}
    (h : (method, path) ∉ api.operations.map operationKey) : api.find? method path = none := by
  refine List.find?_eq_none.2 fun op hop hboth => h ?_
  rw [Bool.and_eq_true, decide_eq_true_eq, decide_eq_true_eq] at hboth
  exact List.mem_map.2 ⟨op, hop, Prod.ext hboth.1 hboth.2⟩

/-! ## Compiled descriptions -/

/-- The operations of a compiled description are those that a description declares: for every path that holds a
mapping, in the order of the paths, one for every method that holds a mapping there, in the order of the methods. A
method and a path lead to their operation, and any others to none. -/
structure Inventory (r : Resolver) (api : CompiledApi) : Prop where
  texts : ∀ e ∈ r.paths?.getD [], ∃ path, e.1 = .text path
  keys : api.operations.map operationKey = r.operationKeys
  distinct : (api.operations.map operationKey).Nodup
  found : ∀ op ∈ api.operations, api.find? op.method op.path = some op
  absent : ∀ method path, (method, path) ∉ r.operationKeys → api.find? method path = none

/-- A description that compiles has the operations that it declares. -/
theorem compile_operations {d : Document} {version : Option String} {api : CompiledApi}
    (hd : d.graph.DistinctKeys) (h : compile d version = .ok api) :
    ∃ r, Resolver.ofDocument d = .ok r ∧ Inventory r api := by
  obtain ⟨r, nodes, c, hr, -, htexts, hoperations⟩ := Compilation.operations_of_compile h
  have hdocument : r.document = d := Resolver.document_of_ofDocument hr
  -- operations and keys stand side by side, each operation under its own key
  have hkeys : api.operations.map operationKey = r.operationKeys := by
    have hforall : List.Forall₂ (fun key op => key = operationKey op) r.operationKeys api.operations :=
      hoperations.imp fun key op hop => hop.1.symm
    have heq := List.forall₂_map_right_iff.2 hforall
    rw [List.forall₂_eq_eq_eq] at heq
    exact heq.symm
  have hdistinct : (api.operations.map operationKey).Nodup := by
    rw [hkeys]
    exact Resolver.nodup_operationKeys (hdocument ▸ hd)
  refine ⟨r, hr, htexts, hkeys, hdistinct, ?_, ?_⟩
  · intro op hop
    exact CompiledApi.find?_of_mem hdistinct hop
  · intro method path hnone
    exact CompiledApi.find?_eq_none (hkeys ▸ hnone)

/-- A description of orders. The path of one order declares its parameter by a reference, and one of its operations
declares the parameter anew. Of the other paths one holds no mapping, and of the methods one holds none. -/
def ordersDocument : Document where
  graph := ⟨#[
    .mapping [(.text "components", .container 1), (.text "paths", .container 8)],
    .mapping [(.text "schemas", .container 2), (.text "parameters", .container 6)],
    .mapping [(.text "Order", .container 3)],
    .mapping [(.text "type", .scalar (.text "object")), (.text "properties", .container 4)],
    .mapping [(.text "customer", .container 5)],
    .mapping [(.text "type", .scalar (.text "string"))],
    .mapping [(.text "Id", .container 7)],
    .mapping [(.text "name", .scalar (.text "id")), (.text "in", .scalar (.text "path")),
      (.text "required", .scalar (.bool true)), (.text "schema", .container 5)],
    .mapping [(.text "/orders/\x7bid\x7d", .container 9), (.text "/orders", .container 21),
      (.text "/closed", .scalar .null)],
    .mapping [(.text "parameters", .container 10), (.text "put", .container 12),
      (.text "get", .container 17)],
    .list [.container 11],
    .mapping [(.text "$ref", .scalar (.text "#/components/parameters/Id"))],
    .mapping [(.text "requestBody", .container 13)],
    .mapping [(.text "content", .container 14)],
    .mapping [(.text "application/json", .container 15),
      (.text "application/x-www-form-urlencoded", .container 15), (.text "*/*", .container 22)],
    .mapping [(.text "schema", .container 16)],
    .mapping [(.text "$ref", .scalar (.text "#/components/schemas/Order"))],
    .mapping [(.text "parameters", .container 18)],
    .list [.container 19, .container 23],
    .mapping [(.text "name", .scalar (.text "fields")), (.text "in", .scalar (.text "query")),
      (.text "style", .scalar (.text "pipeDelimited")), (.text "schema", .container 20)],
    .mapping [(.text "type", .scalar (.text "array")), (.text "items", .container 5)],
    .mapping [(.text "get", .container 22), (.text "post", .scalar .null)],
    .mapping [],
    .mapping [(.text "name", .scalar (.text "id")), (.text "in", .scalar (.text "path")),
      (.text "style", .scalar (.text "label")), (.text "schema", .container 24)],
    .mapping [(.text "type", .scalar (.text "integer"))]]⟩
  root := .container 0

theorem distinctKeys_ordersDocument : ordersDocument.graph.DistinctKeys := by decide +kernel

theorem exists_compile_ordersDocument : ∃ api, compile ordersDocument none = .ok api ∧
    api.operations.map operationKey =
      [(.get, "/orders/\x7bid\x7d"), (.put, "/orders/\x7bid\x7d"), (.get, "/orders")] := by
  have hkeys : (compile ordersDocument none).toOption.map (·.operations.map operationKey) =
      some [(.get, "/orders/\x7bid\x7d"), (.put, "/orders/\x7bid\x7d"), (.get, "/orders")] := by
    decide +kernel
  obtain ⟨api, hapi, hsame⟩ := Option.map_eq_some_iff.1 hkeys
  exact ⟨api, toOption_eq_some.1 hapi, hsame⟩

theorem compile_operations_ordersDocument : ordersDocument.graph.DistinctKeys ∧
    ∃ api, compile ordersDocument none = .ok api ∧
      api.operations.map operationKey =
        [(.get, "/orders/\x7bid\x7d"), (.put, "/orders/\x7bid\x7d"), (.get, "/orders")] ∧
      ∃ r, Resolver.ofDocument ordersDocument = .ok r ∧ Inventory r api := by
  obtain ⟨api, h, hkeys⟩ := exists_compile_ordersDocument
  exact ⟨distinctKeys_ordersDocument, api, h, hkeys, compile_operations distinctKeys_ordersDocument h⟩

end RouteBinding
