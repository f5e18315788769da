import RouteBinding.Proofs.Growth.Narrowing
import RouteBinding.Proofs.Growth.SameParameters
import RouteBinding.Proofs.Operation.Meaning

/-!
# One path alone

If a description compiles, and so does the same one without the paths other than one, then the operations of that path
have the same parameters in both (`compile_path_alone`). What became of a parameter object that operations share does
not depend on which of them was compiled first.
-/

namespace RouteBinding

open Compilation

/-! ## The operations of a compiled description -/

theorem CompiledApi.of_find? {api : CompiledApi} {method : Method} {path : String} {op : Operation}
    (h : api.find? method path = some op) : op ∈ api.operations ∧ op.method = method ∧ op.path = path := by
  have hboth := List.find?_some h
  rw [Bool.and_eq_true, decide_eq_true_eq, decide_eq_true_eq] at hboth
  exact ⟨List.mem_of_find?_eq_some h, hboth⟩

section Compiled

variable {r : Resolver} {c : Compilation} {api : CompiledApi} {method : Method} {path : String}

theorem Resolver.mem_operationKeys :
    (method, path) ∈ r.operationKeys ↔
      ∃ item, r.PathItem path item ∧ (r.operation? item method).isSome := by
  unfold operationKeys
  simp only [List.mem_flatMap, mem_entryKeys]
  constructor
  · rintro ⟨⟨key, value⟩, he, rfl, item, hitem, hoperation⟩
    cases hpaths : r.paths? with
    | none =>
      rw [hpaths] at he
      cases he
    | some paths =>
      rw [hpaths] at he
      exact ⟨item, ⟨paths, value, hpaths, he, hitem⟩, hoperation⟩
  · rintro ⟨item, ⟨paths, value, hpaths, he, hitem⟩, hoperation⟩
    exact ⟨(.text path, value), by rwa [hpaths, Option.getD_some], rfl, item, hitem, hoperation⟩

variable (h : List.Forall₂ (CompiledAs r c) r.operationKeys api.operations)

include h

/-- An operation is found exactly where one is declared. -/
theorem Compilation.isSome_find?_iff : (api.find? method path).isSome ↔
    ∃ item, r.PathItem path item ∧ (r.operation? item method).isSome := by
  rw [← Resolver.mem_operationKeys, CompiledApi.find?, List.find?_isSome]
  constructor
  · rintro ⟨op, hop, hboth⟩
    rw [Bool.and_eq_true, decide_eq_true_eq, decide_eq_true_eq] at hboth
    obtain ⟨key, hkey, hcompiled⟩ := exists_of_forall₂ h.flip hop
    rwa [← hcompiled.1, hboth.1, hboth.2] at hkey
  · intro hkey
    obtain ⟨op, hop, hcompiled⟩ := exists_of_forall₂ h hkey
    have hboth := Prod.mk.inj hcompiled.1
    exact ⟨op, hop, by simp [hboth]⟩

/-- An operation that is found has the parameters that are declared for it, and their types can be bound. -/
theorem Compilation.exists_parametersOf (hd : r.document.graph.DistinctKeys) {op : Operation}
    (hop : api.find? method path = some op) :
    op.method = method ∧ op.path = path ∧ (∀ q ∈ op.parameters, c.builder.model.IsScalarLike q.type) ∧
      ∃ item entries, ParametersOf r (Meant r c) item entries op := by
  obtain ⟨hmem, hmethod, hpath⟩ := CompiledApi.of_find? hop
  obtain ⟨-, -, -, item, entries, hfor, hchecked⟩ := exists_of_forall₂ h.flip hmem
  exact ⟨hmethod, hpath, hchecked.parameters, item, entries, hchecked.parametersOf hd hfor⟩

end Compiled

/-! ## The operations of one path -/

section Items

variable {ρ : Nat → Nat} {path : String} {r r' : Resolver} {item item' entries' : List (Scalar × Value)}
  {method : Method}

theorem Resolver.paths?_eq (r : Resolver) :
    r.paths? = r.document.paths?.bind r.document.graph.entries? := by
  rw [Document.paths?, Option.bind_assoc]
  rfl

/-- The item of a path is a mapping of the same values with more paths. -/
theorem Resolver.PathItem.matches {added : List (Scalar × Value)}
    (h : Widening ρ added r.document r'.document) (hitem : r.PathItem path item) :
    Widening.Matches ρ r.document item (renameEntries ρ item) := by
  obtain ⟨items, value, hitems, hmem, hentries⟩ := hitem
  obtain ⟨paths, hpaths, hvalue⟩ := Option.bind_eq_some_iff.1 (r.paths?_eq.symm.trans hitems)
  exact h.matches_renameEntries (h.apart_of_mem (.inr hpaths) hvalue _ hmem) hentries

/-- The item of the path that is left is the one that stands under the path in the whole document. -/
theorem Document.NarrowsTo.pathItem_iff (h : r'.document.NarrowsTo ρ path r.document)
    (htree : r'.document.TreeShaped) (hd : r'.document.graph.DistinctKeys)
    (hslashed : r'.document.SlashedPaths) :
    r'.PathItem path item' ↔ ∃ item, r.PathItem path item ∧ item' = renameEntries ρ item := by
  have hwidening := h.widening htree hd hslashed
  obtain ⟨paths, items, kept, hpaths, hkept, hitems, hfilter⟩ := h.paths
  have hleft : r.paths? = some kept := by rw [r.paths?_eq, hpaths, Option.bind_some, hkept]
  have hwhole : r'.paths? = some items := by
    rw [r'.paths?_eq, h.paths?_eq htree, hpaths, Option.map_some, Option.bind_some, hitems]
  have happart := hwidening.apart_of_mem (.inr hpaths) hkept
  constructor
  · rintro ⟨items', value', hitems', he, hitem'⟩
    obtain rfl := Option.some.inj (hwhole.symm.trans hitems')
    have hmem : (Scalar.text path, value') ∈ renameEntries ρ kept := by
      rw [hfilter]
      exact List.mem_filter.2 ⟨he, decide_eq_true rfl⟩
    obtain ⟨⟨key, value⟩, hvalue, heq⟩ := List.mem_map.1 hmem
    cases heq
    rw [hwidening.entries?_rename (happart _ hvalue)] at hitem'
    obtain ⟨item, hitem, rfl⟩ := Option.map_eq_some_iff.1 hitem'
    exact ⟨item, ⟨kept, value, hleft, hvalue, hitem⟩, rfl⟩
  · rintro ⟨item, ⟨kept', value, hkept', hvalue, hitem⟩, rfl⟩
    obtain rfl := Option.some.inj (hleft.symm.trans hkept')
    have hmem : (Scalar.text path, value.rename ρ) ∈ renameEntries ρ kept := List.mem_map_of_mem hvalue
    rw [hfilter] at hmem
    refine ⟨items, value.rename ρ, hwhole, List.mem_of_mem_filter hmem, ?_⟩
    rw [hwidening.entries?_rename (happart _ hvalue), hitem, Option.map_some]

theorem Resolver.operation?_eq_of_matches {added : List (Scalar × Value)}
    (h : Widening ρ added r.document r'.document) (hm : Widening.Matches ρ r.document item item') :
    r'.operation? item' method = (r.operation? item method).map (renameEntries ρ) :=
  mapping_grows h hm (by cases method <;> decide)

theorem Resolver.matches_operation {added : List (Scalar × Value)}
    (h : Widening ρ added r.document r'.document) (hm : Widening.Matches ρ r.document item item')
    {entries : List (Scalar × Value)} (hentries : r.operation? item method = some entries) :
    Widening.Matches ρ r.document entries (renameEntries ρ entries) := by
  obtain ⟨v, hv, hmapping⟩ := Option.bind_eq_some_iff.1 hentries
  exact h.matches_renameEntries (hm.apart_of_valueAt? hv) hmapping

/-- The methods of the path that is left are those that it has in the whole document. -/
theorem Document.NarrowsTo.exists_operation_iff (h : r'.document.NarrowsTo ρ path r.document)
    (htree : r'.document.TreeShaped) (hd : r'.document.graph.DistinctKeys)
    (hslashed : r'.document.SlashedPaths) :
    (∃ item', r'.PathItem path item' ∧ (r'.operation? item' method).isSome) ↔
      ∃ item, r.PathItem path item ∧ (r.operation? item method).isSome := by
  have hwidening := h.widening htree hd hslashed
  have hsame {item : List (Scalar × Value)} (hitem : r.PathItem path item) :
      (r'.operation? (renameEntries ρ item) method).isSome = (r.operation? item method).isSome := by
    rw [Resolver.operation?_eq_of_matches hwidening (hitem.matches hwidening), Option.isSome_map]
  constructor
  · rintro ⟨_, hwhole, hoperation⟩
    obtain ⟨item, hitem, rfl⟩ := (h.pathItem_iff htree hd hslashed).1 hwhole
    rw [hsame hitem] at hoperation
    exact ⟨item, hitem, hoperation⟩
  · rintro ⟨item, hitem, hoperation⟩
    exact ⟨_, (h.pathItem_iff htree hd hslashed).2 ⟨item, hitem, rfl⟩, by rwa [hsame hitem]⟩

end Items

/-! ## One path -/

/-- The operations of a path do not depend on the other paths: if a tree with slashes in front of its paths compiles,
and the same document without its other paths than one does, then for every method the path has an operation in both or
in none, and its parameters are the same in both: their names, locations, types, styles and descriptions, whether they
are required and whether they explode. No text is a key twice in a mapping, as in every document that is read from a
text. -/
theorem compile_path_alone {ρ : Nat → Nat} {path : String} {d single : Document}
    {version version' : Option String} {api api' : CompiledApi} (htree : d.TreeShaped)
    (hslashed : d.SlashedPaths) (hd : d.graph.DistinctKeys) (hd' : single.graph.DistinctKeys)
    (hsingle : d.NarrowsTo ρ path single) (h : compile d version = .ok api)
    (h' : compile single version' = .ok api') (method : Method) :
    (api.find? method path).map (·.parameters) = (api'.find? method path).map (·.parameters) := by
  obtain ⟨r, _, c, hr, hcompiled, -, hops⟩ := operations_of_compile h
  obtain ⟨r', _, c', hr', hcompiled', -, hops'⟩ := operations_of_compile h'
  have hwidening := hsingle.widening htree hd hslashed
  -- the resolvers of the two documents were made apart from each other, and one has the schemas of the other
  obtain ⟨r₁, hr₁, hwidens⟩ := hwidening.ofDocument_grows.exists_of_ok hr'
  obtain rfl := Except.ok.inj (hr.symm.trans hr₁)
  obtain rfl := Resolver.document_of_ofDocument hr
  obtain rfl := Resolver.document_of_ofDocument hr'
  have hpresent : (api.find? method path).isSome ↔ (api'.find? method path).isSome := by
    rw [isSome_find?_iff hops, isSome_find?_iff hops', hsingle.exists_operation_iff htree hd hslashed]
  cases hfind : api.find? method path with
  | none =>
    have hnone : api'.find? method path = none := by
      rw [← Option.not_isSome_iff_eq_none, ← hpresent, hfind]
      exact Bool.false_ne_true
    rw [hnone]
  | some op =>
    obtain ⟨op', hfind'⟩ := Option.isSome_iff_exists.1 (hpresent.1 (by rw [hfind]; rfl))
    obtain ⟨hmethod, hpath, -, item, entries, hop⟩ := exists_parametersOf hops hd hfind
    obtain ⟨hmethod', hpath', hscalar, item', entries', hop'⟩ := exists_parametersOf hops' hd' hfind'
    -- the operation object in the whole document is the one that is left
    obtain ⟨item₁, hitem₁, rfl⟩ := (hsingle.pathItem_iff htree hd hslashed).1 (hpath ▸ hop.path)
    obtain rfl := hitem₁.unique hd' (hpath' ▸ hop'.path)
    have hmatches := hitem₁.matches hwidening
    have hentries := hop.method
    rw [Resolver.operation?_eq_of_matches hwidening hmatches, hmethod, ← hmethod', hop'.method] at hentries
    cases hentries
    rw [hfind', Option.map_some, Option.map_some, parameters_eq_of_widens hwidens hsingle.lacks
      hcompiled'.steady hcompiled.steady hmatches (Resolver.matches_operation hwidening hmatches hop'.method)
      hop' hop (hpath.trans hpath'.symm) (hmethod.trans hmethod'.symm) hscalar]

/-- A description of rentals. Both paths take a parameter by a reference to one object, and the schema of that has a
title. -/
def rentalsDocument : Document where
  graph := ⟨#[
    .mapping [(.text "paths", .container 1), (.text "components", .container 17)],
    .mapping [(.text "/rentals/\x7bid\x7d", .container 2), (.text "/rentals", .container 8)],
    .mapping [(.text "parameters", .container 3), (.text "get", .container 6)],
    .list [.container 4, .container 5],
    .mapping [(.text "name", .scalar (.text "id")), (.text "in", .scalar (.text "path")),
      (.text "schema", .container 7)],
    .mapping [(.text "$ref", .scalar (.text "#/components/parameters/Page"))],
    .mapping [],
    .mapping [(.text "type", .scalar (.text "string"))],
    .mapping [(.text "parameters", .container 9), (.text "get", .container 11),
      (.text "post", .container 15)],
    .list [.container 10],
    .mapping [(.text "$ref", .scalar (.text "#/components/parameters/Page"))],
    .mapping [(.text "parameters", .container 12)],
    .list [.container 13],
    .mapping [(.text "name", .scalar (.text "tags")), (.text "in", .scalar (.text "query")),
      (.text "style", .scalar (.text "pipeDelimited")), (.text "schema", .container 14)],
    .mapping [(.text "type", .scalar (.text "array")), (.text "items", .container 16)],
    .mapping [],
    .mapping [(.text "$ref", .scalar (.text "#/components/schemas/Tag"))],
    .mapping [(.text "schemas", .container 18), (.text "parameters", .container 20)],
    .mapping [(.text "Tag", .container 19)],
    .mapping [(.text "type", .scalar (.text "string"))],
    .mapping [(.text "Page", .container 21)],
    .mapping [(.text "name", .scalar (.text "page")), (.text "in", .scalar (.text "query")),
      (.text "schema", .container 22)],
    .mapping [(.text "title", .scalar (.text "Page Number")), (.text "type", .scalar (.text "integer"))]]⟩
  root := .container 0

/-- The shared parameter is met first in the path that is deleted. -/
theorem compile_path_alone_rentalsDocument :
    let single := rentalsDocument.onlyPath "/rentals"
    rentalsDocument.TreeShaped ∧ rentalsDocument.SlashedPaths ∧ rentalsDocument.graph.DistinctKeys ∧
      single.graph.DistinctKeys ∧ rentalsDocument.NarrowsTo id "/rentals" single ∧
      ∃ api api', compile rentalsDocument none = .ok api ∧ compile single none = .ok api' ∧
        ((api.find? .get "/rentals").map fun op => op.parameters.map fun q => (q.name, q.type)) =
          some [("page", .named "PageNumber"), ("tags", .array (.named "Tag"))] ∧
        ∀ method, (api.find? method "/rentals").map (·.parameters) =
          (api'.find? method "/rentals").map (·.parameters) := by
  intro single
  have htree : rentalsDocument.TreeShaped := Document.treeShaped_of_nodup (by decide +kernel)
  have hpaths : rentalsDocument.paths? = some (.container 1) := by decide +kernel
  have hitems : rentalsDocument.graph.entries? (.container 1) =
      some [(.text "/rentals/\x7bid\x7d", .container 2), (.text "/rentals", .container 8)] := by
    decide +kernel
  have hslashed : rentalsDocument.SlashedPaths := by
    intro paths items hpaths' hitems'
    obtain rfl := Option.some.inj (hpaths.symm.trans hpaths')
    obtain rfl := Option.some.inj (hitems.symm.trans hitems')
    intro e he
    rcases List.mem_pair.1 he with rfl | rfl
    · exact ⟨_, rfl, by decide⟩
    · exact ⟨_, rfl, by decide⟩
  have hd : rentalsDocument.graph.DistinctKeys := by decide +kernel
  have hd' : single.graph.DistinctKeys := by decide +kernel
  have hsingle := Document.narrowsTo_onlyPath htree hpaths hitems "/rentals"
  have hparameters : ((compile rentalsDocument none).toOption.map fun api =>
      (api.find? .get "/rentals").map fun op => op.parameters.map fun q => (q.name, q.type)) =
      some (some [("page", .named "PageNumber"), ("tags", .array (.named "Tag"))]) := by
    decide +kernel
  have hisSome : (compile single none).toOption.isSome := by decide +kernel
  obtain ⟨api, hapi, hfound⟩ := Option.map_eq_some_iff.1 hparameters
  obtain ⟨api', hapi'⟩ := Option.isSome_iff_exists.1 hisSome
  have h := toOption_eq_some.1 hapi
  have h' := toOption_eq_some.1 hapi'
  exact ⟨htree, hslashed, hd, hd', hsingle, api, api', h, h', hfound,
    compile_path_alone htree hslashed hd hd' hsingle h h'⟩

end RouteBinding
