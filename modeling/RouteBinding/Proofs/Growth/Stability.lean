import RouteBinding.Proofs.Growth.Operation
import RouteBinding.Proofs.Operation.Collected
import RouteBinding.Proofs.Operation.Meaning

/-!
# Stable results

What has been compiled of a description stays as it is when further paths are added at its end: nothing is renamed,
given another type or moved (`collect_grows`).
-/

namespace RouteBinding

namespace Step

variable {σ τ α : Type} {x : Step σ α} {s t u : σ} {a b : α}

theorem Gives.unique (h : Gives x s a t) (h' : Gives x s b u) : a = b ∧ t = u := by
  refine ⟨?_, h.2.symm.trans h'.2⟩
  have heq := h.1.symm.trans h'.1
  cases heq
  rfl

/-- A step that runs alongside another gives what that gives. -/
theorem Alongside.gives {image : σ → τ} {x' : Step τ α} (h : Alongside image Eq x x')
    (hx : Gives x s a t) : Gives x' (image s) a (image t) := by
  obtain ⟨hout, hstate⟩ := h s
  rw [hx.1] at hout
  rw [hx.2] at hstate
  exact ⟨hout.eq.symm, hstate⟩

end Step

namespace Compilation

variable {r : Resolver} {c c' : Compilation} {items more : List (Scalar × Value)}

/-- Path items are compiled one after the other, so that the operations of the first come first. -/
theorem gives_compilePathItems_append {ops : List Operation}
    (h : Step.Gives (compilePathItems r (items ++ more)) c ops c') :
    ∃ first c₁ later, Step.Gives (compilePathItems r items) c first c₁ ∧
      Step.Gives (compilePathItems r more) c₁ later c' ∧ ops = first ++ later := by
  induction items generalizing c ops with
  | nil => exact ⟨[], c, ops, Step.gives_pure.2 ⟨rfl, rfl⟩, h, rfl⟩
  | cons e rest ih =>
    obtain ⟨key, value⟩ := e
    cases key with
    | text path =>
      rw [List.cons_append, compilePathItems] at h
      rw [compilePathItems]
      cases hitem : r.document.graph.entries? value with
      | none =>
        rw [hitem] at h
        exact ih h
      | some item =>
        rw [hitem] at h
        obtain ⟨ofPath, c₁, hofPath, h⟩ := Step.gives_bind.1 h
        obtain ⟨operations, c₂, hoperations, h⟩ := Step.gives_bind.1 h
        obtain ⟨others, c₃, hothers, h⟩ := Step.gives_bind.1 h
        obtain ⟨rfl, rfl⟩ := Step.gives_pure.1 h
        obtain ⟨first, c₄, later, hfirst, hlater, rfl⟩ := ih hothers
        refine ⟨operations ++ first, c₄, later, ?_, hlater, (List.append_assoc ..).symm⟩
        exact Step.gives_bind.2 ⟨_, _, hofPath, Step.gives_bind.2 ⟨_, _, hoperations,
          Step.gives_bind.2 ⟨_, _, hfirst, Step.gives_pure.2 ⟨rfl, rfl⟩⟩⟩⟩
    | _ => cases h.1

/-- What is compiled are the items of the paths, if those are a mapping. -/
theorem compilePaths_eq {paths : Value} (hpaths : r.document.paths? = some paths)
    (hitems : r.document.graph.entries? paths = some items) :
    compilePaths r = compilePathItems r items := by
  unfold compilePaths
  have hvalue : (r.document.graph.entries? r.document.root).bind (valueAt? "paths") = some paths :=
    hpaths
  dsimp only
  rw [hvalue]
  cases htruthy : r.document.graph.isTruthy paths with
  | false =>
    rw [Option.filter_some_neg (by simp [htruthy])]
    have hnil := entries?_of_not_isTruthy htruthy
    rw [hitems, Option.getD_some] at hnil
    rw [hnil]
    rfl
  | true =>
    rw [Option.filter_some_pos htruthy]
    dsimp only
    rw [hitems]

end Compilation

/-! ## Growth -/

/-- What has been collected is continued: the operations, the findings, the errors of operations and the definitions of
types come first, and the other errors are the same. -/
structure Collected.Continues (c c' : Collected) : Prop where
  operations : c.operations <+: c'.operations
  diagnostics : c.diagnostics <+: c'.diagnostics
  operationErrors : c.operationErrors <+: c'.operationErrors
  componentErrors : c'.componentErrors = c.componentErrors
  typeErrors : c'.typeErrors = c.typeErrors
  types : c.types.definitions <+: c'.types.definitions

namespace Compilation

variable {ρ : Nat → Nat} {added : List (Scalar × Value)} {r r' : Resolver}

/-- The compilation of a grown document first does all that the compilation of the document before did, and then goes
on. -/
theorem exists_later_of_grows (h : Resolver.Grows ρ added r r')
    {out out' : List CompileError × List Operation} {s s' : Compilation}
    (hrun : Step.Gives (compileAll r) initial out s)
    (hrun' : Step.Gives (compileAll r') initial out' s') :
    out'.1 = out.1 ∧ (∃ later, out'.2 = out.2 ++ later) ∧ Later (rename ρ s) s' := by
  obtain ⟨typeErrors, s₁, hcomponents, hrest⟩ := Step.gives_bind.1 hrun
  obtain ⟨operations, s₂, hpaths, hout⟩ := Step.gives_bind.1 hrest
  obtain ⟨rfl, rfl⟩ := Step.gives_pure.1 hout
  obtain ⟨typeErrors', s₁', hcomponents', hrest'⟩ := Step.gives_bind.1 hrun'
  obtain ⟨operations', s₂', hpaths', hout'⟩ := Step.gives_bind.1 hrest'
  obtain ⟨rfl, rfl⟩ := Step.gives_pure.1 hout'
  -- the components come to the image of what they came to
  obtain ⟨rfl, rfl⟩ := ((alongside_compileComponents h).gives hcomponents).unique hcomponents'
  obtain ⟨nodes, hbegun⟩ := begun_of_compileComponents hcomponents'
  obtain ⟨paths, items, hvalue, hitems, hgrown⟩ := h.growth.paths
  have hvalue' : r'.document.paths? = some (paths.rename ρ) := by
    obtain ⟨top, htop, htoppaths⟩ := Option.bind_eq_some_iff.1 hvalue
    rw [Document.paths?, h.document.entries?_root, htop, Option.map_some, Option.bind_some,
      valueAt?_renameEntries, htoppaths, Option.map_some]
  rw [compilePaths_eq hvalue hitems] at hpaths
  rw [compilePaths_eq hvalue' hgrown] at hpaths'
  -- and so do the path items from before; the added ones are compiled after them
  have happart := h.document.apart_of_mem (.inr hvalue) hitems
  obtain ⟨first, t, later, hfirst, hlater, rfl⟩ := gives_compilePathItems_append hpaths'
  obtain ⟨rfl, rfl⟩ := ((alongside_compilePathItems h happart).gives hpaths).unique hfirst
  have hall : r'.paths? = some (renameEntries ρ items ++ added) := by
    obtain ⟨top', htop', htoppaths'⟩ := Option.bind_eq_some_iff.1 hvalue'
    rw [Resolver.paths?, htop', Option.bind_eq_bind, Option.bind_some, Option.bind_eq_bind,
      htoppaths', Option.bind_some, hgrown]
  obtain ⟨hsteady, -⟩ := runs_compilePathItems hbegun.steady hall (List.subset_append_left _ _)
  rw [hfirst.2] at hsteady
  obtain ⟨-, hle, -⟩ := runs_compilePathItems hsteady hall (List.subset_append_right _ _)
  rw [hlater.2] at hle
  exact ⟨rfl, ⟨later, rfl⟩, hle⟩

end Compilation

open Compilation in
/-- What has been compiled is stable: if a document is a tree, and further paths are added at its end which no reference
in it enters, then what has been collected of it is continued by what is collected of the grown document, as long as
neither run breaks off. The grown document may name its containers in another way, and what is added may be
anything. -/
theorem collect_grows {ρ : Nat → Nat} {added : List (Scalar × Value)} {d d' : Document}
    {c c' : Collected} (htree : d.TreeShaped) (hgrows : d.Grows ρ added d')
    (hreferences : d.KeepsOut added) (h : collect d = .ok c) (h' : collect d' = .ok c') :
    c.Continues c' := by
  have hgrowth : Growth ρ added d d' := ⟨hgrows, htree, hreferences⟩
  have hresolvers := hgrowth.ofDocument_grows
  cases hr : Resolver.ofDocument d with
  | error halt =>
    -- component schemas that cannot be read are refused in both documents
    cases hr' : Resolver.ofDocument d' with
    | ok r' =>
      rw [hr, hr'] at hresolvers
      cases hresolvers
    | error halt' =>
      rw [hr, hr'] at hresolvers
      cases hresolvers
      simp only [collect, hr] at h
      simp only [collect, hr'] at h'
      rw [h] at h'
      cases h'
      exact ⟨List.prefix_rfl, List.prefix_rfl, List.prefix_rfl, rfl, rfl, List.prefix_rfl⟩
  | ok r =>
    cases hr' : Resolver.ofDocument d' with
    | error halt =>
      rw [hr, hr'] at hresolvers
      cases hresolvers
    | ok r' =>
      rw [hr, hr'] at hresolvers
      cases hresolvers with
      | ok hboth =>
        obtain ⟨typeErrors, operations, s, hrun, rfl⟩ := exists_run_of_collect hr h
        obtain ⟨typeErrors', operations', s', hrun', rfl⟩ := exists_run_of_collect hr' h'
        obtain ⟨htypes, ⟨later, hlater⟩, hle⟩ := exists_later_of_grows hboth
          ⟨congrArg Prod.fst hrun, congrArg Prod.snd hrun⟩
          ⟨congrArg Prod.fst hrun', congrArg Prod.snd hrun'⟩
        exact ⟨⟨later, hlater.symm⟩, hle.diagnostics, hle.errors, hle.resolverErrors, htypes, hle.model⟩

deriving instance DecidableEq for Shape

/-- A description with one operation. -/
def listingDocument : Document where
  graph := ⟨#[
    .mapping [(.text "paths", .container 1), (.text "components", .container 7)],
    .mapping [(.text "/items", .container 2)],
    .mapping [(.text "get", .container 3)],
    .mapping [(.text "operationId", .scalar (.text "list")), (.text "parameters", .container 4)],
    .list [.container 5],
    .mapping [(.text "name", .scalar (.text "limit")), (.text "in", .scalar (.text "query")),
      (.text "schema", .container 6)],
    .mapping [(.text "$ref", .scalar (.text "#/components/schemas/Limit"))],
    .mapping [(.text "schemas", .container 8)],
    .mapping [(.text "Limit", .container 9)],
    .mapping [(.text "type", .scalar (.text "integer"))]]⟩
  root := .container 0

/-- The description with another path, of which the operation has the same identifier. It shares a parameter with the
first operation, and has a parameter with a type of its own and one that is not bound. -/
def longerListingDocument : Document where
  graph := ⟨#[
    .mapping [(.text "paths", .container 1), (.text "components", .container 13)],
    .mapping [(.text "/items", .container 2), (.text "/items/more", .container 7)],
    .mapping [(.text "get", .container 3)],
    .mapping [(.text "operationId", .scalar (.text "list")), (.text "parameters", .container 4)],
    .list [.container 5],
    .mapping [(.text "name", .scalar (.text "limit")), (.text "in", .scalar (.text "query")),
      (.text "schema", .container 6)],
    .mapping [(.text "$ref", .scalar (.text "#/components/schemas/Limit"))],
    .mapping [(.text "get", .container 8)],
    .mapping [(.text "operationId", .scalar (.text "list")), (.text "parameters", .container 9)],
    .list [.container 5, .container 10, .container 12],
    .mapping [(.text "name", .scalar (.text "page")), (.text "in", .scalar (.text "query")),
      (.text "schema", .container 11)],
    .mapping [(.text "title", .scalar (.text "Page")), (.text "type", .scalar (.text "integer"))],
    .mapping [(.text "name", .scalar (.text "X")), (.text "in", .scalar (.text "header"))],
    .mapping [(.text "schemas", .container 14)],
    .mapping [(.text "Limit", .container 15)],
    .mapping [(.text "type", .scalar (.text "integer"))]]⟩
  root := .container 0

/-- The added path, and the containers after it with the names that they have got by it. -/
theorem listingDocument_grows : listingDocument.Grows (fun id => if id < 7 then id else id + 6)
    [(.text "/items/more", .container 7)] longerListingDocument where
  injective a b h := by
    dsimp only at h
    split_ifs at h <;> omega
  root := rfl
  paths := ⟨.container 1, [(.text "/items", .container 2)], by decide +kernel, by decide +kernel, by decide +kernel⟩
  others p v hv hpaths := by
    have hclosed : listingDocument.isClosed = true := by decide +kernel
    have hbelow := Document.isBelow_of_place hclosed hv
    have hstore : ∀ id < listingDocument.graph.size,
        listingDocument.paths? ≠ some (.container id) →
          longerListingDocument.graph.shape (.container (if id < 7 then id else id + 6)) =
            (listingDocument.graph.shape (.container id)).rename
              fun id => if id < 7 then id else id + 6 := by
      decide +kernel
    cases v with
    | scalar s => rfl
    | container id => exact hstore id (of_decide_eq_true hbelow) hpaths
  keys e he := by
    obtain rfl := List.mem_singleton.1 he
    exact ⟨"/items/more", rfl, by decide⟩

/-- What the examples show of what has been collected: the names of operations and types, and the count of
findings. -/
def Collected.summary (c : Collected) : List String × List String × Nat :=
  (c.operations.map Operation.name, c.types.names, c.diagnostics.length)

/-- The second operation takes another name, and its type and its finding come last. -/
theorem collect_grows_listingDocument :
    listingDocument.TreeShaped ∧ listingDocument.KeepsOut [(.text "/items/more", .container 7)] ∧
      ∃ c c', collect listingDocument = .ok c ∧ collect longerListingDocument = .ok c' ∧
        c.summary = (["List"], ["Limit"], 0) ∧
        c'.summary = (["List", "List2"], ["Limit", "Page"], 1) ∧ c.Continues c' := by
  have htree : listingDocument.TreeShaped := Document.treeShaped_of_nodup (by decide +kernel)
  have hreferences : listingDocument.KeepsOut [(.text "/items/more", .container 7)] := by
    -- the only reference is to a component
    intro p v entries target _ hentries htarget
    have hmem := Graph.mem_references hentries htarget
    have hall : listingDocument.graph.references = ["#/components/schemas/Limit"] := by decide +kernel
    rw [hall, List.mem_singleton] at hmem
    rintro ⟨key, rest, hkeys, -⟩
    have hown : Pointer.keys? "#/components/schemas/Limit" = some ["components", "schemas", "Limit"] := by
      decide +kernel
    rw [hmem, hown] at hkeys
    simp at hkeys
  have hrun : (collect listingDocument).toOption.map Collected.summary =
      some (["List"], ["Limit"], 0) := by decide +kernel
  have hrun' : (collect longerListingDocument).toOption.map Collected.summary =
      some (["List", "List2"], ["Limit", "Page"], 1) := by decide +kernel
  obtain ⟨c, hc, hsummary⟩ := Option.map_eq_some_iff.1 hrun
  obtain ⟨c', hc', hsummary'⟩ := Option.map_eq_some_iff.1 hrun'
  have h := toOption_eq_some.1 hc
  have h' := toOption_eq_some.1 hc'
  exact ⟨htree, hreferences, c, c', h, h', hsummary, hsummary',
    collect_grows htree listingDocument_grows hreferences h h'⟩

end RouteBinding
