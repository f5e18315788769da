import RouteBinding.Proofs.Operation.Inventory
import RouteBinding.Proofs.PathTemplate
import RouteBinding.Proofs.Route.Clashes
import RouteBinding.Proofs.Route.Matching

/-!
# Routes with other placeholder names

A route that no operation has is told which placeholder an operation names otherwise (`bindRoutes_renamed`), where the
placeholders of their paths are whole segments and the paths have the same slashes at their ends.
-/

namespace RouteBinding.CompiledApi

open PathTemplate (Comparable blank firstDifferent? mismatch? placeholders rename)

variable {api : CompiledApi} {slot : String} {routes : List Route} {r : Route} {op : Operation} {e : CompileError}

/-! ## One route -/

/-- The path of a route can be compared with that of every operation of its method to which one of the two ways of
comparing relates it. -/
def Compares (api : CompiledApi) (r : Route) : Prop :=
  ∀ op ∈ api.operations, op.method = r.method →
    blank r.path = blank op.path ∨ (mismatch? r.path op.path).isSome → Comparable r.path op.path

/-- The first operation of the method of a route whose path differs only in the names of placeholders. -/
def renamed? (api : CompiledApi) (r : Route) : Option Operation :=
  api.operations.find? fun op => op.method = r.method ∧ blank r.path = blank op.path

/-- The error of a route about an operation that names placeholders otherwise. -/
def renamedError? (r : Route) (op : Operation) : Option CompileError :=
  if op.method = r.method then
    (mismatch? r.path op.path).map fun names => .templateMismatch names.1 r.label (.renamed names.2 op.method op.path)
  else none

/-- The error of a route hangs on its method and its path only. -/
theorem missingError_congr {r' : Route} (hmethod : r'.method = r.method) (hpath : r'.path = r.path) :
    api.missingError r' = api.missingError r := by
  simp only [missingError, Route.label, hmethod, hpath]

/-- A route that names no operation has another path than those of its method. -/
theorem path_ne_of_operationOf? (h : api.operationOf? (routeKey r) = none) (hop : op ∈ api.operations)
    (hmethod : op.method = r.method) : r.path ≠ op.path := by
  intro hpath
  have hsome : (api.operationOf? (routeKey r)).isSome :=
    isSome_operationOf?.2 (List.mem_map.2 ⟨op, hop, by rw [operationKey, routeKey, hmethod, hpath]⟩)
  rw [h] at hsome
  cases hsome

/-- A route that names no operation is a renamed one, or the path or the method is unknown. -/
theorem missingError_eq (api : CompiledApi) (r : Route) : api.missingError r =
    match api.operations.findSome? (renamedError? r) with
    | some e => e
    | none =>
      match (api.operations.filter fun op => op.path = r.path).map (·.method) with
      | [] => .unknownRoute r.method r.path .unknownPath
      | methods => .unknownRoute r.method r.path (.unknownMethod methods) :=
  rfl

theorem missingError_of_some (h : api.operations.findSome? (renamedError? r) = some e) : api.missingError r = e := by
  rw [missingError_eq, h]

/-- A route of no operation is told of one that names a placeholder otherwise, or that it is unknown. -/
theorem missingError_cases (api : CompiledApi) (r : Route) :
    (∃ op ∈ api.operations, renamedError? r op = some (api.missingError r)) ∨
      ∃ fault, api.missingError r = .unknownRoute r.method r.path fault := by
  cases hfound : api.operations.findSome? (renamedError? r) with
  | none =>
    right
    rw [missingError_eq, hfound]
    dsimp only
    split
    · exact ⟨_, rfl⟩
    · exact ⟨_, rfl⟩
  | some e =>
    left
    rw [missingError_of_some hfound]
    exact List.exists_of_findSome?_eq_some hfound

/-- A route is not the renamed one of an operation unless they agree but for names. -/
theorem renamedError?_eq_none (hcompares : api.Compares r) (hop : op ∈ api.operations)
    (h : ¬(op.method = r.method ∧ blank r.path = blank op.path)) : renamedError? r op = none := by
  unfold renamedError?
  split
  · rename_i hmethod
    cases hmismatch : mismatch? r.path op.path with
    | none => rfl
    | some names =>
      have hcomparable := hcompares op hop hmethod (Or.inr (by rw [hmismatch]; rfl))
      rw [PathTemplate.mismatch?_eq hcomparable, if_neg fun hblank => h ⟨hmethod, hblank⟩] at hmismatch
      cases hmismatch
  · rfl

/-- The route is told of the first operation that names a placeholder otherwise. -/
theorem missingError_of_renamed? (hnone : api.operationOf? (routeKey r) = none) (hcompares : api.Compares r)
    (h : api.renamed? r = some op) :
    ∃ names, firstDifferent? (placeholders r.path) (placeholders op.path) = some names ∧
      api.missingError r = .templateMismatch names.1 r.label (.renamed names.2 op.method op.path) := by
  obtain ⟨hfound, before, after, hsplit, hbefore⟩ := List.find?_eq_some_iff_append.1 h
  simp only [decide_eq_true_eq] at hfound
  obtain ⟨hmethod, hblank⟩ := hfound
  have hop : op ∈ api.operations := List.mem_of_find?_eq_some h
  have hcomparable := hcompares op hop hmethod (Or.inl hblank)
  obtain ⟨names, hnames⟩ := PathTemplate.exists_firstDifferent? hcomparable hblank
    (path_ne_of_operationOf? hnone hop hmethod)
  refine ⟨names, hnames, missingError_of_some (List.findSome?_eq_some_iff.2 ⟨before, op, after, hsplit, ?_, ?_⟩)⟩
  · rw [renamedError?, if_pos hmethod, PathTemplate.mismatch?_eq hcomparable, if_pos hblank, hnames]
    rfl
  · intro other hother
    have hmem : other ∈ api.operations := by
      rw [hsplit]
      exact List.mem_append_left _ hother
    have hdiffers := hbefore other hother
    rw [Bool.not_eq_true', decide_eq_false_iff_not] at hdiffers
    exact renamedError?_eq_none hcompares hmem hdiffers

/-- A mismatch names the first names that differ from those of an operation. -/
theorem missingError_eq_templateMismatch {ours label theirs path : String} {method : Method}
    (h : api.missingError r = .templateMismatch ours label (.renamed theirs method path)) :
    label = r.label ∧ method = r.method ∧ mismatch? r.path path = some (ours, theirs) ∧
      ∃ op ∈ api.operations, operationKey op = (method, path) := by
  rcases missingError_cases api r with ⟨op, hop, herror⟩ | ⟨fault, hunknown⟩
  · rw [h] at herror
    unfold renamedError? at herror
    split at herror
    · rename_i hmethod
      obtain ⟨names, hnames, heq⟩ := Option.map_eq_some_iff.1 herror
      cases heq
      exact ⟨rfl, hmethod, hnames, op, hop, rfl⟩
    · cases herror
  · rw [h] at hunknown
    cases hunknown

/-- An unknown route is reported as it was declared. -/
theorem missingError_eq_unknownRoute {method : Method} {path : String} {fault : RouteFault}
    (h : api.missingError r = .unknownRoute method path fault) : r.method = method ∧ r.path = path := by
  rcases missingError_cases api r with ⟨op, -, herror⟩ | ⟨fault', hunknown⟩
  · rw [h] at herror
    unfold renamedError? at herror
    split at herror
    · obtain ⟨names, -, heq⟩ := Option.map_eq_some_iff.1 herror
      cases heq
    · cases herror
  · rw [h] at hunknown
    cases hunknown
    exact ⟨rfl, rfl⟩

/-! ## Tables -/

/-- An error is that of a repeated route or of one route. -/
theorem mem_errors_iff {warnUnbound : Bool} {errors : List CompileError}
    (h : api.bindRoutes routes slot warnUnbound = .error errors) :
    e ∈ errors ↔ e ∈ repeatedErrors routes ∨ ∃ r ∈ routes, e ∈ api.ownErrors slot r := by
  rw [errors_of_bindRoutes h, List.mem_append, List.mem_flatMap]
  refine or_congr_right ⟨?_, ?_⟩
  · rintro ⟨r, hr, he⟩
    obtain ⟨key, -, hfind⟩ := List.mem_filterMap.1 hr
    exact ⟨r, List.mem_of_find?_eq_some hfind, he⟩
  · rintro ⟨r, hr, he⟩
    -- the route that comes first under the key has the same errors
    have hsome : (routes.find? (routeKey · = routeKey r)).isSome :=
      List.find?_isSome.2 ⟨r, hr, decide_eq_true rfl⟩
    obtain ⟨first, hfirst⟩ := Option.isSome_iff_exists.1 hsome
    have hkey := List.find?_some hfirst
    refine ⟨first, List.mem_filterMap.2 ⟨routeKey r, mem_firstKeys.2 (List.mem_map_of_mem hr), hfirst⟩, ?_⟩
    rwa [ownErrors_congr (of_decide_eq_true hkey)]

theorem ownErrors_of_missing (h : api.operationOf? (routeKey r) = none) :
    api.ownErrors slot r = [api.missingError r] := by
  rw [ownErrors, h]

/-- A route that names no operation fails with its error. -/
theorem exists_errors_of_missing (slot : String) (warnUnbound : Bool) (hr : r ∈ routes)
    (h : api.operationOf? (routeKey r) = none) :
    ∃ errors, api.bindRoutes routes slot warnUnbound = .error errors ∧ api.missingError r ∈ errors := by
  cases hbind : api.bindRoutes routes slot warnUnbound with
  | ok report =>
    obtain ⟨op, hop, hmethod, hpath⟩ := (exists_bindRoutes_iff.1 ⟨report, hbind⟩).known r hr
    exact absurd hpath.symm (path_ne_of_operationOf? h hop hmethod)
  | error errors =>
    refine ⟨errors, rfl, (mem_errors_iff hbind).2 (Or.inr ⟨r, hr, ?_⟩)⟩
    rw [ownErrors_of_missing h]
    exact List.mem_singleton_self _

/-- What an error is about: a route that no operation has, or something else. -/
def IsMissing : CompileError → Prop
  | .unknownRoute .. | .templateMismatch .. => True
  | _ => False

theorem not_isMissing_of_mem_clashes (h : e ∈ op.clashes slot) : ¬IsMissing e := by
  rw [Operation.clashes_eq, List.mem_append] at h
  rcases h with hreserved | hshared
  · obtain ⟨p, -, rfl⟩ := List.mem_map.1 hreserved
    exact id
  · obtain ⟨field, -, rfl⟩ := List.mem_map.1 hshared
    exact id

theorem not_isMissing_of_mem_repeatedErrors (h : e ∈ repeatedErrors routes) : ¬IsMissing e := by
  obtain ⟨key, -, hkey⟩ := List.mem_filterMap.1 h
  dsimp only at hkey
  split at hkey
  · cases hkey
    exact id
  · cases hkey

/-- An error about a missing operation is that of a route of no operation. -/
theorem exists_missing {warnUnbound : Bool} {errors : List CompileError}
    (h : api.bindRoutes routes slot warnUnbound = .error errors) (he : e ∈ errors) (hkind : IsMissing e) :
    ∃ r ∈ routes, api.operationOf? (routeKey r) = none ∧ api.missingError r = e := by
  rcases (mem_errors_iff h).1 he with hrepeated | ⟨r, hr, hown⟩
  · exact absurd hkind (not_isMissing_of_mem_repeatedErrors hrepeated)
  cases hop : api.operationOf? (routeKey r) with
  | none =>
    rw [ownErrors_of_missing hop, List.mem_singleton] at hown
    exact ⟨r, hr, hop, hown.symm⟩
  | some op =>
    rw [ownErrors_of_operationOf? hop] at hown
    exact absurd hkind (not_isMissing_of_mem_clashes hown)

/-- A route of no operation whose path differs from one of its method only in the names of placeholders gets an error
that says so: it names the first placeholder that differs, and the first such operation. An error that says so comes
from a route of no operation, and renaming the placeholders of its path to those of the operation that is named gives
the path of that operation. Both hold of paths that can be compared. -/
theorem bindRoutes_renamed (api : CompiledApi) (routes : List Route) (slot : String) (warnUnbound : Bool) :
    (∀ r ∈ routes, api.operationOf? (routeKey r) = none → api.Compares r → ∀ op, api.renamed? r = some op →
      ∃ errors names, api.bindRoutes routes slot warnUnbound = .error errors ∧
        firstDifferent? (placeholders r.path) (placeholders op.path) = some names ∧
        .templateMismatch names.1 r.label (.renamed names.2 op.method op.path) ∈ errors ∧
        ∀ fault, .unknownRoute r.method r.path fault ∉ errors) ∧
    ∀ errors, api.bindRoutes routes slot warnUnbound = .error errors → ∀ ours label theirs method path,
      .templateMismatch ours label (.renamed theirs method path) ∈ errors →
        ∃ r ∈ routes, r.label = label ∧ r.method = method ∧ api.operationOf? (routeKey r) = none ∧
          (∃ op ∈ api.operations, operationKey op = (method, path)) ∧
          (Comparable r.path path → rename (placeholders path) r.path = path ∧
            firstDifferent? (placeholders r.path) (placeholders path) = some (ours, theirs)) := by
  constructor
  · intro r hr hnone hcompares op hop
    obtain ⟨names, hnames, hmissing⟩ := missingError_of_renamed? hnone hcompares hop
    obtain ⟨errors, hbind, herror⟩ := exists_errors_of_missing slot warnUnbound hr hnone
    refine ⟨errors, names, hbind, hnames, hmissing ▸ herror, fun fault hunknown => ?_⟩
    -- such an error would be that of a route with the same method and path
    obtain ⟨other, -, -, hother⟩ := exists_missing hbind hunknown trivial
    obtain ⟨hmethod, hpath⟩ := missingError_eq_unknownRoute hother
    rw [missingError_congr hmethod hpath, hmissing] at hother
    cases hother
  · intro errors hbind ours label theirs method path herror
    obtain ⟨r, hr, hnone, hmissing⟩ := exists_missing hbind herror trivial
    obtain ⟨hlabel, hmethod, hmismatch, hop⟩ := missingError_eq_templateMismatch hmissing
    refine ⟨r, hr, hlabel.symm, hmethod.symm, hnone, hop, fun hcomparable => ?_⟩
    rw [PathTemplate.mismatch?_eq hcomparable] at hmismatch
    split at hmismatch
    · rename_i hblank
      exact ⟨PathTemplate.rename_of_blank_eq hblank, hmismatch⟩
    · cases hmismatch

/-- A route that names the placeholder of an operation otherwise. -/
def keyRoute : Route :=
  ⟨.put, "/orders/\x7bkey\x7d", "replace"⟩

/-- A route with another name for its placeholder is reported with both names. -/
theorem bindRoutes_renamed_ordersDocument : ∃ api errors, compile ordersDocument none = .ok api ∧
    api.bindRoutes [keyRoute] "body" true = .error errors ∧
      .templateMismatch "key" "PUT /orders/\x7bkey\x7d" (.renamed "id" .put "/orders/\x7bid\x7d") ∈ errors := by
  obtain ⟨api, h, hkeys⟩ := exists_compile_ordersDocument
  have hcomparable : Comparable keyRoute.path "/orders/\x7bid\x7d" := by decide +kernel
  have hput : ∀ op ∈ api.operations, op.method = keyRoute.method → op.path = "/orders/\x7bid\x7d" := by
    intro op hop hmethod
    have hkey : operationKey op ∈ api.operations.map operationKey := List.mem_map_of_mem hop
    rw [hkeys, operationKey, hmethod] at hkey
    simpa [keyRoute] using hkey
  have hnone : api.operationOf? (routeKey keyRoute) = none := by
    rw [← Option.not_isSome_iff_eq_none, isSome_operationOf?, hkeys]
    decide
  have hcompares : api.Compares keyRoute := fun op hop hmethod _ => hput op hop hmethod ▸ hcomparable
  have hmem : (.put, "/orders/\x7bid\x7d") ∈ api.operations.map operationKey := by
    rw [hkeys]
    decide
  obtain ⟨op, hop, hkey⟩ := List.mem_map.1 hmem
  obtain ⟨hmethod, hpath⟩ := Prod.mk.inj hkey
  have hblank : blank keyRoute.path = blank op.path := by
    rw [hpath]
    decide +kernel
  have hrenamed : (api.renamed? keyRoute).isSome := List.find?_isSome.2 ⟨op, hop, decide_eq_true ⟨hmethod, hblank⟩⟩
  obtain ⟨first, hfirst⟩ := Option.isSome_iff_exists.1 hrenamed
  obtain ⟨errors, names, hbind, hnames, herror, -⟩ :=
    (bindRoutes_renamed api [keyRoute] "body" true).1 keyRoute (List.mem_singleton_self keyRoute) hnone hcompares
      first hfirst
  have hfound := List.find?_some hfirst
  have hfirstMethod : first.method = .put := (of_decide_eq_true hfound).1
  have hfirstPath := hput first (List.mem_of_find?_eq_some hfirst) hfirstMethod
  have hdifferent : firstDifferent? (placeholders keyRoute.path) (placeholders "/orders/\x7bid\x7d") =
      some ("key", "id") := by
    decide +kernel
  rw [hfirstPath, hdifferent] at hnames
  cases hnames
  rw [hfirstMethod, hfirstPath] at herror
  exact ⟨api, errors, h, hbind, herror⟩

/-- Where a placeholder is a part of a segment, paths that differ only in its name are not compared so. -/
example :
    blank "/files/\x7bid\x7d.json" = blank "/files/\x7bname\x7d.json" ∧
      mismatch? "/files/\x7bid\x7d.json" "/files/\x7bname\x7d.json" = none := by
  decide +kernel

/-- Where a segment begins and ends with placeholders, it is taken for one. -/
example :
    blank "/a/\x7bw\x7d" ≠ blank "/a/\x7bx\x7d-\x7by\x7d" ∧
      mismatch? "/a/\x7bw\x7d" "/a/\x7bx\x7d-\x7by\x7d" = some ("w", "x\x7d-\x7by") := by
  decide +kernel

end RouteBinding.CompiledApi
