import RouteBinding.Proofs.Operation.Collected

/-!
# Compilations that do not break off

A description is like JSON where it matters if its keys are texts, its components are a mapping if there are any, and
what names a type, a place or a style is no container (`Document.JsonLike`). However malformed it is otherwise, and
even if its mappings are shared or hold themselves, it is compiled, or refused with a list of errors, unless it holds a
number with more digits than can be written: an error that would show such a number breaks the compilation off
(`compile_total`).
-/

namespace RouteBinding

namespace Graph

variable {g : Graph} {v : Value}

/-- Whether a value is a scalar. -/
def isScalar (g : Graph) (v : Value) : Bool :=
  match g.shape v with
  | .scalar _ => true
  | _ => false

/-- Whether a value may stand under `type`: a scalar, or a list of scalars. -/
def isTypeName (g : Graph) (v : Value) : Bool :=
  match g.shape v with
  | .scalar _ => true
  | .list _ items => items.all g.isScalar
  | _ => false

theorem canBeKey_of_isScalar (h : g.isScalar v) : g.canBeKey v = true := by
  unfold isScalar at h
  rw [canBeKey, canBeKeyWithin]
  cases hshape : g.shape v with
  | scalar s => rfl
  | _ => simp [hshape] at h

end Graph

/-- The keys of a mapping are texts, and no container names a type, the place of a parameter or its style. -/
def Container.JsonLike (g : Graph) : Container → Prop
  | .mapping entries => (∀ e ∈ entries, e.1.text?.isSome) ∧
      (∀ v ∈ valueAt? "type" entries, g.isTypeName v) ∧
      (∀ v ∈ valueAt? "in" entries, g.isScalar v) ∧ ∀ v ∈ valueAt? "style" entries, g.isScalar v
  | _ => True

instance (g : Graph) : DecidablePred (Container.JsonLike g)
  | .mapping entries => inferInstanceAs (Decidable ((∀ e ∈ entries, e.1.text?.isSome) ∧
      (∀ v ∈ valueAt? "type" entries, g.isTypeName v) ∧
      (∀ v ∈ valueAt? "in" entries, g.isScalar v) ∧ ∀ v ∈ valueAt? "style" entries, g.isScalar v))
  | .list _ => .isTrue trivial
  | .set _ => .isTrue trivial
  | .pair _ _ => .isTrue trivial

/-- A document is a mapping with texts for keys in all mappings, its components are absent, null or a mapping, and no
container names a type, the place of a parameter or its style. -/
structure Document.JsonLike (d : Document) : Prop where
  root : (d.graph.entries? d.root).isSome
  components : ∀ v ∈ (d.graph.entries? d.root).bind (valueAt? "components"),
    v = .scalar .null ∨ (d.graph.entries? v).isSome
  containers : ∀ c ∈ d.graph.containers.toList, c.JsonLike d.graph

namespace Document.JsonLike

variable {d : Document} {v w : Value} {entries : List (Scalar × Value)}

theorem mapping (h : d.JsonLike) (hv : d.graph.entries? v = some entries) :
    (Container.mapping entries).JsonLike d.graph :=
  h.containers _ (Graph.mapping_mem_of_entries? hv)

/-- What a schema declares as its type can be looked up. -/
theorem canBeKey_of_declaredType (h : d.JsonLike) (hv : d.graph.entries? v = some entries)
    (hw : Resolver.declaredType d.graph entries = some w) : d.graph.canBeKey w = true := by
  obtain ⟨-, htype, -⟩ := h.mapping hv
  unfold Resolver.declaredType at hw
  split at hw
  · cases hw
  · rename_i value hvalue
    have hname := htype value hvalue
    unfold Graph.isTypeName at hname
    split at hw
    · rename_i id items hshape
      simp only [hshape, List.all_eq_true] at hname
      have hfound := (Option.filter_eq_some_iff.1 hw).1
      exact Graph.canBeKey_of_isScalar (hname w (List.mem_of_find?_eq_some hfound))
    · rename_i hlist
      split_ifs at hw
      cases hw
      split at hname
      · rename_i s hshape
        exact Graph.canBeKey_of_isScalar (by simp [Graph.isScalar, hshape])
      · rename_i id items hshape
        exact (hlist id items hshape).elim
      · cases hname

/-- Nothing in such a document breaks a run off, but a number that has to be written and is too long. -/
theorem eq_numberTooLong (h : d.JsonLike) {b : Breakdown} (hbreaks : d.graph.Breaks b) : b = .numberTooLong := by
  cases hbreaks with
  | key hv hmem hkey =>
    have htext := (h.mapping hv).1 _ hmem
    rw [hkey] at htext
    cases htext
  | schema hv hstops =>
    cases hstops with
    | plain hplain => exact hplain.elim
    | unhashable htype =>
      obtain ⟨w, hw, hkey⟩ := htype
      rw [h.canBeKey_of_declaredType hv hw] at hkey
      cases hkey
    | unwritable _ => rfl
  | @place v w entries name hv hname hw hkey =>
    obtain ⟨-, -, hin, hstyle⟩ := h.mapping hv
    have hscalar : d.graph.isScalar w := by
      rcases List.mem_pair.1 hname with rfl | rfl
      · exact hin _ hw
      · exact hstyle _ hw
    rw [Graph.canBeKey_of_isScalar hscalar] at hkey
    cases hkey
  | entry _ _ _ => rfl

theorem ofDocument_ne_breakdown (h : d.JsonLike) (b : Breakdown) :
    Resolver.ofDocument d ≠ .error (.breakdown b) := by
  intro hr
  obtain ⟨top, htop⟩ := Option.isSome_iff_exists.1 h.root
  have hcomponents := h.components
  unfold Resolver.ofDocument at hr
  rw [htop] at hr hcomponents
  dsimp only at hr
  split at hr
  · cases hr
  · rename_i components hfilter
    obtain ⟨hvalue, htruthy⟩ := Option.filter_eq_some_iff.1 hfilter
    rcases hcomponents components hvalue with rfl | hmapping
    · cases htruthy
    · obtain ⟨inner, hinner⟩ := Option.isSome_iff_exists.1 hmapping
      rw [hinner] at hr
      dsimp only at hr
      split at hr
      · cases hr
      · split at hr <;> cases hr

end Document.JsonLike

/-- A document that is like JSON is compiled, or refused with a list of errors that is not empty, or it holds a number
with more digits than can be written, for which the compilation may break off. -/
theorem compile_total {d : Document} (h : d.JsonLike) (version : Option String) :
    (∃ api, compile d version = .ok api) ∨
      (∃ errors, errors ≠ [] ∧ compile d version = .error (.errors errors)) ∨
      compile d version = .error (.breakdown .numberTooLong) ∧ d.graph.HasLongNumber := by
  cases hcollect : collect d with
  | error b =>
    rcases breaks_of_collect hcollect with hr | hbreaks
    · exact absurd hr (h.ofDocument_ne_breakdown b)
    · obtain rfl := h.eq_numberTooLong hbreaks
      rw [compile_eq, hcollect]
      exact .inr (.inr ⟨rfl, hbreaks.hasLongNumber⟩)
  | ok c =>
    rw [compile_eq, hcollect]
    dsimp only
    split_ifs with hempty
    · exact .inl ⟨_, rfl⟩
    · refine .inr (.inl ⟨c.errors, ?_, rfl⟩)
      simpa using hempty

/-- An identifier of an operation that is a number is an error, and one that is too long to be shown in it breaks the
compilation off. -/
example : compile ⟨⟨#[
    .mapping [(.text "paths", .container 1)],
    .mapping [(.text "/a", .container 2)],
    .mapping [(.text "get", .container 3)],
    .mapping [(.text "operationId", .scalar (.int (10 ^ 4300 : Nat)))]]⟩, .container 0⟩ none =
      .error (.breakdown .numberTooLong) := by
  decide +kernel

/-- A document with faults all over, in which a schema holds itself. -/
def faultyDocument : Document where
  graph := ⟨#[
    .mapping [(.text "components", .container 1), (.text "paths", .container 3)],
    .mapping [(.text "schemas", .container 2)],
    .mapping [(.text "A", .container 5), (.text "B", .scalar (.int 1)), (.text "C/", .container 6)],
    .mapping [(.text "/x/\x7bid\x7d", .container 4), (.text "y", .scalar (.text ""))],
    .mapping [(.text "parameters", .container 7), (.text "get", .container 8),
      (.text "put", .container 9)],
    .mapping [(.text "type", .container 10), (.text "items", .container 5)],
    .mapping [(.text "$ref", .scalar (.text "#/components/schemas/C~1"))],
    .list [.container 4, .scalar .null],
    .mapping [(.text "requestBody", .container 8), (.text "responses", .container 9)],
    .mapping [(.text "200", .container 9), (.text "operationId", .container 7)],
    .list [.scalar (.text "null"), .scalar (.text "array")]]⟩
  root := .container 0

/-- The document holds no long number, so that its compilation does not break off. -/
theorem compile_total_faultyDocument : faultyDocument.JsonLike ∧ ¬ faultyDocument.graph.HasLongNumber ∧
    ((∃ api, compile faultyDocument none = .ok api) ∨
      ∃ errors, errors ≠ [] ∧ compile faultyDocument none = .error (.errors errors)) := by
  have h : faultyDocument.JsonLike :=
    ⟨by decide, by decide, by decide⟩
  have hlong : ¬ faultyDocument.graph.HasLongNumber := by decide
  refine ⟨h, hlong, ?_⟩
  rcases compile_total h none with hok | herrors | ⟨-, hnumber⟩
  · exact .inl hok
  · exact .inr herrors
  · exact absurd hnumber hlong

end RouteBinding
