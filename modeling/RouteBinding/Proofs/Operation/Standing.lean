import RouteBinding.Proofs.Blame
import RouteBinding.Proofs.Model.Composed
import RouteBinding.Proofs.Operation.Source

/-!
# Where the parts of operations stand

The ways in a description begin where pointers lead. There is one more beginning: a response is known by its status
as it is shown, and only a status that is a text is a key that a pointer can name (`Resolver.Begins`). Path items,
operations and the objects behind references stand at their pointers.
-/

namespace RouteBinding.Resolver

variable {r : Resolver} {pointer : String} {v : Value} {entries : List (Scalar × Value)}

/-- Where the ways in a description begin: at what a pointer leads to, and at a response of an operation. -/
inductive Begins (r : Resolver) : String → Value → Prop
  | found {pointer : String} {v : Value} (h : r.document.find pointer = .ok v) :
    Begins r pointer v
  | response {pointer : String} {entries responses : List (Scalar × Value)} {mapping v : Value}
    {status : Scalar} {shown : String} (h : r.Holder pointer entries)
    (hmapping : valueAt? "responses" entries = some mapping)
    (hresponses : r.document.graph.entries? mapping = some responses)
    (hstatus : (status, v) ∈ responses) (hshown : status.display? = some shown) :
    Begins r (pointer ++ "/responses/" ++ Pointer.escape shown) v

/-- A value stands at a pointer of a description. -/
abbrev StandsAt (r : Resolver) (pointer : String) (v : Value) : Prop :=
  r.document.Stands r.Begins pointer v

theorem StandsAt.of_find (h : r.document.find pointer = .ok v) : r.StandsAt pointer v :=
  .base (.found h)

/-- An object with some entries stands at a pointer. -/
def ObjectAt (r : Resolver) (pointer : String) (entries : List (Scalar × Value)) : Prop :=
  ∃ v, r.StandsAt pointer v ∧ r.document.graph.entries? v = some entries

/-- The paths of a description stand where their pointer leads. -/
theorem find_paths {top : List (Scalar × Value)} {paths : Value}
    (htop : r.document.graph.entries? r.document.root = some top)
    (hpaths : valueAt? "paths" top = some paths) : r.document.find "#/paths" = .ok paths := by
  have hkeys : Pointer.keys? "#/paths" = some ["paths"] := by decide
  simp only [Document.find, hkeys, Graph.walk, step_of_entries? htop hpaths]

theorem PathItem.objectAt {path : String} {item : List (Scalar × Value)} (h : r.PathItem path item) :
    r.ObjectAt (itemPointer path) item := by
  obtain ⟨paths, value, hpaths, hmem, hitem⟩ := h
  obtain ⟨top, htop, hrest⟩ := Option.bind_eq_some_iff.1 hpaths
  obtain ⟨mapping, hmapping, hentries⟩ := Option.bind_eq_some_iff.1 hrest
  exact ⟨value, (StandsAt.of_find (find_paths htop hmapping)).entry hentries hmem, hitem⟩

theorem Holder.objectAt (h : r.Holder pointer entries) : r.ObjectAt pointer entries := by
  cases h with
  | item h => exact h.objectAt
  | @operation path item entries method h hentries =>
    obtain ⟨v, hv, hitem⟩ := h.objectAt
    obtain ⟨w, hw, hwentries⟩ := Option.bind_eq_some_iff.1 hentries
    refine ⟨w, ?_, hwentries⟩
    have hstands := hv.entry hitem (mem_of_valueAt? hw)
    have hname : Pointer.escape method.name = method.name := by cases method <;> decide
    rwa [hname] at hstands

/-- What stands in an object under a keyword, which is written in a pointer as it is. -/
theorem ObjectAt.keyword {key : String} {w : Value} (h : r.ObjectAt pointer entries)
    (hw : valueAt? key entries = some w) (hkey : Pointer.escape key = key) :
    r.StandsAt (pointer ++ ("/" ++ key)) w := by
  obtain ⟨v, hv, hentries⟩ := h
  exact hv.keyword hentries hw hkey

/-! ## Objects behind references -/

/-- What references from a value lead to is an object at its pointer. -/
theorem objectAt_of_resolveObject {w : Value} {found : String} (hv : r.StandsAt pointer v)
    (h : r.resolveObject v pointer = .ok (entries, w, found)) : r.ObjectAt found entries := by
  obtain ⟨targets, hfollows, ⟨hentries, -⟩, rfl⟩ := exists_follows_of_resolveObject h
  rcases targets.eq_nil_or_concat' with rfl | ⟨front, target, rfl⟩
  · cases hfollows
    exact ⟨v, hv, hentries⟩
  · rw [List.getLastD_concat]
    exact ⟨w, .of_find hfollows.find_last, hentries⟩

/-- Where references from a value lead to no object, an error points into the description. -/
theorem pointsInto_of_resolveObject {e : CompileError} (h : r.resolveObject v pointer = .error (.error e)) :
    r.document.PointsInto r.Begins e := by
  have houtcome := outcome_resolveObject r v pointer
  rw [h] at houtcome
  cases houtcome with
  | @loop targets target w hfollows hnodup hmem =>
    -- every reference that was followed leads to something
    have hstands : ∀ p ∈ targets ++ [target], ∃ w, r.StandsAt p w := by
      intro p hp
      obtain ⟨w, hw⟩ := hfollows.exists_find hp
      exact ⟨w, .of_find hw⟩
    obtain ⟨w, hw⟩ := hstands target (List.mem_append_right _ (List.mem_singleton_self _))
    exact Document.pointsInto_cyclic hw hstands
  | broken _ hbreaks =>
    rcases hbreaks.exists_eq with ⟨target, fault, heq⟩ | ⟨heq, -⟩
    · cases heq
      exact Document.pointsInto_unresolved _ _
    · cases heq

/-- References from a value break the run off where one has no text. -/
theorem breaks_of_resolveObject {b : Breakdown} (h : r.resolveObject v pointer = .error (.breakdown b)) :
    r.document.graph.Breaks b := by
  have houtcome := outcome_resolveObject r v pointer
  rw [h] at houtcome
  obtain ⟨rfl, targets, w, reference, -, href, hnone⟩ := houtcome.endsUnwritable_of_breakdown
  obtain ⟨entries, hentries, hvalue⟩ := Option.bind_eq_some_iff.1 href
  exact Graph.breaks_of_display? hentries hvalue hnone

/-- References lead to no object, but never for a name. -/
theorem not_isCollision_of_resolveObject {e : CompileError} (h : r.resolveObject v pointer = .error (.error e)) :
    ¬ e.IsCollision := by
  have houtcome := outcome_resolveObject r v pointer
  rw [h] at houtcome
  cases houtcome with
  | loop _ _ _ => exact id
  | broken _ hbreaks =>
    rcases hbreaks.exists_eq with ⟨target, fault, heq⟩ | ⟨heq, -⟩ <;> cases heq
    exact id

end RouteBinding.Resolver
