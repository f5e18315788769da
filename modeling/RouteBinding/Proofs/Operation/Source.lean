import RouteBinding.Operation.Compiler
import RouteBinding.Proofs.Data.Graph
import RouteBinding.Proofs.Operation.References
import RouteBinding.Proofs.Pointer

/-!
# Where operations stand

Where a document holds the path items, the operations and the parameter objects that are compiled. The pointer
that a parameter object was found at tells what it says (`Declared.entries_eq`), so that what became of it once
holds wherever it is met again.
-/

namespace RouteBinding

open Compilation (RawParameter)

namespace Resolver

variable {r : Resolver} {path pointer : String} {item entries : List (Scalar × Value)}

theorem document_of_ofDocument {d : Document} (h : ofDocument d = .ok r) : r.document = d :=
  (ofDocument_eq_ok h).1

/-- The component schemas of a document have different names. -/
theorem nodup_schemas_of_ofDocument {d : Document} (hd : d.graph.DistinctKeys) (h : ofDocument d = .ok r) :
    (keyTexts r.schemas).Nodup := by
  obtain ⟨-, hempty | ⟨v, -, hentries⟩⟩ := ofDocument_eq_ok h
  · rw [hempty]
    exact List.nodup_nil
  · exact hd.nodup hentries

/-! ## Items and operations -/

/-- The paths of a description. -/
def paths? (r : Resolver) : Option (List (Scalar × Value)) := do
  let top ← r.document.graph.entries? r.document.root
  let paths ← valueAt? "paths" top
  r.document.graph.entries? paths

/-- A path of a description and the item that stands under it. -/
def PathItem (r : Resolver) (path : String) (item : List (Scalar × Value)) : Prop :=
  ∃ paths value, r.paths? = some paths ∧ (.text path, value) ∈ paths ∧
    r.document.graph.entries? value = some item

/-- The pointer to the item of a path. -/
def itemPointer (path : String) : String :=
  Pointer.child "#/paths" (Pointer.escape path)

/-- The operation of a method in a path item. -/
def operation? (r : Resolver) (item : List (Scalar × Value)) (method : Method) :
    Option (List (Scalar × Value)) :=
  (valueAt? method.name item).bind r.document.graph.entries?

/-- The methods and paths that have an operation in one entry of the paths, in the order of the methods. What is no
mapping is no path item and no operation. -/
def entryKeys (r : Resolver) (e : Scalar × Value) : List (Method × String) :=
  match e.1, r.document.graph.entries? e.2 with
  | .text path, some item =>
    (Method.all.filter fun m => (r.operation? item m).isSome).map fun m => (m, path)
  | _, _ => []

/-- The methods and paths that have an operation in a description, path by path as they stand. -/
def operationKeys (r : Resolver) : List (Method × String) :=
  (r.paths?.getD []).flatMap r.entryKeys

theorem mem_entryKeys {e : Scalar × Value} {method : Method} :
    (method, path) ∈ r.entryKeys e ↔ e.1 = .text path ∧
      ∃ item, r.document.graph.entries? e.2 = some item ∧ (r.operation? item method).isSome := by
  unfold entryKeys
  split
  · rename_i path' item hkey hitem
    simp [hkey, hitem, List.mem_filter, Method.mem_all, and_comm]
  · rename_i hnone
    refine iff_of_false List.not_mem_nil ?_
    rintro ⟨hkey, item, hitem, -⟩
    exact hnone path item hkey hitem

/-- What may declare parameters, with its pointer: a path item or an operation of one. -/
inductive Holder (r : Resolver) : String → List (Scalar × Value) → Prop
  | item {path : String} {item : List (Scalar × Value)} (h : r.PathItem path item) :
    Holder r (itemPointer path) item
  | operation {path : String} {item entries : List (Scalar × Value)} {method : Method}
    (h : r.PathItem path item) (hentries : r.operation? item method = some entries) :
    Holder r (Pointer.child (itemPointer path) method.name) entries

/-- A pointer to a mapping with the key of a segment leads on to what stands under the key. -/
theorem find_entry {d : Document} {segment : String} {v w : Value}
    (h : d.find pointer = .ok v) (hv : d.graph.entries? v = some entries)
    (hs : '/' ∉ segment.toList) (hw : valueAt? (Pointer.unescape segment) entries = some w) :
    d.find (Pointer.child pointer segment) = .ok w := by
  obtain ⟨id, hshape⟩ := Graph.entries?_eq_some_iff.1 hv
  rw [Document.find_child h hs, Graph.step, hshape]
  dsimp only
  rw [hw]

/-- The pointer to a path item leads to it. -/
theorem PathItem.find (hd : r.document.graph.DistinctKeys) (h : r.PathItem path item) :
    ∃ v, r.document.find (itemPointer path) = .ok v ∧
      r.document.graph.entries? v = some item := by
  obtain ⟨paths, value, hpaths, hmem, hitem⟩ := h
  obtain ⟨top, htop, hrest⟩ := Option.bind_eq_some_iff.1 hpaths
  obtain ⟨v, hv, hentries⟩ := Option.bind_eq_some_iff.1 hrest
  have hfind : r.document.find "#/paths" = .ok v := by
    obtain ⟨id, hshape⟩ := Graph.entries?_eq_some_iff.1 htop
    refine Document.find_eq_ok_iff.2 ⟨["paths"], by decide, ?_⟩
    simp only [Graph.walk, Graph.step, hshape, hv]
  refine ⟨value, find_entry hfind hentries (Pointer.slash_notMem_escape path) ?_, hitem⟩
  rw [Pointer.unescape_escape]
  exact valueAt?_of_mem (hd.nodup hentries) hmem

/-- Under a path stands one item. -/
theorem PathItem.unique (hd : r.document.graph.DistinctKeys) {item' : List (Scalar × Value)}
    (h : r.PathItem path item) (h' : r.PathItem path item') : item = item' := by
  obtain ⟨v, hv, hitem⟩ := h.find hd
  obtain ⟨v', hv', hitem'⟩ := h'.find hd
  rw [hv] at hv'
  cases hv'
  exact Option.some.inj (hitem.symm.trans hitem')

theorem Holder.find (hd : r.document.graph.DistinctKeys) (h : r.Holder pointer entries) :
    ∃ v, r.document.find pointer = .ok v ∧ r.document.graph.entries? v = some entries := by
  cases h with
  | item h => exact h.find hd
  | @operation path item entries method h hentries =>
    obtain ⟨v, hfind, hv⟩ := h.find hd
    obtain ⟨w, hw, hwentries⟩ := Option.bind_eq_some_iff.1 hentries
    have hname : '/' ∉ method.name.toList ∧ Pointer.unescape method.name = method.name := by
      cases method <;> decide
    refine ⟨w, find_entry hfind hv hname.1 ?_, hwentries⟩
    rw [hname.2]
    exact hw

/-! ## Parameter objects -/

/-- The items of the list of parameters that a path item or an operation has. -/
def listed (r : Resolver) (entries : List (Scalar × Value)) : List Value :=
  match (valueAt? "parameters" entries).map r.document.graph.shape with
  | some (.list _ items) => items
  | _ => []

/-- What stands at a place of the list of parameters at a pointer is a parameter object. -/
def StandsFor (r : Resolver) (list : String) (e : Value × Nat) (p : RawParameter) : Prop :=
  ∃ v, r.resolveObject e.1 (Pointer.child list (toString e.2)) = .ok (p.entries, v, p.pointer)

/-- The parameter objects that a path item or an operation at a pointer declares. -/
def Declares (r : Resolver) (pointer : String) (entries : List (Scalar × Value))
    (ps : List RawParameter) : Prop :=
  List.Forall₂ (r.StandsFor (Pointer.child pointer "parameters")) (r.listed entries).zipIdx ps

/-- A parameter object of the description. -/
def Declared (r : Resolver) (p : RawParameter) : Prop :=
  ∃ pointer entries e, r.Holder pointer entries ∧ e ∈ (r.listed entries).zipIdx ∧
    r.StandsFor (Pointer.child pointer "parameters") e p

theorem Declares.declared {ps : List RawParameter} {p : RawParameter}
    (h : r.Declares pointer entries ps) (hholder : r.Holder pointer entries) (hp : p ∈ ps) :
    r.Declared p := by
  obtain ⟨e, he, hstands⟩ := exists_of_forall₂ h.flip hp
  exact ⟨pointer, entries, e, hholder, he, hstands⟩

/-- A parameter object is known by its pointer. -/
theorem Declared.located (hd : r.document.graph.DistinctKeys) {p : RawParameter}
    (h : r.Declared p) :
    ∃ v, r.document.Located p.pointer v ∧ r.document.graph.entries? v = some p.entries := by
  obtain ⟨pointer, entries, ⟨raw, i⟩, hholder, hmem, v, hresolve⟩ := h
  obtain ⟨targets, hfollows, ⟨hv, -⟩, hfound⟩ := exists_follows_of_resolveObject hresolve
  rcases targets.eq_nil_or_concat' with rfl | ⟨front, target, rfl⟩
  · -- the object stands in the list itself, and the pointer leads to its place there
    cases hfollows
    obtain ⟨w, hfind, hw⟩ := hholder.find hd
    have hitem : (r.listed entries)[i]? = some raw := List.mem_zipIdx_iff_getElem?.1 hmem
    unfold listed at hitem
    split at hitem
    · rename_i id items hlist
      obtain ⟨list, hvalue, hshape⟩ := Option.map_eq_some_iff.1 hlist
      have hfind' : r.document.find (Pointer.child pointer "parameters") = .ok list :=
        find_entry hfind hw (by decide) hvalue
      rw [hfound]
      exact ⟨raw, .placed hfind' hshape hitem, hv⟩
    · cases hitem
  · rw [hfound, List.getLastD_concat]
    exact ⟨v, .found hfollows.find_last, hv⟩

/-- Parameter objects that were found at one pointer say the same. -/
theorem Declared.entries_eq (hd : r.document.graph.DistinctKeys) {p q : RawParameter}
    (hp : r.Declared p) (hq : r.Declared q) (h : p.pointer = q.pointer) : p.entries = q.entries := by
  obtain ⟨v, hv, hpentries⟩ := hp.located hd
  obtain ⟨w, hw, hqentries⟩ := hq.located hd
  rw [h] at hv
  rw [hv.unique hw] at hpentries
  exact Option.some.inj (hpentries.symm.trans hqentries)

end Resolver

end RouteBinding
