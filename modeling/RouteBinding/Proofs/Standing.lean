import RouteBinding.Proofs.Data.Graph
import RouteBinding.Proofs.Pointer

/-!
# Where values stand

A value stands at a pointer if the pointer was put together on the way to the value: each step into a mapping adds
the escaped key, and each step into a list adds the place (`Document.Stands`). The ways begin at given pointers,
and where those lead to their values, so do all (`Stands.find`). A place is found only while it has no more digits
than are read, which no list outgrows (`Graph.Indexable`).
-/

namespace RouteBinding

/-! ## Places in lists -/

/-- Every place of a list has no more digits than are read. -/
def Container.Indexable : Container → Prop
  | .list items => items.length ≤ 10 ^ Text.digitLimit
  | _ => True

instance : DecidablePred Container.Indexable
  | .list items => inferInstanceAs (Decidable (items.length ≤ 10 ^ Text.digitLimit))
  | .mapping _ => .isTrue trivial
  | .set _ => .isTrue trivial
  | .pair _ _ => .isTrue trivial

namespace Graph

variable {g : Graph} {v w : Value}

/-- Every place of every list has no more digits than are read. -/
def Indexable (g : Graph) : Prop :=
  ∀ c ∈ g.containers.toList, c.Indexable

instance (g : Graph) : Decidable g.Indexable :=
  inferInstanceAs (Decidable (∀ c ∈ g.containers.toList, c.Indexable))

theorem Indexable.length_le {id : Nat} {items : List Value} (h : g.Indexable)
    (hv : g.shape v = .list id items) : items.length ≤ 10 ^ Text.digitLimit :=
  h (.list items) (mem_containers_of_shape (v := v) (by rw [hv]; rfl))

/-- The text of a place leads to the item there. -/
theorem step_toString {id i : Nat} {items : List Value} (h : g.Indexable)
    (hv : g.shape v = .list id items) (hw : items[i]? = some w) :
    g.step v (toString i) = .ok w := by
  have hlt : i < items.length := (List.getElem?_eq_some_iff.1 hw).1
  have hread := Text.readInt?_toString_of_lt (Nat.lt_of_lt_of_le hlt (h.length_le hv))
  have hitem : itemAt? items i = some w := by
    rw [itemAt?, if_pos (Int.natCast_nonneg i)]
    exact hw
  rw [step, hv, hread]
  simp only [Option.bind_some, hitem]

end Graph

namespace Document

/-! ## Ways -/

/-- A value stands at a pointer: at one of the given pointers, in a mapping under a key, or in a list at a
place. -/
inductive Stands (d : Document) (base : String → Value → Prop) : String → Value → Prop
  | base {pointer : String} {v : Value} (h : base pointer v) : Stands d base pointer v
  | entry {pointer key : String} {v w : Value} {entries : List (Scalar × Value)}
    (h : Stands d base pointer v) (hv : d.graph.entries? v = some entries)
    (hw : (.text key, w) ∈ entries) :
    Stands d base (Pointer.child pointer (Pointer.escape key)) w
  | item {pointer : String} {v w : Value} {id i : Nat} {items : List Value}
    (h : Stands d base pointer v) (hv : d.graph.shape v = .list id items)
    (hw : items[i]? = some w) : Stands d base (Pointer.child pointer (toString i)) w

variable {d : Document} {base : String → Value → Prop} {pointer key : String} {v w : Value}
  {entries : List (Scalar × Value)}

/-- What stands under a keyword, which is written in a pointer as it is. -/
theorem Stands.keyword (h : d.Stands base pointer v) (hv : d.graph.entries? v = some entries)
    (hw : valueAt? key entries = some w) (hkey : Pointer.escape key = key) :
    d.Stands base (pointer ++ ("/" ++ key)) w := by
  have hstands := h.entry hv (mem_of_valueAt? hw)
  rwa [hkey, Pointer.child, String.append_assoc] at hstands

/-- What stands in a mapping under a keyword, by its key there. -/
theorem Stands.keyword_entry {name : String} {u : Value} {inner : List (Scalar × Value)}
    (h : d.Stands base pointer v) (hv : d.graph.entries? v = some entries)
    (hw : valueAt? key entries = some w) (hkey : Pointer.escape key = key)
    (hinner : d.graph.entries? w = some inner) (hu : (.text name, u) ∈ inner) :
    d.Stands base (pointer ++ ("/" ++ key ++ "/") ++ Pointer.escape name) u := by
  have hstands := (h.keyword hv hw hkey).entry hinner hu
  simpa only [Pointer.child, String.append_assoc] using hstands

/-- What stands in a list under a keyword, by its place there. -/
theorem Stands.keyword_item {id i : Nat} {u : Value} {items : List Value}
    (h : d.Stands base pointer v) (hv : d.graph.entries? v = some entries)
    (hw : valueAt? key entries = some w) (hkey : Pointer.escape key = key)
    (hitems : d.graph.shape w = .list id items) (hu : items[i]? = some u) :
    d.Stands base (pointer ++ ("/" ++ key ++ "/") ++ toString i) u := by
  have hstands := (h.keyword hv hw hkey).item hitems hu
  simpa only [Pointer.child, String.append_assoc] using hstands

/-- A pointer leads to what stands there, unless the way to it began off the document. -/
theorem Stands.find_or (off : String → Prop) (hd : d.graph.DistinctKeys) (hi : d.graph.Indexable)
    (hbase : ∀ pointer v, base pointer v → d.find pointer = .ok v ∨ off pointer)
    (hoff : ∀ pointer segment, off pointer → off (Pointer.child pointer segment))
    (h : d.Stands base pointer v) : d.find pointer = .ok v ∨ off pointer := by
  induction h with
  | base h => exact hbase _ _ h
  | @entry pointer key v w entries _ hv hw ih =>
    refine ih.imp (fun hfind => ?_) (hoff _ _)
    obtain ⟨id, hshape⟩ := Graph.entries?_eq_some_iff.1 hv
    rw [find_child hfind (Pointer.slash_notMem_escape key), Pointer.unescape_escape, Graph.step,
      hshape]
    simp only [valueAt?_of_mem (hd.nodup hv) hw]
  | @item pointer v w id i items _ hv hw ih =>
    refine ih.imp (fun hfind => ?_) (hoff _ _)
    rw [find_child hfind (Pointer.notMem_toString (by decide) i),
      Pointer.unescape_of_notMem (Pointer.notMem_toString (by decide) i)]
    exact Graph.step_toString hi hv hw

/-- If every way begins where its pointer leads, every pointer leads to what stands there. -/
theorem Stands.find (hd : d.graph.DistinctKeys) (hi : d.graph.Indexable)
    (hbase : ∀ pointer v, base pointer v → d.find pointer = .ok v)
    (h : d.Stands base pointer v) : d.find pointer = .ok v := by
  have hor : d.find pointer = .ok v ∨ False :=
    h.find_or (fun _ => False) hd hi (fun pointer v hb => .inl (hbase pointer v hb))
      fun _ _ hoff => hoff
  exact hor.resolve_right id

end Document

end RouteBinding
