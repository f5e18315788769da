import RouteBinding.Pointer
import RouteBinding.Proofs.Text.Numeral
import RouteBinding.Proofs.Text.Split

/-!
# Pointers put together

A pointer with one more segment leads one step further (`find_child`), and only one pointer and one segment
make it (`child_inj`). Where a pointer leads to a list, the place of an item makes a pointer that leads to the
item or nowhere (`find_place`), so that a value is known by its pointer, whether it was found there or stands
there (`Located.unique`).
-/

namespace RouteBinding

namespace Pointer

variable {pointer segment : String}

/-! ## Segments -/

theorem slash_notMem_escape (key : String) : '/' ∉ (escape key).toList := by
  intro h
  rw [escape, String.toList_ofList] at h
  obtain ⟨c, -, hc⟩ := List.mem_flatMap.1 h
  unfold escapeChar at hc
  split_ifs at hc with htilde hslash
  · simp at hc
  · simp at hc
  · exact hslash (List.mem_singleton.1 hc).symm

theorem unescape_of_notMem (h : '~' ∉ segment.toList) : unescape segment = segment := by
  have hchars (s : List Char) (hs : '~' ∉ s) : unescapeChars s = s := by
    induction s with
    | nil => rfl
    | cons c rest ih =>
      obtain ⟨hc, hrest⟩ := List.ne_and_not_mem_of_not_mem_cons hs
      rw [unescapeChars.eq_3 _ _ (fun _ h _ => hc h.symm) (fun _ h _ => hc h.symm), ih hrest]
  rw [unescape, hchars _ h, String.ofList_toList]

theorem notMem_toString {c : Char} (hc : c.isDigit = false) (i : Nat) : c ∉ (toString i).toList := by
  intro h
  rw [Nat.toString_eq_repr, Nat.toList_repr] at h
  have hdigit := Nat.isDigit_of_mem_toDigits (by omega) (by omega) h
  rw [hc] at hdigit
  cases hdigit

theorem toList_child (pointer segment : String) :
    (child pointer segment).toList = pointer.toList ++ '/' :: segment.toList := by
  rw [child, String.toList_append, String.toList_append, List.append_assoc]
  rfl

/-- A pointer is made of one shorter pointer and one segment only. -/
theorem child_inj {pointer' segment' : String} (hs : '/' ∉ segment.toList)
    (hs' : '/' ∉ segment'.toList) (h : child pointer segment = child pointer' segment') :
    pointer = pointer' ∧ segment = segment' := by
  have hlists := congrArg (fun s => Text.splitChars '/' s.toList) h
  simp only [toList_child, Text.splitChars_append, Text.splitChars_of_notMem hs,
    Text.splitChars_of_notMem hs'] at hlists
  obtain ⟨hpointers, hsegments⟩ := List.append_inj' hlists rfl
  have hjoined := congrArg (Text.joinChars '/') hpointers
  rw [Text.joinChars_splitChars, Text.joinChars_splitChars] at hjoined
  exact ⟨String.toList_inj.1 hjoined, String.toList_inj.1 (List.cons.inj hsegments).1⟩

theorem keys?_child {keys : List String} (h : keys? pointer = some keys)
    (hs : '/' ∉ segment.toList) :
    keys? (child pointer segment) = some (keys ++ [unescape segment]) := by
  obtain ⟨rest, hrest, rfl⟩ := Option.map_eq_some_iff.1 h
  unfold Text.dropHead? at hrest
  split_ifs at hrest with hstarts
  cases hrest
  obtain ⟨tail, htail⟩ := List.isPrefixOf_iff_prefix.1 hstarts
  have hdrop (t : List Char) : (root.toList ++ t).drop root.length = t := by
    rw [← String.length_toList, List.drop_left]
  have hstarts' : Text.startsWith (child pointer segment) root = true := by
    rw [Text.startsWith, toList_child, ← htail, List.append_assoc]
    exact List.isPrefixOf_iff_prefix.2 (List.prefix_append _ _)
  rw [keys?, Text.dropHead?, if_pos hstarts', Option.map_some, toList_child, ← htail,
    List.append_assoc, hdrop, hdrop]
  simp [Text.split, Text.splitChars_append, Text.splitChars_of_notMem hs]

end Pointer

/-! ## Ways -/

theorem Graph.walk_append (g : Graph) (v : Value) (keys : List String) (key : String) :
    g.walk v (keys ++ [key]) = g.walk v keys >>= fun w => g.step w key := by
  induction keys generalizing v with
  | nil =>
    rw [List.nil_append, walk]
    cases hstep : g.step v key with
    | error fault => simp [walk, bind, Except.bind, hstep]
    | ok w => simp [walk, bind, Except.bind, hstep]
  | cons first rest ih =>
    rw [List.cons_append, walk, walk]
    cases g.step v first with
    | error fault => rfl
    | ok w => exact ih w

namespace Document

variable {d : Document} {pointer segment : String} {v w : Value}

theorem find_eq_ok_iff : d.find pointer = .ok v ↔
    ∃ keys, Pointer.keys? pointer = some keys ∧ d.graph.walk d.root keys = .ok v := by
  unfold find
  cases Pointer.keys? pointer with
  | none => simp
  | some keys =>
    cases hwalk : d.graph.walk d.root keys <;> simp [hwalk]

theorem find_of_keys {keys : List String} (h : Pointer.keys? pointer = some keys) :
    d.find pointer =
      (d.graph.walk d.root keys).mapError (CompileError.unresolvedReference pointer) := by
  rw [find, h]
  dsimp only
  cases d.graph.walk d.root keys <;> rfl

/-- A pointer with one more segment leads one step further. -/
theorem find_child (h : d.find pointer = .ok v) (hs : '/' ∉ segment.toList) :
    d.find (Pointer.child pointer segment) = .ok w ↔
      d.graph.step v (Pointer.unescape segment) = .ok w := by
  obtain ⟨keys, hkeys, hwalk⟩ := find_eq_ok_iff.1 h
  rw [find_eq_ok_iff, Pointer.keys?_child hkeys hs]
  have hstep : d.graph.walk d.root (keys ++ [Pointer.unescape segment]) =
      d.graph.step v (Pointer.unescape segment) := by
    rw [Graph.walk_append, hwalk]
    rfl
  rw [← hstep]
  simp

/-- The pointer of a place in a list leads to the item there, or nowhere: with too many digits a place is
not read. -/
theorem find_place {id i : Nat} {items : List Value} (h : d.find pointer = .ok v)
    (hlist : d.graph.shape v = .list id items)
    (hfound : d.find (Pointer.child pointer (toString i)) = .ok w) : items[i]? = some w := by
  rw [find_child h (Pointer.notMem_toString (by decide) i),
    Pointer.unescape_of_notMem (Pointer.notMem_toString (by decide) i), Graph.step, hlist] at hfound
  dsimp only at hfound
  cases hplace : (Text.readInt? (toString i)).bind (Graph.itemAt? items) with
  | none => rw [hplace] at hfound; cases hfound
  | some item =>
    rw [hplace] at hfound
    cases hfound
    obtain ⟨j, hread, hitem⟩ := Option.bind_eq_some_iff.1 hplace
    rw [Text.eq_of_readInt?_toString hread, Graph.itemAt?, if_pos (Int.natCast_nonneg i)] at hitem
    exact hitem

/-- A pointer leads to a value, or it is made of a pointer to a list and the place of the value there. -/
inductive Located (d : Document) : String → Value → Prop
  | found {pointer : String} {v : Value} (h : d.find pointer = .ok v) : Located d pointer v
  | placed {pointer : String} {v list : Value} {id i : Nat} {items : List Value}
    (hfind : d.find pointer = .ok list) (hlist : d.graph.shape list = .list id items)
    (hitem : items[i]? = some v) : Located d (Pointer.child pointer (toString i)) v

theorem Located.eq_of_placed {list : Value} {id i : Nat} {items : List Value}
    (hfind : d.find pointer = .ok list) (hlist : d.graph.shape list = .list id items)
    (hitem : items[i]? = some v) {whole : String} (hw : d.Located whole w)
    (hwhole : whole = Pointer.child pointer (toString i)) : w = v := by
  cases hw with
  | found h =>
    rw [hwhole] at h
    exact Option.some.inj ((find_place hfind hlist h).symm.trans hitem)
  | placed hfind' hlist' hitem' =>
    have hslash := Pointer.notMem_toString (c := '/') (by decide)
    obtain ⟨hpointer, hplace⟩ := Pointer.child_inj (hslash _) (hslash _) hwhole
    subst hpointer
    rw [hfind'] at hfind
    cases hfind
    rw [hlist'] at hlist
    cases hlist
    rw [Text.toString_injective hplace] at hitem'
    exact Option.some.inj (hitem'.symm.trans hitem)

/-- At one pointer there is one value. -/
theorem Located.unique (hv : d.Located pointer v) (hw : d.Located pointer w) : v = w := by
  cases hv with
  | placed hfind hlist hitem => exact (hw.eq_of_placed hfind hlist hitem rfl).symm
  | found hv =>
    generalize hwhole : pointer = whole at hw
    cases hw with
    | found hw =>
      rw [hwhole] at hv
      exact Except.ok.inj (hv.symm.trans hw)
    | placed hfind hlist hitem =>
      exact (Located.found hv).eq_of_placed hfind hlist hitem hwhole

end Document

end RouteBinding
