import RouteBinding.Proofs.Document.Writing
import RouteBinding.Proofs.Standing
import RouteBinding.Proofs.Text.Numeral

/-!
# Where a pointer leads

A way of keys goes from a mapping to the value under a key, and from a list to the item at a place (`Graph.Enters`).
Every pointer with such a way leads to its end. A pointer leads somewhere else only where a key that is met in a list
reads as a whole number, but is no place as it is written in a pointer (`Graph.Slips`): a text such as `-1`, `+1`, `01`
or `1_0` finds an item there, a negative number counting from the end. All other pointers lead nowhere
(`Document.find_navigates`).
-/

namespace RouteBinding

namespace Graph

variable {g : Graph} {v w u : Value} {key : String} {keys rest : List String}

/-! ## Steps -/

/-- A step from a mapping to the value under a key, or from a list to the item at a place. -/
inductive Enters (g : Graph) : Value → String → Value → Prop
  | key {v w : Value} {key : String} {entries : List (Scalar × Value)} (hv : g.entries? v = some entries)
    (hw : valueAt? key entries = some w) : Enters g v key w
  | place {v w : Value} {id i : Nat} {items : List Value} (hv : g.shape v = .list id items)
    (hw : items[i]? = some w) : Enters g v (toString i) w

/-- A step from a list to an item that a whole number names, where the number is not written as a place. -/
structure Slips (g : Graph) (v : Value) (key : String) (w : Value) : Prop where
  unwritten : ¬ Text.IsPlace key
  finds : ∃ id items i, g.shape v = .list id items ∧ Text.Numeral key.toList i ∧ itemAt? items i = some w

theorem Enters.step_eq (h : g.Enters v key w) (hi : g.Indexable) : g.step v key = .ok w := by
  cases h with
  | key hv hw => exact Resolver.step_of_entries? hv hw
  | place hv hw => exact step_toString hi hv hw

theorem Slips.step_eq (h : g.Slips v key w) : g.step v key = .ok w := by
  obtain ⟨id, items, i, hv, hnumeral, hitem⟩ := h.finds
  rw [step, hv]
  simp only [hnumeral.readInt?, Option.bind_some, hitem]

/-- Every step is one of the two kinds. -/
theorem enters_or_slips_of_step (h : g.step v key = .ok w) : g.Enters v key w ∨ g.Slips v key w := by
  have hstep := h
  unfold step at h
  cases hv : g.shape v with
  | mapping id entries =>
    have hentries : g.entries? v = some entries := entries?_eq_some_iff.2 ⟨id, hv⟩
    exact .inl (.key hentries ((step_eq_ok_iff hentries).1 hstep))
  | list id items =>
    rw [hv] at h
    dsimp only at h
    cases hread : (Text.readInt? key).bind (itemAt? items) with
    | none => rw [hread] at h; cases h
    | some item =>
      rw [hread] at h
      cases h
      obtain ⟨i, hi, hitem⟩ := Option.bind_eq_some_iff.1 hread
      by_cases hplace : Text.IsPlace key
      · obtain ⟨n, rfl⟩ := Text.isPlace_iff.1 hplace
        rw [Text.eq_of_readInt?_toString hi, itemAt?, if_pos (Int.natCast_nonneg n)] at hitem
        exact .inl (.place hv hitem)
      · exact .inr ⟨hplace, id, items, i, hv, Text.numeral_of_readInt? hi, hitem⟩
  | scalar s => rw [hv] at h; cases h
  | set members => rw [hv] at h; cases h
  | pair id first second => rw [hv] at h; cases h

/-- Where a key slips, no step leads on. -/
theorem Slips.not_enters (h : g.Slips v key w) : ¬ g.Enters v key u := by
  intro henters
  obtain ⟨id, items, i, hlist, -⟩ := h.finds
  cases henters with
  | key hv _ =>
    obtain ⟨id', hmapping⟩ := entries?_eq_some_iff.1 hv
    rw [hlist] at hmapping
    cases hmapping
  | place _ _ => exact h.unwritten (Text.isPlace_iff.2 ⟨_, rfl⟩)

/-! ## Ways -/

/-- A way of steps leads from a value to another one. -/
inductive Navigates (g : Graph) : Value → List String → Value → Prop
  | here (v : Value) : Navigates g v [] v
  | step {v w u : Value} {key : String} {rest : List String} (h : g.Enters v key w)
    (hrest : Navigates g w rest u) : Navigates g v (key :: rest) u

/-- A way of steps leads from a value to a list, in which a key slips; the value is found from there. -/
inductive Strays (g : Graph) : Value → List String → Value → Prop
  | slip {v w u : Value} {key : String} {rest : List String} (h : g.Slips v key w)
    (hrest : g.walk w rest = .ok u) : Strays g v (key :: rest) u
  | step {v w u : Value} {key : String} {rest : List String} (h : g.Enters v key w)
    (hrest : Strays g w rest u) : Strays g v (key :: rest) u

theorem Navigates.walk_eq (hi : g.Indexable) (h : g.Navigates v keys u) : g.walk v keys = .ok u := by
  induction h with
  | here v => rfl
  | step h _ ih => exact walk_cons_eq_ok.2 ⟨_, h.step_eq hi, ih⟩

theorem Strays.walk_eq (hi : g.Indexable) (h : g.Strays v keys u) : g.walk v keys = .ok u := by
  induction h with
  | slip h hrest => exact walk_cons_eq_ok.2 ⟨_, h.step_eq, hrest⟩
  | step h _ ih => exact walk_cons_eq_ok.2 ⟨_, h.step_eq hi, ih⟩

theorem navigates_or_strays_of_walk (h : g.walk v keys = .ok u) : g.Navigates v keys u ∨ g.Strays v keys u := by
  induction keys generalizing v with
  | nil =>
    cases h
    exact .inl (.here _)
  | cons key rest ih =>
    obtain ⟨w, hstep, hrest⟩ := walk_cons_eq_ok.1 h
    rcases enters_or_slips_of_step hstep with henters | hslips
    · exact (ih hrest).imp (.step henters) (.step henters)
    · exact .inr (.slip hslips hrest)

/-- From where a way strays no way of steps leads to the end. -/
theorem Strays.not_navigates (hi : g.Indexable) (h : g.Strays v keys u) : ¬ g.Navigates v keys w := by
  induction h with
  | slip h _ =>
    intro hway
    cases hway with
    | step henters _ => exact h.not_enters henters
  | step h _ ih =>
    intro hway
    cases hway with
    | step henters hrest =>
      cases (h.step_eq hi).symm.trans (henters.step_eq hi)
      exact ih hrest

end Graph

namespace Document

variable {d : Document} {pointer : String} {keys : List String}

/-- A pointer leads to the end of its way of steps, and if it has none, to a value on which it strays or nowhere; an
error names the pointer. -/
theorem find_navigates (hi : d.graph.Indexable) (hkeys : Pointer.keys? pointer = some keys) :
    (∀ v, d.find pointer = .ok v ↔ d.graph.Navigates d.root keys v ∨ d.graph.Strays d.root keys v) ∧
    (∀ v, d.graph.Strays d.root keys v → ¬ ∃ w, d.graph.Navigates d.root keys w) ∧
    ∀ e, d.find pointer = .error e → ∃ fault, e = .unresolvedReference pointer fault := by
  have hfind (v : Value) : d.find pointer = .ok v ↔ d.graph.walk d.root keys = .ok v := by
    rw [find_eq_ok_iff, hkeys]
    simp
  refine ⟨fun v => ?_, fun v h hnavigates => ?_, fun e he => ?_⟩
  · rw [hfind]
    constructor
    · exact Graph.navigates_or_strays_of_walk
    · intro h
      rcases h with h | h
      · exact h.walk_eq hi
      · exact h.walk_eq hi
  · obtain ⟨w, hw⟩ := hnavigates
    exact h.not_navigates hi hw
  · exact Resolver.find_error he

/-- A document with a list of two items. -/
def itemsDocument : Document :=
  Document.ofTree (.mapping [(.text "items", .list [.scalar (.int 1), .scalar (.int 2)])])

/-- The second of the items is found at its place, and so it is one place before the first, where no way of steps
leads. -/
theorem find_navigates_itemsDocument :
    itemsDocument.find "#/items/1" = .ok (.scalar (.int 2)) ∧ itemsDocument.find "#/items/-1" = .ok (.scalar (.int 2)) ∧
      ¬ ∃ w, itemsDocument.graph.Navigates itemsDocument.root ["items", "-1"] w := by
  have hi : itemsDocument.graph.Indexable := by
    decide +kernel
  have hplace : Pointer.keys? "#/items/1" = some ["items", toString 1] := by
    decide +kernel
  have hnumeral : Pointer.keys? "#/items/-1" = some ["items", "-1"] := by
    decide +kernel
  have hentries : itemsDocument.graph.entries? itemsDocument.root = some [(.text "items", .container 0)] := rfl
  have hitems : itemsDocument.graph.Enters itemsDocument.root "items" (.container 0) := .key hentries rfl
  have hlist : itemsDocument.graph.shape (.container 0) = .list 0 [.scalar (.int 1), .scalar (.int 2)] := rfl
  have hnavigates : itemsDocument.graph.Navigates itemsDocument.root ["items", toString 1] (.scalar (.int 2)) :=
    .step hitems (.step (.place hlist rfl) (.here _))
  have hstrays : itemsDocument.graph.Strays itemsDocument.root ["items", "-1"] (.scalar (.int 2)) :=
    .step hitems (.slip ⟨by decide +kernel, _, _, -1, hlist, Text.numeral_of_readInt? (by decide +kernel), rfl⟩ rfl)
  obtain ⟨hfind, hapart, -⟩ := find_navigates hi hnumeral
  exact ⟨((find_navigates hi hplace).1 _).2 (.inl hnavigates), (hfind _).2 (.inr hstrays), hapart _ hstrays⟩

end Document

end RouteBinding
