import RouteBinding.Config.Edit
import RouteBinding.Proofs.Config.Layers
import RouteBinding.Proofs.Text.Split

/-!
# One setting changed

A change succeeds exactly if its keys name a setting that accepts the new value (`Config.set_eq_ok_iff`). The setting
has that value then, and no other setting has changed.
-/

namespace RouteBinding

/-! ## Names of settings -/

namespace Setting

/-- The name under which a setting is changed: its keys with a dot between them. -/
def label (k : Setting) : String :=
  k.owner ++ "." ++ k.name

/-- The value that a text stands for: a truth value is on for the words that say so and off for every other one, and a
text stands for itself. -/
def ofText : (k : Setting) → String → k.Value
  | bodySlot, s => s
  | warnUnbound, s => Config.onWords.contains (Text.lower s)
  | failOnWarnings, s => Config.onWords.contains (Text.lower s)
  | format, s => s

/-- The value of a setting as a scalar. -/
def scalar : (k : Setting) → k.Value → Scalar
  | bodySlot => Scalar.text
  | warnUnbound => Scalar.bool
  | failOnWarnings => Scalar.bool
  | format => Scalar.text

/-- The value of a setting inside a sentence: a text as it is, a truth value as its word. -/
def shown : (k : Setting) → k.Value → String
  | bodySlot, s => s
  | warnUnbound, b => if b then "True" else "False"
  | failOnWarnings, b => if b then "True" else "False"
  | format, s => s

/-- No setting is a number, which might have too many digits to be shown. -/
theorem display?_scalar (k : Setting) (a : k.Value) : (k.scalar a).display? = some (k.shown a) := by
  cases k with
  | warnUnbound => cases a <;> rfl
  | failOnWarnings => cases a <;> rfl
  | _ => rfl

theorem split_label (k : Setting) : Text.split '.' k.label = [k.owner, k.name] := by
  cases k <;> decide

/-- A setting is named by its keys with a dot between them, and by nothing else. -/
theorem split_eq_iff {k : Setting} {key : String} : Text.split '.' key = [k.owner, k.name] ↔ key = k.label := by
  constructor
  · intro h
    have hpieces : Text.splitChars '.' key.toList = [k.owner.toList, k.name.toList] := by
      simpa [Text.split, Function.comp_def] using congrArg (List.map String.toList) h
    have hjoin := Text.joinChars_splitChars '.' key.toList
    rw [hpieces] at hjoin
    apply String.toList_injective
    rw [← hjoin, label, String.toList_append, String.toList_append]
    simp [Text.joinChars]
  · rintro rfl
    exact k.split_label

end Setting

namespace Config

variable {c changed : Config} {k k' : Setting} {keys : List String} {value key : String}

/-! ## One value put in place of another -/

/-- The configuration with another value for one setting. -/
def put (c : Config) : (k : Setting) → k.Value → Config
  | .bodySlot, slot => { c with compiler := { c.compiler with bodySlot := slot } }
  | .warnUnbound, b => { c with compiler := { c.compiler with warnUnbound := b } }
  | .failOnWarnings, b => { c with compiler := { c.compiler with failOnWarnings := b } }
  | .format, name => { c with output := ⟨name⟩ }

@[simp] theorem value_put_self (c : Config) (k : Setting) (a : k.Value) : (c.put k a).value k = a := by
  cases k <;> rfl

theorem value_put_of_ne (c : Config) (a : k.Value) (h : k' ≠ k) : (c.put k a).value k' = c.value k' := by
  revert h
  cases k <;> cases k' <;> simp [put, value]

/-- Each setting is set to what it accepts. -/
def Valid (c : Config) : Prop :=
  ∀ k : Setting, k.Accepts (c.value k)

theorem valid_of_ofTree {t : Tree} (h : ofTree t = .ok c) : c.Valid :=
  accepts_of_ofTree h

theorem Valid.put (hc : c.Valid) {a : k.Value} (ha : k.Accepts a) : (c.put k a).Valid := by
  intro k'
  by_cases hk : k' = k
  · subst hk
    rw [value_put_self]
    exact ha
  · rw [value_put_of_ne c a hk]
    exact hc k'

/-- The data of a configuration that is valid is read as it. -/
theorem ofTree_tree (h : c.Valid) : ofTree c.tree = .ok c := by
  have hslot : Text.isIdentifier c.compiler.bodySlot := h .bodySlot
  have hread : ConfigProblem.readIdentifier (.text c.compiler.bodySlot) = .ok c.compiler.bodySlot := by
    rw [ConfigProblem.readIdentifier_text, if_pos hslot]
  obtain ⟨⟨slot, warn, fail⟩, ⟨name⟩⟩ := c
  have hcompiler : CompilerConfig.ofTree (CompilerConfig.tree ⟨slot, warn, fail⟩) = .ok ⟨slot, warn, fail⟩ :=
    CompilerConfig.ofTree_eq_ok.2 ⟨ConfigProblem.readField_eq.2 hread, rfl, rfl, rfl⟩
  exact ofTree_eq_ok.2 ⟨ConfigProblem.readSection_eq.2 hcompiler, rfl, rfl⟩

/-! ## Changing a leaf -/

theorem setLeaf_tree (c : Config) (k : Setting) (value : String) :
    setLeaf value [k.owner, k.name] c.tree =
      .ok ((c.put k (k.ofText value)).tree, k.scalar (k.ofText value)) := by
  cases k <;> rfl

/-- Where a leaf is changed the keys lead to a scalar. -/
theorem exists_scalar_of_setLeaf {t : Tree} {found : Tree × Scalar} (h : setLeaf value keys t = .ok found) :
    ∃ old, t.at? (keys.map .text) = some (.scalar old) := by
  induction keys generalizing t found with
  | nil => cases h
  | cons key rest ih =>
    cases rest with
    | nil =>
      unfold setLeaf at h
      split at h
      · rename_i entries old hold
        exact ⟨old, by rw [List.map_singleton, Tree.at?_single, hold]⟩
      · cases h
    | cons next rest =>
      unfold setLeaf at h
      split at h
      · rename_i entries inner hinner
        obtain ⟨⟨changed, new⟩, hchanged, -⟩ := bind_eq_ok.1 h
        obtain ⟨old, hold⟩ := ih hchanged
        refine ⟨old, ?_⟩
        show ((Tree.mapping entries).get? key).bind _ = _
        rw [hinner]
        exact hold
      · cases h

theorem get?_tree (c : Config) (key : String) :
    c.tree.get? key =
      if "compiler" = key then some c.compiler.tree else if "output" = key then some c.output.tree else none := by
  simp [tree, Tree.record, Tree.get?, valueAt?]

/-- What stands under a single key in the data of a configuration is no scalar. -/
theorem get?_tree_ne_scalar {old : Scalar} : c.tree.get? key ≠ some (.scalar old) := by
  rw [get?_tree]
  split_ifs <;> simp [CompilerConfig.tree, OutputConfig.tree, Tree.record]

theorem exists_name_of_compiler {inner : Tree} (h : c.compiler.tree.get? key = some inner) :
    (∃ old, inner = .scalar old) ∧ ∃ k : Setting, k.owner = "compiler" ∧ k.name = key := by
  simp only [CompilerConfig.tree, Tree.record, Tree.get?, List.map_cons, List.map_nil, valueAt?,
    Scalar.text.injEq] at h
  split_ifs at h with hslot hwarn hfail
  · exact ⟨⟨_, (Option.some.inj h).symm⟩, .bodySlot, rfl, hslot⟩
  · exact ⟨⟨_, (Option.some.inj h).symm⟩, .warnUnbound, rfl, hwarn⟩
  · exact ⟨⟨_, (Option.some.inj h).symm⟩, .failOnWarnings, rfl, hfail⟩

theorem exists_name_of_output {inner : Tree} (h : c.output.tree.get? key = some inner) :
    (∃ old, inner = .scalar old) ∧ ∃ k : Setting, k.owner = "output" ∧ k.name = key := by
  simp only [OutputConfig.tree, Tree.record, Tree.get?, List.map_cons, List.map_nil, valueAt?,
    Scalar.text.injEq] at h
  split_ifs at h with hformat
  exact ⟨⟨_, (Option.some.inj h).symm⟩, .format, rfl, hformat⟩

/-- Only the keys of a setting lead to a scalar. -/
theorem exists_setting_of_at?_tree {old : Scalar} (h : c.tree.at? (keys.map .text) = some (.scalar old)) :
    ∃ k : Setting, keys = [k.owner, k.name] := by
  -- one key leads to a section, two lead to a scalar, and no way is longer
  match keys, h with
  | [outer], h =>
    rw [List.map_singleton, Tree.at?_single] at h
    exact absurd h get?_tree_ne_scalar
  | outer :: name :: rest, h =>
    obtain ⟨sect, houter, hsect⟩ := Option.bind_eq_some_iff.1 h
    obtain ⟨inner, hname, hinner⟩ := Option.bind_eq_some_iff.1 hsect
    have hsetting : (∃ s, inner = .scalar s) ∧ ∃ k : Setting, k.owner = outer ∧ k.name = name := by
      rw [get?_tree] at houter
      split_ifs at houter with hcompiler houtput
      · cases houter
        subst hcompiler
        exact exists_name_of_compiler hname
      · cases houter
        subst houtput
        exact exists_name_of_output hname
    obtain ⟨⟨s, rfl⟩, k, rfl, rfl⟩ := hsetting
    cases rest with
    | nil => exact ⟨k, rfl⟩
    | cons next rest => cases hinner

/-- A change succeeds exactly if its keys name a setting that accepts the value which the text stands for. The setting
is put to that value, which is given back. -/
theorem set_eq_ok_iff (hc : c.Valid) {new : Scalar} :
    c.set (Text.split '.' key) value = .ok (changed, new) ↔
      ∃ k : Setting, key = k.label ∧ k.Accepts (k.ofText value) ∧ changed = c.put k (k.ofText value) ∧
        new = k.scalar (k.ofText value) := by
  constructor
  · intro h
    obtain ⟨⟨t, new'⟩, hleaf, h⟩ := bind_eq_ok.1 h
    obtain ⟨old, hold⟩ := exists_scalar_of_setLeaf hleaf
    obtain ⟨k, hkeys⟩ := exists_setting_of_at?_tree hold
    rw [hkeys, setLeaf_tree c k value] at hleaf
    cases hleaf
    dsimp only at h
    split at h
    · rename_i found hfound
      cases h
      have haccepts : k.Accepts (k.ofText value) := by
        have hread := leaf_of_ofTree hfound k
        rw [at?_tree, value_put_self] at hread
        rw [Setting.eq_of_read_tree hread]
        exact valid_of_ofTree hfound k
      rw [ofTree_tree (hc.put haccepts)] at hfound
      cases hfound
      exact ⟨k, Setting.split_eq_iff.1 hkeys, haccepts, rfl, rfl⟩
    · cases h
  · rintro ⟨k, rfl, hk, rfl, rfl⟩
    refine bind_eq_ok.2 ⟨_, by rw [k.split_label, setLeaf_tree], ?_⟩
    dsimp only
    rw [ofTree_tree (hc.put hk)]
    rfl

end Config

end RouteBinding
