import RouteBinding.Proofs.Config.Reader
import RouteBinding.Proofs.Outcome

/-!
# Layers of configuration

What the layers of a configuration come to, setting by setting. A fault of the project's file is hidden where a higher
layer has a value in the same place (`Settings.Covers`); the layers are refused exactly for a fault that is not hidden,
or for the body slot that is set above the files (`Layers.exists_resolve_iff`). Each setting has the value of the
highest layer that sets it, and no other setting has a part in that (`Layers.value_of_resolve`).
-/

namespace RouteBinding

open ConfigProblem

/-! ## Places in a tree -/

/-- What stands where a way of keys leads. -/
def Tree.at? : Tree → List Scalar → Option Tree
  | t, [] => some t
  | t, .text key :: keys => (t.get? key).bind fun inner => inner.at? keys
  | _, _ :: _ => none

@[simp]
theorem Tree.get?_mapping (entries : List (Scalar × Tree)) (key : String) :
    (Tree.mapping entries).get? key = valueAt? key entries :=
  rfl

/-- A way of one key leads to what stands there. -/
theorem Tree.at?_single (t : Tree) (key : String) : t.at? [.text key] = t.get? key := by
  show (t.get? key).bind _ = _
  cases t.get? key <;> rfl

/-- A way of two keys leads into a section. -/
theorem Tree.at?_pair (t : Tree) (outer key : String) :
    t.at? [.text outer, .text key] = (t.get? outer).bind (·.get? key) := by
  show (t.get? outer).bind _ = _
  refine Option.bind_congr fun inner _ => inner.at?_single key

/-- What stands under a key where a mapping is laid over something else, or over nothing. -/
theorem get?_overlayValue {upper : List (Scalar × Tree)} {key : String}
    (hupper : (keyTexts upper).Nodup) (lower : Option Tree) :
    (overlayValue lower (.mapping upper)).get? key =
      overlay? (lower.bind (·.get? key)) (valueAt? key upper) := by
  have halone : (Tree.mapping upper).get? key = overlay? none (valueAt? key upper) := by
    rw [Tree.get?]
    cases valueAt? key upper with
    | none => rfl
    | some value => rw [overlay?, overlayValue_none]
  -- only a mapping shows through
  rcases lower with _ | _ | _ | base
  · exact halone
  · exact halone
  · exact halone
  · exact valueAt?_overlay hupper base

/-- No two entries of a mapping have one key. -/
theorem Tree.DistinctKeys.nodup {entries : List (Scalar × Tree)} (h : (Tree.mapping entries).DistinctKeys) :
    (keyTexts entries).Nodup := by
  cases h with
  | mapping hkeys _ => exact hkeys

/-- What stands inside a tree with distinct keys has distinct keys. -/
theorem Tree.DistinctKeys.inner {entries : List (Scalar × Tree)} {key : String} {t : Tree}
    (h : (Tree.mapping entries).DistinctKeys) (ht : valueAt? key entries = some t) : t.DistinctKeys := by
  cases h with
  | mapping _ hvalues => exact hvalues t (List.mem_map_of_mem (mem_of_valueAt? ht))

/-! ## Settings -/

/-- A single setting. -/
inductive Setting
  | bodySlot
  | warnUnbound
  | failOnWarnings
  | format
deriving DecidableEq, Inhabited

namespace Setting

/-- What a setting may be set to. -/
@[reducible]
def Value : Setting → Type
  | bodySlot => String
  | warnUnbound => Bool
  | failOnWarnings => Bool
  | format => String

/-- The key of the section in which a setting stands. -/
def owner : Setting → String
  | bodySlot | warnUnbound | failOnWarnings => "compiler"
  | format => "output"

/-- The key of a setting in its section. -/
def name : Setting → String
  | bodySlot => "body_slot"
  | warnUnbound => "warn_unbound_operations"
  | failOnWarnings => "fail_on_warnings"
  | format => "format"

/-- The keys under which a setting stands. -/
def keys (k : Setting) : List Scalar :=
  [.text k.owner, .text k.name]

/-- Reads the value of a setting. -/
def read : (k : Setting) → Tree → Except ConfigFault k.Value
  | bodySlot => readIdentifier
  | warnUnbound => readBool
  | failOnWarnings => readBool
  | format => readText

/-- The value of a setting as data. -/
def tree : (k : Setting) → k.Value → Tree
  | bodySlot => Tree.text
  | warnUnbound => Tree.bool
  | failOnWarnings => Tree.bool
  | format => Tree.text

/-- What a setting accepts: a body slot has to be the name of a field. -/
def Accepts : (k : Setting) → k.Value → Prop
  | bodySlot, slot => Text.isIdentifier slot
  | _, _ => True

end Setting

/-- The value that a setting has in a configuration. -/
def Config.value (c : Config) : (k : Setting) → k.Value
  | .bodySlot => c.compiler.bodySlot
  | .warnUnbound => c.compiler.warnUnbound
  | .failOnWarnings => c.compiler.failOnWarnings
  | .format => c.output.format

/-- The value that single settings give to a setting, if they set it. -/
def Settings.value? (s : Settings) : (k : Setting) → Option k.Value
  | .bodySlot => s.bodySlot
  | .warnUnbound => .none
  | .failOnWarnings => s.failOnWarnings
  | .format => s.format

/-- The value that the data of a file gives to a setting, if it sets it. -/
def Tree.value? (t : Tree) (k : Setting) : Option k.Value :=
  (t.at? k.keys).bind fun v => (k.read v).toOption

/-- A higher layer has a value where a fault stands, so that the fault does not count. -/
def Settings.Covers (s : Settings) (p : ConfigProblem) : Prop :=
  ((Tree.mapping s.entries).at? p.keys).isSome

/-- Single settings are set to what each of them accepts. -/
def Settings.Valid (s : Settings) : Prop :=
  ∀ k, ∀ a ∈ s.value? k, k.Accepts a

/-! ## One setting in a tree -/

/-- The section of the compiler has the value of each key, or its default. -/
theorem CompilerConfig.fields_of_ofTree {t : Tree} {c : CompilerConfig}
    (h : CompilerConfig.ofTree t = .ok c) :
    ((t.get? "body_slot").elim (default.bodySlot = c.bodySlot) fun v =>
        readIdentifier v = .ok c.bodySlot) ∧
      ((t.get? "warn_unbound_operations").elim (default.warnUnbound = c.warnUnbound) fun v =>
        readBool v = .ok c.warnUnbound) ∧
      ((t.get? "fail_on_warnings").elim (default.failOnWarnings = c.failOnWarnings) fun v =>
        readBool v = .ok c.failOnWarnings) := by
  cases t with
  | mapping entries =>
    obtain ⟨hslot, hwarn, hfail, -⟩ := ofTree_eq_ok.1 h
    exact ⟨readField_eq.1 hslot, readField_eq.1 hwarn, readField_eq.1 hfail⟩
  | _ => cases h

/-- The section of the output has the value of its key, or its default. -/
theorem OutputConfig.field_of_ofTree {t : Tree} {c : OutputConfig} (h : OutputConfig.ofTree t = .ok c) :
    (t.get? "format").elim (default.format = c.format) fun v => readText v = .ok c.format := by
  cases t with
  | mapping entries => exact readField_eq.1 (ofTree_eq_ok.1 h).1
  | _ => cases h

/-- A configuration that is read has for a setting what stands under its keys, and the default where nothing does. -/
theorem Config.leaf_of_ofTree {t : Tree} {c : Config} (h : Config.ofTree t = .ok c) (k : Setting) :
    (t.at? k.keys).elim (Config.default.value k = c.value k) fun v => k.read v = .ok (c.value k) := by
  cases t with
  | mapping entries =>
    obtain ⟨hcompiler, houtput, -⟩ := ofTree_eq_ok.1 h
    rw [readSection_eq] at hcompiler houtput
    cases k with
    | format =>
      rw [Setting.keys, Setting.owner, Setting.name, Tree.at?_pair, Tree.get?]
      cases hsection : valueAt? "output" entries with
      | none =>
        rw [hsection] at houtput
        exact congrArg OutputConfig.format houtput
      | some t =>
        rw [hsection] at houtput
        exact OutputConfig.field_of_ofTree houtput
    | _ =>
      rw [Setting.keys, Setting.owner, Setting.name, Tree.at?_pair, Tree.get?]
      cases hsection : valueAt? "compiler" entries with
      | none =>
        rw [hsection] at hcompiler
        simp only [Option.elim_none] at hcompiler
        simp only [Config.value, ← hcompiler, Option.bind_none, Option.elim_none]
        rfl
      | some t =>
        rw [hsection] at hcompiler
        obtain ⟨hslot, hwarn, hfail⟩ := CompilerConfig.fields_of_ofTree hcompiler
        assumption
  | _ => cases h

/-- A setting has the value that the data gives it, or its default. -/
theorem Config.value_of_ofTree {t : Tree} {c : Config} (h : Config.ofTree t = .ok c) (k : Setting) :
    c.value k = (t.value? k).getD (Config.default.value k) := by
  have hleaf := leaf_of_ofTree h k
  rw [Tree.value?]
  cases hvalue : t.at? k.keys with
  | none =>
    rw [hvalue] at hleaf
    exact Eq.symm hleaf
  | some v =>
    rw [hvalue] at hleaf
    have hread : k.read v = .ok (c.value k) := hleaf
    rw [Option.bind_some, hread]
    rfl

/-- In the data of a configuration every setting stands under its keys. -/
theorem Config.at?_tree (c : Config) (k : Setting) : c.tree.at? k.keys = some (k.tree (c.value k)) := by
  cases k <;> rfl

/-- Single settings stand as a layer under the keys of what they set. -/
theorem Settings.at?_entries (s : Settings) (k : Setting) :
    (Tree.mapping s.entries).at? k.keys = (s.value? k).map k.tree := by
  obtain ⟨slot, fail, format⟩ := s
  cases k <;> cases slot <;> cases fail <;> cases format <;> rfl

theorem ConfigProblem.readIdentifier_text (slot : String) :
    readIdentifier (.text slot) = if Text.isIdentifier slot then .ok slot else .error .notIdentifier :=
  rfl

/-- A value that a setting accepts is read from its data. -/
theorem Setting.read_tree {k : Setting} {a : k.Value} (h : k.Accepts a) : k.read (k.tree a) = .ok a := by
  cases k with
  | bodySlot => exact (readIdentifier_text a).trans (if_pos h)
  | _ => rfl

/-- A value that was read is one that the setting accepts. -/
theorem Setting.accepts_of_read {k : Setting} {t : Tree} {a : k.Value} (h : k.read t = .ok a) :
    k.Accepts a := by
  cases k with
  | bodySlot =>
    -- of all settings only this one has a check of its own
    obtain ⟨slot, -, hslot⟩ := bind_eq_ok.1 (show readIdentifier t = .ok a from h)
    split_ifs at hslot with hname
    cases hslot
    exact hname
  | _ => trivial

/-- What the settings of a configuration that was read are set to is accepted. -/
theorem Config.accepts_of_ofTree {t : Tree} {c : Config} (h : Config.ofTree t = .ok c) (k : Setting) :
    k.Accepts (c.value k) := by
  have hleaf := leaf_of_ofTree h k
  cases hvalue : t.at? k.keys with
  | none =>
    rw [hvalue] at hleaf
    rw [← (show Config.default.value k = c.value k from hleaf)]
    cases k with
    | bodySlot => show Text.isIdentifier "body" = true; decide
    | _ => trivial
  | some v =>
    rw [hvalue] at hleaf
    exact Setting.accepts_of_read hleaf

/-! ## Layers over each other -/

namespace ConfigProblem

/-- What keys ask for is asked of a single value: it fits, or its own place does not count. -/
def OfLeaves (inside : String → (List Scalar → Prop) → Tree → Prop) : Prop :=
  ∀ key hidden t, inside key hidden t ↔ inside key (fun _ => False) t ∨ hidden []

theorem ofLeaves_compilerLeaf : OfLeaves compilerLeaf := by
  intro key hidden t
  unfold compilerLeaf
  split_ifs <;> simp [LeafFits]

theorem ofLeaves_outputLeaf : OfLeaves outputLeaf := by
  intro key hidden t
  simp [outputLeaf, LeafFits]

/-- The entries of a section: known keys, each once, with scalars. -/
structure IsSection (known : List String) (entries : List (Scalar × Tree)) : Prop where
  nodup : (keyTexts entries).Nodup
  known : unknownKeys known entries = []
  scalar : ∀ key, ∀ t ∈ valueAt? key entries, ∃ s, t = .scalar s

variable {known : List String} {inside : String → (List Scalar → Prop) → Tree → Prop}
  {hidden : List Scalar → Prop} {own upper : List (Scalar × Tree)}

/-- A layer has nothing under a key that it must not have. -/
theorem at?_unknown (hknown : unknownKeys known upper = []) (k : Scalar)
    (hk : ∀ key ∈ known, k ≠ .text key) : ¬ ((Tree.mapping upper).at? [k]).isSome := by
  cases k with
  | text key =>
    rw [Tree.at?_single, Tree.get?, valueAt?_eq_none]
    · simp
    · intro hmem
      obtain ⟨key', hkey', heq⟩ := unknownKeys_eq_nil_iff.1 hknown _ (mem_keyTexts.1 hmem)
      exact hk key' hkey' heq
  | _ => simp [Tree.at?]

/-- Unknown keys count where nothing that is hidden is unknown. -/
theorem fitsBut_mapping {entries : List (Scalar × Tree)}
    (hhidden : ∀ k, (∀ key ∈ known, k ≠ .text key) → ¬ hidden [k]) :
    FitsBut known inside hidden (.mapping entries) ↔
      unknownKeys known entries = [] ∧
        ∀ key ∈ known, ∀ t ∈ valueAt? key entries, inside key (fun keys => hidden (.text key :: keys)) t := by
  rw [FitsBut]
  refine and_congr_left fun _ => ⟨fun h => List.eq_nil_iff_forall_not_mem.2 fun p hp => ?_, fun h => by simp [h]⟩
  obtain ⟨k, hkeys, hk⟩ := mem_unknownKeys hp
  exact hhidden k hk (hkeys ▸ h p hp)

/-- A mapping fits if it has known keys only, and what stands at them fits. -/
theorem fitsBut_false {entries : List (Scalar × Tree)} :
    FitsBut known inside (fun _ => False) (.mapping entries) ↔
      unknownKeys known entries = [] ∧
        ∀ key ∈ known, ∀ t ∈ valueAt? key entries, inside key (fun _ => False) t :=
  fitsBut_mapping fun _ _ => id

/-- A layer of scalars that fits changes nothing about what is wrong with what is laid over it. -/
theorem IsSection.fitsBut_overlay_lower {t : Tree} (hsection : IsSection known own) (hinside : OfLeaves inside)
    (hown : FitsBut known inside (fun _ => False) (.mapping own))
    (hhidden : ∀ k, (∀ key ∈ known, k ≠ .text key) → ¬ hidden [k]) (ht : t.DistinctKeys) :
    FitsBut known inside hidden (overlayValue (some (.mapping own)) t) ↔ FitsBut known inside hidden t := by
  cases t with
  | mapping entries =>
    have hfits := (fitsBut_false.1 hown).2
    rw [overlayValue, fitsBut_mapping hhidden, fitsBut_mapping hhidden, unknownKeys_overlay]
    rw [and_iff_right hsection.known]
    refine and_congr_right fun _ => forall₂_congr fun key hkey => ?_
    rw [valueAt?_overlay ht.nodup]
    cases valueAt? key entries with
    | some value =>
      cases hlower : valueAt? key own with
      | none => simp only [overlay?, overlayValue_none]
      | some v =>
        obtain ⟨s, rfl⟩ := hsection.scalar key v hlower
        simp only [overlay?, overlayValue_scalar]
    | none =>
      -- where nothing is laid over it the lower value stands, which fits
      simp only [Option.mem_def, reduceCtorEq, false_implies, implies_true, iff_true]
      intro v hv
      exact (hinside key _ v).2 (.inl (hfits key hkey v hv))
  | _ => rfl

/-- Where a layer of scalars is laid over a tree, both have to fit, the tree only where the layer has nothing. -/
theorem IsSection.fitsBut_overlay_upper (hsection : IsSection known upper) (hinside : OfLeaves inside)
    (lower : Tree) :
    FitsBut known inside (fun _ => False) (overlayValue (some lower) (.mapping upper)) ↔
      FitsBut known inside (fun _ => False) (.mapping upper) ∧
        FitsBut known inside (fun keys => ((Tree.mapping upper).at? keys).isSome) lower := by
  cases lower with
  | mapping base =>
    rw [overlayValue, fitsBut_false, fitsBut_false, fitsBut_mapping (at?_unknown hsection.known),
      unknownKeys_overlay]
    have hkeys (key : String) :
        (∀ t ∈ valueAt? key (overlay base upper), inside key (fun _ => False) t) ↔
          (∀ t ∈ valueAt? key upper, inside key (fun _ => False) t) ∧
            ∀ t ∈ valueAt? key base,
              inside key (fun keys => ((Tree.mapping upper).at? (.text key :: keys)).isSome) t := by
      rw [valueAt?_overlay hsection.nodup]
      simp only [hinside key (fun keys => ((Tree.mapping upper).at? (.text key :: keys)).isSome),
        Tree.at?_single, Tree.get?]
      cases hvalue : valueAt? key upper with
      | none => simp
      | some v =>
        obtain ⟨s, rfl⟩ := hsection.scalar key v hvalue
        simp [overlayValue]
    simp only [hkeys, forall_and]
    tauto
  | _ => exact (and_iff_left rfl).symm

/-- The outcome of a section that stands in three layers: the lowest one is there and fits, and the faults of the one
in the middle count where the highest one has nothing. -/
theorem IsSection.fitsBut_layers {top middle : Option Tree} (hsection : IsSection known own)
    (hinside : OfLeaves inside) (hown : FitsBut known inside (fun _ => False) (.mapping own))
    (htop : ∀ t ∈ top, ∃ entries, t = .mapping entries ∧ IsSection known entries)
    (hmiddle : ∀ t ∈ middle, t.DistinctKeys) :
    (∀ t ∈ overlay? (overlay? (some (.mapping own)) middle) top, FitsBut known inside (fun _ => False) t) ↔
      (∀ t ∈ top, FitsBut known inside (fun _ => False) t) ∧
        ∀ t ∈ middle, FitsBut known inside (fun keys => (top.bind (·.at? keys)).isSome) t := by
  -- the two lower layers come to a tree with the faults of the upper one, whichever of them count
  have hlower : ∀ hidden : List Scalar → Prop, (∀ k, (∀ key ∈ known, k ≠ .text key) → ¬ hidden [k]) →
      ∃ lower, overlay? (some (.mapping own)) middle = some lower ∧
        (FitsBut known inside hidden lower ↔ ∀ t ∈ middle, FitsBut known inside hidden t) := by
    intro hidden hhidden
    cases middle with
    | none =>
      refine ⟨_, rfl, ?_⟩
      simp only [Option.mem_def, reduceCtorEq, false_implies, implies_true, iff_true]
      obtain ⟨hknown, hfits⟩ := fitsBut_false.1 hown
      exact (fitsBut_mapping hhidden).2
        ⟨hknown, fun key hkey t ht => (hinside key _ t).2 (.inl (hfits key hkey t ht))⟩
    | some t =>
      refine ⟨_, rfl, ?_⟩
      simp only [Option.mem_def, Option.some.injEq, forall_eq']
      exact hsection.fitsBut_overlay_lower hinside hown hhidden (hmiddle t rfl)
  cases top with
  | none =>
    obtain ⟨lower, heq, hiff⟩ := hlower (fun _ => False) fun _ _ => id
    rw [overlay?, heq]
    simpa using hiff
  | some t =>
    obtain ⟨entries, rfl, hentries⟩ := htop _ rfl
    obtain ⟨lower, heq, hiff⟩ := hlower (fun keys => ((Tree.mapping entries).at? keys).isSome)
      (at?_unknown hentries.known)
    rw [overlay?, heq]
    simp only [Option.mem_def, Option.some.injEq, forall_eq', Option.bind_some] at hiff ⊢
    rw [hentries.fitsBut_overlay_upper hinside, hiff]

end ConfigProblem

/-! ## What is refused -/

/-- The known keys of a section. -/
def sectionKeys (key : String) : List String :=
  if key = "compiler" then compilerKeys else ["format"]

/-- A section fits if its keys are known and their values fit. -/
theorem sectionFits_eq (key : String) :
    ∃ inside, OfLeaves inside ∧ sectionFits key = FitsBut (sectionKeys key) inside := by
  unfold sectionFits sectionKeys
  split_ifs
  · exact ⟨_, ofLeaves_compilerLeaf, rfl⟩
  · exact ⟨_, ofLeaves_outputLeaf, rfl⟩

/-- Fields with distinct known names make a section. -/
theorem isSection_of_fields {known : List String} (fields : List (String × Scalar))
    (hnodup : (fields.map (·.1)).Nodup) (hknown : ∀ f ∈ fields, f.1 ∈ known) :
    IsSection known (fields.map fun f => (.text f.1, .scalar f.2)) where
  nodup := by
    rw [keyTexts, List.filterMap_map]
    rw [← List.filterMap_eq_map] at hnodup
    exact hnodup
  known := by
    rw [unknownKeys_eq_nil_iff, List.forall_mem_map, List.forall_mem_map]
    exact fun f hf => ⟨f.1, hknown f hf, rfl⟩
  scalar := by
    intro key t ht
    obtain ⟨f, -, heq⟩ := List.mem_map.1 (mem_of_valueAt? ht)
    cases heq
    exact ⟨f.2, rfl⟩

/-- No two entries of the settings have one key. -/
theorem Settings.nodup_entries (s : Settings) : (keyTexts s.entries).Nodup := by
  obtain ⟨slot, fail, format⟩ := s
  cases format <;> simp [entries, keyTexts, Scalar.text?]

/-- The settings have the two sections and no other. -/
theorem Settings.unknownKeys_entries (s : Settings) : unknownKeys ["compiler", "output"] s.entries = [] := by
  obtain ⟨slot, fail, format⟩ := s
  cases format <;> simp [entries, unknownKeys]

/-- What single settings have as a layer under a key is a section of it. -/
theorem Settings.isSection {s : Settings} {key : String} {t : Tree} (h : valueAt? key s.entries = some t) :
    ∃ entries, t = .mapping entries ∧ IsSection (sectionKeys key) entries := by
  obtain ⟨slot, fail, format⟩ := s
  rw [entries, valueAt?] at h
  split_ifs at h with hkey
  · cases h
    cases hkey
    refine ⟨_, rfl, ?_⟩
    cases slot <;> cases fail
    · exact isSection_of_fields [] (by simp) (by simp)
    · exact isSection_of_fields [(_, .bool _)] (by simp) (by simp [sectionKeys, compilerKeys])
    · exact isSection_of_fields [(_, .text _)] (by simp) (by simp [sectionKeys, compilerKeys])
    · exact isSection_of_fields [(_, .text _), (_, .bool _)] (by simp) (by simp [sectionKeys, compilerKeys])
  · cases format with
    | none => cases h
    | some name =>
      rw [Option.toList_some, List.map_singleton, valueAt?] at h
      split_ifs at h with hkey
      · cases h
        cases hkey
        exact ⟨_, rfl, isSection_of_fields [(_, .text _)] (by simp) (by simp [sectionKeys])⟩
      · cases h

/-- A configuration as data has both sections. -/
theorem Config.isSection (c : Config) {key : String} (hkey : key ∈ ["compiler", "output"]) :
    ∃ entries, c.tree.get? key = some (.mapping entries) ∧ IsSection (sectionKeys key) entries := by
  rw [List.mem_pair] at hkey
  obtain rfl | rfl := hkey
  · refine ⟨_, rfl, isSection_of_fields [(_, .text _), (_, .bool _), (_, .bool _)] (by simp) ?_⟩
    simp [sectionKeys, compilerKeys]
  · exact ⟨_, rfl, isSection_of_fields [(_, .text _)] (by simp) (by simp [sectionKeys])⟩

/-- There are four settings. -/
theorem Setting.forall {P : Setting → Prop} :
    (∀ k, P k) ↔ P bodySlot ∧ P warnUnbound ∧ P failOnWarnings ∧ P format := by
  constructor
  · exact fun h => ⟨h _, h _, h _, h _⟩
  · rintro ⟨hslot, hwarn, hfail, hformat⟩ k
    cases k <;> assumption

/-- Sections fit if every setting in them is read. -/
theorem fits_iff_of_isSection {t : Tree}
    (ht : ∀ key ∈ ["compiler", "output"], ∀ inner ∈ t.get? key,
      ∃ entries, inner = .mapping entries ∧ IsSection (sectionKeys key) entries) :
    (∀ key ∈ ["compiler", "output"], ∀ inner ∈ t.get? key, sectionFits key (fun _ => False) inner) ↔
      ∀ k : Setting, ∀ v ∈ t.at? k.keys, ∃ a, k.read v = .ok a := by
  have hcompiler : (∀ inner ∈ t.get? "compiler", sectionFits "compiler" (fun _ => False) inner) ↔
      ∀ key ∈ compilerKeys, ∀ v ∈ (t.get? "compiler").bind (·.get? key),
        compilerLeaf key (fun _ => False) v := by
    cases hinner : t.get? "compiler" with
    | none => simp
    | some inner =>
      obtain ⟨entries, rfl, hsection⟩ := ht _ (by simp) inner hinner
      simp only [Option.mem_def, Option.some.injEq, forall_eq', Option.bind_some]
      exact fitsBut_false.trans (and_iff_right hsection.known)
  have houtput : (∀ inner ∈ t.get? "output", sectionFits "output" (fun _ => False) inner) ↔
      ∀ v ∈ (t.get? "output").bind (·.get? "format"), LeafFits readText (fun _ => False) v := by
    cases hinner : t.get? "output" with
    | none => simp
    | some inner =>
      obtain ⟨entries, rfl, hsection⟩ := ht _ (by simp) inner hinner
      simp only [Option.mem_def, Option.some.injEq, forall_eq', Option.bind_some]
      refine fitsBut_false.trans ((and_iff_right hsection.known).trans ?_)
      simp [Tree.get?, outputLeaf]
  rw [Setting.forall, List.forall_mem_cons, List.forall_mem_singleton, hcompiler, houtput]
  simp only [Setting.keys, Setting.owner, Setting.name, Tree.at?_pair, Setting.read, compilerKeys, compilerLeaf,
    LeafFits, or_false, List.forall_mem_cons, List.not_mem_nil, false_implies, implies_true, and_true, if_true,
    String.reduceEq, if_false, and_assoc]

/-- A value is read back if the setting accepts it. -/
theorem Setting.exists_read_tree_iff {k : Setting} {a : k.Value} :
    (∃ b, k.read (k.tree a) = .ok b) ↔ k.Accepts a := by
  refine ⟨?_, fun h => ⟨a, read_tree h⟩⟩
  rintro ⟨b, hb⟩
  cases k with
  | bodySlot =>
    rw [show read bodySlot (tree bodySlot a) = _ from readIdentifier_text a] at hb
    split_ifs at hb with hname
    exact hname
  | _ => trivial

/-- Settings as a layer fit if each is set to what it accepts. -/
theorem Settings.fits_iff {s : Settings} :
    (∀ key ∈ ["compiler", "output"], ∀ t ∈ valueAt? key s.entries, sectionFits key (fun _ => False) t) ↔
      s.Valid := by
  refine (fits_iff_of_isSection (t := .mapping s.entries) fun key _ t ht => isSection ht).trans ?_
  refine forall_congr' fun k => ?_
  rw [at?_entries]
  simp only [Option.mem_def, Option.map_eq_some_iff, forall_exists_index, and_imp, forall_apply_eq_imp_iff₂,
    Setting.exists_read_tree_iff]

/-- Accepted values make sections that fit. -/
theorem Config.fits_tree {c : Config} (h : ∀ k : Setting, k.Accepts (c.value k)) :
    ∀ key ∈ ["compiler", "output"], ∀ t ∈ c.tree.get? key, sectionFits key (fun _ => False) t := by
  refine (fits_iff_of_isSection fun key hkey t ht => ?_).2 fun k v hv => ?_
  · obtain ⟨entries, heq, hsection⟩ := c.isSection hkey
    rw [Option.mem_def, heq, Option.some.injEq] at ht
    exact ⟨entries, ht.symm, hsection⟩
  · rw [Option.mem_def, c.at?_tree, Option.some.injEq] at hv
    exact hv ▸ Setting.exists_read_tree_iff.2 (h k)

namespace Layers

variable {l : Layers}

/-- What stands in a section of all layers together. -/
theorem get?_merged (hproject : (Tree.mapping (l.project.getD [])).DistinctKeys) (key : String) :
    l.merged.get? key =
      overlay? (overlay? (l.user.tree.get? key) (valueAt? key (l.project.getD [])))
        (valueAt? key (l.command.laidOver l.environment).entries) := by
  rw [merged, get?_overlayValue (Settings.nodup_entries _), Option.bind_some, get?_overlayValue hproject.nodup,
    Option.bind_some]

/-- All layers together are a mapping, and only the project's file brings unknown keys into it. -/
theorem exists_merged (l : Layers) :
    ∃ entries, l.merged = .mapping entries ∧
      (unknownKeys ["compiler", "output"] entries = [] ↔
        unknownKeys ["compiler", "output"] (l.project.getD []) = []) := by
  refine ⟨_, rfl, ?_⟩
  rw [unknownKeys_overlay, unknownKeys_overlay, and_iff_left (Settings.unknownKeys_entries _), and_iff_right]
  simp [unknownKeys]

/-- The layers are refused for a body slot above the files that is no name of a field, and for what is wrong with the
project's file where nothing above it is set. -/
theorem exists_resolve_iff (huser : ∀ k : Setting, k.Accepts (l.user.value k))
    (hproject : (Tree.mapping (l.project.getD [])).DistinctKeys) :
    (∃ c, l.resolve = .ok c) ↔
      (l.command.laidOver l.environment).Valid ∧
        ∀ p ∈ listOf (Config.ofTree (.mapping (l.project.getD []))),
          (l.command.laidOver l.environment).Covers p := by
  set s := l.command.laidOver l.environment
  set entries := l.project.getD []
  -- a section of all layers fits if the one above the files does, and the project's but for what that one covers
  have hsection : ∀ key ∈ ["compiler", "output"],
      (∀ t ∈ l.merged.get? key, sectionFits key (fun _ => False) t) ↔
        (∀ t ∈ valueAt? key s.entries, sectionFits key (fun _ => False) t) ∧
          ∀ t ∈ valueAt? key entries,
            sectionFits key (fun keys => ((Tree.mapping s.entries).at? (.text key :: keys)).isSome) t := by
    intro key hkey
    obtain ⟨own, hown, hflat⟩ := l.user.isSection hkey
    obtain ⟨inside, hinside, hfits⟩ := sectionFits_eq key
    have huser := Config.fits_tree huser key hkey _ hown
    rw [hfits] at huser ⊢
    rw [get?_merged hproject, hown]
    exact hflat.fitsBut_layers hinside huser (fun t => Settings.isSection) fun t => hproject.inner
  have hcovers : (∀ p ∈ listOf (Config.ofTree (.mapping entries)), s.Covers p) ↔
      FitsBut ["compiler", "output"] sectionFits (fun keys => ((Tree.mapping s.entries).at? keys).isSome)
        (.mapping entries) :=
    @Config.forall_mem_ofTree (fun keys => ((Tree.mapping s.entries).at? keys).isSome) _
  obtain ⟨merged, hmerged, hunknown⟩ := l.exists_merged
  rw [resolve, Config.exists_ofTree_iff_fits, hcovers, fitsBut_mapping (at?_unknown s.unknownKeys_entries),
    ← Settings.fits_iff, hmerged, fitsBut_false, hunknown]
  rw [hmerged] at hsection
  constructor
  · rintro ⟨hknown, hfits⟩
    exact ⟨fun key hkey => ((hsection key hkey).1 (hfits key hkey)).1, hknown,
      fun key hkey => ((hsection key hkey).1 (hfits key hkey)).2⟩
  · rintro ⟨hvalid, hknown, hfits⟩
    exact ⟨hknown, fun key hkey => (hsection key hkey).2 ⟨hvalid key hkey, hfits key hkey⟩⟩

end Layers

/-! ## What the settings come to -/

/-- A setting is read from a scalar. -/
theorem Setting.scalar_of_read {k : Setting} {t : Tree} {a : k.Value} (h : k.read t = .ok a) :
    ∃ s, t = .scalar s := by
  cases t with
  | scalar s => exact ⟨s, rfl⟩
  | _ => cases k <;> cases h

/-- A value that is read back is the one that was written. -/
theorem Setting.eq_of_read_tree {k : Setting} {a b : k.Value} (h : k.read (k.tree a) = .ok b) : a = b := by
  have ha := read_tree (exists_read_tree_iff.1 ⟨b, h⟩)
  rw [ha] at h
  exact Except.ok.inj h

/-- The section of a setting in data that is read as a configuration. -/
theorem Config.mapping_of_ofTree {entries : List (Scalar × Tree)} {c : Config} {t : Tree}
    (h : Config.ofTree (.mapping entries) = .ok c) (k : Setting) (ht : valueAt? k.owner entries = some t) :
    ∃ inner, t = .mapping inner := by
  obtain ⟨hcompiler, houtput, -⟩ := ofTree_eq_ok.1 h
  rw [readSection_eq] at hcompiler houtput
  cases t with
  | mapping inner => exact ⟨inner, rfl⟩
  | _ =>
    cases k with
    | format =>
      rw [show valueAt? "output" entries = _ from ht] at houtput
      cases houtput
    | _ =>
      rw [show valueAt? "compiler" entries = _ from ht] at hcompiler
      cases hcompiler

/-- A value in a section of a layer stands over the one in the layer below. -/
theorem overlay?_get? {lower upper : Option Tree} {key : String}
    (hupper : ∀ t ∈ upper, ∃ entries, t = .mapping entries ∧ (keyTexts entries).Nodup)
    (hscalar : ∀ t ∈ upper.bind (·.get? key), ∃ s, t = .scalar s) :
    (overlay? lower upper).bind (·.get? key) = (upper.bind (·.get? key)).or (lower.bind (·.get? key)) := by
  cases upper with
  | none => rfl
  | some t =>
    obtain ⟨entries, rfl, hnodup⟩ := hupper t rfl
    rw [overlay?, Option.bind_some, Option.bind_some, get?_overlayValue hnodup, Tree.get?]
    rw [Option.bind_some, Tree.get?] at hscalar
    cases hvalue : valueAt? key entries with
    | none => rfl
    | some v =>
      obtain ⟨s, rfl⟩ := hscalar v hvalue
      rfl

namespace Layers

variable {l : Layers} {p : Config}

/-- What stands under the keys of a setting in all layers together is what the highest layer has there. -/
theorem at?_merged (hproject : (Tree.mapping (l.project.getD [])).DistinctKeys)
    (hread : Config.ofTree (.mapping (l.project.getD [])) = .ok p) (k : Setting) :
    l.merged.at? k.keys =
      ((Tree.mapping (l.command.laidOver l.environment).entries).at? k.keys).or
        (((Tree.mapping (l.project.getD [])).at? k.keys).or (l.user.tree.at? k.keys)) := by
  have hleaf := Config.leaf_of_ofTree hread k
  have htop := Settings.at?_entries (l.command.laidOver l.environment) k
  simp only [Setting.keys, Tree.at?_pair, Tree.get?_mapping, get?_merged hproject] at hleaf htop ⊢
  rw [overlay?_get?, overlay?_get?]
  -- what is left is that each of the two upper layers has sections, and a scalar for the setting
  · intro t ht
    obtain ⟨inner, rfl⟩ := Config.mapping_of_ofTree hread k ht
    exact ⟨inner, rfl, (hproject.inner ht).nodup⟩
  · intro t ht
    rw [Option.mem_def.1 ht] at hleaf
    exact Setting.scalar_of_read hleaf
  · intro t ht
    obtain ⟨inner, rfl, hsection⟩ := Settings.isSection ht
    exact ⟨inner, rfl, hsection.nodup⟩
  · intro t ht
    rw [Option.mem_def.1 ht] at htop
    obtain ⟨a, -, rfl⟩ := Option.map_eq_some_iff.1 htop.symm
    cases k <;> exact ⟨_, rfl⟩

/-- A setting has the value of the highest layer that sets it. -/
theorem value_of_resolve {c : Config} (hproject : (Tree.mapping (l.project.getD [])).DistinctKeys)
    (hread : Config.ofTree (.mapping (l.project.getD [])) = .ok p) (h : l.resolve = .ok c) (k : Setting) :
    c.value k =
      (((l.command.laidOver l.environment).value? k).or ((Tree.mapping (l.project.getD [])).value? k)).getD
        (l.user.value k) := by
  have hleaf := Config.leaf_of_ofTree h k
  rw [at?_merged hproject hread, Settings.at?_entries, Config.at?_tree] at hleaf
  -- the settings above the files, then the project's file, then the user's
  cases htop : (l.command.laidOver l.environment).value? k with
  | some a =>
    rw [htop] at hleaf
    exact (Setting.eq_of_read_tree hleaf).symm
  | none =>
    rw [htop] at hleaf
    rw [Tree.value?]
    cases hmiddle : (Tree.mapping (l.project.getD [])).at? k.keys with
    | some t =>
      rw [hmiddle] at hleaf
      have hvalue : k.read t = .ok (c.value k) := hleaf
      show _ = ((k.read t).toOption).getD _
      rw [hvalue]
      rfl
    | none =>
      rw [hmiddle] at hleaf
      exact (Setting.eq_of_read_tree hleaf).symm

end Layers

end RouteBinding
