import RouteBinding.Config.Reader
import RouteBinding.Proofs.Config.Overlay

/-!
# What is wrong with a configuration

A configuration is read exactly if nothing is wrong with it (`exists_ofTree_iff`), and what is wrong with it is found
key by key: a mapping has known keys, and under each stands what the key asks for. `FitsBut` says so of a tree up to the
faults at some places.
-/

namespace RouteBinding

namespace ConfigProblem

/-! ## Fields and sections -/

section Fields

variable {α : Type} {key : String} {default : α} {entries : List (Scalar × Tree)}

/-- A field has the value that stands at its key, or its default. -/
theorem readField_eq {read : Tree → Except ConfigFault α} {a : α} :
    readField key default read entries = .ok a ↔
      (valueAt? key entries).elim (default = a) fun t => read t = .ok a := by
  unfold readField
  cases valueAt? key entries with
  | none => simp
  | some t =>
    dsimp only [Option.elim]
    cases read t <;> simp

/-- The problem of a field is that of the value at its key. -/
theorem listOf_readField {read : Tree → Except ConfigFault α} :
    listOf (readField key default read entries) =
      ((valueAt? key entries).elim [] fun t =>
        match read t with
        | .ok _ => []
        | .error fault => [⟨[.text key], fault⟩]) := by
  unfold readField
  cases valueAt? key entries with
  | none => rfl
  | some t =>
    dsimp only [Option.elim]
    cases read t <;> rfl

/-- A field is read exactly if nothing is wrong with it. -/
theorem exists_readField_iff {read : Tree → Except ConfigFault α} :
    (∃ a, readField key default read entries = .ok a) ↔ listOf (readField key default read entries) = [] := by
  unfold readField
  cases valueAt? key entries with
  | none => simp [listOf]
  | some t =>
    dsimp only
    cases read t <;> simp [listOf]

/-- The problems of a section are those of what stands at its key, under that key. -/
theorem listOf_readSection {read : Tree → Except (List ConfigProblem) α} :
    listOf (readSection key default read entries) =
      ((valueAt? key entries).elim [] fun t => (listOf (read t)).map (under (.text key))) := by
  unfold readSection
  cases valueAt? key entries with
  | none => rfl
  | some t =>
    dsimp only [Option.elim]
    cases read t <;> rfl

/-- A section is read from what stands at its key, or is the default one. -/
theorem readSection_eq {read : Tree → Except (List ConfigProblem) α} {a : α} :
    readSection key default read entries = .ok a ↔
      (valueAt? key entries).elim (default = a) fun t => read t = .ok a := by
  unfold readSection
  cases valueAt? key entries with
  | none => simp
  | some t =>
    dsimp only [Option.elim]
    cases read t <;> simp [Except.mapError]

/-- A section is read if there are no problems in it. -/
theorem exists_readSection_iff {read : Tree → Except (List ConfigProblem) α}
    (hread : ∀ t, (∃ a, read t = .ok a) ↔ listOf (read t) = []) :
    (∃ a, readSection key default read entries = .ok a) ↔
      listOf (readSection key default read entries) = [] := by
  rw [listOf_readSection]
  simp only [readSection_eq]
  cases valueAt? key entries with
  | none => simp
  | some t =>
    simp only [Option.elim_some, List.map_eq_nil_iff]
    exact hread t

end Fields

/-! ## Fitting but for some places -/

/-- A value is read, or it stands at a place that does not count. -/
def LeafFits {α : Type} (read : Tree → Except ConfigFault α) (hidden : List Scalar → Prop) (t : Tree) :
    Prop :=
  (∃ a, read t = .ok a) ∨ hidden []

/-- A tree is a mapping of known keys, and what stands under them fits, but for what is wrong at the places that do not
count: those in `hidden`, seen from the tree. -/
def FitsBut (known : List String) (inside : String → (List Scalar → Prop) → Tree → Prop)
    (hidden : List Scalar → Prop) : Tree → Prop
  | .mapping entries =>
    (∀ p ∈ unknownKeys known entries, hidden p.keys) ∧
      ∀ key ∈ known, ∀ t ∈ valueAt? key entries, inside key (fun keys => hidden (.text key :: keys)) t
  | _ => hidden []

/-- What a setting of the compiler asks for. -/
def compilerLeaf (key : String) : (List Scalar → Prop) → Tree → Prop :=
  if key = "body_slot" then LeafFits readIdentifier else LeafFits readBool

/-- What a setting of the output asks for. -/
def outputLeaf (_ : String) : (List Scalar → Prop) → Tree → Prop :=
  LeafFits readText

/-- The keys of the settings of the compiler. -/
def compilerKeys : List String := ["body_slot", "warn_unbound_operations", "fail_on_warnings"]

/-- What the sections of a configuration ask for. -/
def sectionFits (key : String) : (List Scalar → Prop) → Tree → Prop :=
  if key = "compiler" then FitsBut compilerKeys compilerLeaf else FitsBut ["format"] outputLeaf

section Problems

variable {hidden : List Scalar → Prop} {entries : List (Scalar × Tree)} {t : Tree}

/-- The problems of a field are hidden if the value at its key fits, or is hidden. -/
theorem forall_mem_readField {α : Type} {key : String} {default : α}
    {read : Tree → Except ConfigFault α} :
    (∀ p ∈ listOf (readField key default read entries), hidden p.keys) ↔
      ∀ t ∈ valueAt? key entries, LeafFits read (fun keys => hidden (.text key :: keys)) t := by
  rw [listOf_readField]
  cases valueAt? key entries with
  | none => simp
  | some t =>
    simp only [Option.elim_some, Option.mem_def, Option.some.injEq, forall_eq', LeafFits]
    cases read t <;> simp

/-- The problems of a section are hidden if what stands at its key fits but for what is hidden. -/
theorem forall_mem_readSection {α : Type} {key : String} {default : α}
    {read : Tree → Except (List ConfigProblem) α} {fits : (List Scalar → Prop) → Tree → Prop}
    (hread : ∀ hidden t, (∀ p ∈ listOf (read t), hidden p.keys) ↔ fits hidden t) :
    (∀ p ∈ listOf (readSection key default read entries), hidden p.keys) ↔
      ∀ t ∈ valueAt? key entries, fits (fun keys => hidden (.text key :: keys)) t := by
  rw [listOf_readSection]
  cases valueAt? key entries with
  | none => simp
  | some t =>
    simp only [Option.elim_some, Option.mem_def, Option.some.injEq, forall_eq', List.forall_mem_map, ← hread]
    rfl

end Problems

end ConfigProblem

open ConfigProblem

variable {hidden : List Scalar → Prop} {entries : List (Scalar × Tree)} {t : Tree}

/-! ## Reading -/

/-- The section of the compiler is read if each field is, and no other key stands there. -/
theorem CompilerConfig.ofTree_eq_ok {c : CompilerConfig} :
    CompilerConfig.ofTree (.mapping entries) = .ok c ↔
      readField "body_slot" default.bodySlot readIdentifier entries = .ok c.bodySlot ∧
        readField "warn_unbound_operations" default.warnUnbound readBool entries = .ok c.warnUnbound ∧
        readField "fail_on_warnings" default.failOnWarnings readBool entries = .ok c.failOnWarnings ∧
        unknownKeys compilerKeys entries = [] := by
  obtain ⟨slot, warn, fail⟩ := c
  simp only [ofTree, compilerKeys]
  split
  · rename_i hslot hwarn hfail hunknown
    simp [hslot, hwarn, hfail, hunknown]
  · rename_i hnone
    simp only [reduceCtorEq, false_iff]
    rintro ⟨hslot, hwarn, hfail, hunknown⟩
    exact hnone _ _ _ hslot hwarn hfail hunknown

/-- The section of the output is read if its field is, and no other key stands there. -/
theorem OutputConfig.ofTree_eq_ok {c : OutputConfig} :
    OutputConfig.ofTree (.mapping entries) = .ok c ↔
      readField "format" default.format readText entries = .ok c.format ∧
        unknownKeys ["format"] entries = [] := by
  obtain ⟨format⟩ := c
  simp only [ofTree]
  split
  · rename_i hformat hunknown
    simp [hformat, hunknown]
  · rename_i hnone
    simp only [reduceCtorEq, false_iff]
    rintro ⟨hformat, hunknown⟩
    exact hnone _ hformat hunknown

/-- The settings are read if both sections are, and no other key stands there. -/
theorem Config.ofTree_eq_ok {c : Config} :
    Config.ofTree (.mapping entries) = .ok c ↔
      readSection "compiler" .default CompilerConfig.ofTree entries = .ok c.compiler ∧
        readSection "output" .default OutputConfig.ofTree entries = .ok c.output ∧
        unknownKeys ["compiler", "output"] entries = [] := by
  obtain ⟨compiler, output⟩ := c
  simp only [ofTree]
  split
  · rename_i hcompiler houtput hunknown
    simp [hcompiler, houtput, hunknown]
  · rename_i hnone
    simp only [reduceCtorEq, false_iff]
    rintro ⟨hcompiler, houtput, hunknown⟩
    exact hnone _ _ hcompiler houtput hunknown

/-! ## Problems -/

/-- All that is wrong with the settings of the compiler. -/
theorem CompilerConfig.listOf_ofTree (entries : List (Scalar × Tree)) :
    listOf (CompilerConfig.ofTree (.mapping entries)) =
      listOf (readField "body_slot" default.bodySlot readIdentifier entries) ++
        listOf (readField "warn_unbound_operations" default.warnUnbound readBool entries) ++
        listOf (readField "fail_on_warnings" default.failOnWarnings readBool entries) ++
        unknownKeys compilerKeys entries := by
  simp only [ofTree, compilerKeys]
  split
  · rename_i hslot hwarn hfail hunknown
    rw [hslot, hwarn, hfail, hunknown]
    rfl
  · rfl

/-- The problems of the output are those of its field and of the unknown keys. -/
theorem OutputConfig.listOf_ofTree (entries : List (Scalar × Tree)) :
    listOf (OutputConfig.ofTree (.mapping entries)) =
      listOf (readField "format" default.format readText entries) ++ unknownKeys ["format"] entries := by
  simp only [ofTree]
  split
  · rename_i hformat hunknown
    rw [hformat, hunknown]
    rfl
  · rfl

/-- The problems of the settings are those of the sections and of the unknown keys. -/
theorem Config.listOf_ofTree (entries : List (Scalar × Tree)) :
    listOf (Config.ofTree (.mapping entries)) =
      listOf (readSection "compiler" .default CompilerConfig.ofTree entries) ++
        listOf (readSection "output" .default OutputConfig.ofTree entries) ++
        unknownKeys ["compiler", "output"] entries := by
  simp only [ofTree]
  split
  · rename_i hcompiler houtput hunknown
    rw [hcompiler, houtput, hunknown]
    rfl
  · rfl

/-- The problems of the compiler are hidden if the section fits but for what is hidden. -/
theorem CompilerConfig.forall_mem_ofTree :
    (∀ p ∈ listOf (CompilerConfig.ofTree t), hidden p.keys) ↔ FitsBut compilerKeys compilerLeaf hidden t := by
  cases t with
  | mapping entries =>
    rw [listOf_ofTree]
    simp only [List.forall_mem_append, forall_mem_readField, FitsBut, compilerKeys, compilerLeaf,
      List.forall_mem_cons, List.not_mem_nil, false_implies, implies_true, and_true, if_true,
      String.reduceEq, if_false]
    constructor
    · rintro ⟨⟨⟨hslot, hwarn⟩, hfail⟩, hunknown⟩
      exact ⟨hunknown, hslot, hwarn, hfail⟩
    · rintro ⟨hunknown, hslot, hwarn, hfail⟩
      exact ⟨⟨⟨hslot, hwarn⟩, hfail⟩, hunknown⟩
  | _ => simp [ofTree, listOf, FitsBut]

/-- The problems of the output are hidden if the section fits but for what is hidden. -/
theorem OutputConfig.forall_mem_ofTree :
    (∀ p ∈ listOf (OutputConfig.ofTree t), hidden p.keys) ↔ FitsBut ["format"] outputLeaf hidden t := by
  cases t with
  | mapping entries =>
    rw [listOf_ofTree]
    simp only [List.forall_mem_append, forall_mem_readField, FitsBut, outputLeaf, List.forall_mem_singleton]
    exact and_comm
  | _ => simp [ofTree, listOf, FitsBut]

/-- A configuration has faults at some places only exactly if it fits but for those. -/
theorem Config.forall_mem_ofTree :
    (∀ p ∈ listOf (Config.ofTree t), hidden p.keys) ↔
      FitsBut ["compiler", "output"] sectionFits hidden t := by
  cases t with
  | mapping entries =>
    have hcompiler := fun hidden t => @CompilerConfig.forall_mem_ofTree hidden t
    have houtput := fun hidden t => @OutputConfig.forall_mem_ofTree hidden t
    rw [listOf_ofTree]
    simp only [List.forall_mem_append, forall_mem_readSection hcompiler, forall_mem_readSection houtput,
      FitsBut, sectionFits, List.forall_mem_cons, List.not_mem_nil, false_implies, implies_true,
      and_true, if_true, String.reduceEq, if_false]
    exact and_comm
  | _ => simp [ofTree, listOf, FitsBut]

/-! ## Without problems -/

/-- The section of the compiler is read if there are no problems in it. -/
theorem CompilerConfig.exists_ofTree_iff :
    (∃ c, CompilerConfig.ofTree t = .ok c) ↔ listOf (CompilerConfig.ofTree t) = [] := by
  cases t with
  | mapping entries =>
    rw [listOf_ofTree]
    simp only [List.append_eq_nil_iff, ← exists_readField_iff]
    constructor
    · rintro ⟨c, hc⟩
      obtain ⟨hslot, hwarn, hfail, hunknown⟩ := ofTree_eq_ok.1 hc
      exact ⟨⟨⟨⟨_, hslot⟩, _, hwarn⟩, _, hfail⟩, hunknown⟩
    · rintro ⟨⟨⟨⟨slot, hslot⟩, warn, hwarn⟩, fail, hfail⟩, hunknown⟩
      exact ⟨⟨slot, warn, fail⟩, ofTree_eq_ok.2 ⟨hslot, hwarn, hfail, hunknown⟩⟩
  | _ => simp [ofTree, listOf]

/-- The section of the output is read if there are no problems in it. -/
theorem OutputConfig.exists_ofTree_iff :
    (∃ c, OutputConfig.ofTree t = .ok c) ↔ listOf (OutputConfig.ofTree t) = [] := by
  cases t with
  | mapping entries =>
    rw [listOf_ofTree]
    simp only [List.append_eq_nil_iff, ← exists_readField_iff]
    constructor
    · rintro ⟨c, hc⟩
      obtain ⟨hformat, hunknown⟩ := ofTree_eq_ok.1 hc
      exact ⟨⟨_, hformat⟩, hunknown⟩
    · rintro ⟨⟨format, hformat⟩, hunknown⟩
      exact ⟨⟨format⟩, ofTree_eq_ok.2 ⟨hformat, hunknown⟩⟩
  | _ => simp [ofTree, listOf]

/-- A configuration is read exactly if nothing is wrong with it. -/
theorem Config.exists_ofTree_iff :
    (∃ c, Config.ofTree t = .ok c) ↔ listOf (Config.ofTree t) = [] := by
  cases t with
  | mapping entries =>
    rw [listOf_ofTree]
    simp only [List.append_eq_nil_iff, ← exists_readSection_iff fun _ => CompilerConfig.exists_ofTree_iff,
      ← exists_readSection_iff fun _ => OutputConfig.exists_ofTree_iff]
    constructor
    · rintro ⟨c, hc⟩
      obtain ⟨hcompiler, houtput, hunknown⟩ := ofTree_eq_ok.1 hc
      exact ⟨⟨⟨_, hcompiler⟩, _, houtput⟩, hunknown⟩
    · rintro ⟨⟨⟨compiler, hcompiler⟩, output, houtput⟩, hunknown⟩
      exact ⟨⟨compiler, output⟩, ofTree_eq_ok.2 ⟨hcompiler, houtput, hunknown⟩⟩
  | _ => simp [ofTree, listOf]

/-- A configuration is read exactly if it fits everywhere. -/
theorem Config.exists_ofTree_iff_fits :
    (∃ c, Config.ofTree t = .ok c) ↔ FitsBut ["compiler", "output"] sectionFits (fun _ => False) t := by
  rw [exists_ofTree_iff, ← forall_mem_ofTree, List.eq_nil_iff_forall_not_mem]

end RouteBinding
