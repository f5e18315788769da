import RouteBinding.Proofs.Schema.Layer
import RouteBinding.Schema.Reading

/-!
# What is read from one mapping

A reading does not depend on the pointer at which the mapping is met: the pointer only stands in errors
(`read_pointer`). The rules for a single mapping find no cycles, and what breaks the run off is a type that cannot be
looked up, or a part without a text where an error was to show it (`read_error`).

`Resolver.Inner` is the relation between a schema and the schemas that stand inside it or take its place, and
`Resolver.WellFormed` says that a schema by itself follows the rules.
-/

namespace RouteBinding.Resolver

variable {r : Resolver} {g : Graph} {entries : List (Scalar × Value)} {pointer : String}

/-- What is refused has no result. -/
@[simp] theorem refuse_ne_ok {α : Type} {e : CompileError} {a : α} :
    (refuse e : Except Halt α) ≠ .ok a := by
  simp [refuse]

/-! ## The pointer does not matter -/

/-- A title is read alike at every place. -/
theorem readTitle_pointer {title : Option String} (h : readTitle g entries pointer = .ok title)
    (pointer' : String) : readTitle g entries pointer' = .ok title := by
  unfold readTitle at h ⊢
  split at h
  · exact h
  · exact h
  · cases h

/-- A kind is read alike at every place. -/
theorem readKind_pointer {kind : Kind} (h : readKind g entries pointer = .ok kind)
    (pointer' : String) : readKind g entries pointer' = .ok kind := by
  unfold readKind at h ⊢
  split at h
  · split_ifs at h ⊢
    · exact h
    · exact h
    · exact absurd h refuse_ne_ok
  · split at h
    · split at h
      · exact h
      · exact absurd h refuse_ne_ok
    · split_ifs at h

/-- The names of properties are read alike at every place. -/
theorem readPropertyNames_pointer {l : List (Scalar × Value)} {properties : List (String × Value)}
    (h : readPropertyNames pointer l = .ok properties) (pointer' : String) :
    readPropertyNames pointer' l = .ok properties := by
  induction l generalizing properties with
  | nil => exact h
  | cons entry rest ih =>
    rcases entry with ⟨key, schema⟩
    cases key with
    | text name =>
      simp only [readPropertyNames] at h ⊢
      cases hrest : readPropertyNames pointer rest with
      | error e => rw [hrest] at h; cases h
      | ok later =>
        rw [hrest] at h
        rw [ih hrest]
        exact h
    | _ => cases h

/-- Properties are read alike at every place. -/
theorem readProperties_pointer {properties : List (String × Value)}
    (h : readProperties g entries pointer = .ok properties) (pointer' : String) :
    readProperties g entries pointer' = .ok properties := by
  unfold readProperties at h ⊢
  split_ifs at h ⊢
  · exact absurd h refuse_ne_ok
  · split at h
    · exact h
    · split at h
      · exact absurd h refuse_ne_ok
      · exact readPropertyNames_pointer h pointer'

/-- What a schema is made of is read alike at every place. -/
theorem readStructure_pointer {layer : Layer Value}
    (h : readStructure g entries pointer = .ok layer) (pointer' : String) :
    readStructure g entries pointer' = .ok layer := by
  unfold readStructure at h ⊢
  split at h
  · exact absurd h refuse_ne_ok
  · split at h
    · split at h
      · exact h
      · exact absurd h refuse_ne_ok
    · obtain ⟨kind, hkind, hlayer⟩ := bind_eq_ok.1 h
      refine bind_eq_ok.2 ⟨kind, readKind_pointer hkind pointer', ?_⟩
      cases kind with
      | primitive kind => exact hlayer
      | array =>
        dsimp only at hlayer ⊢
        split at hlayer
        · exact hlayer
        · exact absurd hlayer refuse_ne_ok
      | object =>
        obtain ⟨properties, hp, hlayer⟩ := bind_eq_ok.1 hlayer
        exact bind_eq_ok.2 ⟨properties, readProperties_pointer hp pointer', hlayer⟩

/-- A mapping is read in the same way wherever it is met. -/
theorem read_pointer {reading : Reading} (h : r.read entries pointer = .ok reading)
    (pointer' : String) : r.read entries pointer' = .ok reading := by
  unfold read at h ⊢
  obtain ⟨title, htitle, h⟩ := bind_eq_ok.1 h
  refine bind_eq_ok.2 ⟨title, readTitle_pointer htitle pointer', ?_⟩
  cases href : valueAt? "$ref" entries with
  | some reference =>
    rw [href] at h
    exact h
  | none =>
    rw [href] at h
    obtain ⟨layer, hlayer, h⟩ := bind_eq_ok.1 h
    exact bind_eq_ok.2 ⟨layer, readStructure_pointer hlayer pointer', h⟩

/-! ## How the reading stops -/

/-- Whether a stop is an error of a single schema: a reference that leads nowhere, a construct that is not supported, or
a part that is malformed. -/
def IsPlain : Halt → Prop
  | .error (.unresolvedReference ..) => True
  | .error (.unsupportedConstruct ..) => True
  | .error (.malformedSchema ..) => True
  | _ => False

/-- The type that a mapping declares cannot be looked up among the names of types. -/
def HasUnhashableType (g : Graph) (entries : List (Scalar × Value)) : Prop :=
  ∃ v, declaredType g entries = some v ∧ g.canBeKey v = false

/-- A mapping has a part that is not what is called for, and that no error can show either, since it has no text: its
title, its reference, its type, or the name of one of its properties. -/
inductive HasUnwritablePart (g : Graph) (entries : List (Scalar × Value)) : Prop
  | title {v : Value} (hv : keyword? "title" entries = some v) (hshown : g.literal? v = none)
  | reference {v : Value} (hv : valueAt? "$ref" entries = some v) (hshown : g.display? v = none)
  | type {v : Value} (hv : declaredType g entries = some v) (hshown : g.display? v = none)
  | property {v w : Value} {properties : List (Scalar × Value)} {key : Scalar}
    (hv : valueAt? "properties" entries = some v) (hproperties : g.entries? v = some properties)
    (hmem : (key, w) ∈ properties) (hshown : key.literal? = none)

/-- Why the reading of one mapping stops: with an error of that schema, because its type cannot be looked up, or
because an error cannot show what is wrong. -/
inductive StopsReading (g : Graph) (entries : List (Scalar × Value)) : Halt → Prop
  | plain {h : Halt} (hplain : IsPlain h) : StopsReading g entries h
  | unhashable (htype : HasUnhashableType g entries) : StopsReading g entries (.breakdown .unhashableKey)
  | unwritable (hpart : HasUnwritablePart g entries) : StopsReading g entries (.breakdown .numberTooLong)

variable {h : Halt}

/-- What shows a value stops with an error, unless the value has no text. -/
theorem isPlain_or_of_showing {e : String → CompileError} {shown : Option String}
    (hplain : ∀ text, IsPlain (.error (e text))) :
    IsPlain (Halt.showing e shown) ∨ Halt.showing e shown = .breakdown .numberTooLong ∧ shown = none := by
  cases shown with
  | none => exact .inr ⟨rfl, rfl⟩
  | some text => exact .inl (hplain text)

/-- A title that is not read is what stops the reading. -/
theorem readTitle_error (hread : readTitle g entries pointer = .error h) :
    StopsReading g entries h := by
  unfold readTitle at hread
  split at hread <;> cases hread
  rename_i other _ hother
  exact Step.showing_intro (fun _ => .plain trivial) fun hnone => .unwritable (.title hother hnone)

/-- A kind that is not read is what stops the reading. -/
theorem readKind_error (hread : readKind g entries pointer = .error h) :
    StopsReading g entries h := by
  unfold readKind at hread
  split at hread
  · split_ifs at hread
    cases hread
    exact .plain trivial
  · rename_i value hvalue
    split at hread
    · split at hread <;> cases hread
      exact .plain trivial
    · split_ifs at hread with hkey
      · cases hread
        exact Step.showing_intro (fun _ => .plain trivial) fun hnone => .unwritable (.type hvalue hnone)
      · cases hread
        exact .unhashable ⟨value, hvalue, by simpa using hkey⟩

/-- The names of properties are refused for one that is no text, or break the run off for one that has none. -/
theorem readPropertyNames_error {l : List (Scalar × Value)}
    (hread : readPropertyNames pointer l = .error h) :
    IsPlain h ∨ h = .breakdown .numberTooLong ∧ ∃ e ∈ l, e.1.literal? = none := by
  induction l with
  | nil => cases hread
  | cons entry rest ih =>
    rcases entry with ⟨key, schema⟩
    cases key with
    | text name =>
      simp only [readPropertyNames] at hread
      cases hrest : readPropertyNames pointer rest with
      | ok later => rw [hrest] at hread; cases hread
      | error e =>
        rw [hrest] at hread
        cases hread
        refine (ih hrest).imp_right fun ⟨heq, e, he, hnone⟩ => ?_
        exact ⟨heq, e, List.mem_cons_of_mem _ he, hnone⟩
    | _ =>
      cases hread
      refine Or.imp_right ?_ (isPlain_or_of_showing fun _ => ?_)
      · exact fun ⟨heq, hnone⟩ => ⟨heq, _, List.mem_cons_self, hnone⟩
      · trivial

/-- Properties that are not read are what stops the reading. -/
theorem readProperties_error (hread : readProperties g entries pointer = .error h) :
    StopsReading g entries h := by
  unfold readProperties at hread
  split_ifs at hread
  · cases hread
    exact .plain trivial
  · split at hread
    · cases hread
    · rename_i value hvalue
      split at hread
      · cases hread
        exact .plain trivial
      · rename_i properties hproperties
        rcases readPropertyNames_error hread with hplain | ⟨rfl, e, he, hnone⟩
        · exact .plain hplain
        · exact .unwritable (.property (Option.filter_eq_some_iff.1 hvalue).1 hproperties he hnone)

/-- What is not read of the structure is what stops the reading. -/
theorem readStructure_error (hread : readStructure g entries pointer = .error h) :
    StopsReading g entries h := by
  unfold readStructure at hread
  split at hread
  · cases hread
    exact .plain trivial
  · split at hread
    · split at hread <;> cases hread
      exact .plain trivial
    · rcases bind_eq_error.1 hread with hkind | ⟨kind, -, hread⟩
      · exact readKind_error hkind
      · cases kind with
        | primitive kind => cases hread
        | array =>
          dsimp only at hread
          split at hread <;> cases hread
          exact .plain trivial
        | object =>
          rcases bind_eq_error.1 hread with hp | ⟨properties, -, hread⟩
          · exact readProperties_error hp
          · cases hread

/-- A pointer that leads nowhere is an unresolved reference. -/
theorem find_error {d : Document} {target : String} {e : CompileError}
    (hfind : d.find target = .error e) : ∃ fault, e = .unresolvedReference target fault := by
  unfold Document.find at hfind
  split at hfind
  · cases hfind
    exact ⟨_, rfl⟩
  · split at hfind
    · cases hfind
    · cases hfind
      exact ⟨_, rfl⟩

/-- A reference that is not read is refused, or it is a number too long to be written. -/
theorem readReference_error {reference : Value} (hread : r.readReference reference = .error h) :
    IsPlain h ∨ h = .breakdown .numberTooLong ∧ r.document.graph.display? reference = none := by
  unfold readReference at hread
  split at hread
  · left
    split at hread
    · split_ifs at hread
      · cases hread
        trivial
    · split at hread
      · cases hread
      · rename_i target _ e hfind
        obtain ⟨fault, rfl⟩ := find_error hfind
        cases hread
        trivial
  · cases hread
    exact isPlain_or_of_showing fun _ => trivial

/-- A schema that is not read has something that stops the reading. -/
theorem read_error (hread : r.read entries pointer = .error h) :
    StopsReading r.document.graph entries h := by
  unfold read at hread
  rcases bind_eq_error.1 hread with htitle | ⟨title, -, hread⟩
  · exact readTitle_error htitle
  · cases href : valueAt? "$ref" entries with
    | some reference =>
      rw [href] at hread
      rcases bind_eq_error.1 hread with hr | ⟨layer, -, hread⟩
      · rcases readReference_error hr with hplain | ⟨rfl, hnone⟩
        · exact .plain hplain
        · exact .unwritable (.reference href hnone)
      · cases hread
    | none =>
      rw [href] at hread
      rcases bind_eq_error.1 hread with hs | ⟨layer, -, hread⟩
      · exact readStructure_error hs
      · cases hread

/-! ## Schemas inside a schema -/

/-- A value is the mapping with a name, and reads as a schema. -/
def Reads (r : Resolver) (v : Value) (id : Nat) (reading : Reading) : Prop :=
  ∃ entries, r.document.graph.shape v = .mapping id entries ∧ r.read entries "" = .ok reading

/-- One schema stands inside another as a property, an item or a branch, or takes its place, because the
other is a reference to it that is not to a component. -/
def Inner (r : Resolver) (v w : Value) : Prop :=
  ∃ id reading, r.Reads v id reading ∧ w ∈ reading.layer.inner

/-- By itself, a value follows the rules for schemas: it is a mapping and all of its keywords are right. -/
def WellFormed (r : Resolver) (v : Value) : Prop :=
  ∃ id reading, r.Reads v id reading ∧ reading.layer.isComplete

theorem eq_container_of_shape {v : Value} {id : Nat} (h : g.shape v = .mapping id entries) :
    v = .container id := by
  cases v with
  | scalar value => simp [Graph.shape] at h
  | container id' =>
    simp only [Graph.shape] at h
    split at h <;> simp_all

theorem Reads.eq_container {v : Value} {id : Nat} {reading : Reading} (h : r.Reads v id reading) :
    v = .container id := by
  obtain ⟨entries, hshape, -⟩ := h
  exact eq_container_of_shape hshape

/-- What is read is a container of the document. -/
theorem Reads.lt_size {v : Value} {id : Nat} {reading : Reading} (h : r.Reads v id reading) :
    id < r.document.graph.size := by
  obtain ⟨entries, hshape, -⟩ := h
  exact Graph.lt_size_of_shape_mapping hshape

/-- What is read of a mapping is its reading. -/
theorem Reads.of_read {v : Value} {id : Nat} {reading : Reading}
    (hshape : r.document.graph.shape v = .mapping id entries)
    (hread : r.read entries pointer = .ok reading) : r.Reads v id reading :=
  ⟨entries, hshape, read_pointer hread ""⟩

/-- A value reads as one schema at most. -/
theorem Reads.unique {v : Value} {id id' : Nat} {reading reading' : Reading}
    (h : r.Reads v id reading) (h' : r.Reads v id' reading') : id = id' ∧ reading = reading' := by
  obtain ⟨entries, hshape, hread⟩ := h
  obtain ⟨entries', hshape', hread'⟩ := h'
  rw [hshape] at hshape'
  cases hshape'
  rw [hread] at hread'
  cases hread'
  exact ⟨rfl, rfl⟩

/-! ## References to components -/

/-- A segment that is not empty stands for a name that is not. -/
theorem unescape_ne_empty {segment : String} (h : segment ≠ "") : Pointer.unescape segment ≠ "" := by
  have hchars : ∀ l : List Char, l ≠ [] → Pointer.unescapeChars l ≠ [] := by
    intro l hl
    unfold Pointer.unescapeChars
    split <;> simp_all
  intro hempty
  have htext : String.ofList (Pointer.unescapeChars segment.toList) = String.ofList [] := hempty
  refine hchars segment.toList (fun hl => h ?_) (String.ofList_injective htext)
  rw [← String.ofList_toList (s := segment), hl]

/-- The name of a component is not empty. -/
theorem componentName?_ne_empty {target name : String}
    (h : Pointer.componentName? target = some name) : name ≠ "" := by
  unfold Pointer.componentName? at h
  simp only [Option.bind_eq_bind, Option.bind_eq_some_iff] at h
  obtain ⟨rest, -, h⟩ := h
  split_ifs at h with hrest
  cases h
  exact unescape_ne_empty fun hempty => hrest (by simp [hempty])

/-- A layer that only refers to another schema. -/
def IsReference {α : Type} : Layer α → Prop
  | .component _ => True
  | .inlined _ _ => True
  | _ => False

/-- A structure is no reference. -/
theorem not_isReference_of_readStructure {layer : Layer Value}
    (hread : readStructure g entries pointer = .ok layer) : ¬ IsReference layer := by
  unfold readStructure at hread
  split at hread
  · exact absurd hread refuse_ne_ok
  · split at hread
    · split at hread
      · cases hread
        exact id
      · exact absurd hread refuse_ne_ok
    · obtain ⟨kind, -, hread⟩ := bind_eq_ok.1 hread
      cases kind with
      | primitive kind =>
        cases hread
        exact id
      | array =>
        dsimp only at hread
        split at hread
        · cases hread
          exact id
        · exact absurd hread refuse_ne_ok
      | object =>
        obtain ⟨properties, -, hread⟩ := bind_eq_ok.1 hread
        cases hread
        exact id

theorem readStructure_ne_component {name : String} :
    readStructure g entries pointer ≠ .ok (.component name) :=
  fun hread => not_isReference_of_readStructure hread trivial

/-- A schema without a reference does not only refer to another one. -/
theorem Reads.not_isReference {v : Value} {id id' : Nat} {reading : Reading} (h : r.Reads v id reading)
    (hshape : r.document.graph.shape v = .mapping id' entries)
    (href : valueAt? "$ref" entries = none) : ¬ IsReference reading.layer := by
  obtain ⟨entries', hshape', hread⟩ := h
  rw [hshape] at hshape'
  cases hshape'
  unfold read at hread
  obtain ⟨title, -, hread⟩ := bind_eq_ok.1 hread
  rw [href] at hread
  obtain ⟨layer, hlayer, hread⟩ := bind_eq_ok.1 hread
  cases hread
  exact not_isReference_of_readStructure hlayer

/-- A schema that refers to a component refers to one that is declared, and to none without a name. -/
theorem Reads.declares {v : Value} {id : Nat} {reading : Reading} {name : String}
    (h : r.Reads v id reading) (hlayer : reading.layer = .component name) :
    r.declares name ∧ name ≠ "" := by
  obtain ⟨entries, -, hread⟩ := h
  unfold read at hread
  obtain ⟨title, -, hread⟩ := bind_eq_ok.1 hread
  cases href : valueAt? "$ref" entries with
  | none =>
    rw [href] at hread
    obtain ⟨layer, hstructure, hread⟩ := bind_eq_ok.1 hread
    cases hread
    cases hlayer
    exact absurd hstructure readStructure_ne_component
  | some reference =>
    rw [href] at hread
    obtain ⟨layer, hreference, hread⟩ := bind_eq_ok.1 hread
    cases hread
    cases hlayer
    unfold readReference at hreference
    split at hreference
    · split at hreference
      · rename_i hname
        split_ifs at hreference with hdeclared
        · cases hreference
          exact ⟨hdeclared, componentName?_ne_empty hname⟩
        · exact absurd hreference refuse_ne_ok
      · split at hreference
        · cases hreference
        · exact absurd hreference refuse_ne_ok
    · cases hreference

/-! ## Properties -/

/-- The properties that are read are the entries, all of them under texts. -/
theorem readPropertyNames_eq_ok {l : List (Scalar × Value)} {properties : List (String × Value)}
    (h : readPropertyNames pointer l = .ok properties) :
    l = properties.map fun p => (.text p.1, p.2) := by
  induction l generalizing properties with
  | nil => cases h; rfl
  | cons entry rest ih =>
    rcases entry with ⟨key, schema⟩
    cases key with
    | text name =>
      obtain ⟨later, hlater, rfl⟩ := map_eq_ok.1 h
      rw [ih hlater]
      rfl
    | _ => cases h

/-! ## The component schemas -/

/-- A step into a mapping leads to what stands at the key. -/
theorem step_of_entries? {v w : Value} {key : String} (hv : g.entries? v = some entries)
    (hw : valueAt? key entries = some w) : g.step v key = .ok w := by
  unfold Graph.entries? at hv
  split at hv
  · rename_i hshape
    cases hv
    simp only [Graph.step, hshape, hw]
  · cases hv

/-- The pointer of the component schemas leads to what counts as them. -/
theorem find_schemas {d : Document} {top inner : List (Scalar × Value)} {components schemas : Value}
    (htop : d.graph.entries? d.root = some top)
    (hcomponents : (valueAt? "components" top).filter d.graph.isTruthy = some components)
    (hinner : d.graph.entries? components = some inner)
    (hschemas : (valueAt? "schemas" inner).filter d.graph.isTruthy = some schemas) :
    d.find "#/components/schemas" = .ok schemas := by
  have hfirst := step_of_entries? htop (Option.filter_eq_some_iff.1 hcomponents).1
  have hsecond := step_of_entries? hinner (Option.filter_eq_some_iff.1 hschemas).1
  have hkeys : Pointer.keys? "#/components/schemas" = some ["components", "schemas"] := by decide
  simp only [Document.find, hkeys, Graph.walk, hfirst, hsecond]

/-- The component schemas of a document stand where their pointer leads, if there are any. -/
theorem ofDocument_eq_ok {d : Document} (h : ofDocument d = .ok r) : r.document = d ∧
    (r.schemas = [] ∨ ∃ v, d.find "#/components/schemas" = .ok v ∧
      d.graph.entries? v = some r.schemas) := by
  unfold ofDocument at h
  split at h
  · rename_i top htop
    dsimp only at h
    split at h
    · cases h
      exact ⟨rfl, .inl rfl⟩
    · rename_i components hcomponents
      split at h
      · rename_i inner hinner
        split at h
        · cases h
          exact ⟨rfl, .inl rfl⟩
        · rename_i schemas hschemas
          split at h
          · rename_i entries hentries
            cases h
            exact ⟨rfl, .inr ⟨schemas, find_schemas htop hcomponents hinner hschemas, hentries⟩⟩
          · cases h
      · cases h
  · cases h

/-- Component schemas that are no mapping are refused where they stand. -/
theorem ofDocument_eq_error {d : Document} {e : CompileError}
    (h : ofDocument d = .error (.error e)) :
    e = .malformedSchema .schemasNotMapping "#/components/schemas" ∧
      ∃ v, d.find "#/components/schemas" = .ok v := by
  unfold ofDocument at h
  split at h
  · rename_i top htop
    dsimp only at h
    split at h
    · cases h
    · rename_i components hcomponents
      split at h
      · rename_i inner hinner
        split at h
        · cases h
        · rename_i schemas hschemas
          split at h
          · cases h
          · cases h
            exact ⟨rfl, schemas, find_schemas htop hcomponents hinner hschemas⟩
      · cases h
  · cases h

end RouteBinding.Resolver
