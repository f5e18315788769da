import RouteBinding.Proofs.Schema.Reading
import RouteBinding.Proofs.Standing

/-!
# What errors point at

The pointers of an error are its place, where that is one in the document, and the places of a cycle
(`CompileError.pointers`). What is wrong with one mapping is blamed on the pointer at which it was met
(`Resolver.blames_read`). A run that breaks off without an error does so for one of four reasons
(`Graph.Breaks`).
-/

namespace RouteBinding

/-- The pointers into the document that an error shows. -/
def CompileError.pointers (e : CompileError) : List String :=
  match e with
  | cyclicSchema _ chain => e.location.toList ++ chain
  | unsupportedConstruct .. | malformedSchema .. | ambiguousVariant .. | invalidParameter ..
  | templateMismatch .. | invalidBody .. => e.location.toList
  | _ => []

/-- Why a run breaks off: a mapping has a key that is no text, breaks off where it is read as a schema, has a value that
cannot be looked up in the place of a parameter or of its style, or has an entry that would be shown if its key and its
value had texts. -/
inductive Graph.Breaks (g : Graph) : Breakdown → Prop
  | key {v w : Value} {entries : List (Scalar × Value)} {key : Scalar}
    (hv : g.entries? v = some entries) (hmem : (key, w) ∈ entries) (hkey : key.text? = none) :
    Breaks g .keyNotText
  | schema {v : Value} {entries : List (Scalar × Value)} {b : Breakdown} (hv : g.entries? v = some entries)
    (hstops : Resolver.StopsReading g entries (.breakdown b)) : Breaks g b
  | place {v w : Value} {entries : List (Scalar × Value)} {name : String}
    (hv : g.entries? v = some entries) (hname : name ∈ ["in", "style"])
    (hw : valueAt? name entries = some w) (hkey : g.canBeKey w = false) : Breaks g .unhashableKey
  | entry {v w : Value} {entries : List (Scalar × Value)} {key : Scalar}
    (hv : g.entries? v = some entries) (hmem : (key, w) ∈ entries)
    (hnone : key.literal? = none ∨ g.literal? w = none) : Breaks g .numberTooLong

namespace Graph

variable {g : Graph} {v w : Value} {entries : List (Scalar × Value)}

/-- A keyword has a value without a text. -/
theorem breaks_of_literal? {key : String} (hv : g.entries? v = some entries) (hw : valueAt? key entries = some w)
    (hnone : g.literal? w = none) : g.Breaks .numberTooLong :=
  .entry hv (mem_of_valueAt? hw) (.inr hnone)

/-- A value that cannot be shown has a number that is too long. -/
theorem breaks_of_display? {key : String} (hv : g.entries? v = some entries) (hw : valueAt? key entries = some w)
    (hnone : g.display? w = none) : g.Breaks .numberTooLong :=
  breaks_of_literal? hv hw (display?_eq_none_iff.1 hnone)

/-- A schema has a part that cannot be shown only if the graph holds a long number. -/
theorem hasLongNumber_of_hasUnwritablePart (hv : g.entries? v = some entries)
    (h : Resolver.HasUnwritablePart g entries) : g.HasLongNumber := by
  cases h with
  | title hw hshown =>
    exact hasLongNumber_of_entry hv (mem_of_valueAt? (Option.filter_eq_some_iff.1 hw).1) (.inr hshown)
  | reference hw hshown =>
    exact hasLongNumber_of_entry hv (mem_of_valueAt? hw) (.inr (display?_eq_none_iff.1 hshown))
  | @type w hw hshown =>
    have hlong := isLong_of_literalWithin? (display?_eq_none_iff.1 hshown)
    unfold Resolver.declaredType at hw
    split at hw
    · cases hw
    · rename_i value hvalue
      split at hw
      · -- the type is one of a list of types
        rename_i id items hshape
        have hitem := List.mem_of_find?_eq_some (Option.filter_eq_some_iff.1 hw).1
        exact hlong.hasLongNumber hitem (mem_containers_of_shape (v := value) (by rw [hshape]; rfl))
          (List.Subset.refl _)
      · split_ifs at hw
        cases hw
        exact hasLongNumber_of_entry hv (mem_of_valueAt? hvalue) (.inr (display?_eq_none_iff.1 hshown))
  | property hw hproperties hmem hshown => exact hasLongNumber_of_entry hproperties hmem (.inl hshown)

/-- Only a long number makes a run break off for one. -/
theorem Breaks.hasLongNumber (h : g.Breaks .numberTooLong) : g.HasLongNumber := by
  cases h with
  | schema hv hstops =>
    cases hstops with
    | plain hplain => exact hplain.elim
    | unwritable hpart => exact hasLongNumber_of_hasUnwritablePart hv hpart
  | entry hv hmem hnone => exact hasLongNumber_of_entry hv hmem hnone

end Graph

namespace Document

/-- Every pointer that an error shows has something standing at it. -/
def PointsInto (d : Document) (base : String → Value → Prop) (e : CompileError) : Prop :=
  ∀ p ∈ e.pointers, ∃ v, d.Stands base p v

/-- What a run halts with is accounted for: an error points into the document, and a breakdown has its reason. -/
def Accounts (d : Document) (base : String → Value → Prop) : Halt → Prop
  | .error e => d.PointsInto base e
  | .breakdown b => d.graph.Breaks b

variable {d : Document} {base : String → Value → Prop} {pointer : String} {v : Value}

/-- An error that shows one pointer only points into the document where that does. -/
theorem pointsInto_of_eq {e : CompileError} (h : ∀ p ∈ e.pointers, p = pointer)
    (hv : d.Stands base pointer v) : d.PointsInto base e := by
  intro p hp
  exact ⟨v, h p hp ▸ hv⟩

/-- An error at one place points into the document if that place stands in it. -/
theorem pointsInto_of_pointers {e : CompileError} (h : e.pointers = [pointer])
    (hv : d.Stands base pointer v) : d.PointsInto base e :=
  pointsInto_of_eq (fun _ hp => List.mem_singleton.1 (h ▸ hp)) hv

/-- A reference that leads nowhere points to no place. -/
theorem pointsInto_unresolved (target : String) (fault : ReferenceFault) :
    d.PointsInto base (.unresolvedReference target fault) :=
  fun _ hp => absurd hp List.not_mem_nil

/-- A cycle shows its pointer and those of its chain. -/
theorem pointsInto_cyclic {chain : List String} (hv : d.Stands base pointer v)
    (hchain : ∀ p ∈ chain, ∃ w, d.Stands base p w) :
    d.PointsInto base (.cyclicSchema pointer chain) := by
  intro p hp
  rcases List.mem_append.1 hp with hp | hp
  · rw [List.mem_singleton.1 hp]
    exact ⟨v, hv⟩
  · exact hchain p hp

end Document

namespace Resolver

/-! ## Faults of one mapping -/

/-- If an outcome is an error, it points at nothing else than a pointer. -/
def Blames {α : Type} (pointer : String) (outcome : Except Halt α) : Prop :=
  ∀ e, outcome = .error (.error e) → ∀ p ∈ e.pointers, p = pointer

variable {α β : Type} {r : Resolver} {g : Graph} {entries : List (Scalar × Value)}
  {pointer : String}

theorem blames_ok (a : α) : Blames pointer (.ok a) := by
  intro e he
  cases he

/-- What is refused at a place blames that place. -/
theorem blames_refuse {e : CompileError} (h : ∀ p ∈ e.pointers, p = pointer) :
    Blames pointer (refuse e : Except Halt α) := by
  intro e' he
  cases he
  exact h

theorem blames_malformed (fault : SchemaFault) (pointer : String) :
    Blames pointer (refuse (.malformedSchema fault pointer) : Except Halt α) :=
  blames_refuse fun _ hp => List.mem_singleton.1 hp

theorem blames_unsupported (construct : Construct) (pointer : String) :
    Blames pointer (refuse (.unsupportedConstruct construct pointer) : Except Halt α) :=
  blames_refuse fun _ hp => List.mem_singleton.1 hp

/-- What shows a value is blamed on the pointer, and blames nothing if the value has no text. -/
theorem blames_showing {e : String → CompileError} {shown : Option String}
    (h : ∀ text, ∀ p ∈ (e text).pointers, p = pointer) :
    Blames pointer (.error (Halt.showing e shown) : Except Halt α) := by
  intro e' he
  cases shown <;> cases he
  exact h _

theorem blames_malformedShowing (fault : String → SchemaFault) (pointer : String) (shown : Option String) :
    Blames pointer
      (.error (Halt.showing (fun text => .malformedSchema (fault text) pointer) shown) : Except Halt α) :=
  blames_showing fun _ _ hp => List.mem_singleton.1 hp

/-- One check after another blames a place if both do. -/
theorem Blames.bind {x : Except Halt α} {f : α → Except Halt β} (hx : Blames pointer x)
    (hf : ∀ a, Blames pointer (f a)) : Blames pointer (x >>= f) := by
  intro e he
  rcases bind_eq_error.1 he with hstop | ⟨a, -, hstop⟩
  · exact hx e hstop
  · exact hf a e hstop

theorem blames_readTitle : Blames pointer (readTitle g entries pointer) := by
  unfold readTitle
  split
  · exact blames_ok _
  · exact blames_ok _
  · exact blames_malformedShowing .title _ _

theorem blames_readKind : Blames pointer (readKind g entries pointer) := by
  unfold readKind
  split
  · split_ifs
    · exact blames_ok _
    · exact blames_ok _
    · exact blames_malformed _ _
  · split
    · split
      · exact blames_ok _
      · exact blames_malformed _ _
    · split_ifs
      · exact blames_malformedShowing .unsupportedType _ _
      · intro e he
        cases he

theorem blames_readPropertyNames (l : List (Scalar × Value)) :
    Blames pointer (readPropertyNames pointer l) := by
  induction l with
  | nil => exact blames_ok _
  | cons entry rest ih =>
    rcases entry with ⟨key, schema⟩
    cases key with
    | text name =>
      intro e he
      simp only [readPropertyNames] at he
      cases hrest : readPropertyNames pointer rest with
      | ok later => rw [hrest] at he; cases he
      | error h => rw [hrest] at he; cases he; exact ih e hrest
    | _ => exact blames_malformedShowing .propertyName _ _

theorem blames_readProperties : Blames pointer (readProperties g entries pointer) := by
  unfold readProperties
  split_ifs
  · exact blames_unsupported _ _
  · split
    · exact blames_ok _
    · split
      · exact blames_malformed _ _
      · exact blames_readPropertyNames _

/-- What is wrong with a schema is blamed on its own place. -/
theorem blames_readStructure : Blames pointer (readStructure g entries pointer) := by
  unfold readStructure
  split
  · exact blames_unsupported _ _
  · split
    · split
      · exact blames_ok _
      · exact blames_malformed _ _
    · refine blames_readKind.bind fun kind => ?_
      cases kind with
      | primitive kind => exact blames_ok _
      | array =>
        dsimp only
        split
        · exact blames_ok _
        · exact blames_malformed _ _
      | object => exact blames_readProperties.bind fun properties => blames_ok _

/-- A reference that cannot be followed points at nothing in the document. -/
theorem blames_readReference {reference : Value} : Blames pointer (r.readReference reference) := by
  have hunresolved (target : String) (fault : ReferenceFault) : Blames pointer
      (refuse (.unresolvedReference target fault) : Except Halt (Layer Value)) :=
    blames_refuse fun p hp => absurd hp List.not_mem_nil
  unfold readReference
  split
  · split
    · split_ifs
      · exact blames_ok _
      · exact hunresolved _ _
    · split
      · exact blames_ok _
      · rename_i hfind
        obtain ⟨fault, rfl⟩ := find_error hfind
        exact hunresolved _ _
  · exact blames_showing fun _ p hp => absurd hp List.not_mem_nil

/-- What is wrong with a mapping by itself is blamed on the pointer at which it was met. -/
theorem blames_read : Blames pointer (r.read entries pointer) := by
  unfold read
  refine blames_readTitle.bind fun title => ?_
  split
  · exact blames_readReference.bind fun layer => blames_ok _
  · exact blames_readStructure.bind fun layer => blames_ok _

end Resolver

end RouteBinding
