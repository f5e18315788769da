import RouteBinding.Proofs.Model.Composed
import RouteBinding.Proofs.Model.Outline
import RouteBinding.Proofs.Operation.Components
import RouteBinding.Proofs.Operation.Contract
import RouteBinding.Proofs.Schema.Cycles
import RouteBinding.Proofs.Schema.Origin

/-!
# Schemas whose names differ

In a document, names are borne by the components and by the mappings that are no components and have a title
(`Resolver.Bears`). Where no two bear the same name and every object and union bears one (`Resolver.Titled`), no two
nodes claim the same name: a node that was copied under the name of a component is the only one with that name, and one
that is reached on several ways belongs to a single mapping (`Resolver.Founded.separated`).
-/

namespace RouteBinding.Resolver

open Step (Keeps)
open TypeBuilder (Claims Separated declaredName?)

variable {r : Resolver} {s t : State} {n m : SchemaNode} {id : Nat} {name : String}

/-! ## Bearers of names -/

/-- What may bear a name: a component, or a mapping that is none. -/
inductive Bearer
  | component (key : String)
  | mapping (id : Nat)
deriving DecidableEq

/-- A schema that is always defined under a name. -/
def IsComposite {α : Type} : Layer α → Prop
  | .object .. => True
  | .oneOf .. => True
  | _ => False

/-- A mapping that is no component was read, and how it reads. -/
structure ReadWith (r : Resolver) (s : State) (id : Nat) (reading : Reading) : Prop where
  read : (s.nodes.lookup id).isSome
  reads : r.Reads (.container id) id reading
  noComponent : r.owner? id = none

/-- The names that are borne: each component has the name of its key, and each mapping that was read, is no component
and no reference has the name of its title, if that is not empty. -/
inductive Bears (r : Resolver) (s : State) : Bearer → String → Prop
  | component {key : String} {v : Value} (h : (.text key, v) ∈ r.schemas) :
    Bears r s (.component key) (Naming.typeName key)
  | mapping {id : Nat} {reading : Reading} {title : String} (h : ReadWith r s id reading)
    (hreference : ¬ IsReference reading.layer) (htitle : reading.title = some title) (hne : title ≠ "") :
    Bears r s (.mapping id) (Naming.typeName title)

/-- No component has an empty key, every mapping that was read as an object or a union is a component or has a title
that is not empty, and no name is borne twice. -/
structure Titled (r : Resolver) (s : State) : Prop where
  keyed : ∀ v, (Scalar.text "", v) ∉ r.schemas
  titled : ∀ id reading, ReadWith r s id reading → IsComposite reading.layer →
    ∃ title, reading.title = some title ∧ title ≠ ""
  distinct : ∀ bearer bearer' name, Bears r s bearer name → Bears r s bearer' name → bearer = bearer'

/-- A node that was read for a container was read for it later too. -/
theorem ReadWith.mono {reading : Reading} (h : ReadWith r s id reading) (hst : Remembered s.nodes t.nodes) :
    ReadWith r t id reading := by
  obtain ⟨n, hn⟩ := Option.isSome_iff_exists.1 h.read
  exact ⟨by rw [hst id n hn]; rfl, h.reads, h.noComponent⟩

/-- A name that is borne is borne later too. -/
theorem Bears.mono {bearer : Bearer} (h : Bears r s bearer name) (hst : Remembered s.nodes t.nodes) :
    Bears r t bearer name := by
  cases h with
  | component h => exact .component h
  | mapping h hreference htitle hne => exact .mapping (h.mono hst) hreference htitle hne

/-- What differs in the end differs all along. -/
theorem Titled.of_remembered (h : r.Titled t) (hst : Remembered s.nodes t.nodes) : r.Titled s where
  keyed := h.keyed
  titled id reading hread := h.titled id reading (hread.mono hst)
  distinct bearer bearer' name hbears hbears' := h.distinct bearer bearer' name (hbears.mono hst) (hbears'.mono hst)

/-! ## Computing who bears which name -/

instance {α : Type} : DecidablePred (IsComposite (α := α))
  | .object .. => .isTrue trivial
  | .oneOf .. => .isTrue trivial
  | .primitive _ | .array _ | .component _ | .inlined .. => .isFalse fun h => h

instance {α : Type} : DecidablePred (IsReference (α := α))
  | .component _ => .isTrue trivial
  | .inlined .. => .isTrue trivial
  | .primitive _ | .array _ | .object .. | .oneOf .. => .isFalse fun h => h

/-- What was read is what is remembered and can be read. -/
theorem readWith_iff {reading : Reading} : ReadWith r s id reading ↔
    (∃ p ∈ s.nodes, p.1 = id) ∧ r.reading? (.container id) = some reading ∧ r.owner? id = none := by
  have hread : (s.nodes.lookup id).isSome ↔ ∃ p ∈ s.nodes, p.1 = id := by
    rw [List.lookup_isSome_iff]
    exact exists_congr fun p => and_congr_right fun _ => beq_iff_eq.trans eq_comm
  constructor
  · intro h
    exact ⟨hread.1 h.read, h.reads.reading?, h.noComponent⟩
  · rintro ⟨hp, hreading, howner⟩
    obtain ⟨id', hreads⟩ := reads_of_reading? hreading
    cases hreads.eq_container
    exact ⟨hread.2 hp, hreads, howner⟩

/-- The name that a reading has from its title. -/
def titleName? (reading : Reading) : Option String :=
  if IsReference reading.layer then none
  else (reading.title.filter (· ≠ "")).map Naming.typeName

/-- All that bears a name, with the name. -/
def bearers (r : Resolver) (s : State) : List (Bearer × String) :=
  (keyTexts r.schemas).map (fun key => (.component key, Naming.typeName key)) ++
    s.nodes.filterMap fun p =>
      if r.owner? p.1 = none then
        ((r.reading? (.container p.1)).bind titleName?).map fun name => (.mapping p.1, name)
      else none

/-- A schema has the name of its title, unless it is a reference or the title is empty. -/
theorem titleName?_eq_some_iff {reading : Reading} : titleName? reading = some name ↔
    ¬ IsReference reading.layer ∧ ∃ title, reading.title = some title ∧ title ≠ "" ∧ Naming.typeName title = name := by
  unfold titleName?
  split_ifs with hreference
  · simp [hreference]
  · simp [hreference, and_assoc]

/-- A name is borne by what is listed among its bearers. -/
theorem bears_iff {bearer : Bearer} : Bears r s bearer name ↔ (bearer, name) ∈ r.bearers s := by
  simp only [bearers, List.mem_append, List.mem_map, List.mem_filterMap, mem_keyTexts]
  constructor
  · intro h
    cases h with
    | @component key v h => exact .inl ⟨key, ⟨_, h, rfl⟩, rfl⟩
    | @mapping id reading title h hreference htitle hne =>
      obtain ⟨⟨p, hp, rfl⟩, hreading, howner⟩ := readWith_iff.1 h
      refine .inr ⟨p, hp, ?_⟩
      have hname := titleName?_eq_some_iff.2 ⟨hreference, title, htitle, hne, rfl⟩
      rw [if_pos howner, hreading, Option.bind_some, hname]
      rfl
  · rintro (⟨key, ⟨⟨_, v⟩, hmem, rfl⟩, heq⟩ | ⟨p, hp, heq⟩)
    · cases heq
      exact .component hmem
    · split_ifs at heq with howner
      obtain ⟨name', hname, heq⟩ := Option.map_eq_some_iff.1 heq
      cases heq
      obtain ⟨reading, hreading, hname⟩ := Option.bind_eq_some_iff.1 hname
      obtain ⟨hreference, title, htitle, hne, rfl⟩ := titleName?_eq_some_iff.1 hname
      exact .mapping (readWith_iff.2 ⟨⟨p, hp, rfl⟩, hreading, howner⟩) hreference htitle hne

/-- Whether the names of all that was read differ can be computed. -/
theorem titled_iff : r.Titled s ↔
    "" ∉ keyTexts r.schemas ∧
    (∀ p ∈ s.nodes, r.owner? p.1 = none → ∀ reading ∈ r.reading? (.container p.1), IsComposite reading.layer →
      reading.title.getD "" ≠ "") ∧
    ∀ b ∈ r.bearers s, ∀ b' ∈ r.bearers s, b.2 = b'.2 → b.1 = b'.1 := by
  constructor
  · intro h
    refine ⟨fun hkey => ?_, fun p hp howner reading hreading hcomposite => ?_, ?_⟩
    · obtain ⟨⟨_, v⟩, hv, rfl⟩ := List.mem_map.1 (mem_keyTexts.1 hkey)
      exact h.keyed v hv
    · obtain ⟨title, htitle, hne⟩ := h.titled p.1 reading (readWith_iff.2 ⟨⟨p, hp, rfl⟩, hreading, howner⟩) hcomposite
      rwa [htitle]
    · rintro ⟨bearer, name⟩ hb ⟨bearer', _⟩ hb' rfl
      exact h.distinct bearer bearer' name (bears_iff.2 hb) (bears_iff.2 hb')
  · rintro ⟨hkeyed, htitled, hdistinct⟩
    refine ⟨fun v hv => hkeyed (mem_keyTexts.2 (List.mem_map_of_mem hv)), fun id reading hread hcomposite => ?_, ?_⟩
    · obtain ⟨⟨p, hp, rfl⟩, hreading, howner⟩ := readWith_iff.1 hread
      have hne := htitled p hp howner reading hreading hcomposite
      cases htitle : reading.title with
      | none => rw [htitle] at hne; exact absurd rfl hne
      | some title => rw [htitle] at hne; exact ⟨title, rfl, hne⟩
    · intro bearer bearer' name hbears hbears'
      exact hdistinct _ (bears_iff.1 hbears) _ (bears_iff.1 hbears') rfl

instance : Decidable (r.Titled s) := decidable_of_iff _ titled_iff.symm

/-! ## Nodes and their names -/

/-- A resolver that holds what it should: its nodes are rooted, its components have different names, and no error that
it has collected is about a name. -/
structure Founded (r : Resolver) (s : State) : Prop where
  prepared : Prepared r s
  rooted : ∀ p ∈ s.nodes, Rooted r s.nodes p.2
  nodup : (s.components.map (·.1)).Nodup
  innocent : ∀ e ∈ s.errors, ¬ e.IsCollision

/-- A known node belongs to a mapping, or it is that of a component. -/
theorem Founded.belongs_or_component (hs : Founded r s) (hn : Known s n) :
    (∃ id, BelongsTo r s.nodes n id) ∨ ∃ key, (key, n) ∈ s.components := by
  have stored {id : Nat} {n : SchemaNode} (h : s.nodes.lookup id = some n) : ∃ id, BelongsTo r s.nodes n id :=
    (hs.rooted _ (mem_of_lookup h)).root
  induction hn with
  | stored h => exact .inl (hs.rooted _ h).root
  | component h => exact .inr ⟨_, h⟩
  | @inner n c hn hc ih =>
    left
    rcases ih with ⟨id, hid⟩ | ⟨key, hkey⟩
    · obtain ⟨id', hid'⟩ := (hs.rooted _ (mem_of_lookup hid.remembered)).inner c hc
      exact stored hid'
    · -- the node of a component says what a node says that is remembered
      obtain ⟨v, m, -, hm, hlayer, -⟩ := (hs.prepared.carried _ hkey).origin
      cases v with
      | scalar value => cases hm
      | container id =>
        obtain ⟨id', hid'⟩ := (hs.rooted _ (mem_of_lookup hm)).inner c (hlayer ▸ hc)
        exact stored hid'

/-- A node that carries the name of a component is the only known one. -/
theorem Founded.eq_of_component (hs : Founded r s) (hschemas : (keyTexts r.schemas).Nodup) {key : String}
    (hn : Known s n) (hm : Known s m) (hkey : n.info.component = some key) (hkey' : m.info.component = some key) :
    n = m := by
  -- a node of a component and one that belongs to the mapping of the component are the same
  have same {n m : SchemaNode} {id : Nat} (hn : BelongsTo r s.nodes n id) (hm : (key, m) ∈ s.components)
      (hkey : n.info.component = some key) : n = m := by
    have howner := mem_of_owner? (hn.component.symm.trans hkey)
    obtain ⟨v, m', hv, hm', -, hor⟩ := (hs.prepared.carried _ hm).origin
    obtain rfl : v = .container id :=
      Option.some.inj ((valueAt?_of_mem hschemas hv).symm.trans (valueAt?_of_mem hschemas howner))
    obtain rfl : n = m' := Option.some.inj (hn.remembered.symm.trans hm')
    rcases hor with heq | hne
    · exact heq.symm
    · exact absurd hkey hne
  have named {n : SchemaNode} {key' : String} (hn : (key', n) ∈ s.components)
      (hkey : n.info.component = some key) : (key, n) ∈ s.components := by
    have heq := (hs.prepared.carried _ hn).component.symm.trans hkey
    cases heq
    exact hn
  rcases hs.belongs_or_component hn with ⟨id, hid⟩ | ⟨key₁, hmem⟩ <;>
    rcases hs.belongs_or_component hm with ⟨id', hid'⟩ | ⟨key₂, hmem'⟩
  · have howner := mem_of_owner? (hid.component.symm.trans hkey)
    have howner' := mem_of_owner? (hid'.component.symm.trans hkey')
    have heq := Option.some.inj ((valueAt?_of_mem hschemas howner).symm.trans (valueAt?_of_mem hschemas howner'))
    cases heq
    exact Option.some.inj (hid.remembered.symm.trans hid'.remembered)
  · exact same hid (named hmem' hkey') hkey
  · exact (same hid' (named hmem hkey) hkey').symm
  · have heq := List.inj_on_of_nodup_map hs.nodup (named hmem hkey) (named hmem' hkey') rfl
    cases heq
    rfl

/-- The bearer that a node has its name from: the component that it is or, if it is none, the mapping it belongs to. -/
def NamedBy (r : Resolver) (s : State) (n : SchemaNode) : Bearer → Prop
  | .component key => n.info.component = some key
  | .mapping id => BelongsTo r s.nodes n id ∧ r.owner? id = none

/-- A component declares its name. -/
theorem declaredName?_of_component {info : NodeInfo} {key : String} (h : info.component = some key) (hne : key ≠ "") :
    declaredName? info = some (Naming.typeName key) := by
  simp [declaredName?, h, Option.filter, hne]

/-- Apart from components, a node declares the name of its title. -/
theorem declaredName?_of_title {info : NodeInfo} (h : info.component = none) :
    declaredName? info = some name ↔ ∃ title, info.title = some title ∧ title ≠ "" ∧ Naming.typeName title = name := by
  cases htitle : info.title with
  | none => simp [declaredName?, h, htitle]
  | some title => simp [declaredName?, h, htitle, Option.filter]

/-- What a node that is no reference says by itself, is said by no reference. -/
theorem not_isReference_of_agree {R : Value → SchemaNode → Prop} {layer : Layer Value}
    (h : Layer.Agree R layer n.layer) (htarget : n.target? = none) : ¬ IsReference layer := by
  cases n with
  | reference info target => cases htarget
  | _ =>
    cases h
    exact id

/-- A layer that agrees with a composite node is composite. -/
theorem isComposite_of_agree {R : Value → SchemaNode → Prop} {layer : Layer Value}
    (h : Layer.Agree R layer n.layer) (hn : n.IsComposite) : IsComposite layer := by
  cases n with
  | object info properties required =>
    cases h
    trivial
  | oneOf info branches =>
    cases h
    trivial
  | _ => cases hn

/-- A node that belongs to a container, and no component, was read with its title. -/
theorem BelongsTo.readWith (h : BelongsTo r s.nodes n id) (howner : r.owner? id = none) :
    ∃ reading, ReadWith r s id reading ∧ n.info.title = reading.title ∧
      Layer.Agree (fun _ _ => True) reading.layer n.layer := by
  obtain ⟨reading, hreads, htitle, hagree⟩ := h.titled howner
  exact ⟨reading, ⟨by rw [h.remembered]; rfl, hreads, howner⟩, htitle, hagree⟩

/-- The component that a known node is, is declared. -/
theorem Founded.declares (hs : Founded r s) (hn : Known s n) {key : String} (hkey : n.info.component = some key) :
    ∃ v, (Scalar.text key, v) ∈ r.schemas := by
  rcases hs.belongs_or_component hn with ⟨id, hid⟩ | ⟨key', hmem⟩
  · exact ⟨_, mem_of_owner? (hid.component.symm.trans hkey)⟩
  · have hcarries := hs.prepared.carried _ hmem
    obtain ⟨v, -, hv, -⟩ := hcarries.origin
    have heq := hcarries.component.symm.trans hkey
    cases heq
    exact ⟨v, hv⟩

/-- A known node that is no component belongs to a mapping that is none. -/
theorem Founded.belongs (hs : Founded r s) (hn : Known s n) (hnone : n.info.component = none) :
    ∃ id, BelongsTo r s.nodes n id ∧ r.owner? id = none := by
  rcases hs.belongs_or_component hn with ⟨id, hid⟩ | ⟨key, hmem⟩
  · exact ⟨id, hid, hid.component.symm.trans hnone⟩
  · have heq := (hs.prepared.carried _ hmem).component.symm.trans hnone
    cases heq

/-- The name that a known node claims is borne by what the node has it from. -/
theorem Founded.bears (hs : Founded r s) (ht : r.Titled s) (hn : Known s n) (h : Claims n name) :
    ∃ bearer, Bears r s bearer name ∧ NamedBy r s n bearer := by
  cases hcomponent : n.info.component with
  | some key =>
    obtain ⟨v, hv⟩ := hs.declares hn hcomponent
    have hne : key ≠ "" := by
      rintro rfl
      exact ht.keyed v hv
    have hname : name = Naming.typeName key := by
      cases n with
      | reference info target =>
        obtain ⟨key', hkey', rfl⟩ := h
        rw [Option.some.inj (hkey'.symm.trans hcomponent)]
      | _ => exact Option.some.inj (h.symm.trans (declaredName?_of_component hcomponent hne))
    rw [hname]
    exact ⟨.component key, .component hv, hcomponent⟩
  | none =>
    obtain ⟨id, hid, howner⟩ := hs.belongs hn hcomponent
    obtain ⟨reading, hread, htitle, hagree⟩ := hid.readWith howner
    -- a reference has a name only as a component
    have hdeclared : n.target? = none ∧ declaredName? n.info = some name := by
      cases n with
      | reference info target =>
        obtain ⟨key, hkey, -⟩ := h
        cases hkey.symm.trans hcomponent
      | _ => exact ⟨rfl, h⟩
    obtain ⟨title, hn', hne, rfl⟩ := (declaredName?_of_title hcomponent).1 hdeclared.2
    refine ⟨.mapping id, .mapping hread ?_ (htitle.symm.trans hn') hne, hid, howner⟩
    exact not_isReference_of_agree hagree hdeclared.1

/-- Where no name is borne twice, no two known nodes claim the same. -/
theorem Founded.separated (hs : Founded r s) (hschemas : (keyTexts r.schemas).Nodup) (ht : r.Titled s) :
    Separated (Known s) where
  declared n hn hcomposite := by
    cases hcomponent : n.info.component with
    | some key =>
      obtain ⟨v, hv⟩ := hs.declares hn hcomponent
      refine ⟨_, declaredName?_of_component hcomponent ?_⟩
      rintro rfl
      exact ht.keyed v hv
    | none =>
      obtain ⟨id, hid, howner⟩ := hs.belongs hn hcomponent
      obtain ⟨reading, hread, htitle, hagree⟩ := hid.readWith howner
      obtain ⟨title, htitle', hne⟩ := ht.titled id reading hread (isComposite_of_agree hagree hcomposite)
      exact ⟨_, (declaredName?_of_title hcomponent).2 ⟨title, htitle.trans htitle', hne, rfl⟩⟩
  unique n m name hn hm hclaims hclaims' := by
    obtain ⟨bearer, hbears, hnamed⟩ := hs.bears ht hn hclaims
    obtain ⟨bearer', hbears', hnamed'⟩ := hs.bears ht hm hclaims'
    obtain rfl := ht.distinct bearer bearer' name hbears hbears'
    cases bearer with
    | component key => exact hs.eq_of_component hschemas hn hm hnamed hnamed'
    | mapping id => exact Option.some.inj (hnamed.1.remembered.symm.trans hnamed'.1.remembered)

/-! ## What a resolver keeps -/

/-- A schema that does not resolve has an error of its own, or comes back to itself. -/
theorem not_isCollision_of_resolve (hs : r.Sound s) {raw : Value} {pointer : String} {e : CompileError}
    (h : (r.resolve raw pointer s).1 = .error (.error e)) : ¬ e.IsCollision := by
  generalize hhalt : Halt.error e = halt at h
  cases fault_of_search ((resolve_eq_error_iff hs raw pointer halt).1 h) with
  | illFormed w hreach hill hplain =>
    rw [← hhalt] at hplain
    cases e with
    | nameCollision name location origin => exact hplain.elim
    | _ => exact id
  | broken w id entries hreach hill hshape hstops => cases hhalt
  | cycle chain hloop =>
    cases hhalt
    exact id

/-- Resolving keeps the names founded. -/
theorem founded_resolve (hs : Founded r s) (raw : Value) (pointer : String) :
    Founded r (r.resolve raw pointer s).2 := by
  have hreliable := hs.prepared.reliable
  obtain ⟨-, hlater, -⟩ := runs_resolve hreliable raw pointer
  refine ⟨(prepared_resolve hs.prepared raw pointer).1, rooted_resolve hreliable.records hs.rooted raw pointer, ?_, ?_⟩
  · rw [hlater.components]
    exact hs.nodup
  · rw [hlater.errors]
    exact hs.innocent

/-- The states of a resolver that resolves its components: its nodes are rooted, and no error is about a name. -/
structure Founding (r : Resolver) (s : State) : Prop where
  sound : r.Sound s
  records : Records r s.nodes
  rooted : ∀ p ∈ s.nodes, Rooted r s.nodes p.2
  innocent : ∀ e ∈ s.errors, ¬ e.IsCollision

/-- To record another error than a collision keeps the names founded. -/
theorem founding_record {e : CompileError} (he : ¬ e.IsCollision) {expected : Halt → State → Prop} :
    Keeps (Founding r) (record e) (fun _ => True) expected := by
  refine Step.keeps_modify fun s hs => ⟨hs.sound, hs.records, hs.rooted, fun e' he' => ?_⟩
  rcases List.mem_append.1 he' with he' | he'
  · exact hs.innocent e' he'
  · rw [List.mem_singleton.1 he']
    exact he

/-- Resolving keeps the names founded, and reports no collision. -/
theorem founding_resolve (raw : Value) (pointer : String) :
    Keeps (Founding r) (r.resolve raw pointer) (fun _ => True) fun h _ => ∀ e, h = .error e → ¬ e.IsCollision := by
  intro s hs
  have hext := extends_resolve hs.sound raw pointer
  obtain ⟨⟨hrecords, -⟩, -⟩ := recording_resolve hs.records raw pointer
  refine ⟨⟨hext.sound, hrecords, rooted_resolve hs.records hs.rooted raw pointer, ?_⟩, fun _ _ => trivial, ?_⟩
  · rw [hext.errors]
    exact hs.innocent
  · rintro h herror e rfl
    exact not_isCollision_of_resolve hs.sound herror

theorem founding_resolveComponent (key : Scalar) (raw : Value) :
    Keeps (Founding r) (r.resolveComponent key raw) (fun _ => True) fun _ _ => True := by
  unfold resolveComponent
  cases key with
  | text name =>
    refine Keeps.bind ((founding_resolve raw _).attempt fun _ _ _ => trivial) fun outcome houtcome => ?_
    have hstore (n : SchemaNode) : Keeps (Founding r)
        (modify fun s => { s with components := s.components ++ [(name, n)] } : Resolve PUnit) (fun _ => True)
        fun _ _ => True :=
      Step.keeps_modify fun s hs => ⟨hs.sound, hs.records, hs.rooted, hs.innocent⟩
    cases outcome with
    | error e =>
      obtain ⟨_, he⟩ := houtcome.2 e rfl
      exact founding_record (he e rfl)
    | ok n =>
      dsimp only
      split_ifs
      · rw [pure_bind]
        exact hstore n
      · have hcopy : Keeps (Founding r) (asComponent name n) (fun _ => True) fun _ _ => True :=
          fun s hs => ⟨⟨hs.sound, hs.records, hs.rooted, hs.innocent⟩, fun _ _ => trivial, fun _ _ => trivial⟩
        exact hcopy.bind fun m _ => hstore m
  | _ =>
    refine Keeps.bind (Step.keeps_spelled (fun _ _ => trivial) fun _ _ => trivial) fun name (_ : True) => ?_
    exact founding_record id

theorem text?_of_component? {e : Scalar × Value} {c : String × SchemaNode} (h : component? (r.entry e) = some c) :
    e.1.text? = some c.1 := by
  obtain ⟨key, raw⟩ := e
  cases key with
  | text found =>
    rw [entry_text] at h
    cases hsearch : r.search raw (Pointer.component found) with
    | error halt => rw [hsearch] at h; cases h
    | ok form =>
      rw [hsearch] at h
      cases h
      rfl
  | _ => cases h

/-- To resolve the components keeps the names founded. -/
theorem founding_resolveComponents : Keeps (Founding r) r.resolveComponents (fun _ => True) fun _ _ => True := by
  have hreturn : Keeps (Founding r) (do return (← get).components) (fun _ => True) fun (_ : Halt) _ => True :=
    Step.keeps_get_bind fun _ _ => Step.keeps_pure trivial
  unfold resolveComponents
  refine Step.keeps_get_bind fun s _ => ?_
  split_ifs
  · exact hreturn
  · refine (Step.keeps_modify fun t ht => ⟨ht.sound, ht.records, ht.rooted, ht.innocent⟩).bind fun _ _ => ?_
    refine (Step.keeps_forM fun e _ => founding_resolveComponent e.1 e.2).bind fun _ _ => ?_
    refine (Step.keeps_modify fun t ht => ⟨ht.sound, ht.records, ht.rooted, fun e he => ?_⟩).bind fun _ _ => hreturn
    rcases List.mem_append.1 he with he | he
    · exact ht.innocent e he
    · obtain ⟨c, -, halias⟩ := List.mem_filterMap.1 he
      obtain ⟨chain, -, rfl⟩ := aliasError?_eq_some_iff.1 halias
      exact id

/-- The names of the components are among the keys of the component schemas, in their order. -/
theorem names_resolvedForms_sublist (r : Resolver) : (r.resolvedForms.map (·.1)).Sublist (keyTexts r.schemas) := by
  unfold resolvedForms
  induction r.schemas with
  | nil => exact .slnil
  | cons e rest ih =>
    rw [List.filterMap_cons]
    cases hc : component? (r.entry e) with
    | none => exact ih.trans ((List.sublist_cons_self e rest).filterMap _)
    | some c =>
      dsimp only
      rw [List.map_cons, keyTexts, List.filterMap_cons, text?_of_component? hc]
      exact ih.cons_cons c.1

/-- The resolution of the components, if it comes to its end, leaves a founded resolver behind. -/
theorem founded_resolveComponents (hschemas : (keyTexts r.schemas).Nodup)
    {components : List (String × SchemaNode)} (h : (r.resolveComponents .initial).1 = .ok components) :
    Founded r (r.resolveComponents .initial).2 := by
  obtain ⟨hprepared, -⟩ := prepared_resolveComponents (r := r) prepared_initial
  obtain ⟨-, -, hall⟩ := resolveComponents_spec (r := r) sound_initial rfl
  have hresolves := hall components rfl h
  have hbegin : Founding r .initial :=
    ⟨sound_initial, fun _ _ h => (by cases h), fun _ h => (by cases h), fun _ h => by cases h⟩
  obtain ⟨hfounding, -⟩ := founding_resolveComponents (r := r) .initial hbegin
  refine ⟨hprepared, hfounding.rooted, ?_, hfounding.innocent⟩
  have hnames : components.map (·.1) = (componentForms components).map (·.1) := by
    rw [componentForms, List.map_map]
    rfl
  rw [hresolves.returned, hnames, hresolves.forms]
  exact hschemas.sublist ((List.filter_sublist.map _).trans (names_resolvedForms_sublist r))

end RouteBinding.Resolver
