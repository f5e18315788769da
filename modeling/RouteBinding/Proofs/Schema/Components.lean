import Mathlib.Data.List.Nodup
import RouteBinding.Proofs.Schema.Memo

/-!
# The component schemas

What becomes of each component schema is found from the document alone. `Resolver.entry` is the node or the
error of one entry, as a resolver that has done nothing else finds it, and `Collects` says that a state holds
what became of a list of entries, in their order. From that follow the errors and the components of a
resolver after any calls on it.
-/

namespace RouteBinding.Resolver

variable {r : Resolver} {s t u : State}

/-! ## One entry -/

/-- A node under the name of a component. -/
def named (name : String) (node : SchemaNode) : SchemaNode :=
  node.withInfo { node.info with component := some name }

/-- The form or the error of one entry of the component schemas, as a resolver finds it that has resolved
nothing yet. -/
def entry (r : Resolver) : Scalar × Value → Except Halt (String × SchemaNode)
  | (.text name, raw) =>
    (r.fresh raw (Pointer.component name)).map fun node => (name, (named name node).form)
  | (other, _) =>
    .error (Halt.showing (fun name => .malformedSchema (.componentName name) "#/components/schemas") other.literal?)

/-- The component of an outcome, if it is one. -/
def component? : Except Halt (String × SchemaNode) → Option (String × SchemaNode)
  | .ok c => some c
  | .error _ => none

/-- The error of an outcome, if it is one. -/
def error? {α : Type} : Except Halt α → Option CompileError
  | .error (.error e) => some e
  | _ => none

theorem error?_eq_some_iff {α : Type} {outcome : Except Halt α} {e : CompileError} :
    error? outcome = some e ↔ outcome = .error (.error e) := by
  rcases outcome with (e' | b) | a <;> simp [error?]

/-- What is left of an outcome when its value or error has been collected: a breakdown ends the run. -/
def collected {α : Type} : Except Halt α → Except Halt Unit
  | .error (.breakdown b) => .error (.breakdown b)
  | _ => .ok ()

/-- The forms of named nodes. -/
def componentForms (components : List (String × SchemaNode)) : List (String × SchemaNode) :=
  components.map fun c => (c.1, c.2.form)

/-- Between two states, entries of the component schemas were resolved: in their order, the components are
added to the components and the errors to the errors. -/
structure Collects (r : Resolver) (s t : State) (entries : List (Scalar × Value)) : Prop where
  sound : r.Sound t
  components : componentForms t.components =
    componentForms s.components ++ entries.filterMap fun e => component? (r.entry e)
  errors : t.errors = s.errors ++ entries.filterMap fun e => error? (r.entry e)
  componentsDone : t.componentsDone = s.componentsDone

/-- A node that is named has the form with that name. -/
theorem form_named (name : String) (node : SchemaNode) :
    (named name node).form = named name node.form := by
  rw [named, SchemaNode.form_withInfo, named, SchemaNode.info_form]
  rfl

theorem withInfo_info (node : SchemaNode) : node.withInfo node.info = node := by
  cases node <;> rfl

/-- A node that carries a name already stays as it is when it is named so. -/
theorem named_eq_self {name : String} {node : SchemaNode} (h : node.info.component = some name) :
    named name node = node := by
  rw [named, ← h]
  exact withInfo_info node

/-- A component is what is found for its schema, under its name. -/
theorem entry_text (r : Resolver) (name : String) (raw : Value) :
    r.entry (.text name, raw) =
      (r.search raw (Pointer.component name)).map fun form => (name, named name form) := by
  rw [← form_fresh, entry]
  cases r.fresh raw (Pointer.component name) with
  | error h => rfl
  | ok node => simp [Except.map, form_named]

/-- A component that was found is collected with those before it. -/
theorem Extends.collects_ok {name : String} {key : Scalar} {raw : Value} {node : SchemaNode}
    (ht : r.Extends s t) (h : r.entry (key, raw) = .ok (name, node.form)) :
    r.Collects s { t with components := t.components ++ [(name, node)] } [(key, raw)] where
  sound := ht.sound
  components := by simp [componentForms, ht.components, h, component?]
  errors := by simp [ht.errors, h, error?]
  componentsDone := ht.componentsDone

/-- A component that was not found leaves its error. -/
theorem Extends.collects_error {key : Scalar} {raw : Value} {e : CompileError}
    (ht : r.Extends s t) (h : r.entry (key, raw) = .error (.error e)) :
    r.Collects s { t with errors := t.errors ++ [e] } [(key, raw)] where
  sound := ht.sound
  components := by simp [ht.components, h, component?]
  errors := by simp [ht.errors, h, error?]
  componentsDone := ht.componentsDone

/-- One entry is resolved and its node or error collected. -/
theorem resolveComponent_spec (hs : r.Sound s) (key : Scalar) (raw : Value) :
    let run := r.resolveComponent key raw s
    run.1 = collected (r.entry (key, raw)) ∧ r.Sound run.2 ∧
      (run.1 = .ok () → r.Collects s run.2 [(key, raw)]) := by
  intro run
  cases key with
  | text name =>
    have hform := form_resolve hs raw (Pointer.component name)
    have hext := extends_resolve hs raw (Pointer.component name)
    have hentry := r.entry_text name raw
    rw [← hform] at hentry
    have hrun : run = r.resolveComponent (.text name) raw s := rfl
    unfold resolveComponent at hrun
    simp only [Step.bind_apply, Step.attempt] at hrun
    rcases hres : r.resolve raw (Pointer.component name) s with ⟨outcome, t⟩
    rw [hres] at hrun hentry hext
    rcases outcome with (e | b) | node
    · rw [hrun, hentry]
      exact ⟨rfl, hext.sound, fun _ => hext.collects_error hentry⟩
    · rw [hrun, hentry]
      exact ⟨rfl, hext.sound, fun h => by cases h⟩
    · -- a node that carries another name is copied under a new serial number, which no form shows
      have hnamed : r.entry (.text name, raw) = .ok (name, (named name node).form) := by
        rw [hentry, form_named]
        rfl
      by_cases hcomponent : node.info.component = some name
      · simp only [hcomponent, if_true] at hrun
        rw [named_eq_self hcomponent] at hnamed
        rw [hrun, hnamed]
        exact ⟨rfl, hext.sound, fun _ => hext.collects_ok hnamed⟩
      · simp only [hcomponent, if_false] at hrun
        have hcopy : r.entry (.text name, raw) = .ok (name, (node.withInfo
            { node.info with serial := t.nextSerial, component := some name }).form) := by
          rw [hnamed, named, SchemaNode.form_withInfo, SchemaNode.form_withInfo]
          rfl
        rw [hrun, hcopy]
        exact ⟨rfl, hext.sound, fun _ => hext.next.collects_ok hcopy⟩
  | int n =>
    -- a number with too many digits breaks the run off before its error is recorded
    have hentry : r.entry (.int n, raw) = .error (Halt.showing _ (Text.writeInt? n)) := rfl
    have hrun : run = r.resolveComponent (.int n) raw s := rfl
    unfold resolveComponent at hrun
    simp only [Step.bind_apply, Scalar.literal?] at hrun
    cases hshown : Text.writeInt? n with
    | none =>
      rw [hshown] at hrun hentry
      rw [hrun, hentry]
      exact ⟨rfl, hs, fun h => by cases h⟩
    | some name =>
      rw [hshown] at hrun hentry
      rw [hrun, hentry]
      exact ⟨rfl, hs, fun _ => hs.extends.collects_error hentry⟩
  | _ => exact ⟨rfl, hs, fun _ => hs.extends.collects_error rfl⟩

/-! ## All entries -/

theorem Collects.refl (hs : r.Sound s) : r.Collects s s [] where
  sound := hs
  components := by simp
  errors := by simp
  componentsDone := rfl

/-- What is collected one after another is collected together. -/
theorem Collects.trans {l k : List (Scalar × Value)} (hst : r.Collects s t l)
    (htu : r.Collects t u k) : r.Collects s u (l ++ k) where
  sound := htu.sound
  components := by
    rw [htu.components, hst.components, List.filterMap_append, List.append_assoc]
  errors := by
    rw [htu.errors, hst.errors, List.filterMap_append, List.append_assoc]
  componentsDone := htu.componentsDone.trans hst.componentsDone

/-- The entries are resolved in order, up to the first that breaks the run off. -/
theorem forM_resolveComponent (hs : r.Sound s) (entries : List (Scalar × Value)) :
    let run := (entries.forM fun e => r.resolveComponent e.1 e.2) s
    run.1 = entries.forM (fun e => collected (r.entry e)) ∧ r.Sound run.2 ∧
      (run.1 = .ok () → r.Collects s run.2 entries) := by
  induction entries generalizing s with
  | nil => exact ⟨rfl, hs, fun _ => .refl hs⟩
  | cons e rest ih =>
    intro run
    obtain ⟨hout, hsound, hcollects⟩ := resolveComponent_spec hs e.1 e.2
    have hrun : run = ((r.resolveComponent e.1 e.2 >>= fun _ =>
        rest.forM fun e => r.resolveComponent e.1 e.2) : Resolve Unit) s := rfl
    have hpure : ((e :: rest).forM fun e => collected (r.entry e)) =
        (collected (r.entry e) >>= fun _ => rest.forM fun e => collected (r.entry e)) := rfl
    rw [Step.bind_apply] at hrun
    rw [hpure, ← hout]
    rcases hfirst : r.resolveComponent e.1 e.2 s with ⟨outcome, t⟩
    rw [hfirst] at hrun hsound hcollects
    cases outcome with
    | error h =>
      rw [hrun]
      exact ⟨rfl, hsound, fun h => by cases h⟩
    | ok _ =>
      obtain ⟨hout', hsound', hcollects'⟩ := ih hsound
      rw [hrun]
      refine ⟨hout', hsound', fun h => ?_⟩
      exact (hcollects rfl).trans (hcollects' h)

/-! ## Chains of references -/

section Loops

variable {components : List (String × SchemaNode)} {name target : String}

/-- The forms of components are found by the same names. -/
theorem lookup_componentForms (components : List (String × SchemaNode)) (name : String) :
    (componentForms components).lookup name = (components.lookup name).map SchemaNode.form := by
  induction components with
  | nil => rfl
  | cons c rest ih =>
    rw [componentForms, List.map_cons, List.lookup_cons, List.lookup_cons]
    cases hname : name == c.1 with
    | true => rfl
    | false => exact ih

/-- Chains of references are the same among nodes and among their forms. -/
theorem aliasLoop?_componentForms (components : List (String × SchemaNode)) (fuel : Nat)
    (chain : List String) (node : Option SchemaNode) :
    aliasLoop? (componentForms components) fuel chain (node.map SchemaNode.form) =
      aliasLoop? components fuel chain node := by
  induction fuel generalizing chain node with
  | zero => rfl
  | succ fuel ih =>
    match node with
    | some (.reference info target) =>
      show (if chain.contains target then _ else _) = if chain.contains target then _ else _
      rw [lookup_componentForms, ih]
    | none => rfl
    | some (.primitive ..) => rfl
    | some (.array ..) => rfl
    | some (.object ..) => rfl
    | some (.oneOf ..) => rfl

/-- Whether aliases end depends on the forms only. -/
theorem aliasError?_componentForms (components : List (String × SchemaNode)) (name : String) :
    aliasError? (componentForms components) name = aliasError? components name := by
  rw [aliasError?, lookup_componentForms, aliasLoop?_componentForms]
  simp [aliasError?, componentForms]

/-- A component is nothing but a reference to another one. -/
def Refers (components : List (String × SchemaNode)) (name target : String) : Prop :=
  ∃ info, components.lookup name = some (.reference info target)

/-- A chain of references that begins at a name and ends where it first comes back to a name on it. -/
def Loops (components : List (String × SchemaNode)) (name : String) (chain : List String) : Prop :=
  ∃ before last, chain = before ++ [last] ∧ before.head? = some name ∧ before.Nodup ∧
    last ∈ before ∧ chain.IsChain (Refers components)

/-- The chain that is found is a loop. So far, `chain` holds the names passed, last first. -/
theorem loops_of_aliasLoop? {fuel : Nat} {chain found : List String}
    (hfound : aliasLoop? components fuel (target :: chain) (components.lookup target) = some found)
    (hhead : (target :: chain).reverse.head? = some name) (hnodup : (target :: chain).Nodup)
    (hchain : (target :: chain).reverse.IsChain (Refers components)) :
    Loops components name found.reverse := by
  induction fuel generalizing target chain with
  | zero => cases hfound
  | succ fuel ih =>
    rw [aliasLoop?.eq_def] at hfound
    split at hfound
    · rename_i fuel' info next heq hlookup
      cases heq
      have hnext : ((next :: target :: chain).reverse).IsChain (Refers components) := by
        rw [List.reverse_cons, List.isChain_append]
        refine ⟨hchain, List.isChain_singleton next, ?_⟩
        simp only [List.getLast?_reverse, List.head?_cons, Option.mem_some_iff]
        rintro a rfl b rfl
        exact ⟨info, hlookup⟩
      split_ifs at hfound with hmem
      · cases hfound
        refine ⟨(target :: chain).reverse, next, List.reverse_cons, hhead,
          List.nodup_reverse.2 hnodup, ?_, hnext⟩
        exact List.mem_reverse.2 (List.contains_iff_mem.1 hmem)
      · refine ih hfound ?_ (List.nodup_cons.2 ⟨by simpa using hmem, hnodup⟩) hnext
        rw [List.reverse_cons, List.head?_append, hhead]
        rfl
    · cases hfound

/-- A loop is found. `chain` holds the names passed, last first, and `rest` the names on the way to `last`,
which is on the way already. -/
theorem aliasLoop?_of_isChain {fuel : Nat} {chain rest : List String} {last : String}
    (hchain : ((target :: chain).reverse ++ rest ++ [last]).IsChain (Refers components))
    (hnodup : ((target :: chain).reverse ++ rest).Nodup)
    (hlast : last ∈ (target :: chain).reverse ++ rest) (hfuel : rest.length < fuel) :
    aliasLoop? components fuel (target :: chain) (components.lookup target) =
      some ((target :: chain).reverse ++ rest ++ [last]).reverse := by
  induction rest generalizing fuel target chain with
  | nil =>
    obtain ⟨fuel, rfl⟩ : ∃ n, fuel = n + 1 := ⟨fuel - 1, by omega⟩
    rw [List.append_nil] at hchain hlast ⊢
    obtain ⟨info, hlookup⟩ : Refers components target last := by
      refine (List.isChain_append.1 hchain).2.2 target ?_ last rfl
      rw [List.getLast?_reverse]
      rfl
    have hmem : (target :: chain).contains last :=
      List.contains_iff_mem.2 (List.mem_reverse.1 hlast)
    rw [hlookup, aliasLoop?, if_pos hmem, List.reverse_append, List.reverse_reverse]
    rfl
  | cons next rest ih =>
    obtain ⟨fuel, rfl⟩ : ∃ n, fuel = n + 1 := ⟨fuel - 1, by omega⟩
    have hshift : (target :: chain).reverse ++ next :: rest =
        (next :: target :: chain).reverse ++ rest := by simp
    obtain ⟨info, hlookup⟩ : Refers components target next := by
      have hbegin := (List.isChain_append.1 hchain).1
      refine (List.isChain_append.1 hbegin).2.2 target ?_ next rfl
      rw [List.getLast?_reverse]
      rfl
    have hmem : ¬ (target :: chain).contains next := by
      intro hcontains
      have hback := List.mem_reverse.2 (List.contains_iff_mem.1 hcontains)
      exact (List.nodup_append.1 hnodup).2.2 next hback next List.mem_cons_self rfl
    rw [hshift] at hchain hnodup hlast ⊢
    rw [hlookup, aliasLoop?, if_neg hmem]
    rw [List.length_cons] at hfuel
    exact ih hchain hnodup hlast (by omega)

/-- On a chain of references, every name but the last is that of a component. -/
theorem mem_of_isChain {l : List String} {last a : String}
    (h : (l ++ [last]).IsChain (Refers components)) (ha : a ∈ l) :
    a ∈ components.map (·.1) := by
  induction l with
  | nil => cases ha
  | cons first rest ih =>
    rw [List.cons_append, List.isChain_cons] at h
    rcases List.mem_cons.1 ha with rfl | ha
    · obtain ⟨next, hnext⟩ : ∃ next, next ∈ (rest ++ [last]).head? := by
        cases rest with
        | nil => exact ⟨last, rfl⟩
        | cons second rest => exact ⟨second, rfl⟩
      obtain ⟨info, hlookup⟩ := h.1 next hnext
      exact List.mem_map.2 ⟨_, mem_of_lookup hlookup, rfl⟩
    · exact ih h.2 ha

/-- The error of a component says that its chain of references loops, and how. -/
theorem aliasError?_eq_some_iff {e : CompileError} :
    aliasError? components name = some e ↔
      ∃ chain, Loops components name chain ∧
        e = cyclic (chain.map (Pointer.componentHead ++ ·)) := by
  rw [aliasError?, Option.map_eq_some_iff]
  constructor
  · rintro ⟨found, hfound, rfl⟩
    refine ⟨found.reverse, ?_, rfl⟩
    exact loops_of_aliasLoop? hfound rfl (List.nodup_singleton name) (List.isChain_singleton name)
  · rintro ⟨chain, ⟨before, last, rfl, hhead, hnodup, hlast, hchain⟩, rfl⟩
    obtain ⟨rest, rfl⟩ : ∃ rest, before = name :: rest := by
      cases before with
      | nil => cases hhead
      | cons first rest => cases hhead; exact ⟨rest, rfl⟩
    -- the fuel is enough, for the names on the way are names of components, each once
    have hnames : name :: rest ⊆ components.map (·.1) := fun a ha => mem_of_isChain hchain ha
    have hlength := (List.subperm_of_subset hnodup hnames).length_le
    rw [List.length_map] at hlength
    refine ⟨(name :: rest ++ [last]).reverse, ?_, by simp [cyclic]⟩
    exact aliasLoop?_of_isChain hchain hnodup hlast (by simp at hlength; omega)

end Loops

/-! ## All components -/

/-- The component schemas that resolve, by their forms. -/
def resolvedForms (r : Resolver) : List (String × SchemaNode) :=
  r.schemas.filterMap fun e => component? (r.entry e)

theorem aliasErrors_componentForms (components l : List (String × SchemaNode)) :
    (componentForms l).filterMap (fun c => aliasError? (componentForms components) c.1) =
      l.filterMap fun c => aliasError? components c.1 := by
  simp only [aliasError?_componentForms]
  rw [componentForms, List.filterMap_map]
  rfl

/-- The same components are left when those whose aliases do not end are dropped. -/
theorem withoutLoops_componentForms (components l : List (String × SchemaNode)) :
    (componentForms l).filter (fun c => (aliasError? (componentForms components) c.1).isNone) =
      componentForms (l.filter fun c => (aliasError? components c.1).isNone) := by
  simp only [aliasError?_componentForms]
  rw [componentForms, componentForms, List.filter_map]
  rfl

/-- What the first resolution of the components comes to. -/
structure ResolvesAll (r : Resolver) (s t : State) (components : List (String × SchemaNode)) :
    Prop where
  returned : t.components = components
  forms : componentForms components =
    r.resolvedForms.filter fun c => (aliasError? r.resolvedForms c.1).isNone
  errors : t.errors = s.errors ++ (r.schemas.filterMap (fun e => error? (r.entry e)) ++
    r.resolvedForms.filterMap fun c => aliasError? r.resolvedForms c.1)
  componentsDone : t.componentsDone = true

theorem resolveComponents_spec (hs : r.Sound s) (hdone : s.componentsDone = false) :
    let run := r.resolveComponents s
    run.1.map (fun _ => ()) = r.schemas.forM (fun e => collected (r.entry e)) ∧
      r.Sound run.2 ∧
      ∀ components, s.components = [] → run.1 = .ok components →
        r.ResolvesAll s run.2 components := by
  intro run
  have hbegin : r.Sound { s with componentsDone := true } := hs
  obtain ⟨hout, hsound, hcollects⟩ := forM_resolveComponent hbegin r.schemas
  have hrun : run = r.resolveComponents s := rfl
  rw [resolveComponents] at hrun
  simp only [Step.bind_apply, Step.get_apply, Step.modify_apply, hdone, Bool.false_eq_true, if_false,
    Step.pure_apply] at hrun
  rw [← hout]
  rcases hloop : (r.schemas.forM fun e => r.resolveComponent e.1 e.2)
    { s with componentsDone := true } with ⟨outcome, t⟩
  rw [hloop] at hrun hsound hcollects
  rw [hrun]
  cases outcome with
  | error h => exact ⟨rfl, hsound, fun components _ h => by cases h⟩
  | ok _ =>
    refine ⟨rfl, hsound, fun components hempty h => ?_⟩
    cases h
    obtain ⟨-, hcomponents, herrors, ht⟩ := hcollects rfl
    rw [hempty] at hcomponents
    have hforms : componentForms t.components = r.resolvedForms := hcomponents
    refine ⟨rfl, ?_, ?_, ht⟩
    · rw [← hforms, withoutLoops_componentForms]
    · rw [← hforms, aliasErrors_componentForms, ← List.append_assoc, ← herrors]

end RouteBinding.Resolver
