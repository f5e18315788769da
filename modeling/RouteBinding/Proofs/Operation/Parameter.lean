import RouteBinding.Proofs.Operation.Check
import RouteBinding.Proofs.Operation.Schema

/-!
# Compiling parameters

The parameter objects of a path item or an operation are found, no two of one name and location, and what becomes
of each is right for what it says and checked, whether it is compiled now or remembered under its pointer
(`runs_parameterOutcome`).
-/

namespace RouteBinding.Compilation

open Course (Runs)

variable {r : Resolver} {c c' : Compilation}

/-! ## Errors -/

theorem runs_record (hc : Steady r c) (e : CompileError) :
    (steady r).Runs (record e) c fun _ c' => c'.errors ≠ [] := by
  unfold record
  refine (Course.runs_modify ?_ ?_).mono fun _ c' _ _ h => ?_
  · exact hc.aside rfl rfl rfl (List.prefix_append _ _) List.prefix_rfl
  · exact .aside rfl rfl (List.prefix_append _ _) List.prefix_rfl
  · rw [h]
    exact List.append_ne_nil_of_right_ne_nil _ (List.cons_ne_nil _ _)

/-- After an error is recorded, nothing is left without errors. -/
theorem runs_record_bind {α : Type} {x : Compile α} {good good' : α → Compilation → Prop}
    (hc : Steady r c) (e : CompileError)
    (hx : ∀ c', Steady r c' → (steady r).Runs x c' good)
    (hgood : ∀ a c', good a c' → c'.errors ≠ [] → good' a c') :
    (steady r).Runs (record e >>= fun _ => x) c good' := by
  refine Runs.bind (runs_record hc e) fun _ c' hc' _ herror => ?_
  refine (hx c' hc').mono fun a c'' _ hle h => hgood a c'' h fun hnil => ?_
  exact herror (hle.errors_eq_nil hnil)

/-! ## Parameter objects -/

/-- What has been read at some places of a list of parameters: objects that stand there and have a name and a location
that can be told, no two of them nor one that was seen the same, and without errors one for every place. -/
structure ReadAt (r : Resolver) (list : String) (seen : List (String × String))
    (places : List (Value × Nat)) (ps : List RawParameter) (c : Compilation) : Prop where
  standing : ∀ p ∈ ps, ∃ e ∈ places, r.StandsFor list e p
  keys : (ps.map (·.key? r.document.graph)).Nodup
  fresh : ∀ p ∈ ps, ∃ key ∉ seen, p.key? r.document.graph = some key
  complete : c.errors = [] → List.Forall₂ (r.StandsFor list) places ps

section

variable {list : String} {seen : List (String × String)} {places : List (Value × Nat)}
  {ps : List RawParameter} {place : Value × Nat}

theorem ReadAt.nil : ReadAt r list seen [] [] c where
  standing _ hp := (List.not_mem_nil hp).elim
  keys := List.nodup_nil
  fresh _ hp := (List.not_mem_nil hp).elim
  complete _ := .nil

/-- A place that is passed over leaves an error. -/
theorem ReadAt.skip (h : ReadAt r list seen places ps c) (herror : c.errors ≠ []) :
    ReadAt r list seen (place :: places) ps c where
  standing p hp := by
    obtain ⟨e, he, hstands⟩ := h.standing p hp
    exact ⟨e, List.mem_cons_of_mem _ he, hstands⟩
  keys := h.keys
  fresh := h.fresh
  complete hnil := absurd hnil herror

/-- One more object, of a name and a location that were not seen and that the others were read after. -/
theorem ReadAt.cons {p : RawParameter} {key : String × String} (h : ReadAt r list (key :: seen) places ps c)
    (hstands : r.StandsFor list place p) (hkey : p.key? r.document.graph = some key) (hseen : key ∉ seen) :
    ReadAt r list seen (place :: places) (p :: ps) c where
  standing := by
    refine List.forall_mem_cons.2 ⟨⟨place, List.mem_cons_self, hstands⟩, fun q hq => ?_⟩
    obtain ⟨e, he, hlater⟩ := h.standing q hq
    exact ⟨e, List.mem_cons_of_mem _ he, hlater⟩
  keys := by
    -- the others were read with this key among those seen
    refine List.nodup_cons.2 ⟨fun hmem => ?_, h.keys⟩
    obtain ⟨q, hq, heq⟩ := List.mem_map.1 hmem
    obtain ⟨key', hfresh, hkey'⟩ := h.fresh q hq
    obtain rfl : key' = key := Option.some.inj (hkey'.symm.trans (heq.trans hkey))
    exact hfresh List.mem_cons_self
  fresh := by
    refine List.forall_mem_cons.2 ⟨⟨key, hseen, hkey⟩, fun q hq => ?_⟩
    obtain ⟨key', hfresh, hkey'⟩ := h.fresh q hq
    exact ⟨key', fun hmem => hfresh (List.mem_cons_of_mem _ hmem), hkey'⟩
  complete hnil := .cons hstands (h.complete hnil)

end

theorem runs_readParameters (hc : Steady r c) (list : String) (seen : List (String × String))
    (index : Nat) (items : List Value) :
    (steady r).Runs (readParameters r list seen index items) c fun ps c' =>
      ReadAt r list seen (items.zipIdx index) ps c' := by
  -- by induction on the items, for any keys that were seen: the later items are read with one key more
  induction items generalizing c seen index with
  | nil => exact Course.runs_pure hc .nil
  | cons raw rest ih =>
    rw [readParameters, List.zipIdx_cons]
    have hskip {c : Compilation} (hc : Steady r c) (e : CompileError) : (steady r).Runs
        (record e >>= fun _ => readParameters r list seen (index + 1) rest) c fun ps c' =>
          ReadAt r list seen ((raw, index) :: rest.zipIdx (index + 1)) ps c' :=
      runs_record_bind hc e (fun c' hc' => ih hc' seen (index + 1)) fun _ _ h herror => h.skip herror
    refine Runs.bind (Course.runs_ofOutcome hc).attempt fun outcome c' hc' _ hobject => ?_
    cases outcome with
    | error e => exact hskip hc' e
    | ok object =>
      obtain ⟨entries, v, found⟩ := object
      refine Runs.bind (Course.runs_ofOutcome hc') fun key c'' hc'' _ hkey => ?_
      split_ifs with hseen
      · exact hskip hc'' _
      · refine Runs.bind (ih hc'' _ (index + 1)) fun later c₃ hc₃ _ hlater => ?_
        have hstands : r.StandsFor list (raw, index) ⟨entries, found⟩ := ⟨v, (hobject _ rfl).1⟩
        have hnew : key ∉ seen := fun hmem => hseen (List.contains_iff_mem.2 hmem)
        exact Course.runs_pure hc₃ (hlater.cons hstands (Step.spelled_eq_ok_iff.1 hkey.1) hnew)

/-- What has been found of the parameters that a path item or an operation declares: objects of the description, no
two of one name and location, and without errors all. -/
structure FoundAt (r : Resolver) (pointer : String) (entries : List (Scalar × Value))
    (ps : List RawParameter) (c : Compilation) : Prop where
  declared : ∀ p ∈ ps, r.Declared p
  keys : (ps.map (·.key? r.document.graph)).Nodup
  complete : c.errors = [] → r.Declares pointer entries ps

theorem FoundAt.mono {pointer : String} {entries : List (Scalar × Value)} {ps : List RawParameter}
    (h : FoundAt r pointer entries ps c) (hle : Later c c') : FoundAt r pointer entries ps c' :=
  ⟨h.declared, h.keys, fun hnil => h.complete (hle.errors_eq_nil hnil)⟩

theorem runs_declaredParameters (hc : Steady r c) {pointer : String}
    {entries : List (Scalar × Value)} (hholder : r.Holder pointer entries) :
    (steady r).Runs (declaredParameters r entries pointer) c fun ps c' =>
      FoundAt r pointer entries ps c' := by
  have hempty {c : Compilation} (h : c.errors = [] → r.listed entries = []) :
      FoundAt r pointer entries [] c := by
    refine ⟨fun p hp => (List.not_mem_nil hp).elim, List.nodup_nil, fun hnil => ?_⟩
    rw [Resolver.Declares, h hnil]
    exact .nil
  unfold declaredParameters
  dsimp only
  cases hvalue : valueAt? "parameters" entries with
  | none =>
    refine Course.runs_pure hc (hempty fun _ => ?_)
    rw [Resolver.listed, hvalue]
    rfl
  | some value =>
    cases htruthy : r.document.graph.isTruthy value with
    | false =>
      rw [Option.filter_some_neg (by simp [htruthy])]
      refine Course.runs_pure hc (hempty fun _ => ?_)
      rw [Resolver.listed, hvalue, Option.map_some]
      unfold Graph.isTruthy at htruthy
      cases hshape : r.document.graph.shape value with
      | list id items =>
        rw [hshape] at htruthy
        simpa using htruthy
      | _ => rfl
    | true =>
      rw [Option.filter_some_pos htruthy]
      dsimp only
      cases hshape : r.document.graph.shape value with
      | list id items =>
        have hlisted : r.listed entries = items := by
          rw [Resolver.listed, hvalue, Option.map_some, hshape]
        refine (runs_readParameters hc (pointer ++ "/parameters") [] 0 items).mono
          fun ps c' _ _ h => ?_
        rw [show pointer ++ "/parameters" = Pointer.child pointer "parameters" by
          rw [Pointer.child, String.append_assoc]; rfl] at h
        rw [← hlisted] at h
        refine ⟨fun p hp => ?_, h.keys, h.complete⟩
        obtain ⟨e, he, hstands⟩ := h.standing p hp
        exact ⟨pointer, entries, e, hholder, he, hstands⟩
      | _ =>
        have hpure (c' : Compilation) (hc' : Steady r c') :
            (steady r).Runs (pure [] : Compile (List RawParameter)) c' fun ps _ => ps = [] :=
          Course.runs_pure hc' rfl
        refine runs_record_bind hc _ hpure ?_
        rintro ps c' rfl herror
        exact hempty fun hnil => absurd hnil herror

/-! ## One parameter -/

theorem eq_of_text? {v : Value} {s : String} (h : v.text? = some s) : v = .scalar (.text s) := by
  cases v with
  | container id => cases h
  | scalar value =>
    cases value with
    | text t => rw [Option.some.inj h]
    | _ => cases h

theorem runs_readName (hc : Steady r c) (g : Graph) (p : RawParameter) :
    (steady r).Runs (readName g p) c fun name _ =>
      valueAt? "name" p.entries = some (.scalar (.text name)) := by
  unfold readName
  split
  · split_ifs
    · exact Course.runs_fail hc
    · exact Course.runs_pure hc ‹_›
  · exact Course.runs_throw hc

theorem runs_readRequired (hc : Steady r c) (name : String) (location : Location)
    (p : RawParameter) :
    (steady r).Runs (readRequired name location p) c fun required _ => required =
      (location = .path || valueAt? "required" p.entries = some (.scalar (.bool true))) := by
  unfold readRequired
  split
  · exact Course.runs_pure hc rfl
  · exact Course.runs_pure hc rfl
  · exact Course.runs_fail hc
  · rename_i h
    exact Course.runs_pure hc (by simp [h])
  · rename_i b h
    exact Course.runs_pure hc (by simp [h])
  · exact Course.runs_fail hc

theorem runs_readStyle (hc : Steady r c) (g : Graph) (name : String) (location : Location)
    (p : RawParameter) :
    (steady r).Runs (readStyle g name location p) c fun style _ =>
      style ∈ location.styles ∧
        valueAt? "style" p.entries = some (.scalar (.text style.name)) ∨
          valueAt? "style" p.entries = none ∧ style = location.defaultStyle := by
  unfold readStyle
  cases hvalue : valueAt? "style" p.entries with
  | none => exact Course.runs_pure hc (.inr ⟨rfl, rfl⟩)
  | some value =>
    dsimp only
    split_ifs
    · exact Course.runs_breakOff_bind hc
    · cases hstyle : location.styles.find? fun s => value = .scalar (.text s.name) with
      | none => exact Course.runs_throw hc
      | some style =>
        have hname := List.find?_some hstyle
        rw [decide_eq_true_eq] at hname
        exact Course.runs_pure hc (.inl ⟨List.mem_of_find?_eq_some hstyle, by rw [hname]⟩)

theorem runs_readExplode (hc : Steady r c) (name : String) (style : Style) (p : RawParameter) :
    (steady r).Runs (readExplode name style p) c fun explode _ =>
      Resolver.keyword? "explode" p.entries = some (.scalar (.bool explode)) ∨
        Resolver.keyword? "explode" p.entries = none ∧ explode = style.explodes := by
  unfold readExplode
  split
  · exact Course.runs_pure hc (.inr ⟨‹_›, rfl⟩)
  · exact Course.runs_pure hc (.inl ‹_›)
  · exact Course.runs_fail hc

/-- What becomes of a parameter that is compiled: it says what its object says and has a type that can be bound,
or it is one that is not bound. -/
theorem runs_compileParameter (hc : Steady r c) (operation : String) (p : RawParameter) :
    (steady r).Runs (compileParameter r operation p) c fun o c' =>
      OutcomeFor r (Meant r c') p.entries (o.elim .skipped .bound) ∧
        Checked c' (o.elim .skipped .bound) := by
  unfold compileParameter
  refine Runs.bind (runs_readName hc _ p) fun name c₁ hc₁ _ hname => ?_
  have hplace {s : String} (h : (valueAt? "in" p.entries).getD (.scalar .null) = .scalar (.text s)) :
      valueAt? "in" p.entries = some (.scalar (.text s)) := by
    cases hin : valueAt? "in" p.entries with
    | none => rw [hin] at h; cases h
    | some place => rw [hin] at h; rw [← h]; rfl
  dsimp only
  split_ifs
  · exact Course.runs_breakOff_bind hc₁
  · split
    · rename_i skipped hskipped
      have hmem := List.mem_of_find?_eq_some hskipped
      have hin := List.find?_some hskipped
      rw [decide_eq_true_eq] at hin
      refine Runs.bind (Course.runs_modify ?_ ?_) fun _ c₂ hc₂ _ _ => ?_
      · exact hc₁.aside rfl rfl rfl List.prefix_rfl (List.prefix_append _ _)
      · exact .aside rfl rfl List.prefix_rfl (List.prefix_append _ _)
      · exact Course.runs_pure hc₂ ⟨.skipped hmem (hplace hin), trivial⟩
    · split
      · rename_i location hlocation
        refine Runs.bind (runs_readRequired hc₁ name location p) fun required c₂ hc₂ _ hrequired => ?_
        split
        · rename_i schema hschema
          refine Runs.bind (runs_typeOf hc₂ schema _ _) fun type c₃ hc₃ _ htype => ?_
          refine Course.runs_get_bind ?_
          split_ifs with hscalar
          · exact Course.runs_fail_bind hc₃
          · refine Runs.bind (runs_readStyle hc₃ _ name location p) fun style c₄ hc₄ hle₄ hstyle => ?_
            refine Runs.bind (runs_readExplode hc₄ name style p) fun explode c₅ hc₅ hle₅ hexplode => ?_
            refine Runs.bind (Course.runs_ofOutcome hc₅) fun description c₆ hc₆ hle₆ hdescription => ?_
            -- the type was checked before the style was read; the check stays right
            have hbound : c₃.builder.model.IsScalarLike type :=
              TypeModel.isScalarLike_iff.1 (by simpa using hscalar)
            have hlater := (hle₄.trans hle₅).trans hle₆
            refine Course.runs_pure hc₆ ⟨.bound ⟨hname, ?_, hrequired, ⟨schema, hschema, ?_⟩, hstyle,
              hexplode, ⟨_, hdescription.1⟩⟩, hbound.mono hlater.model⟩
            · obtain ⟨s, hs, hof⟩ := Option.bind_eq_some_iff.1 hlocation
              have hlocated := List.find?_some hof
              rw [decide_eq_true_eq] at hlocated
              rw [hlocated]
              exact hplace (eq_of_text? hs)
            · exact htype.mono hlater
        · exact Course.runs_fail hc₂
      · exact Course.runs_throw hc₁

/-- What becomes of a parameter, now or when it was first met, is right for an object that was found at its
pointer, and checked. -/
theorem runs_parameterOutcome (hc : Steady r c) (operation : String) {p : RawParameter}
    (hp : r.Declared p) :
    (steady r).Runs (parameterOutcome r operation p) c fun outcome c' =>
      OutcomeAt r (Meant r c') p.pointer outcome ∧ Checked c' outcome := by
  -- what is remembered is right for the object that was found at the pointer now
  have hremember (outcome : ParameterOutcome) (c' : Compilation) (hc' : Steady r c')
      (h : OutcomeFor r (Meant r c') p.entries outcome) (hchecked : Checked c' outcome) :
      (steady r).Runs
        (do
          modify fun s => { s with parameters := s.parameters ++ [(p.pointer, outcome)] }
          return outcome : Compile ParameterOutcome) c' fun outcome c'' =>
        OutcomeAt r (Meant r c'') p.pointer outcome ∧ Checked c'' outcome := by
    have hat : OutcomeAt r (Meant r c') p.pointer outcome := ⟨p, hp, rfl, h⟩
    have hlater : Later c' { c' with parameters := c'.parameters ++ [(p.pointer, outcome)] } :=
      .aside rfl rfl List.prefix_rfl List.prefix_rfl
    refine Runs.bind (Course.runs_modify ?_ hlater) fun _ c'' hc'' hle heq => ?_
    · refine ⟨hc'.reliable, hc'.components, hc'.right, fun e he => ?_, fun e he => ?_⟩
      · rcases List.mem_append.1 he with he | he
        · exact hc'.parameters e he
        · rw [List.mem_singleton.1 he]
          exact hat
      · rcases List.mem_append.1 he with he | he
        · exact (hc'.checked e he).mono hlater
        · rw [List.mem_singleton.1 he]
          exact hchecked.mono hlater
    · refine Course.runs_pure hc'' ⟨?_, hchecked.mono hle⟩
      rw [heq]
      exact hat
  unfold parameterOutcome
  refine Course.runs_get_bind ?_
  cases hlookup : c.parameters.lookup p.pointer with
  | some outcome =>
    have hmem := mem_of_lookup hlookup
    exact Course.runs_pure hc ⟨hc.parameters _ hmem, hc.checked _ hmem⟩
  | none =>
    refine Runs.bind (runs_compileParameter hc operation p).attempt fun o c' hc' _ h => ?_
    cases o with
    | error e =>
      refine Runs.bind (runs_record hc' e) fun _ c'' hc'' _ herror => ?_
      exact hremember .refused c'' hc'' .refused herror
    | ok o =>
      obtain ⟨houtcome, hchecked⟩ := h o rfl
      cases o with
      | none => exact hremember .skipped c' hc' houtcome hchecked
      | some q => exact hremember (.bound q) c' hc' houtcome hchecked

end RouteBinding.Compilation
