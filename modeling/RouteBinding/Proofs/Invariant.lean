import RouteBinding.Proofs.Schema.Layer

/-!
# Steps that keep an invariant

What is known of every run of a step: from each state that satisfies an invariant it comes to one that does, what
it gives is good, and what it halts with fits the state it has come to (`Step.Keeps`). There is one rule for each way
in which steps are put together, so that what a program keeps is proved along its text. An error that fits may be
recorded in the state, so that it need not be followed any further (`Step.Keeps.attempt_record`).
-/

namespace RouteBinding

/-- A halt that is no error, but a breakdown with a reason. -/
def Halt.BreaksFor (reason : Breakdown → Prop) : Halt → Prop
  | .error _ => False
  | .breakdown b => reason b

namespace Step

variable {σ τ ε α β : Type} {inv : σ → Prop}

/-- From every state that satisfies the invariant, a step comes to one that does. What it gives is good, and what
it halts with is expected in the state that is left behind. -/
def Keeps (inv : σ → Prop) (x : ExceptT ε (StateM σ) α) (good : α → Prop) (expected : ε → σ → Prop) :
    Prop :=
  ∀ s, inv s → inv (x s).2 ∧ (∀ a, (x s).1 = .ok a → good a) ∧
    ∀ e, (x s).1 = .error e → expected e (x s).2

section Rules

variable {x : ExceptT ε (StateM σ) α} {good good' : α → Prop} {goodb : β → Prop}
  {expected expected' : ε → σ → Prop}

/-- What a step keeps may be said more weakly, of its results and of its errors. -/
theorem Keeps.mono (h : Keeps inv x good expected) (hgood : ∀ a, good a → good' a)
    (hexpected : ∀ e s, expected e s → expected' e s) : Keeps inv x good' expected' := by
  intro s hs
  obtain ⟨hinv, hok, herror⟩ := h s hs
  exact ⟨hinv, fun a ha => hgood a (hok a ha), fun e he => hexpected e _ (herror e he)⟩

theorem Keeps.imp (h : Keeps inv x good expected) (hgood : ∀ a, good a → good' a) :
    Keeps inv x good' expected :=
  h.mono hgood fun _ _ he => he

/-- A step that does nothing keeps every invariant. -/
theorem keeps_pure {a : α} (ha : good a) :
    Keeps inv (pure a : ExceptT ε (StateM σ) α) good expected :=
  fun _ hs => ⟨hs, fun b hb => (by cases hb; exact ha), fun e he => by cases he⟩

/-- A step that fails must fail as expected. -/
theorem keeps_throw {e : ε} (he : ∀ s, expected e s) :
    Keeps inv (throw e : ExceptT ε (StateM σ) α) good expected :=
  fun s hs => ⟨hs, fun a ha => (by cases ha), fun e' he' => by cases he'; exact he s⟩

theorem keeps_throw_bind {e : ε} {f : α → ExceptT ε (StateM σ) β} (he : ∀ s, expected e s) :
    Keeps inv (throw e >>= f) goodb expected :=
  keeps_throw he

/-- The second step knows what the first has given. -/
theorem Keeps.bind {f : α → ExceptT ε (StateM σ) β} (h : Keeps inv x good expected)
    (hf : ∀ a, good a → Keeps inv (f a) goodb expected) : Keeps inv (x >>= f) goodb expected := by
  intro s hs
  obtain ⟨hinv, hok, herror⟩ := h s hs
  rw [bind_apply]
  rcases hrun : x s with ⟨outcome, t⟩
  rw [hrun] at hinv hok herror
  cases outcome with
  | error e =>
    refine ⟨hinv, fun b hb => (by cases hb), fun e' he' => ?_⟩
    cases he'
    exact herror e rfl
  | ok a => exact hf a (hok a rfl) t hinv

/-- A step that looks at the state first may use that it satisfies the invariant. -/
theorem keeps_get_bind {f : σ → ExceptT ε (StateM σ) β}
    (hf : ∀ s, inv s → Keeps inv (f s) goodb expected) : Keeps inv (get >>= f) goodb expected := by
  intro s hs
  rw [bind_apply]
  exact hf s hs s hs

/-- A change keeps an invariant if it does so for every state. -/
theorem keeps_modify {f : σ → σ} (hf : ∀ s, inv s → inv (f s)) :
    Keeps inv (modify f : ExceptT ε (StateM σ) PUnit) (fun _ => True) expected :=
  fun s hs => ⟨hf s hs, fun _ _ => trivial, fun e he => by cases he⟩

/-- A new state keeps an invariant that holds of it. -/
theorem keeps_set {t : σ} (ht : inv t) :
    Keeps inv (set t : ExceptT ε (StateM σ) PUnit) (fun _ => True) expected :=
  fun _ _ => ⟨ht, fun _ _ => trivial, fun e he => by cases he⟩

/-- A step for each of a list keeps an invariant if each one does. -/
theorem keeps_mapM {f : α → ExceptT ε (StateM σ) β} {goods : α → β → Prop} {l : List α}
    (hf : ∀ a ∈ l, Keeps inv (f a) (goods a) expected) :
    Keeps inv (l.mapM f) (List.Forall₂ goods l) expected := by
  induction l with
  | nil => exact keeps_pure .nil
  | cons a rest ih =>
    rw [List.mapM_cons]
    refine (hf a List.mem_cons_self).bind fun b hb => ?_
    refine (ih fun a' ha' => hf a' (List.mem_cons_of_mem a ha')).bind fun k hk => ?_
    exact keeps_pure (.cons hb hk)

/-- A step without result for each of a list keeps an invariant if each one does. -/
theorem keeps_forM {f : α → ExceptT ε (StateM σ) PUnit} {l : List α}
    (hf : ∀ a ∈ l, Keeps inv (f a) (fun _ => True) expected) :
    Keeps inv (l.forM f) (fun _ => True) expected := by
  induction l with
  | nil => exact keeps_pure trivial
  | cons a rest ih =>
    refine (hf a List.mem_cons_self).bind fun _ _ => ?_
    exact ih fun a' ha' => hf a' (List.mem_cons_of_mem a ha')

end Rules

/-! ## Errors and breakdowns -/

variable {good : α → Prop} {goodb : β → Prop} {expected expected' : Halt → σ → Prop}

theorem keeps_fail {e : CompileError} (he : ∀ s, expected (.error e) s) :
    Keeps inv (fail e : Step σ α) good expected :=
  keeps_throw he

theorem keeps_breakOff {b : Breakdown} (hb : ∀ s, expected (.breakdown b) s) :
    Keeps inv (breakOff b : Step σ α) good expected :=
  keeps_throw hb

theorem keeps_fail_bind {e : CompileError} {f : α → Step σ β} (he : ∀ s, expected (.error e) s) :
    Keeps inv (fail e >>= f) goodb expected :=
  keeps_throw_bind he

theorem keeps_breakOff_bind {b : Breakdown} {f : α → Step σ β} (hb : ∀ s, expected (.breakdown b) s) :
    Keeps inv (breakOff b >>= f) goodb expected :=
  keeps_throw_bind hb

/-- An error that shows a value is expected, and so is the breakdown where the value has no text. -/
theorem keeps_failShowing {e : String → CompileError} {shown : Option String}
    (herror : ∀ text s, expected (.error (e text)) s)
    (hnone : shown = none → ∀ s, expected (.breakdown .numberTooLong) s) :
    Keeps inv (failShowing e shown : Step σ α) good expected :=
  keeps_throw fun s => showing_intro (P := fun h => expected h s) (fun text => herror text s) fun h => hnone h s

/-- An outcome as a step keeps every invariant, and fails as expected if it does. -/
theorem keeps_ofOutcome {outcome : Except Halt α} (hok : ∀ a, outcome = .ok a → good a)
    (herror : ∀ h, outcome = .error h → ∀ s, expected h s) :
    Keeps inv (ofOutcome outcome : Step σ α) good expected :=
  fun s hs => ⟨hs, hok, fun h hh => herror h hh s⟩

/-- What is made of a text that may be missing; where it is, the run breaks off. -/
theorem keeps_spelled {o : Option α} (hok : ∀ a, o = some a → good a)
    (hnone : o = none → ∀ s, expected (.breakdown .numberTooLong) s) :
    Keeps inv (ofOutcome (spelled .breakdown o) : Step σ α) good expected := by
  refine keeps_ofOutcome (fun a ha => hok a (spelled_eq_ok_iff.1 ha)) fun h hh => ?_
  obtain ⟨ho, rfl⟩ := spelled_eq_error_iff.1 hh
  exact hnone ho

/-- A check as a step keeps every invariant, and fails as expected if it does. -/
theorem keeps_ofExcept {outcome : Except CompileError α} (hok : ∀ a, outcome = .ok a → good a)
    (herror : ∀ e, outcome = .error e → ∀ s, expected (.error e) s) :
    Keeps inv (ofExcept outcome : Step σ α) good expected := by
  cases outcome with
  | error e => exact keeps_fail (herror e rfl)
  | ok a => exact keeps_pure (hok a rfl)

/-- An attempt gives an error where the step halts with one, so that only breakdowns are left. -/
theorem Keeps.attempt {x : Step σ α} (h : Keeps inv x good expected)
    (hbreakdown : ∀ b s, expected (.breakdown b) s → expected' (.breakdown b) s) :
    Keeps inv (Step.attempt x)
      (fun outcome => (∀ a, outcome = .ok a → good a) ∧
        ∀ e, outcome = .error e → ∃ s, expected (.error e) s) expected' := by
  intro s hs
  obtain ⟨hinv, hok, herror⟩ := h s hs
  rw [Step.attempt]
  rcases hrun : x s with ⟨outcome, t⟩
  rw [hrun] at hinv hok herror
  rcases outcome with (e | b) | a
  · refine ⟨hinv, fun o ho => ?_, fun h' hh => by cases hh⟩
    cases ho
    exact ⟨fun a ha => (by cases ha), fun e' he' => by cases he'; exact ⟨t, herror _ rfl⟩⟩
  · refine ⟨hinv, fun o ho => (by cases ho), fun h' hh => ?_⟩
    cases hh
    exact hbreakdown b t (herror _ rfl)
  · refine ⟨hinv, fun o ho => ?_, fun h' hh => by cases hh⟩
    cases ho
    exact ⟨fun a' ha' => (by cases ha'; exact hok a rfl), fun e he => by cases he⟩

/-- A step is attempted, and an error that it halts with recorded in the state it has come to, which it fits. -/
theorem Keeps.attempt_record {x : Step σ α} {next : Except CompileError α → Step σ β}
    {recorded : CompileError → σ → σ} {later : Step σ β} (h : Keeps inv x good expected)
    (hbreakdown : ∀ b s, expected (.breakdown b) s → expected' (.breakdown b) s)
    (hok : ∀ a, good a → Keeps inv (next (.ok a)) goodb expected')
    (herror : ∀ e, next (.error e) = (modify (recorded e) >>= fun _ => later))
    (hrecorded : ∀ e s, inv s → expected (.error e) s → inv (recorded e s))
    (hlater : Keeps inv later goodb expected') : Keeps inv (Step.attempt x >>= next) goodb expected' := by
  intro s hs
  obtain ⟨hinv, hgood, hexpected⟩ := h s hs
  rw [bind_apply, Step.attempt]
  rcases hrun : x s with ⟨(e | b) | a, t⟩
  · rw [hrun] at hinv hexpected
    dsimp only
    rw [herror]
    exact hlater _ (hrecorded e t hinv (hexpected _ rfl))
  · rw [hrun] at hinv hexpected
    refine ⟨hinv, fun b hb => (by cases hb), fun e he => ?_⟩
    cases he
    exact hbreakdown b t (hexpected _ rfl)
  · rw [hrun] at hinv hgood
    exact hok a (hgood a rfl) t hinv

/-- A step over a part of the state keeps what the part keeps. -/
theorem Keeps.zoom {invPart : τ → Prop} {part : σ → τ} {update : τ → σ → σ} {x : Step τ α}
    {expectedPart : Halt → τ → Prop} (h : Keeps invPart x good expectedPart)
    (hpart : ∀ s, inv s → invPart (part s)) (hupdate : ∀ s t, inv s → invPart t → inv (update t s))
    (hexpected : ∀ e s t, expectedPart e t → expected e (update t s)) :
    Keeps inv (Step.zoom part update x) good expected := by
  intro s hs
  obtain ⟨hinv, hok, herror⟩ := h (part s) (hpart s hs)
  exact ⟨hupdate s _ hs hinv, hok, fun e he => hexpected e s _ (herror e he)⟩

end Step

namespace Layer

variable {σ ε α β : Type} {inv : σ → Prop} {f : α → ExceptT ε (StateM σ) β}
  {good : α → β → Prop} {expected : ε → σ → Prop}

open Step (Keeps keeps_pure keeps_mapM)

/-- Steps for all schemas inside a layer keep what each of them keeps. -/
theorem keeps_traverse {l : Layer α} (hf : ∀ a ∈ l.inner, Keeps inv (f a) (good a) expected) :
    Keeps inv (l.traverse f) (Agree good l) expected := by
  cases l with
  | component name => exact keeps_pure (.component name)
  | inlined reference target =>
    refine (hf target List.mem_cons_self).bind fun b hb => ?_
    exact keeps_pure (.inlined reference hb)
  | oneOf branches =>
    refine (keeps_mapM hf).bind fun k hk => ?_
    exact keeps_pure (.oneOf hk)
  | array item =>
    refine (hf item List.mem_cons_self).bind fun b hb => ?_
    exact keeps_pure (.array hb)
  | object properties required =>
    have hp : ∀ p ∈ properties, Keeps inv (do return (p.1, ← f p.2))
        (fun q : String × β => p.1 = q.1 ∧ good p.2 q.2) expected := by
      intro p hp
      refine (hf p.2 (List.mem_map_of_mem hp)).bind fun b hb => ?_
      exact keeps_pure ⟨rfl, hb⟩
    refine (keeps_mapM hp).bind fun k hk => ?_
    exact keeps_pure (.object required hk)
  | primitive kind => exact keeps_pure (.primitive kind)

end Layer

end RouteBinding
