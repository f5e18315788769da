import Mathlib.Data.List.Forall2
import RouteBinding.Step

/-!
# Running steps

How the steps of a compilation run.

* `Step.Gives`: a step gives a value and leaves a state behind. A chain of steps gives a value exactly when
  every one does (`gives_bind`).
* `Course.Runs`: from a state, a step comes only to states on a course, and what it gives is good there. Facts
  about earlier states are carried on along the order of the course.
* `Step.Follows`: a step over a state follows an outcome that is found without the state if, as long as the
  state satisfies an invariant, it comes to the same outcome and keeps the invariant.
-/

namespace RouteBinding

namespace Step

variable {σ ε α β γ δ : Type}

/-! ## Single steps -/

@[simp] theorem pure_apply (a : α) (s : σ) : (pure a : Step σ α) s = (.ok a, s) := rfl

@[simp] theorem get_apply (s : σ) : (get : Step σ σ) s = (.ok s, s) := rfl

@[simp] theorem set_apply (t s : σ) : (set t : Step σ PUnit) s = (.ok ⟨⟩, t) := rfl

@[simp] theorem modify_apply (f : σ → σ) (s : σ) :
    (modify f : Step σ PUnit) s = (.ok ⟨⟩, f s) := rfl

theorem ofOutcome_ok (a : α) : (ofOutcome (.ok a) : Step σ α) = pure a := rfl

/-- The second of two steps runs on the state of the first, if the first gives a value. -/
theorem bind_apply (x : ExceptT ε (StateM σ) α) (f : α → ExceptT ε (StateM σ) β) (s : σ) :
    (x >>= f) s = match x s with
      | (.ok a, t) => f a t
      | (.error h, t) => (.error h, t) := by
  show StateT.bind x (ExceptT.bindCont f) s = _
  unfold StateT.bind
  rcases x s with ⟨outcome, t⟩
  cases outcome <;> rfl

/-- A step that looks at the state first runs on it. -/
theorem get_bind_apply (f : σ → ExceptT ε (StateM σ) β) (s : σ) : (get >>= f) s = f s s := by
  rw [bind_apply]
  rfl

/-- A chain of two steps gives a value exactly if both do, whatever they may halt with. -/
theorem bind_eq_ok {x : ExceptT ε (StateM σ) α} {f : α → ExceptT ε (StateM σ) β} {s u : σ} {b : β} :
    (x >>= f) s = (.ok b, u) ↔ ∃ a t, x s = (.ok a, t) ∧ f a t = (.ok b, u) := by
  rw [bind_apply]
  constructor
  · intro hdone
    rcases hx : x s with ⟨outcome, t⟩
    rw [hx] at hdone
    cases outcome with
    | ok a => exact ⟨a, t, rfl, hdone⟩
    | error e => cases hdone
  · rintro ⟨a, t, hx, hdone⟩
    rw [hx]
    exact hdone

/-! ## Texts that may be missing -/

/-- A halt that shows a value is an error with the text of the value, or else a breakdown. -/
theorem showing_intro {P : Halt → Prop} {e : String → CompileError} {shown : Option String}
    (herror : ∀ text, P (.error (e text))) (hnone : shown = none → P (.breakdown .numberTooLong)) :
    P (Halt.showing e shown) := by
  cases shown with
  | none => exact hnone rfl
  | some text => exact herror text

/-- A text that can be written is written. -/
theorem spelled_eq_ok_iff {cause : Breakdown → ε} {o : Option α} {a : α} :
    spelled cause o = .ok a ↔ o = some a := by
  cases o <;> simp [spelled]

/-- A text that cannot be written breaks the step off. -/
theorem spelled_eq_error_iff {cause : Breakdown → ε} {o : Option α} {e : ε} :
    spelled cause o = .error e ↔ o = none ∧ e = cause .numberTooLong := by
  cases o <;> simp [spelled, eq_comm]

/-! ## Giving a value -/

/-- On a state, a step gives a value and leaves another state behind. -/
def Gives (x : Step σ α) (s : σ) (a : α) (t : σ) : Prop :=
  (x s).1 = .ok a ∧ (x s).2 = t

/-- What a step gives is its result and the state that it leaves. -/
theorem gives_iff {x : Step σ α} {s t : σ} {a : α} : Gives x s a t ↔ x s = (.ok a, t) :=
  ⟨fun h => Prod.ext h.1 h.2, fun h => ⟨congrArg Prod.fst h, congrArg Prod.snd h⟩⟩

@[simp] theorem gives_pure {a b : α} {s t : σ} : Gives (pure a) s b t ↔ a = b ∧ s = t := by
  simp [Gives]

@[simp] theorem gives_get {s u t : σ} : Gives get s u t ↔ s = u ∧ s = t := by
  simp [Gives]

@[simp] theorem gives_set {s u t : σ} {x : PUnit} : Gives (set u) s x t ↔ u = t := by
  simp [Gives]

/-- A chain of two steps gives a value exactly when both do. -/
theorem gives_bind {x : Step σ α} {f : α → Step σ β} {s u : σ} {b : β} :
    Gives (x >>= f) s b u ↔ ∃ a t, Gives x s a t ∧ Gives (f a) t b u := by
  simp only [gives_iff, bind_eq_ok]

/-- An outcome that is known already changes nothing. -/
theorem gives_ofOutcome {outcome : Except Halt α} {s t : σ} {a : α} :
    Gives (ofOutcome outcome) s a t ↔ outcome = .ok a ∧ s = t :=
  Iff.rfl

/-- An attempt gives what the step gives, or the error that it halts with. -/
theorem gives_attempt {x : Step σ α} {s t : σ} {outcome : Except CompileError α} :
    Gives (attempt x) s outcome t ↔
      (∃ a, outcome = .ok a ∧ Gives x s a t) ∨
        ∃ e, outcome = .error e ∧ (x s).1 = .error (.error e) ∧ (x s).2 = t := by
  unfold Gives attempt
  rcases x s with ⟨(e | b) | a, u⟩ <;> simp [eq_comm]

/-- A step over a part of a state gives a value exactly when it does over the part itself. -/
theorem gives_zoom {τ : Type} {part : σ → τ} {update : τ → σ → σ} {x : Step τ α} {s t : σ} {a : α} :
    Gives (zoom part update x) s a t ↔ ∃ u, Gives x (part s) a u ∧ update u s = t := by
  unfold Gives zoom
  rcases x (part s) with ⟨outcome, u⟩
  constructor
  · rintro ⟨rfl, rfl⟩
    exact ⟨u, ⟨rfl, rfl⟩, rfl⟩
  · rintro ⟨u', ⟨rfl, rfl⟩, rfl⟩
    exact ⟨rfl, rfl⟩

end Step

/-! ## Staying on a course -/

/-- The states that runs pass: an invariant, and an order in which states come later. -/
structure Course (σ : Type) where
  inv : σ → Prop
  le : σ → σ → Prop
  refl : ∀ s, le s s
  trans : ∀ {s t u}, le s t → le t u → le s u

namespace Course

variable {σ τ ε α β : Type} (C : Course σ) {x : ExceptT ε (StateM σ) α} {s : σ}

/-- From a state, a step comes to a later one that satisfies the invariant, whether it gives a value or not,
and a value that it gives is good there. -/
def Runs (x : ExceptT ε (StateM σ) α) (s : σ) (good : α → σ → Prop) : Prop :=
  C.inv (x s).2 ∧ C.le s (x s).2 ∧ ∀ a, (x s).1 = .ok a → good a (x s).2

variable {C} {good good' : α → σ → Prop}

/-- What a step guarantees may be weakened, given what holds at its end. -/
theorem Runs.mono (h : C.Runs x s good) (hgood : ∀ a t, C.inv t → C.le s t → good a t → good' a t) :
    C.Runs x s good' :=
  ⟨h.1, h.2.1, fun a ha => hgood a _ h.1 h.2.1 (h.2.2 a ha)⟩

/-- A step that does nothing guarantees what holds already. -/
theorem runs_pure {a : α} (hs : C.inv s) (ha : good a s) :
    C.Runs (pure a : ExceptT ε (StateM σ) α) s good :=
  ⟨hs, C.refl s, fun b hb => by cases hb; exact ha⟩

/-- A step that fails guarantees anything. -/
theorem runs_throw {e : ε} (hs : C.inv s) :
    C.Runs (throw e : ExceptT ε (StateM σ) α) s good :=
  ⟨hs, C.refl s, fun a ha => by cases ha⟩

theorem runs_fail {e : CompileError} (hs : C.inv s) : C.Runs (Step.fail e : Step σ α) s good :=
  runs_throw hs

theorem runs_breakOff {b : Breakdown} (hs : C.inv s) :
    C.Runs (Step.breakOff b : Step σ α) s good :=
  runs_throw hs

/-- An outcome as a step guarantees that it was a success and the state the same. -/
theorem runs_ofOutcome {outcome : Except Halt α} (hs : C.inv s) :
    C.Runs (Step.ofOutcome outcome : Step σ α) s fun a t => outcome = .ok a ∧ t = s :=
  ⟨hs, C.refl s, fun _ ha => ⟨ha, rfl⟩⟩

/-- A check as a step guarantees that it was a success and the state the same. -/
theorem runs_ofExcept {outcome : Except CompileError α} (hs : C.inv s) :
    C.Runs (Step.ofExcept outcome : Step σ α) s fun a t => outcome = .ok a ∧ t = s := by
  cases outcome with
  | error e => exact runs_fail hs
  | ok a => exact runs_pure hs ⟨rfl, rfl⟩

/-- The second step runs from where the first has come to, and knows what the first has given. -/
theorem Runs.bind {f : α → ExceptT ε (StateM σ) β} {goodb : β → σ → Prop} (h : C.Runs x s good)
    (hf : ∀ a t, C.inv t → C.le s t → good a t → C.Runs (f a) t goodb) :
    C.Runs (x >>= f) s goodb := by
  obtain ⟨hinv, hle, hgood⟩ := h
  rw [Runs, Step.bind_apply]
  rcases hrun : x s with ⟨outcome, t⟩
  rw [hrun] at hinv hle hgood
  cases outcome with
  | error e => exact ⟨hinv, hle, fun b hb => by cases hb⟩
  | ok a =>
    obtain ⟨hinv', hle', hgood'⟩ := hf a t hinv hle (hgood a rfl)
    exact ⟨hinv', C.trans hle hle', hgood'⟩

theorem runs_throw_bind {e : ε} {f : α → ExceptT ε (StateM σ) β} {goodb : β → σ → Prop}
    (hs : C.inv s) : C.Runs (throw e >>= f) s goodb :=
  ⟨hs, C.refl s, fun b hb => by cases hb⟩

theorem runs_fail_bind {e : CompileError} {f : α → Step σ β} {goodb : β → σ → Prop}
    (hs : C.inv s) : C.Runs (Step.fail e >>= f) s goodb :=
  runs_throw_bind hs

theorem runs_breakOff_bind {b : Breakdown} {f : α → Step σ β} {goodb : β → σ → Prop}
    (hs : C.inv s) : C.Runs (Step.breakOff b >>= f) s goodb :=
  runs_throw_bind hs

/-- A step that reads the state runs as it does for that state. -/
theorem runs_get_bind {f : σ → ExceptT ε (StateM σ) β} {goodb : β → σ → Prop}
    (hf : C.Runs (f s) s goodb) : C.Runs (get >>= f) s goodb := by
  rw [Runs, Step.bind_apply]
  exact hf

/-- A change of the state must keep the invariant and lead forward. -/
theorem runs_modify {f : σ → σ} (hinv : C.inv (f s)) (hle : C.le s (f s)) :
    C.Runs (modify f : ExceptT ε (StateM σ) PUnit) s fun _ t => t = f s :=
  ⟨hinv, hle, fun _ _ => rfl⟩

/-- A new state must keep the invariant and come after the old one. -/
theorem runs_set {t : σ} (hinv : C.inv t) (hle : C.le s t) :
    C.Runs (set t : ExceptT ε (StateM σ) PUnit) s fun _ u => u = t :=
  ⟨hinv, hle, fun _ _ => rfl⟩

/-- Attempting a step keeps to its course; only a value is known to be good. -/
theorem Runs.attempt {x : Step σ α} (h : C.Runs x s good) :
    C.Runs (Step.attempt x) s fun outcome t => ∀ a, outcome = .ok a → good a t := by
  obtain ⟨hinv, hle, hgood⟩ := h
  rw [Runs, Step.attempt]
  rcases hrun : x s with ⟨outcome, t⟩
  rw [hrun] at hinv hle hgood
  rcases outcome with (e | b) | a
  · exact ⟨hinv, hle, fun o ho a ha => by cases ho; cases ha⟩
  · exact ⟨hinv, hle, fun o ho => by cases ho⟩
  · refine ⟨hinv, hle, fun o ho a' ha' => ?_⟩
    cases ho
    cases ha'
    exact hgood a rfl

/-- A step over a part of the state keeps to a course if it keeps to one over the part. -/
theorem Runs.zoom {D : Course τ} {part : σ → τ} {update : τ → σ → σ} {x : Step τ α}
    {goodt : α → τ → Prop} (h : D.Runs x (part s) goodt)
    (hupdate : ∀ t, D.inv t → D.le (part s) t → C.inv (update t s) ∧ C.le s (update t s))
    (hgood : ∀ a t, D.inv t → D.le (part s) t → goodt a t → good a (update t s)) :
    C.Runs (Step.zoom part update x) s good := by
  obtain ⟨hinv, hle, hgoodt⟩ := h
  obtain ⟨hinv', hle'⟩ := hupdate _ hinv hle
  exact ⟨hinv', hle', fun a ha => hgood a _ hinv hle (hgoodt a ha)⟩

/-- Steps for a list, one after the other: every value stays good on the way. -/
theorem runs_mapM {f : α → ExceptT ε (StateM σ) β} {goodb : α → β → σ → Prop} {l : List α}
    (hs : C.inv s)
    (hstable : ∀ a b t u, C.le t u → goodb a b t → goodb a b u)
    (hf : ∀ a ∈ l, ∀ t, C.inv t → C.le s t → C.Runs (f a) t (goodb a)) :
    C.Runs (l.mapM f) s fun k t => List.Forall₂ (fun a b => goodb a b t) l k := by
  induction l generalizing s with
  | nil => exact runs_pure hs .nil
  | cons a rest ih =>
    rw [List.mapM_cons]
    refine Runs.bind (hf a List.mem_cons_self s hs (C.refl s)) fun b t ht hst hb => ?_
    refine Runs.bind (ih ht fun a' ha' u hu htu => hf a' (List.mem_cons_of_mem a ha') u hu
      (C.trans hst htu)) fun k u hu htu hk => ?_
    exact runs_pure hu (.cons (hstable a b t u htu hb) hk)

/-- A step for each of a list runs if each one does, from every later state. -/
theorem runs_forM {f : α → ExceptT ε (StateM σ) PUnit} {l : List α} (hs : C.inv s)
    (hf : ∀ a ∈ l, ∀ t, C.inv t → C.le s t → C.Runs (f a) t fun _ _ => True) :
    C.Runs (l.forM f) s fun _ _ => True := by
  induction l generalizing s with
  | nil => exact runs_pure hs trivial
  | cons a rest ih =>
    refine Runs.bind (hf a List.mem_cons_self s hs (C.refl s)) fun _ t ht hst _ => ?_
    exact ih ht fun a' ha' u hu htu => hf a' (List.mem_cons_of_mem a ha') u hu (C.trans hst htu)

end Course

namespace Step

variable {σ α β γ δ : Type}

/-! ## Following an outcome -/

/-- From every state that satisfies the invariant, the step comes to the outcome, seen through `view`, and
to a state that satisfies the invariant. -/
def Follows (inv : σ → Prop) (view : α → β) (x : Step σ α) (outcome : Except Halt β) : Prop :=
  ∀ s, inv s → inv (x s).2 ∧ (x s).1.map view = outcome

namespace Follows

variable {inv : σ → Prop} {view : α → β} {view' : γ → δ}

theorem pure (a : α) : Follows inv view (pure a : Step σ α) (.ok (view a)) :=
  fun _ hs => ⟨hs, rfl⟩

theorem fail (e : CompileError) :
    Follows inv view (fail e : Step σ α) (.error (.error e)) :=
  fun _ hs => ⟨hs, rfl⟩

/-- An outcome as a step follows itself. -/
theorem ofOutcome (outcome : Except Halt α) :
    Follows inv id (ofOutcome outcome : Step σ α) outcome := by
  intro s hs
  refine ⟨hs, ?_⟩
  cases outcome <;> rfl

/-- Two steps in a chain follow two outcomes in a chain. -/
theorem bind {x : Step σ α} {o : Except Halt β} {f : α → Step σ γ} {g : β → Except Halt δ}
    (hx : Follows inv view x o)
    (hf : ∀ a, o = .ok (view a) → Follows inv view' (f a) (g (view a))) :
    Follows inv view' (x >>= f) (o >>= g) := by
  intro s hs
  obtain ⟨ht, ho⟩ := hx s hs
  rw [bind_apply]
  rcases hrun : x s with ⟨outcome, t⟩
  rw [hrun] at ht ho
  cases outcome with
  | error h =>
    subst ho
    exact ⟨ht, rfl⟩
  | ok a =>
    subst ho
    exact hf a rfl t ht

/-- A step that first looks at the state is judged by what it does on that state. -/
theorem get_bind {f : σ → Step σ α} {o : Except Halt β}
    (h : ∀ s, inv s → inv (f s s).2 ∧ (f s s).1.map view = o) :
    Follows inv view (get >>= f) o := by
  intro s hs
  rw [bind_apply]
  exact h s hs

end Follows

end Step

end RouteBinding
