import RouteBinding.Proofs.Schema.Layer

/-!
# Steps side by side

Two steps run side by side if, from every state and its image, they come to the same outcome and to a state and its
image (`Step.Alongside`). What is given may be another value, as long as the two are related. There is one rule for
each way in which steps are put together, so that two runs are compared along their texts.
-/

namespace RouteBinding

/-- Two outcomes are the same: they are related values, or the same reason to halt. -/
inductive SameOutcome {ε α β : Type} (rel : α → β → Prop) : Except ε α → Except ε β → Prop
  | ok {a : α} {b : β} (h : rel a b) : SameOutcome rel (.ok a) (.ok b)
  | error (e : ε) : SameOutcome rel (.error e) (.error e)

namespace SameOutcome

variable {ε α β : Type} {rel rel' : α → β → Prop} {x : Except ε α} {y : Except ε β}

/-- What relates the results may be weakened. -/
theorem mono (h : SameOutcome rel x y) (hrel : ∀ a b, x = .ok a → rel a b → rel' a b) :
    SameOutcome rel' x y := by
  cases h with
  | ok h => exact .ok (hrel _ _ rfl h)
  | error e => exact .error e

/-- Outcomes stay the same when their errors are changed alike. -/
theorem mapError {ε' : Type} (h : SameOutcome rel x y) (f : ε → ε') :
    SameOutcome rel (x.mapError f) (y.mapError f) := by
  cases h with
  | ok h => exact .ok h
  | error e => exact .error (f e)

/-- An outcome and the same one with every value mapped. -/
theorem of_map {f : α → β} (x : Except ε α) :
    SameOutcome (fun a b => x = .ok a ∧ b = f a) x (x.map f) := by
  cases x with
  | error e => exact .error e
  | ok a => exact .ok ⟨rfl, rfl⟩

/-- What is found out second knows what was found out first. -/
theorem bind {γ δ : Type} {relb : γ → δ → Prop} {f : α → Except ε γ} {f' : β → Except ε δ}
    (h : SameOutcome rel x y) (hf : ∀ a b, rel a b → SameOutcome relb (f a) (f' b)) :
    SameOutcome relb (x >>= f) (y >>= f') := by
  cases h with
  | ok hab => exact hf _ _ hab
  | error e => exact .error e

theorem refl (x : Except ε α) : SameOutcome Eq x x := by
  cases x with
  | error e => exact .error e
  | ok a => exact .ok rfl

/-- Outcomes with equal results are equal. -/
theorem eq {x y : Except ε α} (h : SameOutcome Eq x y) : x = y := by
  cases h with
  | ok h => rw [h]
  | error e => rfl

end SameOutcome

namespace Step

variable {σ τ ε α β γ δ : Type}

/-- From every state and its image, two steps come to the same outcome, and to a state and its image. -/
def Alongside (image : σ → τ) (rel : α → β → Prop) (x : ExceptT ε (StateM σ) α)
    (x' : ExceptT ε (StateM τ) β) : Prop :=
  ∀ s, SameOutcome rel (x s).1 (x' (image s)).1 ∧ (x' (image s)).2 = image (x s).2

section Rules

variable {image : σ → τ} {rel rel' : α → β → Prop} {relb : γ → δ → Prop}
  {x : ExceptT ε (StateM σ) α} {x' : ExceptT ε (StateM τ) β}

/-- Two results that are related need no step. -/
theorem alongside_pure {a : α} {b : β} (h : rel a b) :
    Alongside image rel (pure a : ExceptT ε (StateM σ) α) (pure b : ExceptT ε (StateM τ) β) :=
  fun _ => ⟨.ok h, rfl⟩

/-- Two steps that fail alike run alongside. -/
theorem alongside_throw (e : ε) :
    Alongside image rel (throw e : ExceptT ε (StateM σ) α) (throw e : ExceptT ε (StateM τ) β) :=
  fun _ => ⟨.error e, rfl⟩

/-- The second steps know what the first have given. -/
theorem Alongside.bind {f : α → ExceptT ε (StateM σ) γ} {f' : β → ExceptT ε (StateM τ) δ}
    (h : Alongside image rel x x') (hf : ∀ a b, rel a b → Alongside image relb (f a) (f' b)) :
    Alongside image relb (x >>= f) (x' >>= f') := by
  intro s
  obtain ⟨hout, hstate⟩ := h s
  rw [bind_apply, bind_apply]
  rcases hrun : x s with ⟨outcome, t⟩
  rcases hrun' : x' (image s) with ⟨outcome', t'⟩
  rw [hrun, hrun'] at hout hstate
  cases hout with
  | ok hab =>
    dsimp only at hstate
    subst hstate
    exact hf _ _ hab t
  | error e => exact ⟨.error e, hstate⟩

/-- Steps after steps with one result run alongside if they do for that result. -/
theorem Alongside.bind_eq {x : ExceptT ε (StateM σ) α} {x' : ExceptT ε (StateM τ) α}
    {f : α → ExceptT ε (StateM σ) γ} {f' : α → ExceptT ε (StateM τ) δ}
    (h : Alongside image Eq x x') (hf : ∀ a, Alongside image relb (f a) (f' a)) :
    Alongside image relb (x >>= f) (x' >>= f') := by
  refine h.bind fun a b hab => ?_
  subst hab
  exact hf a

/-- Steps that look at the state first are compared on every state and its image. -/
theorem alongside_get_bind {f : σ → ExceptT ε (StateM σ) γ} {f' : τ → ExceptT ε (StateM τ) δ}
    (h : ∀ s, Alongside image relb (f s) (f' (image s))) :
    Alongside image relb (get >>= f) (get >>= f') := by
  intro s
  rw [bind_apply, bind_apply]
  exact h s s

/-- Changes run alongside if they agree on every state. -/
theorem alongside_modify {f : σ → σ} {f' : τ → τ} (h : ∀ s, f' (image s) = image (f s)) :
    Alongside image Eq (modify f : ExceptT ε (StateM σ) PUnit)
      (modify f' : ExceptT ε (StateM τ) PUnit) :=
  fun s => ⟨.ok rfl, h s⟩

theorem alongside_set {t : σ} :
    Alongside image Eq (set t : ExceptT ε (StateM σ) PUnit)
      (set (image t) : ExceptT ε (StateM τ) PUnit) :=
  fun _ => ⟨.ok rfl, rfl⟩

/-- Steps for two lists that are alike give the same values if the single steps do. -/
theorem alongside_mapM {f : α → ExceptT ε (StateM σ) γ} {f' : β → ExceptT ε (StateM τ) γ}
    {l : List α} {k : List β} (h : List.Forall₂ (fun a b => Alongside image Eq (f a) (f' b)) l k) :
    Alongside image Eq (l.mapM f) (k.mapM f') := by
  induction h with
  | nil => exact alongside_pure rfl
  | cons hab _ ih =>
    rw [List.mapM_cons, List.mapM_cons]
    exact hab.bind_eq fun c => ih.bind_eq fun cs => alongside_pure rfl

/-- Steps for each of two lists run alongside if they do in pairs. -/
theorem alongside_forM {f : α → ExceptT ε (StateM σ) PUnit} {f' : β → ExceptT ε (StateM τ) PUnit}
    {l : List α} {k : List β} (h : List.Forall₂ (fun a b => Alongside image Eq (f a) (f' b)) l k) :
    Alongside image Eq (l.forM f) (k.forM f') := by
  induction h with
  | nil => exact alongside_pure rfl
  | cons hab _ ih => exact hab.bind_eq fun _ => ih

end Rules

/-! ## Errors and breakdowns -/

variable {image : σ → τ} {rel : α → β → Prop} {relb : γ → δ → Prop}

theorem alongside_fail (e : CompileError) :
    Alongside image rel (fail e : Step σ α) (fail e : Step τ β) :=
  alongside_throw _

theorem alongside_breakOff (b : Breakdown) :
    Alongside image rel (breakOff b : Step σ α) (breakOff b : Step τ β) :=
  alongside_throw _

theorem alongside_fail_bind {f : α → Step σ γ} {f' : β → Step τ δ} (e : CompileError) :
    Alongside image relb (fail e >>= f) (fail e >>= f') :=
  alongside_throw _

theorem alongside_breakOff_bind {f : α → Step σ γ} {f' : β → Step τ δ} (b : Breakdown) :
    Alongside image relb (breakOff b >>= f) (breakOff b >>= f') :=
  alongside_throw _

/-- Two outcomes run alongside if they are the same. -/
theorem alongside_ofOutcome {outcome : Except Halt α} {outcome' : Except Halt β}
    (h : SameOutcome rel outcome outcome') :
    Alongside image rel (ofOutcome outcome : Step σ α) (ofOutcome outcome' : Step τ β) :=
  fun _ => ⟨h, rfl⟩

/-- Two checks run alongside if they are the same. -/
theorem alongside_ofExcept {outcome : Except CompileError α} {outcome' : Except CompileError β}
    (h : SameOutcome rel outcome outcome') :
    Alongside image rel (ofExcept outcome : Step σ α) (ofExcept outcome' : Step τ β) := by
  cases h with
  | ok h => exact alongside_pure h
  | error e => exact alongside_fail e

/-- Attempts of steps that run side by side give the same errors. -/
theorem Alongside.attempt {x : Step σ α} {x' : Step τ β} (h : Alongside image rel x x') :
    Alongside image (SameOutcome rel) (Step.attempt x) (Step.attempt x') := by
  intro s
  obtain ⟨hout, hstate⟩ := h s
  rw [Step.attempt, Step.attempt]
  rcases hrun : x s with ⟨outcome, t⟩
  rcases hrun' : x' (image s) with ⟨outcome', t'⟩
  rw [hrun, hrun'] at hout hstate
  cases hout with
  | ok hab => exact ⟨.ok (.ok hab), hstate⟩
  | error halt =>
    cases halt with
    | error e => exact ⟨.ok (.error e), hstate⟩
    | breakdown b => exact ⟨.error _, hstate⟩

/-- Attempts run alongside if what is attempted does. -/
theorem Alongside.attempt_eq {x : Step σ α} {x' : Step τ α} (h : Alongside image Eq x x') :
    Alongside image Eq (Step.attempt x) (Step.attempt x') := by
  intro s
  obtain ⟨hout, hstate⟩ := h.attempt s
  exact ⟨hout.mono fun _ _ _ hab => hab.eq, hstate⟩

/-- Steps over a part of the state run side by side if they do over the part. -/
theorem Alongside.zoom {σ' τ' : Type} {imagePart : σ' → τ'} {part : σ → σ'} {part' : τ → τ'}
    {update : σ' → σ → σ} {update' : τ' → τ → τ} {x : Step σ' α} {x' : Step τ' β}
    (h : Alongside imagePart rel x x') (hpart : ∀ s, part' (image s) = imagePart (part s))
    (hupdate : ∀ s t, update' (imagePart t) (image s) = image (update t s)) :
    Alongside image rel (Step.zoom part update x) (Step.zoom part' update' x') := by
  intro s
  obtain ⟨hout, hstate⟩ := h (part s)
  rw [Step.zoom, Step.zoom, hpart]
  refine ⟨hout, ?_⟩
  show update' (x' (imagePart (part s))).2 (image s) = image (update (x (part s)).2 s)
  rw [hstate, hupdate]

end Step

namespace Layer

variable {σ τ ε α β γ : Type}

open Step (Alongside alongside_pure alongside_mapM)

/-- A step for every schema inside a layer in which something else was put for each. -/
theorem traverse_map {m : Type → Type} [Monad m] [LawfulMonad m] (f : α → β) (g : β → m γ)
    (l : Layer α) : (l.map f).traverse g = l.traverse fun a => g (f a) := by
  cases l <;> simp [map, traverse, List.mapM_map, Function.comp_def]

/-- Steps for all schemas inside a layer run side by side if the single steps do. -/
theorem alongside_traverse {image : σ → τ} {f : α → ExceptT ε (StateM σ) β}
    {f' : α → ExceptT ε (StateM τ) β} {l : Layer α}
    (h : ∀ a ∈ l.inner, Alongside image Eq (f a) (f' a)) :
    Alongside image Eq (l.traverse f) (l.traverse f') := by
  cases l with
  | component name => exact alongside_pure rfl
  | inlined reference target =>
    exact (h target List.mem_cons_self).bind_eq fun b => alongside_pure rfl
  | oneOf branches =>
    exact (alongside_mapM (List.forall₂_same.2 h)).bind_eq fun k => alongside_pure rfl
  | array item =>
    exact (h item List.mem_cons_self).bind_eq fun b => alongside_pure rfl
  | object properties required =>
    have hp : ∀ p ∈ properties, Alongside image Eq (do return (p.1, ← f p.2))
        (do return (p.1, ← f' p.2)) := fun p hp =>
      (h p.2 (List.mem_map_of_mem hp)).bind_eq fun b => alongside_pure rfl
    exact (alongside_mapM (List.forall₂_same.2 hp)).bind_eq fun k => alongside_pure rfl
  | primitive kind => exact alongside_pure rfl

end Layer

end RouteBinding
