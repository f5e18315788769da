import RouteBinding.Failure
import RouteBinding.Proofs.Outcome
import RouteBinding.Proofs.Step

/-!
# Running actions

What the smallest actions come to on a host, and chains of them. An action that cannot fail gives a value on every
host (`Action.Total`). One that spares a file leaves it as it is on every host, and others do so unless they are done
(`Action.Spares`, `Action.SparesUnlessDone`).
-/

namespace RouteBinding.Action

variable {ε α β : Type} {h h' : Host}

@[simp] theorem pure_apply (a : α) (h : Host) : (pure a : Action α) h = (.ok a, h) := rfl

@[simp] theorem get_apply (h : Host) : (get : Action Host) h = (.ok h, h) := rfl

/-- The second of two actions is done where the first one gives a value. -/
theorem bind_of_ok {x : Action α} {a : α} (hx : x h = (.ok a, h')) (f : α → Action β) :
    (x >>= f) h = f a h' := by
  rw [Step.bind_apply, hx]

/-- The second of two actions is not begun where the first one fails. -/
theorem bind_of_error {x : Action α} {e : Failure} (hx : x h = (.error e, h')) (f : α → Action β) :
    (x >>= f) h = (.error e, h') := by
  rw [Step.bind_apply, hx]

/-- An action with an outcome leaves some host. -/
theorem exists_of_fst {x : Action α} {outcome : Except Failure α} (hx : (x h).1 = outcome) :
    ∃ h', x h = (outcome, h') :=
  ⟨(x h).2, Prod.ext hx rfl⟩

/-- What is known already changes nothing. -/
@[simp] theorem ofExcept_apply (cause : ε → Failure) (x : Except ε α) (h : Host) :
    ofExcept cause x h = (x.mapError cause, h) := by
  cases x <;> rfl

/-- A check as an action succeeds if the check does, and changes nothing. -/
theorem ofExcept_eq_ok {cause : ε → Failure} {x : Except ε α} {a : α} :
    ofExcept cause x h = (.ok a, h') ↔ x = .ok a ∧ h' = h := by
  rw [ofExcept_apply, ← mapError_eq_ok (x := x) (f := cause)]
  constructor
  · intro hdone
    obtain ⟨hx, hh⟩ := Prod.mk.inj hdone
    exact ⟨hx, hh.symm⟩
  · rintro ⟨hx, rfl⟩
    rw [hx]

/-- A change that can be made is made. -/
theorem change_of_ok {step : Host → Except Breakdown Host} (hstep : step h = .ok h') :
    change step h = (.ok ⟨⟩, h') := by
  rw [change, bind_of_ok (get_apply h), hstep]
  rfl

/-- A change as an action succeeds if the change can be made. -/
theorem change_eq_ok {step : Host → Except Breakdown Host} {done : PUnit} :
    change step h = (.ok done, h') ↔ step h = .ok h' := by
  rw [change, bind_of_ok (get_apply h)]
  constructor
  · intro hdone
    cases hstep : step h with
    | ok h₁ =>
      rw [hstep] at hdone
      cases hdone
      rfl
    | error b =>
      rw [hstep] at hdone
      cases hdone
  · intro hstep
    rw [hstep]
    rfl

/-- What fails is attempted no further, and something else is done on the host it has left. -/
theorem tryCatch_apply (x : Action α) (f : Failure → Action α) (h : Host) :
    tryCatch x f h = match x h with
      | (.ok a, h') => (.ok a, h')
      | (.error e, h') => f e h' := by
  show (ExceptT.tryCatch x f) h = _
  unfold ExceptT.tryCatch ExceptT.mk
  show StateT.bind x _ h = _
  unfold StateT.bind
  rcases x h with ⟨outcome, h'⟩
  cases outcome <;> rfl

/-- An action cannot fail: it gives a value on every host. -/
def Total (x : Action α) : Prop :=
  ∀ h, ∃ a h', x h = (.ok a, h')

/-- A result that needs no action is always there. -/
theorem total_pure (a : α) : Total (pure a) := fun h => ⟨a, h, rfl⟩

/-- To note something never fails. -/
theorem total_modify (f : Host → Host) : Total (modify f) := fun h => ⟨⟨⟩, f h, rfl⟩

/-- An action after another never fails if neither does. -/
theorem Total.bind {x : Action α} {f : α → Action β} (hx : Total x) (hf : ∀ a, Total (f a)) :
    Total (x >>= f) := by
  intro h
  obtain ⟨a, h', ha⟩ := hx h
  rw [bind_of_ok ha]
  exact hf a h'

/-- An action for each of a list never fails if none does. -/
theorem total_forM {f : α → Action PUnit} {l : List α} (hf : ∀ a ∈ l, Total (f a)) : Total (l.forM f) := by
  induction l with
  | nil => exact total_pure _
  | cons a rest ih =>
    show Total (f a >>= fun _ => rest.forM f)
    exact (hf a List.mem_cons_self).bind fun _ => ih fun a' ha' => hf a' (List.mem_cons_of_mem _ ha')

/-! ## Sparing a file -/

variable {place : Place} {x : Action α} {f : α → Action β}

/-- The file at a place is as it was, whatever the action comes to. -/
def Spares (place : Place) (x : Action α) : Prop :=
  ∀ h, (x h).2.files.read? place = h.files.read? place

/-- The file at a place is as it was if the action fails. -/
def SparesUnlessDone (place : Place) (x : Action α) : Prop :=
  ∀ h e, (x h).1 = .error e → (x h).2.files.read? place = h.files.read? place

theorem spares_pure (a : α) : Spares place (pure a) := fun _ => rfl

/-- An action that fails spares every place. -/
theorem spares_throw (e : Failure) : Spares place (throw e : Action α) := fun _ => rfl

theorem spares_get : Spares place (get : Action Host) := fun _ => rfl

theorem spares_ofExcept (cause : ε → Failure) (outcome : Except ε α) : Spares place (ofExcept cause outcome) := by
  intro h
  rw [ofExcept_apply]

/-- A change spares a place if what is read there stays. -/
theorem spares_change {step : Host → Except Breakdown Host}
    (hstep : ∀ h h', step h = .ok h' → h'.files.read? place = h.files.read? place) : Spares place (change step) := by
  intro h
  rw [change, bind_of_ok (get_apply h)]
  cases hdone : step h with
  | ok h' => exact hstep h h' hdone
  | error b => rfl

/-- A change that fails changes nothing. -/
theorem sparesUnlessDone_change (step : Host → Except Breakdown Host) : SparesUnlessDone place (change step) := by
  intro h e he
  rw [change, bind_of_ok (get_apply h)] at he ⊢
  cases hdone : step h with
  | ok h' =>
    rw [hdone] at he
    cases he
  | error b => rfl

/-- An action after another spares a place if both do. -/
theorem Spares.bind (hx : Spares place x) (hf : ∀ a, Spares place (f a)) : Spares place (x >>= f) := by
  intro h
  have hfirst := hx h
  rw [Step.bind_apply]
  rcases hrun : x h with ⟨outcome, h'⟩
  rw [hrun] at hfirst
  cases outcome with
  | ok a => exact (hf a h').trans hfirst
  | error e => exact hfirst

/-- If the first of two actions spares a file, the chain does unless the second one is done. -/
theorem Spares.bind_unlessDone (hx : Spares place x) (hf : ∀ a, SparesUnlessDone place (f a)) :
    SparesUnlessDone place (x >>= f) := by
  intro h e he
  have hfirst := hx h
  rw [Step.bind_apply] at he ⊢
  rcases hrun : x h with ⟨outcome, h'⟩
  rw [hrun] at hfirst he
  cases outcome with
  | ok a => exact (hf a h' e he).trans hfirst
  | error e => exact hfirst

/-- An action for each of a list spares a place if each does. -/
theorem spares_forM {g : α → Action PUnit} {l : List α} (hg : ∀ a ∈ l, Spares place (g a)) :
    Spares place (l.forM g) := by
  induction l with
  | nil => exact spares_pure _
  | cons a rest ih =>
    show Spares place (g a >>= fun _ => rest.forM g)
    exact (hg a List.mem_cons_self).bind fun _ => ih fun a' ha' => hg a' (List.mem_cons_of_mem _ ha')

end RouteBinding.Action
