import Mathlib.Data.List.Forall2
import Mathlib.Tactic.Common

/-!
# Outcomes

When an outcome that is put together from others is a value, and when it is an error; and what is known of
lists whose members are related one by one.
-/

namespace RouteBinding

variable {ε α β : Type} {x : Except ε α}

theorem bind_eq_ok {f : α → Except ε β} {b : β} :
    (x >>= f) = .ok b ↔ ∃ a, x = .ok a ∧ f a = .ok b := by
  cases x <;> simp [Bind.bind, Except.bind]

theorem bind_eq_error {f : α → Except ε β} {e : ε} :
    (x >>= f) = .error e ↔ x = .error e ∨ ∃ a, x = .ok a ∧ f a = .error e := by
  cases x <;> simp [Bind.bind, Except.bind]

theorem map_eq_ok {f : α → β} {b : β} : x.map f = .ok b ↔ ∃ a, x = .ok a ∧ f a = b := by
  cases x <;> simp [Except.map]

theorem mapError_eq_ok {δ : Type} {f : ε → δ} {a : α} : x.mapError f = .ok a ↔ x = .ok a := by
  cases x <;> simp [Except.mapError]

theorem mapError_eq_error {δ : Type} {f : ε → δ} {d : δ} :
    x.mapError f = .error d ↔ ∃ e, x = .error e ∧ f e = d := by
  cases x <;> simp [Except.mapError]

theorem toOption_eq_some {a : α} : x.toOption = some a ↔ x = .ok a := by
  cases x <;> simp [Except.toOption]

/-- A step with a state goes on from where the one in front of it ends. -/
theorem run_bind_ok {σ : Type} {y : StateT σ (Except ε) α} {f : α → StateT σ (Except ε) β} {s s' : σ} {a : α}
    (h : y.run s = .ok (a, s')) : (y >>= f).run s = (f a).run s' := by
  rw [StateT.run_bind, h]
  rfl

/-! ## Lists -/

section Options

variable {f : α → Option β} {l : List α} {r : List β}

/-- A list is mapped if each of it is. -/
theorem mapM_eq_some_iff : l.mapM f = some r ↔ List.Forall₂ (fun a b => f a = some b) l r := by
  induction l generalizing r with
  | nil => simp [eq_comm]
  | cons a l ih =>
    rw [List.mapM_cons, List.forall₂_cons_left_iff]
    simp only [Option.bind_eq_bind, Option.bind_eq_some_iff, ih, Option.pure_def, Option.some.injEq]
    constructor
    · rintro ⟨b, hb, bs, hbs, rfl⟩
      exact ⟨b, bs, hb, hbs, rfl⟩
    · rintro ⟨b, bs, hb, hbs, rfl⟩
      exact ⟨b, hb, bs, hbs, rfl⟩

theorem isSome_mapM_iff : (l.mapM f).isSome ↔ ∀ a ∈ l, (f a).isSome := by
  induction l with
  | nil => simp
  | cons a l ih =>
    rw [List.mapM_cons, List.forall_mem_cons, ← ih]
    cases f a <;> cases l.mapM f <;> simp

/-- A list is not mapped if one of it is not. -/
theorem mapM_eq_none_iff : l.mapM f = none ↔ ∃ a ∈ l, f a = none := by
  rw [← not_iff_not, ← ne_eq, Option.ne_none_iff_isSome, isSome_mapM_iff]
  simp only [not_exists, not_and, ← ne_eq, Option.ne_none_iff_isSome]

end Options

section Related

variable {R S : α → β → Prop}

/-- What relates two lists may be weakened for the members of the first. -/
theorem forall₂_mono_of_mem {l : List α} {k : List β} (hk : List.Forall₂ R l k)
    (h : ∀ a ∈ l, ∀ b, R a b → S a b) : List.Forall₂ S l k := by
  induction hk with
  | nil => exact .nil
  | cons hab _ ih =>
    refine .cons (h _ List.mem_cons_self _ hab) (ih fun a ha b => ?_)
    exact h a (List.mem_cons_of_mem _ ha) b

/-- Lists that are related through a third are related. -/
theorem forall₂_comp {γ : Type} {T : β → γ → Prop} {U : α → γ → Prop} {l : List α}
    {middle : List β} {k : List γ} (hl : List.Forall₂ R l middle) (hk : List.Forall₂ T middle k)
    (h : ∀ a b c, R a b → T b c → U a c) : List.Forall₂ U l k := by
  induction hl generalizing k with
  | nil =>
    cases hk
    exact .nil
  | cons hab _ ih =>
    cases hk with
    | cons hbc hk => exact .cons (h _ _ _ hab hbc) (ih hk)

/-- A member has a partner. -/
theorem exists_of_forall₂ {l : List α} {k : List β} (hk : List.Forall₂ R l k) {a : α}
    (ha : a ∈ l) : ∃ b ∈ k, R a b := by
  induction hk with
  | nil => simp at ha
  | cons hab _ ih =>
    rcases List.mem_cons.1 ha with rfl | ha
    · exact ⟨_, List.mem_cons_self, hab⟩
    · obtain ⟨b, hb, hr⟩ := ih ha
      exact ⟨b, List.mem_cons_of_mem _ hb, hr⟩

end Related

/-- What is found under a key stands in the list with that key. -/
theorem mem_of_lookup [BEq α] [LawfulBEq α] {l : List (α × β)} {a : α} {b : β} (h : l.lookup a = some b) :
    (a, b) ∈ l := by
  obtain ⟨before, after, rfl, -⟩ := List.lookup_eq_some_iff.1 h
  exact List.mem_append_right before List.mem_cons_self

end RouteBinding
