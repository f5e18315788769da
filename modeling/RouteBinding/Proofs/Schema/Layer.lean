import Mathlib.Data.List.Forall2
import RouteBinding.Proofs.Outcome
import RouteBinding.Proofs.Step
import RouteBinding.Schema.Layer

/-!
# Layers side by side

Two layers agree if they are of one kind and the schemas inside them agree one by one (`Layer.Agree`).
Taking a step for every schema inside a layer gives a layer that agrees with it: what `Layer.traverse` comes
to is said here by agreement, so that later proofs need not look at the kinds of layers.
-/

namespace RouteBinding

/-! ## Lists -/

section Lists

variable {α β : Type}

theorem mapM_congr {m : Type → Type} [Monad m] [LawfulMonad m] {f g : α → m β} {l : List α}
    (h : ∀ a ∈ l, f a = g a) : l.mapM f = l.mapM g := by
  induction l with
  | nil => rfl
  | cons a rest ih =>
    rw [List.mapM_cons, List.mapM_cons, h a List.mem_cons_self,
      ih fun a' ha' => h a' (List.mem_cons_of_mem a ha')]

/-- An outcome that is only put into a larger value halts just as before. -/
theorem eq_error_of_map {ε : Type} {x : Except ε α} {f : α → β} {e : ε}
    (h : (do return f (← x)) = (.error e : Except ε β)) : x = .error e := by
  rcases bind_eq_error.1 h with hx | ⟨a, -, h⟩
  · exact hx
  · cases h

/-- A list fails by one of its members. -/
theorem mapM_eq_error {ε : Type} {f : α → Except ε β} {l : List α} {e : ε}
    (h : l.mapM f = .error e) : ∃ a ∈ l, f a = .error e := by
  induction l with
  | nil => simp [Pure.pure, Except.pure] at h
  | cons a rest ih =>
    rw [List.mapM_cons] at h
    rcases bind_eq_error.1 h with ha | ⟨b, -, h⟩
    · exact ⟨a, List.mem_cons_self, ha⟩
    · rcases bind_eq_error.1 h with hrest | ⟨k, -, h⟩
      · obtain ⟨a', ha', he⟩ := ih hrest
        exact ⟨a', List.mem_cons_of_mem _ ha', he⟩
      · cases h

end Lists

/-! ## What steps give -/

/-- A notion of what the steps of a monad give, which goes along with chains of steps. -/
structure Giving (m : Type → Type) [Monad m] where
  gives : {α : Type} → m α → α → Prop
  gives_pure : ∀ {α : Type} {a b : α}, gives (pure a) b ↔ a = b
  gives_bind : ∀ {α β : Type} {x : m α} {f : α → m β} {b : β},
    gives (x >>= f) b ↔ ∃ a, gives x a ∧ gives (f a) b

namespace Giving

/-- What an option gives. -/
def some : Giving Option where
  gives x a := x = Option.some a
  gives_pure := by simp
  gives_bind := by simp [Option.bind_eq_some_iff]

/-- What an outcome gives. -/
def ok {ε : Type} : Giving (Except ε) where
  gives x a := x = Except.ok a
  gives_pure := by simp [Pure.pure, Except.pure]
  gives_bind := by
    intro α β x f b
    cases x <;> simp [Bind.bind, Except.bind]

variable {m : Type → Type} [Monad m] [LawfulMonad m] (G : Giving m) {α β : Type}

/-- Steps for a list give the lists that agree with it by the single step. -/
theorem mapM_iff {f : α → m β} {l : List α} {k : List β} :
    G.gives (l.mapM f) k ↔ List.Forall₂ (fun a b => G.gives (f a) b) l k := by
  induction l generalizing k with
  | nil => rw [List.mapM_nil, G.gives_pure, List.forall₂_nil_left_iff, eq_comm]
  | cons a rest ih =>
    rw [List.mapM_cons, List.forall₂_cons_left_iff]
    simp only [G.gives_bind, G.gives_pure, ih]
    constructor
    · rintro ⟨b, hb, k', hk', rfl⟩
      exact ⟨b, k', hb, hk', rfl⟩
    · rintro ⟨b, k', hb, hk', rfl⟩
      exact ⟨b, hb, k', hk', rfl⟩

end Giving

namespace Layer

variable {α β γ : Type}

/-! ## What stands inside -/

@[simp] theorem inner_map (f : α → β) (l : Layer α) : (l.map f).inner = l.inner.map f := by
  cases l <;> simp [map, inner, Function.comp_def]

/-- Giving pointers to what stands inside a layer changes nothing else. -/
@[simp] theorem map_value_located (pointer : String) (l : Layer Value) :
    (l.located pointer).map Site.value = l := by
  cases l <;> simp [map, located, Function.comp_def]

/-- The places of what is inside a layer hold what is inside it. -/
theorem map_inner_located (pointer : String) (l : Layer Value) :
    (l.located pointer).inner.map Site.value = l.inner := by
  rw [← inner_map, map_value_located]

/-- What stands at a place inside a layer is inside it. -/
theorem value_mem_of_mem_located {pointer : String} {l : Layer Value} {site : Site}
    (h : site ∈ (l.located pointer).inner) : site.value ∈ l.inner := by
  rw [← map_inner_located pointer]
  exact List.mem_map_of_mem h

@[simp] theorem isComplete_located (pointer : String) (l : Layer Value) :
    (l.located pointer).isComplete = l.isComplete := by
  cases l with
  | object properties required => cases required <;> rfl
  | _ => rfl

/-! ## Agreement -/

/-- Two layers are of one kind, with the same names, and the schemas inside them agree one by one. -/
inductive Agree (R : α → β → Prop) : Layer α → Layer β → Prop
  | component (name : String) : Agree R (.component name) (.component name)
  | inlined (reference : String) {a : α} {b : β} (h : R a b) :
    Agree R (.inlined reference a) (.inlined reference b)
  | oneOf {l : List α} {k : List β} (h : List.Forall₂ R l k) : Agree R (.oneOf l) (.oneOf k)
  | array {a : α} {b : β} (h : R a b) : Agree R (.array a) (.array b)
  | object {l : List (String × α)} {k : List (String × β)} (required : Option (List String))
    (h : List.Forall₂ (fun p q => p.1 = q.1 ∧ R p.2 q.2) l k) :
    Agree R (.object l required) (.object k required)
  | primitive (kind : Primitive) : Agree R (.primitive kind) (.primitive kind)

namespace Agree

variable {R S : α → β → Prop} {l : Layer α} {k : Layer β}

/-- What relates two layers may be weakened, given where they are related. -/
theorem mono (h : Agree R l k) (hs : ∀ a ∈ l.inner, ∀ b, R a b → S a b) : Agree S l k := by
  cases h with
  | component name => exact .component name
  | inlined reference h => exact .inlined reference (hs _ List.mem_cons_self _ h)
  | oneOf h => exact .oneOf (forall₂_mono_of_mem h hs)
  | array h => exact .array (hs _ List.mem_cons_self _ h)
  | object required h =>
    refine .object required (forall₂_mono_of_mem h fun p hp q hpq => ?_)
    exact ⟨hpq.1, hs _ (List.mem_map_of_mem hp) _ hpq.2⟩
  | primitive kind => exact .primitive kind

/-- What is inside one layer has a partner inside the other. -/
theorem exists_right (h : Agree R l k) {a : α} (ha : a ∈ l.inner) : ∃ b ∈ k.inner, R a b := by
  cases h with
  | component name => simp [inner] at ha
  | inlined reference h =>
    simp only [inner, List.mem_singleton] at ha
    subst ha
    exact ⟨_, List.mem_cons_self, h⟩
  | oneOf h => exact exists_of_forall₂ h ha
  | array h =>
    simp only [inner, List.mem_singleton] at ha
    subst ha
    exact ⟨_, List.mem_cons_self, h⟩
  | object required h =>
    obtain ⟨p, hp, rfl⟩ := List.mem_map.1 ha
    obtain ⟨q, hq, hpq⟩ := exists_of_forall₂ h hp
    exact ⟨q.2, List.mem_map_of_mem hq, hpq.2⟩
  | primitive kind => simp [inner] at ha

theorem flip (h : Agree R l k) : Agree (fun b a => R a b) k l := by
  cases h with
  | component name => exact .component name
  | inlined reference h => exact .inlined reference h
  | oneOf h => exact .oneOf h.flip
  | array h => exact .array h
  | object required h =>
    refine .object required (h.flip.imp fun q p hpq => ?_)
    exact ⟨hpq.1.symm, hpq.2⟩
  | primitive kind => exact .primitive kind

theorem exists_left (h : Agree R l k) {b : β} (hb : b ∈ k.inner) : ∃ a ∈ l.inner, R a b :=
  h.flip.exists_right hb

/-- Layers that agree are both complete or both not. -/
theorem isComplete_eq (h : Agree R l k) : l.isComplete = k.isComplete := by
  cases h with
  | object required h => cases required <;> rfl
  | _ => rfl

/-- A layer agrees changed if it agrees by what the change gives. -/
theorem map_left {f : γ → α} {l : Layer γ} :
    Agree R (l.map f) k ↔ Agree (fun c b => R (f c) b) l k := by
  constructor
  · intro h
    cases l <;> cases h
    case component name => exact .component name
    case inlined reference c b h => exact .inlined reference h
    case oneOf branches k h => exact .oneOf (List.forall₂_map_left_iff.1 h)
    case array item b h => exact .array h
    case object properties required k h => exact .object required (List.forall₂_map_left_iff.1 h)
    case primitive kind => exact .primitive kind
  · intro h
    cases h with
    | component name => exact .component name
    | inlined reference h => exact .inlined reference h
    | oneOf h => exact .oneOf (List.forall₂_map_left_iff.2 h)
    | array h => exact .array h
    | object required h => exact .object required (List.forall₂_map_left_iff.2 h)
    | primitive kind => exact .primitive kind

end Agree

/-- A layer agrees with a changed one if it agrees by what the change gives. -/
theorem Agree.map_right {R : α → γ → Prop} {f : β → γ} {l : Layer α} {k : Layer β} :
    Agree R l (k.map f) ↔ Agree (fun a b => R a (f b)) l k := by
  constructor
  · intro h
    exact (map_left.1 h.flip).flip
  · intro h
    exact (map_left.2 h.flip).flip

/-! ## Taking a step for every schema inside -/

/-- Taking a step for every schema inside a layer gives the layers that agree with it by that step. -/
theorem gives_traverse_iff {m : Type → Type} [Monad m] [LawfulMonad m] (G : Giving m)
    {f : α → m β} {l : Layer α} {k : Layer β} :
    G.gives (l.traverse f) k ↔ Agree (fun a b => G.gives (f a) b) l k := by
  have pair (p : String × α) (q : String × β) :
      G.gives (do return (p.1, ← f p.2)) q ↔ p.1 = q.1 ∧ G.gives (f p.2) q.2 := by
    rcases q with ⟨name, b⟩
    simp only [G.gives_bind, G.gives_pure, Prod.mk.injEq]
    constructor
    · rintro ⟨b', hb, hname, rfl⟩
      exact ⟨hname, hb⟩
    · rintro ⟨hname, hb⟩
      exact ⟨b, hb, hname, rfl⟩
  -- one case for each kind of layer; in the other direction, one for each kind of agreement
  constructor
  · intro h
    cases l with
    | component name => obtain rfl := G.gives_pure.1 h; exact .component name
    | inlined reference target =>
      obtain ⟨b, hb, hk⟩ := G.gives_bind.1 h
      obtain rfl := G.gives_pure.1 hk
      exact .inlined reference hb
    | oneOf branches =>
      obtain ⟨k', hk', hk⟩ := G.gives_bind.1 h
      obtain rfl := G.gives_pure.1 hk
      exact .oneOf (G.mapM_iff.1 hk')
    | array item =>
      obtain ⟨b, hb, hk⟩ := G.gives_bind.1 h
      obtain rfl := G.gives_pure.1 hk
      exact .array hb
    | object properties required =>
      obtain ⟨k', hk', hk⟩ := G.gives_bind.1 h
      obtain rfl := G.gives_pure.1 hk
      exact .object required ((G.mapM_iff.1 hk').imp fun p q => (pair p q).1)
    | primitive kind => obtain rfl := G.gives_pure.1 h; exact .primitive kind
  · intro h
    cases h with
    | component name => exact G.gives_pure.2 rfl
    | inlined reference h => exact G.gives_bind.2 ⟨_, h, G.gives_pure.2 rfl⟩
    | oneOf h => exact G.gives_bind.2 ⟨_, G.mapM_iff.2 h, G.gives_pure.2 rfl⟩
    | array h => exact G.gives_bind.2 ⟨_, h, G.gives_pure.2 rfl⟩
    | object required h =>
      refine G.gives_bind.2 ⟨_, G.mapM_iff.2 (h.imp fun p q => (pair p q).2), G.gives_pure.2 rfl⟩
    | primitive kind => exact G.gives_pure.2 rfl

/-- Only the steps for the schemas inside a layer matter. -/
theorem traverse_congr {m : Type → Type} [Monad m] [LawfulMonad m] {f g : α → m β} {l : Layer α}
    (h : ∀ a ∈ l.inner, f a = g a) : l.traverse f = l.traverse g := by
  cases l with
  | component name => rfl
  | inlined reference target => rw [traverse, traverse, h target List.mem_cons_self]
  | oneOf branches =>
    have hb : branches.mapM f = branches.mapM g := mapM_congr h
    rw [traverse, traverse, hb]
  | array item => rw [traverse, traverse, h item List.mem_cons_self]
  | object properties required =>
    have hp : ∀ p ∈ properties, (do return (p.1, ← f p.2) : m (String × β)) =
        do return (p.1, ← g p.2) := by
      intro p hp
      rw [h p.2 (List.mem_map_of_mem hp)]
    rw [traverse, traverse, mapM_congr hp]
  | primitive kind => rfl

/-- A layer is made part by part if every part is made. -/
theorem traverse_eq_some_iff {f : α → Option β} {l : Layer α} {k : Layer β} :
    l.traverse f = some k ↔ Agree (fun a b => f a = some b) l k :=
  gives_traverse_iff .some

/-- A layer is made part by part if every part is made without an error. -/
theorem traverse_eq_ok_iff {ε : Type} {f : α → Except ε β} {l : Layer α} {k : Layer β} :
    l.traverse f = .ok k ↔ Agree (fun a b => f a = .ok b) l k :=
  gives_traverse_iff .ok

/-- If taking the steps halts, one of them does. -/
theorem traverse_eq_error {ε : Type} {f : α → Except ε β} {l : Layer α} {e : ε}
    (h : l.traverse f = .error e) : ∃ a ∈ l.inner, f a = .error e := by
  cases l with
  | component name => cases h
  | inlined reference target =>
    refine ⟨target, List.mem_cons_self, ?_⟩
    exact eq_error_of_map h
  | oneOf branches => exact mapM_eq_error (eq_error_of_map h)
  | array item => exact ⟨item, List.mem_cons_self, eq_error_of_map h⟩
  | object properties required =>
    obtain ⟨p, hp, he⟩ := mapM_eq_error (eq_error_of_map h)
    exact ⟨p.2, List.mem_map_of_mem hp, eq_error_of_map he⟩
  | primitive kind => cases h

/-- Steps for all schemas inside a layer keep to a course, and every value stays good on the way. -/
theorem runs_traverse {σ ε : Type} {C : Course σ} {s : σ} {f : α → ExceptT ε (StateM σ) β}
    {good : α → β → σ → Prop} {l : Layer α} (hs : C.inv s)
    (hstable : ∀ a b t u, C.le t u → good a b t → good a b u)
    (hf : ∀ a ∈ l.inner, ∀ t, C.inv t → C.le s t → C.Runs (f a) t (good a)) :
    C.Runs (l.traverse f) s fun k t => Agree (fun a b => good a b t) l k := by
  cases l with
  | component name => exact Course.runs_pure hs (.component name)
  | inlined reference target =>
    refine Course.Runs.bind (hf target List.mem_cons_self s hs (C.refl s)) fun b t ht _ hb => ?_
    exact Course.runs_pure ht (.inlined reference hb)
  | oneOf branches =>
    refine Course.Runs.bind (Course.runs_mapM hs hstable hf) fun k t ht _ hk => ?_
    exact Course.runs_pure ht (.oneOf hk)
  | array item =>
    refine Course.Runs.bind (hf item List.mem_cons_self s hs (C.refl s)) fun b t ht _ hb => ?_
    exact Course.runs_pure ht (.array hb)
  | object properties required =>
    have hp : ∀ p ∈ properties, ∀ t, C.inv t → C.le s t →
        C.Runs (do return (p.1, ← f p.2)) t fun (q : String × β) u =>
          p.1 = q.1 ∧ good p.2 q.2 u := by
      intro p hp t ht hst
      refine Course.Runs.bind (hf p.2 (List.mem_map_of_mem hp) t ht hst) fun b u hu _ hb => ?_
      exact Course.runs_pure hu ⟨rfl, hb⟩
    have hstable' : ∀ (p : String × α) (q : String × β) t u, C.le t u →
        p.1 = q.1 ∧ good p.2 q.2 t → p.1 = q.1 ∧ good p.2 q.2 u :=
      fun p q t u hle h => ⟨h.1, hstable p.2 q.2 t u hle h.2⟩
    refine Course.Runs.bind (Course.runs_mapM hs hstable' hp) fun k t ht _ hk => ?_
    exact Course.runs_pure ht (.object required hk)
  | primitive kind => exact Course.runs_pure hs (.primitive kind)

section Follows

open Step (Follows)

variable {σ : Type} {inv : σ → Prop} {view : β → γ} {f : α → Step σ β} {g : α → Except Halt γ}

/-- Steps for a list follow outcomes if each does. -/
theorem follows_mapM {l : List α} (h : ∀ a ∈ l, Follows inv view (f a) (g a)) :
    Follows inv (List.map view) (l.mapM f) (l.mapM g) := by
  induction l with
  | nil => exact Follows.pure []
  | cons a rest ih =>
    rw [List.mapM_cons, List.mapM_cons]
    have hrest := ih fun a' ha' => h a' (List.mem_cons_of_mem _ ha')
    refine Follows.bind (h a List.mem_cons_self) fun b _ => ?_
    exact Follows.bind hrest fun k _ => Follows.pure (b :: k)

/-- If the step for every schema inside follows an outcome, the steps for a layer follow the outcomes. -/
theorem follows_traverse {l : Layer α} (h : ∀ a ∈ l.inner, Follows inv view (f a) (g a)) :
    Follows inv (Layer.map view) (l.traverse f) (l.traverse g) := by
  cases l with
  | component name => exact Follows.pure (Layer.component name)
  | inlined reference target =>
    refine Follows.bind (h target List.mem_cons_self) fun b _ => ?_
    exact Follows.pure (Layer.inlined reference b)
  | oneOf branches =>
    exact Follows.bind (follows_mapM h) fun k _ => Follows.pure (Layer.oneOf k)
  | array item =>
    refine Follows.bind (h item List.mem_cons_self) fun b _ => ?_
    exact Follows.pure (Layer.array b)
  | object properties required =>
    have hp : ∀ p ∈ properties, Follows inv (fun q : String × β => (q.1, view q.2))
        (do return (p.1, ← f p.2)) (do return (p.1, ← g p.2)) := by
      intro p hp
      refine Follows.bind (h p.2 (List.mem_map_of_mem hp)) fun b _ => ?_
      exact Follows.pure (p.1, b)
    exact Follows.bind (follows_mapM hp) fun k _ => Follows.pure (Layer.object k required)
  | primitive kind => exact Follows.pure (Layer.primitive kind)

end Follows

end Layer

end RouteBinding
