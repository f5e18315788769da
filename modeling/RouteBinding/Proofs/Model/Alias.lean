import Mathlib.Data.List.Perm.Subperm
import Mathlib.Logic.Relation
import RouteBinding.Model.Basic
import RouteBinding.Step

/-!
# Chains of aliases

Going on from a thing to its successor, as long as there is one (`Leads`). A chain that ends passes nothing twice, so it
has no more steps than there are things with successors.

Where a chain of aliases ends, `TypeModel.unalias` finds its end (`TypeModel.unalias_of_leads`): the names on such a
chain are all defined and none comes twice, so that neither the fuel nor the check for loops cuts it short.
-/

namespace RouteBinding

/-- Going on from one thing, in a count of steps, leads to another that has no successor. -/
inductive Leads {α : Type} (next : α → Option α) : Nat → α → α → Prop
  | done {a : α} (h : next a = none) : Leads next 0 a a
  | step {n : Nat} {a b c : α} (h : next a = some b) (hb : Leads next n b c) :
    Leads next (n + 1) a c

/-- What a chain ends at, if it ends within the fuel. -/
def lastWithin {α : Type} (next : α → Option α) : (fuel : Nat) → α → Option α
  | 0, _ => none
  | fuel + 1, a =>
    match next a with
    | some b => lastWithin next fuel b
    | none => some a

namespace Leads

variable {α : Type} {next : α → Option α} {n n' fuel : Nat} {a b c c' : α}

/-- There is only one way to go on. -/
theorem unique (h : Leads next n a c) (h' : Leads next n' a c') : n = n' ∧ c = c' := by
  induction h generalizing n' with
  | done h =>
    cases h' with
    | done => exact ⟨rfl, rfl⟩
    | step h' => rw [h] at h'; cases h'
  | step h hb ih =>
    cases h' with
    | done h' => rw [h] at h'; cases h'
    | step h' hb' =>
      rw [h] at h'
      cases h'
      obtain ⟨rfl, rfl⟩ := ih hb'
      exact ⟨rfl, rfl⟩

/-- The things that a chain passes are as many as its steps, and none comes twice: from each of them the chain
has another count of steps to go. -/
theorem exists_passed (h : Leads next n a c) :
    ∃ l : List α, l.length = n ∧ l.Nodup ∧
      ∀ x ∈ l, (next x).isSome ∧ ∃ k ≤ n, Leads next k x c := by
  induction h with
  | done _ => exact ⟨[], rfl, List.nodup_nil, fun x hx => by cases hx⟩
  | @step n a b c h hb ih =>
    obtain ⟨l, hlength, hnodup, hl⟩ := ih
    refine ⟨a :: l, by rw [List.length_cons, hlength], List.nodup_cons.2 ⟨fun ha => ?_, hnodup⟩, ?_⟩
    · obtain ⟨-, k, hk, hlead⟩ := hl a ha
      have heq := (hlead.unique (.step h hb)).1
      omega
    · intro x hx
      rcases List.mem_cons.1 hx with rfl | hx
      · exact ⟨by rw [h]; rfl, n + 1, Nat.le_refl _, .step h hb⟩
      · obtain ⟨hsome, k, hk, hlead⟩ := hl x hx
        exact ⟨hsome, k, by omega, hlead⟩

/-- A chain has no more steps than there are things with successors. -/
theorem le_length (h : Leads next n a c) {l : List α} (hl : ∀ x, (next x).isSome → x ∈ l) :
    n ≤ l.length := by
  obtain ⟨passed, rfl, hnodup, hpassed⟩ := h.exists_passed
  exact (List.subperm_of_subset hnodup fun x hx => hl x (hpassed x hx).1).length_le

/-- Whatever a chain that ends passes has fewer steps to go. -/
theorem exists_lt_of_transGen (h : Leads next n a c)
    (hb : Relation.TransGen (fun x y => next x = some y) a b) : ∃ k < n, Leads next k b c := by
  have hnext {k : Nat} {x y : α} (hx : Leads next k x c) (hy : next x = some y) :
      ∃ m < k, Leads next m y c := by
    cases hx with
    | done hnone => rw [hnone] at hy; cases hy
    | @step m _ _ _ hsome hlead =>
      rw [hsome] at hy
      cases hy
      exact ⟨m, Nat.lt_succ_self m, hlead⟩
  induction hb with
  | single hab => exact hnext h hab
  | tail _ hbc ih =>
    obtain ⟨k, hk, hlead⟩ := ih
    obtain ⟨m, hm, hlead'⟩ := hnext hlead hbc
    exact ⟨m, Nat.lt_trans hm hk, hlead'⟩

/-- A chain that ends does not come back to where it began. -/
theorem not_transGen (h : Leads next n a c) :
    ¬ Relation.TransGen (fun x y => next x = some y) a a := by
  intro hcycle
  obtain ⟨k, hk, hlead⟩ := h.exists_lt_of_transGen hcycle
  have heq := (hlead.unique h).1
  omega

theorem lastWithin_eq (h : Leads next n a c) (hfuel : n < fuel) :
    lastWithin next fuel a = some c := by
  induction h generalizing fuel with
  | done h =>
    obtain ⟨fuel, rfl⟩ : ∃ k, fuel = k + 1 := ⟨fuel - 1, by omega⟩
    rw [lastWithin, h]
  | step h _ ih =>
    obtain ⟨fuel, rfl⟩ : ∃ k, fuel = k + 1 := ⟨fuel - 1, by omega⟩
    rw [lastWithin, h]
    exact ih (by omega)

end Leads

end RouteBinding

namespace RouteBinding.TypeModel

variable {m : TypeModel} {n fuel : Nat} {ref target : TypeRef} {seen : List String}

/-- The target of a type that is the name of an alias. -/
def aliasTarget? (m : TypeModel) : TypeRef → Option TypeRef
  | .named name =>
    match m.get? name with
    | some (.alias _ target) => some target
    | _ => none
  | _ => none

theorem aliasTarget?_eq_some (h : m.aliasTarget? ref = some target) :
    ∃ name own, ref = .named name ∧ m.get? name = some (.alias own target) := by
  unfold aliasTarget? at h
  split at h
  · split at h
    · rename_i hget
      cases h
      exact ⟨_, _, rfl, hget⟩
    · cases h
  · cases h

theorem aliasTarget?_of_get? {name own : String} (h : m.get? name = some (.alias own target)) :
    m.aliasTarget? (.named name) = some target := by
  rw [aliasTarget?, h]

theorem unaliasFrom_of_aliasTarget? (h : m.aliasTarget? ref = none) :
    m.unaliasFrom fuel seen ref = ref := by
  cases fuel with
  | zero => rfl
  | succ fuel =>
    cases ref with
    | named name =>
      rw [unaliasFrom]
      rw [aliasTarget?] at h
      split_ifs
      · rfl
      · cases hget : m.get? name with
        | none => rfl
        | some d =>
          rw [hget] at h
          rcases d with ⟨own, target⟩ | _ | _
          · cases h
          · rfl
          · rfl
    | _ => rfl

/-- A chain of aliases is followed to its end if the fuel is enough. Every name that was seen has a longer
way to go, so that it is not met again. -/
theorem unaliasFrom_of_leads (h : Leads m.aliasTarget? n ref target) (hfuel : n ≤ fuel)
    (hseen : ∀ name ∈ seen, ∃ k, n < k ∧ Leads m.aliasTarget? k (.named name) target) :
    m.unaliasFrom fuel seen ref = target := by
  induction h generalizing fuel seen with
  | done h => exact unaliasFrom_of_aliasTarget? h
  | @step n a b c h hb ih =>
    obtain ⟨fuel, rfl⟩ : ∃ k, fuel = k + 1 := ⟨fuel - 1, by omega⟩
    obtain ⟨name, own, rfl, hget⟩ := aliasTarget?_eq_some h
    have hnew : ¬ seen.contains name := by
      intro hcontains
      obtain ⟨k, hk, hlead⟩ := hseen name (List.contains_iff_mem.1 hcontains)
      have heq := (hlead.unique (.step h hb)).1
      omega
    rw [unaliasFrom, if_neg hnew, hget]
    refine ih (by omega) fun name' hmem => ?_
    rcases List.mem_cons.1 hmem with rfl | hmem
    · exact ⟨n + 1, by omega, .step h hb⟩
    · obtain ⟨k, hk, hlead⟩ := hseen name' hmem
      exact ⟨k, by omega, hlead⟩

theorem unalias_of_leads (h : Leads m.aliasTarget? n ref target) : m.unalias ref = target := by
  have hbound : n ≤ (m.definitions.map fun d => TypeRef.named d.1).length := by
    refine h.le_length fun x hx => ?_
    obtain ⟨y, hy⟩ := Option.isSome_iff_exists.1 hx
    obtain ⟨name, own, rfl, hget⟩ := aliasTarget?_eq_some hy
    obtain ⟨before, after, hsplit, -⟩ := List.lookup_eq_some_iff.1 hget
    rw [hsplit]
    exact List.mem_map.2 ⟨(name, .alias own y), by simp, rfl⟩
  rw [List.length_map] at hbound
  exact unaliasFrom_of_leads h hbound fun name hmem => by cases hmem

end RouteBinding.TypeModel
