import Mathlib.Data.List.Nodup
import Mathlib.Data.List.Perm.Subperm
import Mathlib.Data.Nat.Find
import RouteBinding.Operation.Compiler
import RouteBinding.Proofs.Naming.Identifier
import RouteBinding.Proofs.Step
import RouteBinding.Proofs.Text.Numeral

/-!
# Names with counters

Names that must differ are given one after the other. A name that is free is given as it is; one that is taken gets the
least counter from two on with which it is free (`Gets`). There always is one, since not more counters can be taken than
there are names (`exists_free`), so that the search for it never runs out of fuel (`gives_takeName`). All names that are
given are different (`GetsAll.nodup`).
-/

namespace RouteBinding

namespace Naming

variable {taken bases names : List String} {base name : String}

/-- The name that is given for a base where some names are taken: the base, or if that is taken the base with the least
counter from two on that makes it free. -/
inductive Gets (taken : List String) (base : String) : String → Prop
  | own (h : base ∉ taken) : Gets taken base base
  | counted {n : Nat} (h : base ∈ taken) (hn : 2 ≤ n) (hfree : base ++ toString n ∉ taken)
    (hleast : ∀ m, 2 ≤ m → m < n → base ++ toString m ∈ taken) : Gets taken base (base ++ toString n)

/-- The names that are given for bases one after the other, each of which is taken for the next ones. -/
inductive GetsAll : List String → List String → List String → Prop
  | nil {taken : List String} : GetsAll taken [] []
  | cons {taken bases names : List String} {base name : String} (h : Gets taken base name)
    (hrest : GetsAll (taken ++ [name]) bases names) : GetsAll taken (base :: bases) (name :: names)

theorem Gets.notMem (h : Gets taken base name) : name ∉ taken := by
  cases h with
  | own h => exact h
  | counted _ _ hfree _ => exact hfree

/-- Names that are given differ from each other and from those that were taken before. -/
theorem GetsAll.nodup (h : GetsAll taken bases names) (htaken : taken.Nodup) : (taken ++ names).Nodup := by
  induction h with
  | nil => rwa [List.append_nil]
  | @cons taken bases names base name h _ ih =>
    have hmore : (taken ++ [name]).Nodup :=
      List.nodup_append.2 ⟨htaken, List.nodup_singleton name, fun a ha b hb heq =>
        h.notMem (by rwa [← List.mem_singleton.1 hb, ← heq])⟩
    have hnodup := ih hmore
    rwa [List.append_assoc] at hnodup

theorem GetsAll.append {bases' names' : List String} (h : GetsAll taken bases names)
    (h' : GetsAll (taken ++ names) bases' names') : GetsAll taken (bases ++ bases') (names ++ names') := by
  induction h with
  | nil => rwa [List.append_nil] at h'
  | cons h _ ih =>
    refine .cons h (ih ?_)
    rwa [List.append_assoc]

theorem GetsAll.length_eq (h : GetsAll taken bases names) : bases.length = names.length := by
  induction h with
  | nil => rfl
  | cons _ _ ih => rw [List.length_cons, List.length_cons, ih]

/-! ## Counters as parts of names -/

theorem isNamePart_toString (n : Nat) : IsNamePart (toString n).toList := by
  rw [Nat.toString_eq_repr, Nat.toList_repr]
  have hdigit : ∀ c ∈ Nat.toDigits 10 n, 48 ≤ c.toNat ∧ c.toNat ≤ 57 := fun c hc =>
    Text.toNat_of_isDigit (Nat.isDigit_of_mem_toDigits (by omega) (by omega) hc)
  refine ⟨fun c hc => ?_, fun c hc => ?_⟩
  · rw [Text.isAsciiAlnum, Text.isAsciiDigit, Bool.or_eq_true, Bool.and_eq_true, decide_eq_true_eq,
      decide_eq_true_eq]
    exact .inr (hdigit c hc)
  · have hc := hdigit c (List.mem_of_mem_head? hc)
    rw [Text.isAsciiLower, Bool.and_eq_false_iff, decide_eq_false_iff_not]
    exact .inl (by omega)

/-- A name with a counter is one for generated code if its base is. -/
theorem Gets.isName (h : Gets taken base name) (hbase : IsName base) : IsName name := by
  cases h with
  | own _ => exact hbase
  | counted _ _ _ _ => exact hbase.append (isNamePart_toString _)

theorem GetsAll.isName (h : GetsAll taken bases names) (hbases : ∀ base ∈ bases, IsName base) :
    ∀ name ∈ names, IsName name := by
  induction h with
  | nil => exact hbases
  | cons h _ ih =>
    obtain ⟨hbase, hrest⟩ := List.forall_mem_cons.1 hbases
    exact List.forall_mem_cons.2 ⟨h.isName hbase, ih hrest⟩

/-! ## Free names -/

theorem append_toString_injective {i j : Nat} (h : base ++ toString i = base ++ toString j) : i = j :=
  Text.toString_injective (String.append_right_inj base |>.1 h)

/-- Of the counters from two on, one more than there are names, one is free. -/
theorem exists_free (taken : List String) (base : String) :
    ∃ k ≤ taken.length, base ++ toString (2 + k) ∉ taken := by
  by_contra! hnone
  have hsub : (List.range (taken.length + 1)).map (fun k => base ++ toString (2 + k)) ⊆ taken := by
    intro name hname
    obtain ⟨k, hk, rfl⟩ := List.mem_map.1 hname
    exact hnone k (Nat.lt_succ_iff.1 (List.mem_range.1 hk))
  have hnodup : ((List.range (taken.length + 1)).map fun k => base ++ toString (2 + k)).Nodup := by
    refine List.Nodup.map (fun i j heq => ?_) List.nodup_range
    exact Nat.add_left_cancel (append_toString_injective heq)
  have hlength := (List.subperm_of_subset hnodup hsub).length_le
  rw [List.length_map, List.length_range] at hlength
  omega

theorem freeName_succ (taken : List String) (base : String) (fuel counter : Nat) :
    Compilation.freeName taken base (fuel + 1) counter =
      if taken.contains (base ++ toString counter) then Compilation.freeName taken base fuel (counter + 1)
      else base ++ toString counter := by
  rw [Compilation.freeName]
  rfl

/-- The search ends at the first counter that is free, if it has the fuel to come there. -/
theorem freeName_eq {fuel counter k : Nat} (htaken : ∀ i < k, base ++ toString (counter + i) ∈ taken)
    (hfree : base ++ toString (counter + k) ∉ taken) (hfuel : k < fuel) :
    Compilation.freeName taken base fuel counter = base ++ toString (counter + k) := by
  induction fuel generalizing counter k with
  | zero => exact absurd hfuel (Nat.not_lt_zero k)
  | succ fuel ih =>
    rw [freeName_succ]
    cases k with
    | zero => rw [if_neg (by simpa using hfree), Nat.add_zero]
    | succ k =>
      have hshift (i : Nat) : counter + 1 + i = counter + (i + 1) := by omega
      have hfirst : base ++ toString counter ∈ taken := htaken 0 (Nat.succ_pos k)
      rw [if_pos (List.contains_iff_mem.2 hfirst), ← hshift k]
      refine ih (fun i hi => ?_) (by rwa [hshift]) (by omega)
      rw [hshift]
      exact htaken (i + 1) (by omega)

/-- The search from two on finds the least counter that is free: there is one within its fuel. -/
theorem gets_freeName (h : base ∈ taken) :
    Gets taken base (Compilation.freeName taken base (taken.length + 1) 2) := by
  have hexists : ∃ k, base ++ toString (2 + k) ∉ taken := (exists_free taken base).imp fun _ hk => hk.2
  obtain ⟨bound, hbound, hfree⟩ := exists_free taken base
  have hle : Nat.find hexists ≤ bound := Nat.find_min' hexists hfree
  have hleast : ∀ i < Nat.find hexists, base ++ toString (2 + i) ∈ taken :=
    fun i hi => not_not.1 (Nat.find_min hexists hi)
  rw [freeName_eq hleast (Nat.find_spec hexists) (by omega)]
  refine .counted h (by omega) (Nat.find_spec hexists) fun m hm hlt => ?_
  have hmem := hleast (m - 2) (by omega)
  rwa [Nat.add_sub_cancel' hm] at hmem

end Naming

/-- Taking a name gives the one that its base gets, and takes that. -/
theorem Compilation.gives_takeName (base : String) (s : Compilation) :
    ∃ name, Step.Gives (takeName base) s name { s with names := s.names ++ [name] } ∧
      Naming.Gets s.names base name := by
  refine ⟨if s.names.contains base then freeName s.names base (s.names.length + 1) 2 else base, ⟨rfl, rfl⟩, ?_⟩
  split_ifs with htaken
  · exact Naming.gets_freeName (List.contains_iff_mem.1 htaken)
  · exact .own fun hmem => htaken (List.contains_iff_mem.2 hmem)

end RouteBinding
