import Mathlib.Data.List.Count

/-!
# Resources that are disposed of once

Resources are numbered as they are obtained. At most one of them is held; every other one was
disposed of in one of two ways, and only once.
-/
namespace Summer.Lib

/-- Of the first `n` resources only `held` is in neither list, and the others are in one of the
lists, once. -/
structure Ledger (n : Nat) (closed handed : List Nat) (held : Option Nat) : Prop where
  held_lt : ∀ i, held = some i → i < n
  spent : ∀ i, i < n → held ≠ some i → closed.count i + handed.count i = 1
  unspent : ∀ i, n ≤ i ∨ held = some i → i ∉ closed ∧ i ∉ handed

namespace Ledger

variable {n : Nat} {closed handed : List Nat} {held : Option Nat} {i : Nat}

theorem empty : Ledger 0 [] [] none :=
  ⟨nofun, nofun, fun _ _ => ⟨List.not_mem_nil, List.not_mem_nil⟩⟩

/-- The next resource is obtained and held. -/
theorem obtain_held (h : Ledger n closed handed none) : Ledger (n + 1) closed handed (some n) := by
  refine ⟨fun i hi => ?_, fun i hlt hne => ?_, fun i hi => h.unspent i (.inl ?_)⟩
  · cases hi
    exact Nat.lt_succ_self n
  · have hni : i ≠ n := fun he => hne (congrArg some he.symm)
    exact h.spent i (by omega) nofun
  · rcases hi with hi | hi
    · exact Nat.le_of_succ_le hi
    · cases hi
      exact Nat.le_refl _

theorem count_concat_ne {l : List Nat} {j : Nat} (h : j ≠ i) : (l ++ [i]).count j = l.count j := by
  rw [List.count_append, List.count_eq_zero.mpr fun hc => h (List.mem_singleton.mp hc),
    Nat.add_zero]

theorem count_concat_self {l : List Nat} (h : i ∉ l) : (l ++ [i]).count i = 1 := by
  rw [List.count_append, List.count_eq_zero.mpr h, List.count_singleton_self]

/-- The next resource is obtained and closed. -/
theorem obtain_close (h : Ledger n closed handed held) :
    Ledger (n + 1) (closed ++ [n]) handed held := by
  refine ⟨fun i hi => Nat.lt_succ_of_lt (h.held_lt i hi), fun i hlt hne => ?_, fun i hi => ?_⟩
  · by_cases hin : i = n
    · subst hin
      obtain ⟨hclosed, hhanded⟩ := h.unspent i (.inl (Nat.le_refl _))
      rw [count_concat_self hclosed, List.count_eq_zero.mpr hhanded]
    · rw [count_concat_ne hin]
      exact h.spent i (by omega) hne
  · have hin : i ≠ n := by
      intro he
      rcases hi with hi | hi
      · omega
      · exact Nat.lt_irrefl _ (he ▸ h.held_lt i hi)
    obtain ⟨hclosed, hhanded⟩ := h.unspent i (hi.imp_left Nat.le_of_succ_le)
    refine ⟨fun hmem => ?_, hhanded⟩
    rcases List.mem_append.mp hmem with hmem | hmem
    · exact hclosed hmem
    · exact hin (List.mem_singleton.mp hmem)

/-- What is held is closed. -/
theorem close (h : Ledger n closed handed (some i)) : Ledger n (closed ++ [i]) handed none := by
  obtain ⟨hclosed, hhanded⟩ := h.unspent i (.inr rfl)
  refine ⟨nofun, fun j hlt _ => ?_, fun j hj => ?_⟩
  · by_cases hji : j = i
    · subst hji
      rw [count_concat_self hclosed, List.count_eq_zero.mpr hhanded]
    · rw [count_concat_ne hji]
      exact h.spent j hlt fun he => hji (Option.some_inj.mp he).symm
  · have hle : n ≤ j := hj.resolve_right nofun
    obtain ⟨hcj, hhj⟩ := h.unspent j (.inl hle)
    refine ⟨fun hmem => ?_, hhj⟩
    rcases List.mem_append.mp hmem with hmem | hmem
    · exact hcj hmem
    · have hlt := h.held_lt i rfl
      rw [List.mem_singleton.mp hmem] at hle
      omega

/-- The two ways to dispose of a resource are alike. -/
theorem symm (h : Ledger n closed handed held) : Ledger n handed closed held :=
  ⟨h.held_lt, fun i hlt hne => (Nat.add_comm ..).trans (h.spent i hlt hne),
    fun i hi => (h.unspent i hi).symm⟩

/-- What is held is handed over. -/
theorem hand (h : Ledger n closed handed (some i)) : Ledger n closed (handed ++ [i]) none :=
  h.symm.close.symm

/-- What is not held was closed once, or handed over once. -/
theorem once (h : Ledger n closed handed held) (hlt : i < n) (hne : held ≠ some i) :
    (closed.count i = 1 ∧ i ∉ handed) ∨ (i ∉ closed ∧ handed.count i = 1) := by
  have hone := h.spent i hlt hne
  by_cases hclosed : closed.count i = 0
  · exact .inr ⟨List.count_eq_zero.mp hclosed, by omega⟩
  · exact .inl ⟨by omega, List.count_eq_zero.mp (by omega)⟩

end Ledger

end Summer.Lib
