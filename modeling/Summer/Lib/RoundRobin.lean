import Mathlib.Data.List.Nodup

/-!
# Taking turns

The elements of a list are taken in turn: after the last one the first follows again. Each of
them has been taken as often as any other, up to one turn.
-/
namespace Summer.Lib

variable {α : Type*} {xs : List α} {x : α} {i k : Nat}

/-- The first `k` elements that are taken. -/
def turns (xs : List α) (k : Nat) : List α :=
  (List.range k).filterMap fun j => xs[j % xs.length]?

/-- The position after one more turn. -/
theorem mod_succ {n : Nat} (hn : 0 < n) (k : Nat) :
    (k + 1) % n = if n ≤ k % n + 1 then 0 else k % n + 1 := by
  have hlt := Nat.mod_lt k hn
  rw [← Nat.mod_add_mod]
  split
  · have hlast : k % n + 1 = n := by omega
    rw [hlast, Nat.mod_self]
  · exact Nat.mod_eq_of_lt (by omega)

/-- The number of full rounds after one more turn. -/
theorem div_succ {n : Nat} (hn : 0 < n) (k : Nat) :
    (k + 1) / n = k / n + if n ≤ k % n + 1 then 1 else 0 := by
  have hlt := Nat.mod_lt k hn
  have hsplit : k + 1 = n * (k / n) + (k % n + 1) := by
    have hk := Nat.div_add_mod k n
    omega
  rw [hsplit, Nat.mul_add_div hn]
  congr 1
  split
  · have hlast : k % n + 1 = n := by omega
    rw [hlast, Nat.div_self hn]
  · exact Nat.div_eq_of_lt (by omega)

@[simp] theorem turns_zero (xs : List α) : turns xs 0 = [] := rfl

theorem turns_succ (h : xs[k % xs.length]? = some x) : turns xs (k + 1) = turns xs k ++ [x] := by
  rw [turns, List.range_succ, List.filterMap_append]
  simp [h, turns]

/-- There is always a next element. -/
theorem exists_turn (hxs : xs ≠ []) (k : Nat) : ∃ x, xs[k % xs.length]? = some x :=
  ⟨_, List.getElem?_eq_getElem (Nat.mod_lt k (List.length_pos_iff.mpr hxs))⟩

theorem length_turns (hxs : xs ≠ []) (k : Nat) : (turns xs k).length = k := by
  induction k with
  | zero => rfl
  | succ k ih =>
    obtain ⟨x, hx⟩ := exists_turn hxs k
    rw [turns_succ hx, List.length_append, ih, List.length_singleton]

theorem mem_of_mem_turns (h : x ∈ turns xs k) : x ∈ xs := by
  obtain ⟨j, -, hj⟩ := List.mem_filterMap.mp h
  exact List.mem_of_getElem? hj

section Count

variable [DecidableEq α]

/-- The turns that are left over after the full rounds go to the first elements. -/
theorem count_turns (hnd : xs.Nodup) (hi : xs[i]? = some x) (k : Nat) :
    (turns xs k).count x = k / xs.length + if i < k % xs.length then 1 else 0 := by
  obtain ⟨hlt, -⟩ := List.getElem?_eq_some_iff.mp hi
  have hpos : 0 < xs.length := Nat.zero_lt_of_lt hlt
  induction k with
  | zero => simp
  | succ k ih =>
    obtain ⟨y, hy⟩ := exists_turn (List.ne_nil_of_length_pos hpos) k
    have hmod := Nat.mod_lt k hpos
    have hsame : y = x ↔ k % xs.length = i := by
      rw [← List.getElem?_inj hmod hnd, hy, hi, Option.some_inj]
    rw [turns_succ hy, List.count_append, ih, div_succ hpos, mod_succ hpos, List.count_singleton]
    simp only [beq_iff_eq, hsame]
    -- the turn is that of `x`, or of one before it, or of one behind it
    split_ifs <;> omega

/-- The share of an element is rounded down or up. -/
theorem count_turns_balanced (hnd : xs.Nodup) (hx : x ∈ xs) (k : Nat) :
    (turns xs k).count x = k / xs.length ∨
      (turns xs k).count x = (k + xs.length - 1) / xs.length := by
  obtain ⟨i, hi⟩ := List.mem_iff_getElem?.mp hx
  have hpos : 0 < xs.length := List.length_pos_of_mem hx
  rw [count_turns hnd hi]
  split
  · right
    have hlt := Nat.mod_lt k hpos
    have hk := Nat.div_add_mod k xs.length
    have hup : k + xs.length - 1 = xs.length * (k / xs.length + 1) + (k % xs.length - 1) := by
      rw [Nat.mul_succ]
      omega
    have hrest : (k % xs.length - 1) / xs.length = 0 := by
      apply Nat.div_eq_of_lt
      omega
    rw [hup, Nat.mul_add_div hpos, hrest]
  · exact .inl rfl

end Count

end Summer.Lib
