import Mathlib.Data.List.Basic

/-!
# Segments of a flat storage

A storage is a list of cells. `slice` reads a half-open range, `overwrite` replaces
the cells from a position on, and `copyForward` is the element-by-element copy of a
range onto an earlier one, whose source and destination may overlap.
-/
namespace Summer.Lib

variable {α : Type*}

/-- The cells at positions `lo ≤ i < hi`. -/
def slice (l : List α) (lo hi : Nat) : List α := (l.take hi).drop lo

/-- `l` with the cells from position `p` on replaced by `s`. -/
def overwrite (l : List α) (p : Nat) (s : List α) : List α :=
  l.take p ++ s ++ l.drop (p + s.length)

/-- Copy `n` cells from `src` on to `dst` on, one after another in increasing order. -/
def copyForward : List α → (src dst n : Nat) → List α
  | l, _, _, 0 => l
  | l, src, dst, n + 1 =>
    match l[src]? with
    | none => l
    | some x => copyForward (l.set dst x) (src + 1) (dst + 1) n

theorem getElem?_slice (l : List α) (lo hi i : Nat) :
    (slice l lo hi)[i]? = if lo + i < hi then l[lo + i]? else none := by
  simp only [slice, List.getElem?_drop, List.getElem?_take]

theorem getElem?_overwrite (l : List α) {p : Nat} (s : List α) (hp : p ≤ l.length) (i : Nat) :
    (overwrite l p s)[i]? =
      if i < p then l[i]? else if i < p + s.length then s[i - p]? else l[i]? := by
  have ht : (l.take p).length = p := List.length_take_of_le hp
  unfold overwrite
  by_cases h1 : i < p
  · rw [List.append_assoc, List.getElem?_append_left (by omega), if_pos h1,
      List.getElem?_take_of_lt h1]
  · rw [if_neg h1]
    by_cases h2 : i < p + s.length
    · rw [if_pos h2, List.getElem?_append_left (by rw [List.length_append, ht]; omega),
        List.getElem?_append_right (by omega), ht]
    · rw [if_neg h2, List.getElem?_append_right (by rw [List.length_append, ht]; omega),
        List.length_append, ht, List.getElem?_drop]
      congr 1
      omega

theorem length_slice (l : List α) (lo hi : Nat) :
    (slice l lo hi).length = min hi l.length - lo := by
  simp [slice]

theorem length_slice_of_le {l : List α} {lo hi : Nat} (h : hi ≤ l.length) :
    (slice l lo hi).length = hi - lo := by
  rw [length_slice, Nat.min_eq_left h]

theorem length_overwrite {l : List α} {p : Nat} {s : List α} (h : p + s.length ≤ l.length) :
    (overwrite l p s).length = l.length := by
  simp only [overwrite, List.length_append, List.length_take, List.length_drop]
  omega

theorem slice_self (l : List α) (p : Nat) : slice l p p = [] := by
  apply List.eq_nil_of_length_eq_zero
  rw [length_slice]
  omega

theorem slice_append (l : List α) {lo hi : Nat} (mid : Nat) (h1 : lo ≤ mid) (h2 : mid ≤ hi)
    (hl : mid ≤ l.length) :
    slice l lo mid ++ slice l mid hi = slice l lo hi := by
  apply List.ext_getElem?
  intro i
  have hm : (slice l lo mid).length = mid - lo := length_slice_of_le hl
  by_cases hi' : i < mid - lo
  · rw [List.getElem?_append_left (by omega), getElem?_slice, getElem?_slice,
      if_pos (by omega), if_pos (by omega)]
  · rw [List.getElem?_append_right (by omega), getElem?_slice, getElem?_slice, hm,
      show mid + (i - (mid - lo)) = lo + i from by omega]

theorem slice_eq_take_drop (l : List α) (lo n : Nat) :
    slice l lo (lo + n) = (l.drop lo).take n := by
  rw [slice, List.drop_take, Nat.add_sub_cancel_left]

theorem drop_slice (l : List α) (lo hi n : Nat) :
    (slice l lo hi).drop n = slice l (lo + n) hi := by
  simp [slice, List.drop_drop]

theorem slice_overwrite_same {l : List α} {p : Nat} {s : List α} (hp : p ≤ l.length) :
    slice (overwrite l p s) p (p + s.length) = s := by
  apply List.ext_getElem?
  intro i
  rw [getElem?_slice, getElem?_overwrite l s hp]
  by_cases hi : i < s.length
  · rw [if_pos (by omega), if_neg (by omega), if_pos (by omega), Nat.add_sub_cancel_left]
  · rw [if_neg (by omega), List.getElem?_eq_none (by omega)]

theorem slice_overwrite_before {l : List α} {p lo hi : Nat} {s : List α}
    (hp : p ≤ l.length) (h : hi ≤ p) :
    slice (overwrite l p s) lo hi = slice l lo hi := by
  apply List.ext_getElem?
  intro i
  rw [getElem?_slice, getElem?_slice, getElem?_overwrite l s hp]
  split
  · rw [if_pos (by omega)]
  · rfl

theorem slice_overwrite_after {l : List α} {p lo hi : Nat} {s : List α}
    (hp : p ≤ l.length) (h : p + s.length ≤ lo) :
    slice (overwrite l p s) lo hi = slice l lo hi := by
  apply List.ext_getElem?
  intro i
  rw [getElem?_slice, getElem?_slice, getElem?_overwrite l s hp]
  split
  · rw [if_neg (by omega), if_neg (by omega)]
  · rfl

/-- Copying towards the front reads every source cell before it is overwritten, so the
overlapping copy moves the whole range. -/
theorem copyForward_eq_overwrite {l : List α} {src dst n : Nat}
    (hd : dst ≤ src) (hs : src + n ≤ l.length) :
    copyForward l src dst n = overwrite l dst (slice l src (src + n)) := by
  induction n generalizing l src dst with
  | zero => simp [copyForward, overwrite, slice_self]
  | succ n ih =>
    have hlt : src < l.length := by omega
    have hx : l[src]? = some l[src] := List.getElem?_eq_getElem hlt
    simp only [copyForward, hx]
    rw [ih (by omega) (by simp only [List.length_set]; omega)]
    have hl1 : (slice (l.set dst l[src]) (src + 1) (src + 1 + n)).length = n := by
      rw [length_slice_of_le (by simp only [List.length_set]; omega)]
      omega
    have hl2 : (slice l src (src + (n + 1))).length = n + 1 := by
      rw [length_slice_of_le (by omega)]
      omega
    apply List.ext_getElem?
    intro i
    rw [getElem?_overwrite _ _ (by simp only [List.length_set]; omega),
      getElem?_overwrite _ _ (by omega), hl1, hl2]
    by_cases h1 : i < dst
    · rw [if_pos (by omega), if_pos h1, List.getElem?_set_ne (by omega)]
    · rw [if_neg h1]
      by_cases h2 : i = dst
      · subst h2
        rw [if_pos (by omega), if_pos (by omega), List.getElem?_set_self (by omega),
          getElem?_slice, if_pos (by omega), ← hx]
        congr 1
        omega
      · rw [if_neg (by omega)]
        by_cases h3 : i < dst + (n + 1)
        · rw [if_pos (by omega), if_pos (by omega), getElem?_slice, getElem?_slice,
            if_pos (by omega), if_pos (by omega), List.getElem?_set_ne (by omega)]
          congr 1
          omega
        · rw [if_neg (by omega), if_neg h3, List.getElem?_set_ne (by omega)]

end Summer.Lib
