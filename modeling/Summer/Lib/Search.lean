import Mathlib.Data.List.Basic

/-!
# Searching a list for a two-element mark

`searchMark x y l` is the position of the first `x` directly followed by `y`. The
lemmas say where the mark is found when a list ends in it, that elements after a
found mark do not move it, and that a list which stops short of its mark has none.
`splitMark x y l` is the list of the pieces between the marks.
-/
namespace Summer.Lib

variable {α : Type*} [DecidableEq α] {x y : α}

def searchMark (x y : α) : List α → Option Nat
  | a :: b :: l => if a = x ∧ b = y then some 0 else (searchMark x y (b :: l)).map (· + 1)
  | _ => none

@[simp] theorem searchMark_nil : searchMark x y [] = none := rfl

@[simp] theorem searchMark_singleton (a : α) : searchMark x y [a] = none := rfl

theorem searchMark_cons_cons (a b : α) (l : List α) :
    searchMark x y (a :: b :: l) =
      if a = x ∧ b = y then some 0 else (searchMark x y (b :: l)).map (· + 1) := rfl

/-- An element that is not the first half of the mark only shifts the search. -/
theorem searchMark_cons_of_ne {a : α} (h : a ≠ x) (l : List α) :
    searchMark x y (a :: l) = (searchMark x y l).map (· + 1) := by
  cases l with
  | nil => rfl
  | cons b l => rw [searchMark_cons_cons, if_neg (fun hab => h hab.1)]

theorem searchMark_none_cons {a : α} {l : List α} (h : searchMark x y (a :: l) = none) :
    searchMark x y l = none := by
  cases l with
  | nil => rfl
  | cons b l =>
    rw [searchMark_cons_cons] at h
    split at h
    · cases h
    · exact Option.map_eq_none_iff.mp h

/-- The first mark of a list that is mark-free up to it. -/
theorem searchMark_append_mark (hxy : x ≠ y) {l : List α} (h : searchMark x y l = none)
    (s : List α) : searchMark x y (l ++ x :: y :: s) = some l.length := by
  induction l with
  | nil => simp [searchMark_cons_cons]
  | cons a l ih =>
    have hl := ih (searchMark_none_cons h)
    cases l with
    | nil =>
      rw [List.nil_append] at hl
      rw [List.singleton_append, searchMark_cons_cons, if_neg (fun hab => hxy hab.2), hl]
      rfl
    | cons b l =>
      rw [searchMark_cons_cons] at h
      rw [List.cons_append, List.cons_append, searchMark_cons_cons]
      split at h
      · cases h
      · rename_i hab
        rw [if_neg hab]
        rw [List.cons_append] at hl
        rw [hl]
        rfl

/-- A mark-free list extended by the first half of a mark is still mark-free. -/
theorem searchMark_concat (hxy : x ≠ y) {l : List α} (h : searchMark x y l = none) :
    searchMark x y (l ++ [x]) = none := by
  induction l with
  | nil => rfl
  | cons a l ih =>
    cases l with
    | nil =>
      rw [List.singleton_append, searchMark_cons_cons, if_neg (fun hab => hxy hab.2)]
      rfl
    | cons b l =>
      have hl := ih (searchMark_none_cons h)
      rw [searchMark_cons_cons] at h
      rw [List.cons_append, List.cons_append, searchMark_cons_cons]
      split at h
      · cases h
      · rename_i hab
        rw [if_neg hab]
        rw [List.cons_append] at hl
        rw [hl]
        rfl

theorem searchMark_none_of_prefix {l m : List α} (hp : l <+: m) (h : searchMark x y m = none) :
    searchMark x y l = none := by
  induction l generalizing m with
  | nil => rfl
  | cons a l ih =>
    obtain ⟨s, rfl⟩ := hp
    rw [List.cons_append] at h
    have hl := ih (List.prefix_append l s) (searchMark_none_cons h)
    cases l with
    | nil => rfl
    | cons b l =>
      rw [List.cons_append, searchMark_cons_cons] at h
      rw [searchMark_cons_cons]
      split at h
      · cases h
      · rename_i hab
        rw [if_neg hab, hl]
        rfl

/-- A proper prefix of a mark-free list followed by its mark has no mark. -/
theorem searchMark_none_of_lt (hxy : x ≠ y) {l p : List α} (h : searchMark x y l = none)
    (hp : p <+: l ++ [x, y]) (hlt : p.length < l.length + 2) : searchMark x y p = none := by
  refine searchMark_none_of_prefix ?_ (searchMark_concat hxy h)
  have hx : l ++ [x] <+: l ++ [x, y] := ⟨[y], by simp⟩
  apply List.prefix_of_prefix_length_le hp hx
  rw [List.length_append, List.length_singleton]
  omega

/-- Every list is mark-free, or splits at its first mark. -/
theorem searchMark_cases (x y : α) (l : List α) :
    searchMark x y l = none ∨ ∃ a s, l = a ++ x :: y :: s ∧ searchMark x y a = none := by
  induction l with
  | nil => exact .inl rfl
  | cons a l ih =>
    rcases ih with h | ⟨b, s, rfl, hb⟩
    · cases l with
      | nil => exact .inl rfl
      | cons b l =>
        by_cases hab : a = x ∧ b = y
        · right
          exact ⟨[], l, by rw [hab.1, hab.2]; rfl, rfl⟩
        · left
          rw [searchMark_cons_cons, if_neg hab, h]
          rfl
    · cases b with
      | nil =>
        right
        exact ⟨[a], s, rfl, rfl⟩
      | cons b l =>
        by_cases hab : a = x ∧ b = y
        · right
          exact ⟨[], l ++ x :: y :: s, by rw [hab.1, hab.2]; rfl, rfl⟩
        · right
          refine ⟨a :: b :: l, s, rfl, ?_⟩
          rw [searchMark_cons_cons, if_neg hab, hb]
          rfl

/-- There is a mark to find exactly when its two elements lie next to each other. -/
theorem searchMark_eq_none_iff {l : List α} : searchMark x y l = none ↔ ¬ [x, y] <:+: l := by
  constructor
  · intro h hmem
    obtain ⟨a, s, rfl⟩ := hmem
    induction a with
    | nil => simp [searchMark_cons_cons] at h
    | cons b a ih => exact ih (searchMark_none_cons h)
  · intro h
    rcases searchMark_cases x y l with hnone | ⟨a, s, rfl, -⟩
    · exact hnone
    · exact absurd ⟨a, s, by simp⟩ h

/-! ## The pieces between the marks -/

def splitMark (x y : α) : List α → List (List α)
  | a :: b :: l =>
    if a = x ∧ b = y then [] :: splitMark x y l
    else (splitMark x y (b :: l)).modifyHead (a :: ·)
  | l => [l]

theorem splitMark_cons_cons (a b : α) (l : List α) :
    splitMark x y (a :: b :: l) =
      if a = x ∧ b = y then [] :: splitMark x y l
      else (splitMark x y (b :: l)).modifyHead (a :: ·) := by
  rw [splitMark]

/-- A mark-free list is one piece. -/
theorem splitMark_of_none {l : List α} (h : searchMark x y l = none) : splitMark x y l = [l] := by
  induction l with
  | nil => simp [splitMark]
  | cons a l ih =>
    cases l with
    | nil => simp [splitMark]
    | cons b l =>
      have hl := ih (searchMark_none_cons h)
      rw [searchMark_cons_cons] at h
      split at h
      · cases h
      · rename_i hab
        rw [splitMark_cons_cons, if_neg hab, hl]
        rfl

/-- The first piece ends at the first mark. -/
theorem splitMark_append_mark (hxy : x ≠ y) {l : List α} (h : searchMark x y l = none)
    (s : List α) : splitMark x y (l ++ x :: y :: s) = l :: splitMark x y s := by
  induction l with
  | nil => simp [splitMark_cons_cons]
  | cons a l ih =>
    have hl := ih (searchMark_none_cons h)
    cases l with
    | nil =>
      rw [List.nil_append] at hl
      rw [List.singleton_append, splitMark_cons_cons, if_neg (fun hab => hxy hab.2), hl]
      rfl
    | cons b l =>
      rw [searchMark_cons_cons] at h
      rw [List.cons_append, List.cons_append, splitMark_cons_cons]
      split at h
      · cases h
      · rename_i hab
        rw [List.cons_append] at hl
        rw [if_neg hab, hl]
        rfl

end Summer.Lib
