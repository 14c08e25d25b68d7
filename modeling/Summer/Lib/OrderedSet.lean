import Mathlib.Data.List.Sort

/-!
# Ordered sets

A set is the strictly increasing list of its elements. Iteration, the first element and
the lower bound of a key are read off the list; everything else is stated about membership.
-/
namespace Summer.Lib

structure OrderedSet (α : Type*) [LinearOrder α] where
  toList : List α
  sorted : toList.Pairwise (· < ·)

namespace OrderedSet

variable {α : Type*} [LinearOrder α] {s t : OrderedSet α} {a b k : α}

instance : DecidableEq (OrderedSet α) := fun s t =>
  decidable_of_iff (s.toList = t.toList)
    ⟨fun h => by cases s; cases t; cases h; rfl, fun h => h ▸ rfl⟩

instance : Membership α (OrderedSet α) := ⟨fun s a => a ∈ s.toList⟩

instance (a : α) (s : OrderedSet α) : Decidable (a ∈ s) :=
  inferInstanceAs (Decidable (a ∈ s.toList))

instance : EmptyCollection (OrderedSet α) := ⟨⟨[], List.Pairwise.nil⟩⟩

def size (s : OrderedSet α) : Nat := s.toList.length

/-- The element at the begin iterator. -/
def first? (s : OrderedSet α) : Option α := s.toList.head?

theorem mem_toList : a ∈ s.toList ↔ a ∈ s := Iff.rfl

theorem nodup (s : OrderedSet α) : s.toList.Nodup := s.sorted.imp ne_of_lt

@[simp] theorem notMem_empty (a : α) : a ∉ (∅ : OrderedSet α) := List.not_mem_nil

@[simp] theorem size_empty : (∅ : OrderedSet α).size = 0 := rfl

/-- A strictly increasing list is determined by its elements. -/
theorem ext_mem (h : ∀ a, a ∈ s ↔ a ∈ t) : s = t := by
  have hp : s.toList.Perm t.toList := (List.perm_ext_iff_of_nodup s.nodup t.nodup).mpr h
  have hl : s.toList = t.toList :=
    hp.eq_of_pairwise (fun a b _ _ hab hba => absurd hba (lt_asymm hab)) s.sorted t.sorted
  cases s
  cases t
  cases hl
  rfl

theorem first?_eq_none : s.first? = none ↔ s = ∅ := by
  constructor
  · intro h
    have hl : s.toList = [] := List.head?_eq_none_iff.mp h
    exact ext_mem fun a => by rw [← mem_toList, hl]; exact Iff.rfl
  · rintro rfl
    rfl

theorem first?_mem (h : s.first? = some a) : a ∈ s := List.mem_of_head? h

theorem first?_le (h : s.first? = some a) (hb : b ∈ s) : a ≤ b := by
  obtain ⟨l, hl⟩ := List.head?_eq_some_iff.mp h
  have hs := s.sorted
  rw [← mem_toList, hl] at hb
  rw [hl] at hs
  rcases List.mem_cons.mp hb with rfl | hb
  · exact le_rfl
  · exact (List.rel_of_pairwise_cons hs hb).le

/-! ## Insertion -/

theorem sorted_orderedInsert (h : a ∉ s) :
    (s.toList.orderedInsert (· ≤ ·) a).Pairwise (· < ·) := by
  have hle : (s.toList.orderedInsert (· ≤ ·) a).Pairwise (· ≤ ·) :=
    (s.sorted.imp le_of_lt).orderedInsert a _
  have hnd : (s.toList.orderedInsert (· ≤ ·) a).Nodup :=
    (List.perm_orderedInsert (· ≤ ·) a s.toList).nodup_iff.mpr (List.nodup_cons.mpr ⟨h, s.nodup⟩)
  exact (hle.and hnd).imp fun h => lt_of_le_of_ne h.1 h.2

/-- The set with `a`, and whether `a` was new. -/
def insert (a : α) (s : OrderedSet α) : OrderedSet α × Bool :=
  if h : a ∈ s then (s, false)
  else (⟨s.toList.orderedInsert (· ≤ ·) a, sorted_orderedInsert h⟩, true)

theorem insert_of_mem (h : a ∈ s) : s.insert a = (s, false) := dif_pos h

theorem insert_new (h : a ∉ s) : (s.insert a).2 = true := by
  rw [insert, dif_neg h]

@[simp] theorem mem_insert : b ∈ (s.insert a).1 ↔ b = a ∨ b ∈ s := by
  by_cases h : a ∈ s
  · rw [insert_of_mem h]
    constructor
    · exact Or.inr
    · intro h
      rcases h with rfl | hb
      · exact h
      · exact hb
  · rw [insert, dif_neg h]
    exact List.mem_orderedInsert (· ≤ ·)

theorem size_insert (h : a ∉ s) : (s.insert a).1.size = s.size + 1 := by
  rw [insert, dif_neg h]
  exact List.orderedInsert_length (· ≤ ·) s.toList a

/-! ## Removal -/

/-- The set without `a`, and how many elements that removed. -/
def erase (a : α) (s : OrderedSet α) : OrderedSet α × Nat :=
  (⟨s.toList.erase a, s.sorted.sublist List.erase_sublist⟩, if a ∈ s then 1 else 0)

@[simp] theorem mem_erase : b ∈ (s.erase a).1 ↔ b ≠ a ∧ b ∈ s := s.nodup.mem_erase_iff

theorem erase_count (h : a ∈ s) : (s.erase a).2 = 1 := if_pos h

theorem size_erase (h : a ∈ s) : (s.erase a).1.size + 1 = s.size :=
  List.length_erase_add_one h

/-! ## The lower bound of a key -/

/-- The elements before the lower bound of `k`. -/
def below (k : α) (s : OrderedSet α) : List α := s.toList.takeWhile (· < k)

/-- The elements from the lower bound of `k` on. -/
def fromLowerBound (k : α) (s : OrderedSet α) : OrderedSet α :=
  ⟨s.toList.dropWhile (· < k), s.sorted.sublist (List.dropWhile_sublist _)⟩

theorem below_append (k : α) (s : OrderedSet α) :
    s.below k ++ (s.fromLowerBound k).toList = s.toList := List.takeWhile_append_dropWhile

theorem sorted_below (k : α) (s : OrderedSet α) : (s.below k).Pairwise (· < ·) :=
  s.sorted.sublist (List.takeWhile_sublist _)

theorem size_fromLowerBound (k : α) (s : OrderedSet α) :
    (s.fromLowerBound k).size + (s.below k).length = s.size := by
  rw [size, size, ← below_append k s, List.length_append, Nat.add_comm]

/-- In a sorted list everything from the first element that is not below `k` on is not. -/
theorem lt_iff_mem_below (ha : a ∈ s) : a ∈ s.below k ↔ a < k := by
  obtain ⟨l, hl⟩ := s
  change a ∈ l at ha
  show a ∈ l.takeWhile (· < k) ↔ a < k
  induction l with
  | nil => cases ha
  | cons b l ih =>
    by_cases hb : b < k
    · rw [List.takeWhile_cons_of_pos (by simpa using hb), List.mem_cons]
      rcases List.mem_cons.mp ha with rfl | ha
      · exact ⟨fun _ => hb, fun _ => .inl rfl⟩
      · have hne : a ≠ b := (List.rel_of_pairwise_cons hl ha).ne'
        rw [← ih hl.of_cons ha]
        exact ⟨fun h => h.resolve_left hne, Or.inr⟩
    · rw [List.takeWhile_cons_of_neg (by simpa using hb)]
      have hle : b ≤ a := by
        rcases List.mem_cons.mp ha with rfl | ha
        · exact le_rfl
        · exact (List.rel_of_pairwise_cons hl ha).le
      exact ⟨fun h => absurd h List.not_mem_nil, fun h => absurd (lt_of_le_of_lt hle h) hb⟩

theorem mem_below : a ∈ s.below k ↔ a ∈ s ∧ a < k := by
  constructor
  · intro h
    have ha : a ∈ s := (List.takeWhile_sublist _).subset h
    exact ⟨ha, (lt_iff_mem_below ha).mp h⟩
  · intro h
    obtain ⟨ha, hlt⟩ := h
    exact (lt_iff_mem_below ha).mpr hlt

theorem mem_fromLowerBound : a ∈ s.fromLowerBound k ↔ a ∈ s ∧ k ≤ a := by
  have hnd := s.nodup
  rw [← below_append k s, List.nodup_append] at hnd
  constructor
  · intro h
    have ha : a ∈ s := (List.dropWhile_sublist _).subset h
    refine ⟨ha, not_lt.mp fun hlt => ?_⟩
    exact hnd.2.2 a ((lt_iff_mem_below ha).mpr hlt) a h rfl
  · intro h
    obtain ⟨ha, hle⟩ := h
    rw [← mem_toList, ← below_append k s, List.mem_append] at ha
    rcases ha with ha | ha
    · exact absurd (mem_below.mp ha).2 (not_lt.mpr hle)
    · exact ha

end OrderedSet

end Summer.Lib
