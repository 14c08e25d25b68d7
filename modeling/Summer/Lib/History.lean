import Mathlib.Data.List.Basic

/-!
# The latest value in a history

A history is the list of events so far. `latest f` is what the last event that concerns `f`
gave, if there was one.
-/
namespace Summer.Lib

variable {α β : Type*} {f : α → Option β} {l : List α} {a : α} {b : β}

def latest (f : α → Option β) (l : List α) : Option β := (l.filterMap f).getLast?

@[simp] theorem latest_nil : latest f [] = none := rfl

/-- An event that does not concern `f` changes nothing. -/
theorem latest_concat_none (h : f a = none) : latest f (l ++ [a]) = latest f l := by
  simp [latest, List.filterMap_append, h]

theorem latest_concat_some (h : f a = some b) : latest f (l ++ [a]) = some b := by
  simp [latest, List.filterMap_append, h]

theorem latest_mem (h : latest f l = some b) : ∃ a ∈ l, f a = some b :=
  List.mem_filterMap.mp (List.mem_of_getLast? h)

/-- Only the events that concern `f` matter. -/
theorem latest_filter {p : α → Bool} (h : ∀ a, p a = false → f a = none) :
    latest f (l.filter p) = latest f l := by
  rw [latest, latest]
  congr 1
  induction l with
  | nil => rfl
  | cons a l ih =>
    cases hp : p a with
    | true => rw [List.filter_cons_of_pos hp, List.filterMap_cons, List.filterMap_cons, ih]
    | false =>
      rw [List.filter_cons_of_neg (by rw [hp]; decide), List.filterMap_cons, h a hp, ih]

end Summer.Lib
