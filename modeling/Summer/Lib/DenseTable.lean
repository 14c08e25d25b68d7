import Mathlib.Logic.Equiv.Basic
import Mathlib.Data.List.Basic
import Mathlib.Data.Set.Card
import Mathlib.Data.Int.Interval
import Mathlib.Data.Int.ConditionallyCompleteOrder

/-!
# A dense table

The entries of the keys stand in a list without gaps, and every key knows the position of
its own. An entry is removed by exchanging it with the last one. Seen from the keys, each
operation changes the entry of one key.
-/
namespace Summer.Lib

variable {K α : Type*}

/-- Each position belongs to one key. -/
structure Dense (slot : K → Option Nat) (l : List α) : Prop where
  bound : ∀ {k i}, slot k = some i → i < l.length
  unique : ∀ {k k' i}, slot k = some i → slot k' = some i → k = k'
  owner : ∀ {i}, i < l.length → ∃ k, slot k = some i

/-- The entry of a key. -/
def entryOf (slot : K → Option Nat) (l : List α) (k : K) : Option α :=
  (slot k).bind (l[·]?)

/-- Exchange the entries at `i` and `j`. -/
def iterSwap (l : List α) (i j : Nat) : List α :=
  match l[i]?, l[j]? with
  | some a, some b => (l.set i b).set j a
  | _, _ => l

variable {slot : K → Option Nat} {l : List α} {k : K} {i : Nat}

theorem entryOf_of_slot (h : slot k = some i) : entryOf slot l k = l[i]? := by
  rw [entryOf, h]
  rfl

theorem entryOf_of_none (h : slot k = none) : entryOf slot l k = none := by
  rw [entryOf, h]
  rfl

theorem slot_of_entryOf {a : α} (h : entryOf slot l k = some a) :
    ∃ i, slot k = some i ∧ l[i]? = some a := Option.bind_eq_some_iff.mp h

theorem Dense.entryOf_isSome (h : Dense slot l) (hk : slot k = some i) :
    ∃ a, entryOf slot l k = some a := by
  rw [entryOf_of_slot hk]
  exact ⟨_, List.getElem?_eq_getElem (h.bound hk)⟩

/-- Every entry is the entry of a key. -/
theorem Dense.mem_iff (h : Dense slot l) {a : α} : a ∈ l ↔ ∃ k, entryOf slot l k = some a := by
  constructor
  · intro ha
    obtain ⟨i, hi⟩ := List.mem_iff_getElem?.mp ha
    obtain ⟨k, hk⟩ := h.owner (List.getElem?_eq_some_iff.mp hi).1
    exact ⟨k, (entryOf_of_slot hk).trans hi⟩
  · intro hk
    obtain ⟨k, hk⟩ := hk
    obtain ⟨i, -, hi⟩ := slot_of_entryOf hk
    exact List.mem_of_getElem? hi

/-- The position is a bijection from the keys to the positions of the list. -/
theorem Dense.bijOn (h : Dense slot l) {p : K → Int}
    (hp : ∀ k i, slot k = some i → p k = i) :
    Set.BijOn p {k | slot k ≠ none} (Set.Ico 0 (l.length : Int)) := by
  refine ⟨fun k hk => ?_, fun k hk k' hk' he => ?_, fun n hn => ?_⟩
  · obtain ⟨i, hi⟩ := Option.ne_none_iff_exists'.mp hk
    have hlt := h.bound hi
    rw [hp k i hi]
    exact ⟨Int.natCast_nonneg i, Int.ofNat_lt.mpr hlt⟩
  · obtain ⟨i, hi⟩ := Option.ne_none_iff_exists'.mp hk
    obtain ⟨j, hj⟩ := Option.ne_none_iff_exists'.mp hk'
    rw [hp k i hi, hp k' j hj] at he
    exact h.unique hi (Int.ofNat_inj.mp he ▸ hj)
  · obtain ⟨i, rfl⟩ := Int.eq_ofNat_of_zero_le hn.1
    obtain ⟨k, hk⟩ := h.owner (Int.ofNat_lt.mp hn.2)
    exact ⟨k, Option.ne_none_iff_exists'.mpr ⟨i, hk⟩, hp k i hk⟩

/-- There are as many keys as entries. -/
theorem Dense.encard (h : Dense slot l) : {k | slot k ≠ none}.encard = l.length := by
  have hb := h.bijOn (p := fun k => ((slot k).getD 0 : Nat)) fun k i hk => by rw [hk]; rfl
  rw [Set.encard_congr hb.equiv, ← Finset.coe_Ico, Set.encard_coe_eq_coe_finsetCard, Int.card_Ico]
  simp

theorem dense_nil : Dense (fun _ : K => none) ([] : List α) :=
  ⟨nofun, nofun, nofun⟩

variable [DecidableEq K]

/-- Two lists that give every other key the same entry. -/
theorem entryOf_eq_update {slot' : K → Option Nat} {l' : List α} {o : Option α}
    (hk : entryOf slot' l' k = o)
    (hother : ∀ k', k' ≠ k → entryOf slot' l' k' = entryOf slot l k') :
    entryOf slot' l' = Function.update (entryOf slot l) k o := by
  funext k'
  by_cases h : k' = k
  · subst h
    rw [Function.update_self, hk]
  · rw [Function.update_of_ne h, hother k' h]

/-! ## A new entry at the end -/

theorem Dense.push (h : Dense slot l) (hk : slot k = none) (a : α) :
    Dense (Function.update slot k (some l.length)) (l ++ [a]) := by
  have hlen : (l ++ [a]).length = l.length + 1 := List.length_append
  constructor
  · intro k' i hi
    rw [Function.update_apply] at hi
    split at hi
    · cases hi
      omega
    · have := h.bound hi
      omega
  · intro k₁ k₂ i h₁ h₂
    rw [Function.update_apply] at h₁ h₂
    split at h₁
    · cases h₁
      split at h₂
      · simp_all
      · exact absurd (h.bound h₂) (Nat.lt_irrefl _)
    · split at h₂
      · cases h₂
        exact absurd (h.bound h₁) (Nat.lt_irrefl _)
      · exact h.unique h₁ h₂
  · intro i hi
    rcases Nat.lt_or_ge i l.length with hlt | hge
    · obtain ⟨k', hk'⟩ := h.owner hlt
      refine ⟨k', ?_⟩
      rw [Function.update_of_ne, hk']
      intro he
      rw [he, hk] at hk'
      cases hk'
    · refine ⟨k, ?_⟩
      rw [Function.update_self]
      congr
      omega

theorem Dense.entryOf_push (h : Dense slot l) (a : α) :
    entryOf (Function.update slot k (some l.length)) (l ++ [a]) =
      Function.update (entryOf slot l) k (some a) := by
  apply entryOf_eq_update
  · rw [entryOf_of_slot (Function.update_self ..)]
    exact List.getElem?_concat_length
  · intro k' hne
    rw [entryOf, Function.update_of_ne hne]
    cases hs : slot k' with
    | none => exact (entryOf_of_none hs).symm
    | some i =>
      rw [entryOf_of_slot hs]
      exact List.getElem?_append_left (h.bound hs)

/-! ## Another value for an entry -/

omit [DecidableEq K] in
theorem Dense.of_length (h : Dense slot l) {β : Type*} {l' : List β}
    (hlen : l'.length = l.length) : Dense slot l' :=
  ⟨fun hk => hlen ▸ h.bound hk, h.unique, fun hi => h.owner (hlen ▸ hi)⟩

omit [DecidableEq K] in
theorem Dense.set (h : Dense slot l) (i : Nat) (a : α) : Dense slot (l.set i a) :=
  h.of_length List.length_set

theorem Dense.entryOf_set (h : Dense slot l) (hk : slot k = some i) (a : α) :
    entryOf slot (l.set i a) = Function.update (entryOf slot l) k (some a) := by
  apply entryOf_eq_update
  · rw [entryOf_of_slot hk, List.getElem?_set_self (h.bound hk)]
  · intro k' hne
    cases hs : slot k' with
    | none => rw [entryOf_of_none hs, entryOf_of_none hs]
    | some j =>
      have hij : i ≠ j := fun he => hne (h.unique hs (he ▸ hk))
      rw [entryOf_of_slot hs, entryOf_of_slot hs, List.getElem?_set_ne hij]

/-! ## Removing an entry -/

/-- Removing the last entry. -/
theorem Dense.pop (h : Dense slot l) (hk : slot k = some (l.length - 1)) :
    Dense (Function.update slot k none) l.dropLast := by
  have hlen : l.dropLast.length = l.length - 1 := List.length_dropLast
  constructor
  · intro k' i hi
    rw [Function.update_apply] at hi
    split at hi
    · cases hi
    · have hbound := h.bound hi
      have hne : i ≠ l.length - 1 := fun he => by
        rw [he] at hi
        have := h.unique hi hk
        contradiction
      omega
  · intro k₁ k₂ i h₁ h₂
    rw [Function.update_apply] at h₁ h₂
    split at h₁
    · cases h₁
    · split at h₂
      · cases h₂
      · exact h.unique h₁ h₂
  · intro i hi
    obtain ⟨k', hk'⟩ := h.owner (i := i) (by omega)
    refine ⟨k', ?_⟩
    rw [Function.update_of_ne, hk']
    intro he
    rw [he, hk] at hk'
    cases hk'
    omega

theorem Dense.entryOf_pop (h : Dense slot l) (hk : slot k = some (l.length - 1)) :
    entryOf (Function.update slot k none) l.dropLast =
      Function.update (entryOf slot l) k none := by
  apply entryOf_eq_update
  · exact entryOf_of_none (Function.update_self ..)
  · intro k' hne
    rw [entryOf, Function.update_of_ne hne]
    cases hs : slot k' with
    | none => exact (entryOf_of_none hs).symm
    | some i =>
      have hlast : i ≠ l.length - 1 := fun he => hne (h.unique hs (he ▸ hk))
      have hbound := h.bound hs
      rw [entryOf_of_slot hs]
      exact List.getElem?_dropLast.trans (if_pos (by omega))

omit [DecidableEq K] in
theorem iterSwap_eq {j : Nat} {a b : α} (hi : l[i]? = some a) (hj : l[j]? = some b) :
    iterSwap l i j = (l.set i b).set j a := by
  rw [iterSwap, hi, hj]

omit [DecidableEq K] in
theorem length_iterSwap (l : List α) (i j : Nat) : (iterSwap l i j).length = l.length := by
  rw [iterSwap]
  split
  · rw [List.length_set, List.length_set]
  · rfl

section Exchange

variable {k' : K} {j : Nat}

/-- The positions after the keys `k` and `k'` have exchanged theirs. -/
def exchange (slot : K → Option Nat) (k k' : K) : K → Option Nat := slot ∘ Equiv.swap k k'

theorem exchange_left : exchange slot k k' k = slot k' :=
  congrArg slot (Equiv.swap_apply_left k k')

theorem exchange_right : exchange slot k k' k' = slot k :=
  congrArg slot (Equiv.swap_apply_right k k')

theorem exchange_of_ne {x : K} (h : x ≠ k) (h' : x ≠ k') : exchange slot k k' x = slot x :=
  congrArg slot (Equiv.swap_apply_of_ne_of_ne h h')

theorem Dense.iterSwap (h : Dense slot l) (k k' : K) (i j : Nat) :
    Dense (exchange slot k k') (iterSwap l i j) := by
  have hlen := length_iterSwap l i j
  refine ⟨fun hx => hlen ▸ h.bound hx, ?_, ?_⟩
  · intro x y m hx hy
    exact (Equiv.swap k k').injective (h.unique hx hy)
  · intro m hm
    obtain ⟨x, hx⟩ := h.owner (hlen ▸ hm)
    refine ⟨Equiv.swap k k' x, ?_⟩
    rw [exchange, Function.comp_apply, Equiv.swap_apply_self, hx]

/-- An exchange of positions gives every key the entry it had. -/
theorem Dense.entryOf_iterSwap (h : Dense slot l) (hk : slot k = some i) (hk' : slot k' = some j)
    (hne : k ≠ k') : entryOf (exchange slot k k') (Lib.iterSwap l i j) = entryOf slot l := by
  obtain ⟨a, ha⟩ := h.entryOf_isSome hk
  obtain ⟨b, hb⟩ := h.entryOf_isSome hk'
  rw [entryOf_of_slot hk] at ha
  rw [entryOf_of_slot hk'] at hb
  have hij : i ≠ j := fun he => hne (h.unique hk (he ▸ hk'))
  funext x
  by_cases hx : x = k
  · subst hx
    rw [entryOf_of_slot (exchange_left.trans hk'), entryOf_of_slot hk, iterSwap_eq ha hb, ha]
    exact List.getElem?_set_self (by rw [List.length_set]; exact h.bound hk')
  · by_cases hx' : x = k'
    · subst hx'
      rw [entryOf_of_slot (exchange_right.trans hk), entryOf_of_slot hk', iterSwap_eq ha hb,
        List.getElem?_set_ne hij.symm, List.getElem?_set_self (h.bound hk), hb]
    · cases hs : slot x with
      | none => rw [entryOf_of_none hs, entryOf_of_none ((exchange_of_ne hx hx').trans hs)]
      | some m =>
        have hi : i ≠ m := fun he => hx (h.unique hs (he ▸ hk))
        have hj : j ≠ m := fun he => hx' (h.unique hs (he ▸ hk'))
        rw [entryOf_of_slot hs, entryOf_of_slot ((exchange_of_ne hx hx').trans hs),
          iterSwap_eq ha hb, List.getElem?_set_ne hj, List.getElem?_set_ne hi]

/-- The positions after `k` was removed and `k'` took its place. -/
theorem update_exchange (slot : K → Option Nat) (k k' : K) :
    Function.update (exchange slot k k') k none =
      Function.update (Function.update slot k' (slot k)) k none := by
  funext x
  by_cases hx : x = k
  · rw [hx, Function.update_self, Function.update_self]
  · rw [Function.update_of_ne hx, Function.update_of_ne hx]
    by_cases hx' : x = k'
    · rw [hx', Function.update_self, exchange_right]
    · rw [Function.update_of_ne hx', exchange_of_ne hx hx']

/-- After the exchange `k` has the last position. -/
theorem exchange_last (hk' : slot k' = some (l.length - 1)) (i j : Nat) :
    exchange slot k k' k = some ((Lib.iterSwap l i j).length - 1) := by
  rw [exchange_left, hk', length_iterSwap]

/-- Removing any other entry: the last one takes its place. -/
theorem Dense.swapRemove (h : Dense slot l) (hk : slot k = some i)
    (hk' : slot k' = some (l.length - 1)) :
    Dense (Function.update (Function.update slot k' (some i)) k none)
      (Lib.iterSwap l i (l.length - 1)).dropLast := by
  have hswap := h.iterSwap k k' i (l.length - 1)
  have hpop := hswap.pop (exchange_last hk' i _)
  rwa [update_exchange, hk] at hpop

theorem Dense.entryOf_swapRemove (h : Dense slot l) (hk : slot k = some i)
    (hk' : slot k' = some (l.length - 1)) (hne : k ≠ k') :
    entryOf (Function.update (Function.update slot k' (some i)) k none)
        (Lib.iterSwap l i (l.length - 1)).dropLast =
      Function.update (entryOf slot l) k none := by
  have hswap := h.iterSwap k k' i (l.length - 1)
  have hpop := hswap.entryOf_pop (exchange_last hk' i _)
  rwa [update_exchange, hk, h.entryOf_iterSwap hk hk' hne] at hpop

end Exchange

end Summer.Lib
