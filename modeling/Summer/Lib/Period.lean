import Summer.Lib.Run

/-!
# Maximal periods of a run

A period of `p` starts with the step that makes `p` true and ends with the first step after it
that makes `p` false again.
-/
namespace Summer.Lib

universe u

variable {σ γ : Type u} {α ε : Type*} {step : σ → α → Except ε σ} {p : σ → Prop} {s t : σ}
  {as : List α}

/-- The steps `as` from `s` to `t` are a period of `p`. -/
structure Period (step : σ → α → Except ε σ) (p : σ → Prop) (s : σ) (as : List α) (t : σ) :
    Prop where
  before : ¬ p s
  during : ∃ a bs u, as = a :: bs ∧ step s a = .ok u ∧ p u ∧ Along step (fun v _ => p v) u bs
  ends : run step s as = .ok t
  after : ¬ p t

/-- The period that a state of it belongs to, up to that state. -/
theorem exists_period_start (hr : run step s as = .ok t) (hs : ¬ p s) (ht : p t) :
    ∃ pre a bs u v, as = pre ++ a :: bs ∧ run step s pre = .ok u ∧ ¬ p u ∧ step u a = .ok v ∧
      p v ∧ Along step (fun w _ => p w) v bs ∧ run step v bs = .ok t := by
  induction as using List.reverseRecOn generalizing t with
  | nil =>
    cases hr
    exact absurd ht hs
  | append_singleton as a ih =>
    obtain ⟨w, hw, hlast⟩ := run_append_ok.mp hr
    rw [run_singleton] at hlast
    by_cases hp : p w
    · obtain ⟨pre, b, bs, u, v, rfl, hpre, hu, hb, hv, hall, hrun⟩ := ih hw hp
      refine ⟨pre, b, bs ++ [a], u, v, by simp, hpre, hu, hb, hv, ?_, ?_⟩
      · exact (along_concat hrun).mpr ⟨hall, hp⟩
      · exact run_append_ok.mpr ⟨w, hrun, by rwa [run_singleton]⟩
    · exact ⟨as, a, [], w, t, rfl, hw, hp, hlast, ht, trivial, rfl⟩

/-- A step that makes `p` false ends a period. -/
theorem exists_period {a : α} {u v : σ} (hr : run step s as = .ok u) (hs : ¬ p s) (hu : p u)
    (ha : step u a = .ok v) (hv : ¬ p v) :
    ∃ pre bs w, as ++ [a] = pre ++ bs ∧ run step s pre = .ok w ∧ Period step p w bs v := by
  obtain ⟨pre, b, bs, w, x, rfl, hpre, hw, hb, hx, hall, hrun⟩ := exists_period_start hr hs hu
  refine ⟨pre, b :: (bs ++ [a]), w, by simp, hpre, hw, ⟨b, bs ++ [a], x, rfl, hb, hx, ?_⟩, ?_, hv⟩
  · exact (along_concat hrun).mpr ⟨hall, hu⟩
  · refine run_cons_ok.mpr ⟨x, hb, run_append_ok.mpr ⟨u, hrun, ?_⟩⟩
    rwa [run_singleton]

section Emitted

variable [BEq γ] [LawfulBEq γ] {emit : σ → α → List γ} {x : γ} {I : σ → Prop}

/-- From a state of a period to its end. -/
theorem count_emitted_rest (hinv : ∀ s a t, I s → step s a = .ok t → I t)
    (hstay : ∀ s a t, I s → step s a = .ok t → p t → x ∉ emit s a)
    (hleave : ∀ s a t, I s → step s a = .ok t → p s → ¬ p t → (emit s a).count x = 1)
    (hs : I s) (hp : p s) (hall : Along step (fun v _ => p v) s as) (hr : run step s as = .ok t)
    (ht : ¬ p t) : (emitted step emit s as).count x = 1 := by
  induction as generalizing s with
  | nil =>
    cases hr
    exact absurd hp ht
  | cons a as ih =>
    obtain ⟨u, hu, hr⟩ := run_cons_ok.mp hr
    rw [emitted_cons_ok hu, List.count_append]
    by_cases hpu : p u
    · rw [List.count_eq_zero.mpr (hstay s a u hs hu hpu), Nat.zero_add]
      exact ih (hinv s a u hs hu) hpu (hall.2 u hu) hr
    · rw [hleave s a u hs hu hp hpu]
      cases as with
      | nil => rfl
      | cons b bs => exact absurd (hall.2 u hu).1 hpu

/-- What is given off by no step into `p`, and once by each step out of it, is given off once in
each period. -/
theorem count_emitted_period (hinv : ∀ s a t, I s → step s a = .ok t → I t)
    (hstay : ∀ s a t, I s → step s a = .ok t → p t → x ∉ emit s a)
    (hleave : ∀ s a t, I s → step s a = .ok t → p s → ¬ p t → (emit s a).count x = 1)
    (hs : I s) (h : Period step p s as t) : (emitted step emit s as).count x = 1 := by
  obtain ⟨a, bs, u, rfl, ha, hu, hall⟩ := h.during
  obtain ⟨v, hv, hr⟩ := run_cons_ok.mp h.ends
  cases ha.symm.trans hv
  rw [emitted_cons_ok ha, List.count_append, List.count_eq_zero.mpr (hstay s a u hs ha hu),
    Nat.zero_add]
  exact count_emitted_rest hinv hstay hleave (hinv s a u hs ha) hu hall hr h.after

end Emitted

end Summer.Lib
