import Summer.Lib.Run

/-!
# Forward simulation

One step function is simulated by another if a relation between their states is kept up by
answering each step of the first with a run of the second. Then it is kept up by whole runs.
-/
namespace Summer.Lib

universe u v

variable {σ : Type u} {τ : Type v} {α β ε ε' : Type*}

/-- Each step that meets `C` is answered by a run that leads to related states. -/
def Simulates (step : σ → α → Except ε σ) (step' : τ → β → Except ε' τ) (C : α → Prop)
    (R : σ → τ → Prop) : Prop :=
  ∀ s t a s', R s t → C a → step s a = .ok s' → ∃ bs t', run step' t bs = .ok t' ∧ R s' t'

variable {step : σ → α → Except ε σ} {step' : τ → β → Except ε' τ} {C : α → Prop}
  {R : σ → τ → Prop} {s s' : σ} {t : τ} {as : List α}

theorem Simulates.run (h : Simulates step step' C R) (hR : R s t) (hC : ∀ a ∈ as, C a)
    (hrun : run step s as = .ok s') : ∃ bs t', run step' t bs = .ok t' ∧ R s' t' := by
  induction as generalizing s t with
  | nil =>
    cases hrun
    exact ⟨[], t, rfl, hR⟩
  | cons a as ih =>
    obtain ⟨u, hstep, hrun⟩ := run_cons_ok.mp hrun
    obtain ⟨bs, v, hbs, hv⟩ := h s t a u hR (hC a List.mem_cons_self) hstep
    obtain ⟨cs, w, hcs, hw⟩ := ih hv (fun b hb => hC b (List.mem_cons_of_mem a hb)) hrun
    exact ⟨bs ++ cs, w, run_append_ok.mpr ⟨v, hbs, hcs⟩, hw⟩

end Summer.Lib
