import Mathlib.Data.List.Induction

/-!
# Runs of a checked step function

A step function answers a new state or an error. `run` folds it over a list of
actions and stops at the first error. `Along` says that every step a run takes
meets a condition on the state before it and the action, and `emitted` collects
what the steps of a run give off. The rules below turn one fact about a step into
a fact about whole runs.
-/
namespace Summer.Lib

universe u

variable {σ β γ : Type u} {α ε : Type*}

/-- Stop with `e` unless `p` holds. -/
def ensure (p : Prop) [Decidable p] (e : ε) : Except ε Unit :=
  if p then .ok () else .error e

@[simp] theorem ensure_eq_ok {p : Prop} [Decidable p] {e : ε} {u : Unit} :
    ensure p e = .ok u ↔ p := by
  unfold ensure
  split <;> simp_all

@[simp] theorem ensure_eq_error {p : Prop} [Decidable p] {e f : ε} :
    ensure p e = .error f ↔ ¬ p ∧ e = f := by
  unfold ensure
  split <;> simp_all

theorem ensure_of {p : Prop} [Decidable p] {e : ε} (h : p) : ensure p e = .ok () :=
  ensure_eq_ok.mpr h

theorem ensure_of_not {p : Prop} [Decidable p] {e : ε} (h : ¬ p) : ensure p e = .error e :=
  ensure_eq_error.mpr ⟨h, rfl⟩

@[simp] theorem ok_bind (a : β) (f : β → Except ε γ) : (Except.ok a >>= f) = f a := rfl

@[simp] theorem error_bind (e : ε) (f : β → Except ε γ) :
    ((Except.error e : Except ε β) >>= f) = .error e := rfl

theorem bind_eq_ok {x : Except ε β} {f : β → Except ε γ} {c : γ} :
    (x >>= f) = .ok c ↔ ∃ b, x = .ok b ∧ f b = .ok c := by
  cases x with
  | error e => simp
  | ok b => simp

theorem bind_eq_error {x : Except ε β} {f : β → Except ε γ} {e : ε} :
    (x >>= f) = .error e ↔ x = .error e ∨ ∃ b, x = .ok b ∧ f b = .error e := by
  cases x with
  | error e' => simp
  | ok b => simp

theorem ensure_bind_eq_error {δ : Type} {p : Prop} [Decidable p] {e e' : ε}
    {f : Unit → Except ε δ} :
    (ensure p e >>= f) = .error e' ↔ (¬ p ∧ e = e') ∨ (p ∧ f () = .error e') := by
  by_cases hp : p
  · rw [ensure_of hp, ok_bind]
    simp [hp]
  · rw [ensure_of_not hp, error_bind]
    simp [hp]

/-- An error other than that of the check comes from what follows it. -/
theorem ensure_bind_error_of_ne {δ : Type} {p : Prop} [Decidable p] {e e' : ε}
    {f : Unit → Except ε δ} (h : (ensure p e >>= f) = .error e') (hne : e ≠ e') :
    p ∧ f () = .error e' :=
  (ensure_bind_eq_error.mp h).resolve_left fun hl => hne hl.2

/-- All the actions in order, up to the first error. -/
def run (step : σ → α → Except ε σ) : σ → List α → Except ε σ
  | s, [] => .ok s
  | s, a :: as => step s a >>= fun t => run step t as

/-- Whether the run succeeds and ends in a state of which `p` holds. -/
def endsIn (step : σ → α → Except ε σ) (p : σ → Bool) (s : σ) (as : List α) : Bool :=
  match run step s as with
  | .error _ => false
  | .ok t => p t

theorem endsIn_iff {step : σ → α → Except ε σ} {p : σ → Bool} {s : σ} {as : List α} :
    endsIn step p s as = true ↔ ∃ t, run step s as = .ok t ∧ p t = true := by
  rw [endsIn]
  cases run step s as with
  | error e => simp
  | ok t => simp

/-- Every step the run takes from `s` starts in a state where `C` holds of it. -/
def Along (step : σ → α → Except ε σ) (C : σ → α → Prop) : σ → List α → Prop
  | _, [] => True
  | s, a :: as => C s a ∧ ∀ t, step s a = .ok t → Along step C t as

/-- `Along` along a run that is actually carried out is a conjunction. -/
instance decidableAlong (step : σ → α → Except ε σ) (C : σ → α → Prop)
    [∀ s a, Decidable (C s a)] : ∀ s as, Decidable (Along step C s as)
  | _, [] => .isTrue trivial
  | s, a :: as =>
    match h : step s a with
    | .error _ => decidable_of_iff (C s a) ⟨fun hc => ⟨hc, by simp [h]⟩, fun hc => hc.1⟩
    | .ok t =>
      have := decidableAlong step C t as
      decidable_of_iff (C s a ∧ Along step C t as)
        ⟨fun hc => ⟨hc.1, fun u hu => by rw [h] at hu; cases hu; exact hc.2⟩,
          fun hc => ⟨hc.1, hc.2 t h⟩⟩

/-- What the successful steps of the run from `s` give off, in order. -/
def emitted (step : σ → α → Except ε σ) (emit : σ → α → List γ) : σ → List α → List γ
  | _, [] => []
  | s, a :: as =>
    match step s a with
    | .error _ => []
    | .ok t => emit s a ++ emitted step emit t as

section Rules

variable {step : σ → α → Except ε σ} {C : σ → α → Prop} {s t : σ} {a : α} {as bs : List α}

@[simp] theorem run_nil : run step s [] = .ok s := rfl

theorem run_cons : run step s (a :: as) = step s a >>= fun t => run step t as := rfl

theorem run_cons_ok {u : σ} :
    run step s (a :: as) = .ok u ↔ ∃ t, step s a = .ok t ∧ run step t as = .ok u := by
  rw [run_cons, bind_eq_ok]

theorem run_singleton : run step s [a] = step s a := by
  rw [run_cons]
  cases step s a <;> rfl

/-- An action that is taken or not. -/
theorem run_optional {b : Bool} :
    run step s (if b = true then [a] else []) = if b = true then step s a else .ok s := by
  cases b with
  | true => exact run_singleton
  | false => rfl

theorem run_append : run step s (as ++ bs) = run step s as >>= fun t => run step t bs := by
  induction as generalizing s with
  | nil => rfl
  | cons a as ih =>
    rw [List.cons_append, run_cons, run_cons]
    cases step s a with
    | error e => rfl
    | ok t => exact ih

theorem run_append_ok {u : σ} :
    run step s (as ++ bs) = .ok u ↔ ∃ t, run step s as = .ok t ∧ run step t bs = .ok u := by
  rw [run_append, bind_eq_ok]

theorem along_append :
    Along step C s (as ++ bs) ↔
      Along step C s as ∧ ∀ t, run step s as = .ok t → Along step C t bs := by
  induction as generalizing s with
  | nil => simp [Along]
  | cons a as ih =>
    simp only [List.cons_append, Along, run_cons_ok]
    constructor
    · intro h
      obtain ⟨hc, h⟩ := h
      exact ⟨⟨hc, fun t ht => (ih.mp (h t ht)).1⟩,
        fun u ⟨t, ht, hu⟩ => (ih.mp (h t ht)).2 u hu⟩
    · intro h
      obtain ⟨⟨hc, h⟩, hb⟩ := h
      exact ⟨hc, fun t ht => ih.mpr ⟨h t ht, fun u hu => hb u ⟨t, ht, hu⟩⟩⟩

theorem along_true : Along step (fun _ _ => True) s as := by
  induction as generalizing s with
  | nil => trivial
  | cons a as ih => exact ⟨trivial, fun _ _ => ih⟩

theorem along_of_forall_mem {p : α → Prop} (h : ∀ a ∈ as, p a) :
    Along step (fun _ a => p a) s as := by
  induction as generalizing s with
  | nil => trivial
  | cons a as ih =>
    exact ⟨h a List.mem_cons_self, fun _ _ => ih fun b hb => h b (List.mem_cons_of_mem a hb)⟩

/-- The condition on the last step of a run. -/
theorem along_concat (hr : run step s as = .ok t) :
    Along step C s (as ++ [a]) ↔ Along step C s as ∧ C t a := by
  rw [along_append]
  refine and_congr_right fun _ => ⟨fun h => (h t hr).1, fun h u hu => ?_⟩
  cases hr.symm.trans hu
  exact ⟨h, fun _ _ => trivial⟩

/-- What every step preserves of the state together with the actions that led to it. -/
theorem run_history {J : List α → σ → Prop} (hs : J [] s)
    (hstep : ∀ as t a u, run step s as = .ok t → J as t → step t a = .ok u → J (as ++ [a]) u)
    (hr : run step s as = .ok t) : J as t := by
  induction as using List.reverseRecOn generalizing t with
  | nil =>
    cases hr
    exact hs
  | append_singleton as a ih =>
    obtain ⟨u, hu, hr⟩ := run_append_ok.mp hr
    obtain ⟨v, hv, hr⟩ := run_cons_ok.mp hr
    cases hr
    exact hstep as u a _ hu (ih hu) hv

/-- A run that fails got to the step that fails. -/
theorem run_error_split {e : ε} (hr : run step s as = .error e) : ∃ pre a post t,
    as = pre ++ a :: post ∧ run step s pre = .ok t ∧ step t a = .error e := by
  induction as generalizing s with
  | nil => cases hr
  | cons a as ih =>
    rcases bind_eq_error.mp hr with he | ⟨u, hu, he⟩
    · exact ⟨[], a, as, s, rfl, rfl, he⟩
    · obtain ⟨pre, b, post, t, rfl, hpre, hb⟩ := ih he
      exact ⟨a :: pre, b, post, t, rfl, run_cons_ok.mpr ⟨u, hu, hpre⟩, hb⟩

/-- What every conditioned step preserves, every conditioned run preserves. -/
theorem run_invariant {I : σ → Prop}
    (hstep : ∀ s a t, I s → C s a → step s a = .ok t → I t)
    (hs : I s) (ha : Along step C s as) (hr : run step s as = .ok t) : I t := by
  induction as generalizing s with
  | nil => cases hr; exact hs
  | cons a as ih =>
    obtain ⟨u, hu, hr⟩ := run_cons_ok.mp hr
    exact ih (hstep s a u hs ha.1 hu) (ha.2 u hu) hr

/-- An error no conditioned step can raise ends no conditioned run. -/
theorem run_ne_error {I : σ → Prop} {bad : ε → Prop}
    (hstep : ∀ s a t, I s → C s a → step s a = .ok t → I t)
    (herr : ∀ s a e, I s → C s a → step s a = .error e → ¬ bad e)
    (hs : I s) (ha : Along step C s as) {e : ε} (hr : run step s as = .error e) : ¬ bad e := by
  induction as generalizing s with
  | nil => cases hr
  | cons a as ih =>
    rcases bind_eq_error.mp hr with he | ⟨u, hu, he⟩
    · exact herr s a e hs ha.1 he
    · exact ih (hstep s a u hs ha.1 hu) (ha.2 u hu) he

/-- Conditions that agree on the states of an invariant agree along every run. -/
theorem along_iff {I : σ → Prop} {D : σ → α → Prop}
    (hstep : ∀ s a t, I s → step s a = .ok t → I t) (hiff : ∀ s a, I s → (C s a ↔ D s a))
    (hs : I s) : Along step C s as ↔ Along step D s as := by
  induction as generalizing s with
  | nil => exact Iff.rfl
  | cons a as ih =>
    refine and_congr (hiff s a hs) ⟨fun h t ht => ?_, fun h t ht => ?_⟩
    · exact (ih (hstep s a t hs ht)).mp (h t ht)
    · exact (ih (hstep s a t hs ht)).mpr (h t ht)

/-- The unconditioned form of `run_invariant`. -/
theorem run_preserves {I : σ → Prop} (hstep : ∀ s a t, I s → step s a = .ok t → I t)
    (hs : I s) (hr : run step s as = .ok t) : I t :=
  run_invariant (C := fun _ _ => True) (fun s a t h _ => hstep s a t h) hs along_true hr

variable {emit : σ → α → List γ}

theorem emitted_cons_ok (h : step s a = .ok t) :
    emitted step emit s (a :: as) = emit s a ++ emitted step emit t as := by
  rw [emitted, h]

theorem emitted_cons_error {e : ε} (h : step s a = .error e) :
    emitted step emit s (a :: as) = [] := by
  rw [emitted, h]

theorem emitted_append (hr : run step s as = .ok t) :
    emitted step emit s (as ++ bs) = emitted step emit s as ++ emitted step emit t bs := by
  induction as generalizing s with
  | nil =>
    cases hr
    rfl
  | cons a as ih =>
    obtain ⟨u, hu, hr⟩ := run_cons_ok.mp hr
    rw [List.cons_append, emitted_cons_ok hu, emitted_cons_ok hu, ih hr, List.append_assoc]

/-- What is spent cannot be given off: then no run gives anything off twice. -/
theorem emitted_nodup {I : σ → Prop} {spent : σ → γ → Prop}
    (hinv : ∀ s a t, I s → step s a = .ok t → I t)
    (hemit : ∀ s a t, I s → step s a = .ok t →
      (emit s a).Nodup ∧ ∀ x ∈ emit s a, ¬ spent s x ∧ spent t x)
    (hkeep : ∀ s a t x, I s → step s a = .ok t → spent s x → spent t x) (hs : I s) :
    (emitted step emit s as).Nodup ∧ ∀ x, spent s x → x ∉ emitted step emit s as := by
  induction as generalizing s with
  | nil => exact ⟨List.nodup_nil, fun _ _ => List.not_mem_nil⟩
  | cons a as ih =>
    cases h : step s a with
    | error e =>
      rw [emitted_cons_error h]
      exact ⟨List.nodup_nil, fun _ _ => List.not_mem_nil⟩
    | ok t =>
      obtain ⟨hnd, hnot⟩ := ih (hinv s a t hs h)
      obtain ⟨hnd', hx⟩ := hemit s a t hs h
      rw [emitted_cons_ok h]
      constructor
      · refine List.nodup_append.mpr ⟨hnd', hnd, ?_⟩
        intro x hxs y hy heq
        exact hnot y (heq ▸ (hx x hxs).2) hy
      · intro x hspent hmem
        rcases List.mem_append.mp hmem with hmem | hmem
        · exact (hx x hmem).1 hspent
        · exact hnot x (hkeep s a t x hs h hspent) hmem

/-- What a run gives off is spent at its end. -/
theorem emitted_spent {I : σ → Prop} {spent : σ → γ → Prop}
    (hinv : ∀ s a t, I s → step s a = .ok t → I t)
    (hemit : ∀ s a t, I s → step s a = .ok t → ∀ x ∈ emit s a, spent t x)
    (hkeep : ∀ s a t x, I s → step s a = .ok t → spent s x → spent t x)
    (hs : I s) (hr : run step s as = .ok t) : ∀ x ∈ emitted step emit s as, spent t x := by
  induction as using List.reverseRecOn generalizing t with
  | nil => exact fun _ hx => absurd hx List.not_mem_nil
  | append_singleton as a ih =>
    obtain ⟨u, hu, hr⟩ := run_append_ok.mp hr
    obtain ⟨v, hv, hr⟩ := run_cons_ok.mp hr
    cases hr
    have hI : I u := run_preserves hinv hs hu
    intro x hx
    rw [emitted_append hu] at hx
    rcases List.mem_append.mp hx with hx | hx
    · exact hkeep u a _ x hI hv (ih hu x hx)
    · rw [emitted_cons_ok hv] at hx
      refine hemit u a _ hI hv x ?_
      simpa [emitted] using hx

end Rules

end Summer.Lib
