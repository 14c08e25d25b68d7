import Summer.Net.TimerRuns

/-!
# Cancelling a timer

`cancelInLoop` does what it should for an active timer, and only for one: for any other
`TimerId` it reads the element at the end iterator of `activeTimers`.
-/
namespace Summer.Net.TimerSystem

open Summer.Lib

variable {s s' : TimerSystem} {g : Timestamp}

/-- How often the timer's callback has run. -/
def runsOf (s : TimerSystem) (x : TimerId) : Nat := (s.executed.map Execution.timer).count x

/-- The timer was deleted, and its number will not be given again. -/
structure Gone (s : TimerSystem) (x : TimerId) : Prop where
  number : x.sequence ≤ s.numCreated
  dead : ∀ a t, s.queue.heap a = some t → t.sequence ≠ x.sequence

/-- The timer is in the batch that is being run. -/
def InBatch (s : TimerSystem) (x : TimerId) : Prop :=
  ∃ e ∈ s.batch, ∃ t, s.queue.heap e.timer = some t ∧ active e.timer t.sequence = x

/-- In no continuation does the timer's callback run once more. -/
def NeverRunsAgain (g : Timestamp) (s : TimerSystem) (x : TimerId) : Prop :=
  ∀ as u, run (step (.ok g)) s as = .ok u → runsOf u x = runsOf s x

/-- In no continuation is the timer in the queue. -/
def NeverRearmed (g : Timestamp) (s : TimerSystem) (x : TimerId) : Prop :=
  ∀ as u, run (step (.ok g)) s as = .ok u → x ∉ u.queue.activeTimers

/-- What cancelling a timer is for, in each phase of the timer's life. -/
def CancelSpec (g : Timestamp) (s : TimerSystem) (x : TimerId) : Prop :=
  ∃ s', step (.ok g) s (.cancelInLoop x) = .ok s' ∧
    (x ∈ s.queue.activeTimers →
      (∀ e, e ∈ s'.queue.timers ↔ e ∈ s.queue.timers ∧ e.timer ≠ x.timer) ∧
      (∀ y, y ∈ s'.queue.activeTimers ↔ y ∈ s.queue.activeTimers ∧ y ≠ x) ∧
      NeverRunsAgain g s' x) ∧
    (InBatch s x → NeverRearmed g s' x) ∧
    (Gone s x → s'.queue.timers = s.queue.timers ∧ s'.queue.activeTimers = s.queue.activeTimers)

/-! ## A deleted timer stays deleted -/

/-- Where a timer of the heap comes from: it was there, `reset` has restarted it, or it was
created. -/
inductive Origin (s : TimerSystem) (a : Action) (b : Addr) (t : Timer) : Prop where
  | kept (heap : s.queue.heap b = some t) (notBatch : a = .reset → b ∉ s.batch.map Entry.timer)
  | restarted (p : Pass) (u : Timer) (reset : a = .reset) (pass : s.pass = some p)
      (batch : b ∈ p.expired.map Entry.timer) (heap : s.queue.heap b = some u)
      (repeats : u.repeats = true) (eq : t = u.restart p.now)
  | created (add : a = .addTimer b t.expiration t.repeats t.interval)
      (sequence : t.sequence = s.numCreated + 1)

theorem origin_step (hg : s.Good) {a : Action} (h : step (.ok g) s a = .ok s') {b : Addr}
    {t : Timer} (hb : s'.queue.heap b = some t) : Origin s a b t := by
  cases a with
  | addTimer a w r i =>
    obtain ⟨-, -, rfl⟩ := addTimer_cases _ h
    by_cases hba : b = a
    · subst hba
      rw [TimerQueue.store_heap_self, Option.some_inj] at hb
      subst hb
      exact .created rfl rfl
    · rw [TimerQueue.store_heap_ne hba] at hb
      exact .kept hb (by simp)
  | otherTimer =>
    cases h
    exact .kept hb (by simp)
  | addTimerInLoop a =>
    obtain ⟨u, fd, -, -, -, -, rfl⟩ := addTimerInLoop_cases hg h
    exact .kept hb (by simp)
  | cancelInLoop x =>
    obtain ⟨u, -, -, -, -, rfl⟩ := cancelInLoop_cases _ hg h
    by_cases hbx : b = x.timer
    · subst hbx
      rw [TimerQueue.remove_heap_self] at hb
      cases hb
    · rw [TimerQueue.remove_heap_ne hbx] at hb
      exact .kept hb (by simp)
  | handleRead =>
    obtain ⟨es, q, -, hex, rfl⟩ := handleRead_cases hg h
    dsimp only at hb
    rw [hex.frame] at hb
    exact .kept hb (by simp)
  | runCallback =>
    obtain ⟨now, expired, it, rest, u, -, -, rfl⟩ := runCallback_cases _ h
    exact .kept hb (by simp)
  | reset =>
    obtain ⟨now, expired, q, hpass, hres, rfl⟩ := reset_cases hg h
    have hbatch : s.batch = expired := by rw [batch, hpass]
    dsimp only at hb
    rw [TimerQueue.rearm_frame] at hb
    by_cases hmem : b ∈ expired.map Entry.timer
    · obtain ⟨e, he, rfl⟩ := List.mem_map.mp hmem
      obtain ⟨u, hu⟩ := hg.batch.live e (hbatch ▸ he)
      rw [hres.heap_in e he u hu] at hb
      split at hb
      · rename_i hr
        cases hb
        exact .restarted _ u rfl hpass hmem hu hr.1 rfl
      · cases hb
    · rw [hres.heap_out b hmem] at hb
      exact .kept hb fun _ => hbatch ▸ hmem
  | advance c =>
    obtain ⟨_, -, h⟩ := bind_eq_ok.mp h
    cases h
    exact .kept hb (by simp)

/-- A live timer was live before under the same number, or has the number next in turn. -/
theorem live_step (hg : s.Good) {a : Action} (h : step (.ok g) s a = .ok s') :
    ∀ b t, s'.queue.heap b = some t →
      (∃ u, s.queue.heap b = some u ∧ u.sequence = t.sequence) ∨ t.sequence = s.numCreated + 1 := by
  intro b t hb
  cases origin_step hg h hb with
  | kept hheap _ => exact .inl ⟨t, hheap, rfl⟩
  | restarted p u _ _ _ hheap _ heq =>
    exact .inl ⟨u, hheap, by rw [heq, Timer.restart_sequence]⟩
  | created _ hseq => exact .inr hseq

/-- Numbers are given in increasing order, and a callback runs only in `runCallback`. -/
theorem created_step (hg : s.Good) {a : Action} (h : step (.ok g) s a = .ok s') :
    s.numCreated ≤ s'.numCreated ∧ (s'.executed = s.executed ∨
      ∃ (e : Entry) (t : Timer) (n : Timestamp), s.queue.heap e.timer = some t ∧
      s'.executed = ⟨active e.timer t.sequence, e.when, n, s.passes⟩ :: s.executed) := by
  cases a with
  | addTimer a w r i =>
    obtain ⟨-, -, rfl⟩ := addTimer_cases _ h
    exact ⟨Nat.le_succ _, .inl rfl⟩
  | otherTimer =>
    cases h
    exact ⟨Nat.le_succ _, .inl rfl⟩
  | addTimerInLoop a =>
    obtain ⟨u, fd, -, -, -, -, rfl⟩ := addTimerInLoop_cases hg h
    exact ⟨le_rfl, .inl rfl⟩
  | cancelInLoop x =>
    obtain ⟨u, -, -, -, -, rfl⟩ := cancelInLoop_cases _ hg h
    exact ⟨le_rfl, .inl rfl⟩
  | handleRead =>
    obtain ⟨es, q, -, -, rfl⟩ := handleRead_cases hg h
    exact ⟨le_rfl, .inl rfl⟩
  | runCallback =>
    obtain ⟨now, expired, it, rest, t, -, ht, rfl⟩ := runCallback_cases _ h
    exact ⟨le_rfl, .inr ⟨it, t, now, ht, rfl⟩⟩
  | reset =>
    obtain ⟨now, expired, q, -, -, rfl⟩ := reset_cases hg h
    exact ⟨le_rfl, .inl rfl⟩
  | advance c =>
    obtain ⟨_, -, h⟩ := bind_eq_ok.mp h
    cases h
    exact ⟨le_rfl, .inl rfl⟩

theorem gone_step (hg : s.Good) {x : TimerId} (hx : Gone s x) {a : Action}
    (h : step (.ok g) s a = .ok s') : Gone s' x ∧ runsOf s' x = runsOf s x := by
  obtain ⟨hle, hexec⟩ := created_step hg h
  refine ⟨⟨hx.number.trans hle, ?_⟩, ?_⟩
  · intro b t hb heq
    rcases live_step hg h b t hb with ⟨u, hu, hseq⟩ | hseq
    · exact hx.dead b u hu (hseq.trans heq)
    · have := hx.number
      omega
  · rcases hexec with hsame | ⟨e, t, n, ht, hcons⟩
    · rw [runsOf, runsOf, hsame]
    · rw [runsOf, runsOf, hcons, List.map_cons, List.count_cons_of_ne]
      intro heq
      exact hx.dead _ t ht (by rw [← heq, active_sequence])

theorem gone_run (hg : s.Good) {x : TimerId} (hx : Gone s x) {as : List Action}
    {u : TimerSystem} (h : run (step (.ok g)) s as = .ok u) :
    Gone u x ∧ runsOf u x = runsOf s x := by
  have hinv : u.Good ∧ Gone u x ∧ runsOf u x = runsOf s x := by
    refine run_preserves (I := fun v => v.Good ∧ Gone v x ∧ runsOf v x = runsOf s x) ?_
      ⟨hg, hx, rfl⟩ h
    rintro v a w ⟨hv, hgone, hruns⟩ hstep
    obtain ⟨hgone', hruns'⟩ := gone_step hv hgone hstep
    exact ⟨good_step hv hstep, hgone', hruns'.trans hruns⟩
  exact hinv.2

/-! ## The cancellation itself -/

theorem cancelInLoop_active (hg : s.Good) {x : TimerId} (hissued : x ∈ s.issued)
    (hx : x ∈ s.queue.activeTimers) :
    ∃ t, s.queue.heap x.timer = some t ∧ t.sequence = x.sequence ∧
      step (.ok g) s (.cancelInLoop x) = .ok { s with queue := s.queue.remove x t } := by
  obtain ⟨t, ht, hseq, hok, -⟩ := TimerQueue.cancelInLoop_spec hg.consistent hx
  refine ⟨t, ht, hseq, ?_⟩
  rw [step, ensure_of hissued, ok_bind, hok]
  rfl

theorem cancelInLoop_end (hg : s.Good) {x : TimerId} (hissued : x ∈ s.issued)
    (hx : x ∉ s.queue.activeTimers) :
    step (.ok g) s (.cancelInLoop x) = .error .endIterator := by
  rw [step, ensure_of hissued, ok_bind, TimerQueue.cancelInLoop_inactive hg.consistent hx]
  rfl

/-- The cancelled timer was the only one with its number. -/
theorem gone_remove (hg : s.Good) {x : TimerId} (hissued : x ∈ s.issued) {t : Timer}
    (ht : s.queue.heap x.timer = some t) (hseq : t.sequence = x.sequence) :
    Gone { s with queue := s.queue.remove x t } x := by
  refine ⟨hg.issued_le x hissued, ?_⟩
  intro a u ha heq
  by_cases hax : a = x.timer
  · subst hax
    rw [TimerQueue.remove_heap_self] at ha
    cases ha
  · rw [TimerQueue.remove_heap_ne hax] at ha
    exact hax (hg.number_inj a x.timer u t ha ht (heq.trans hseq.symm))

/-- A timer in the queue is not in the batch. -/
theorem notInBatch_of_active (hg : s.Good) {x : TimerId} (hx : x ∈ s.queue.activeTimers) :
    ¬ InBatch s x := by
  intro h
  obtain ⟨e, he, t, -, rfl⟩ := h
  exact hg.batch.loose e he (hg.consistent.holds_of_active hx)

theorem cancelSpec_of_active (hg : s.Good) {x : TimerId} (hissued : x ∈ s.issued)
    (hx : x ∈ s.queue.activeTimers) : CancelSpec g s x := by
  obtain ⟨t, ht, hseq, hstep⟩ := cancelInLoop_active (g := g) hg hissued hx
  have hgone := gone_remove hg hissued ht hseq
  have hg' := good_step hg hstep
  refine ⟨_, hstep, fun _ => ⟨?_, ?_, ?_⟩, ?_, ?_⟩
  · exact fun e => hg.consistent.mem_remove_timers ht
  · intro y
    rw [and_comm]
    exact TimerQueue.mem_remove_active
  · intro as u hrun
    exact (gone_run hg' hgone hrun).2
  · exact fun hb => absurd hb (notInBatch_of_active hg hx)
  · intro hdead
    exact absurd hseq (hdead.dead _ t ht)

/-- Cancelling does what it is for exactly when the timer is active. -/
theorem cancel_spec_iff_active {clock : Timestamp} {as : List Action}
    (hrun : run (step (.ok g)) (init clock) as = .ok s) {x : TimerId} (hx : x ∈ s.issued) :
    CancelSpec g s x ↔ x ∈ s.queue.activeTimers := by
  have hg := good_run (init_good clock) hrun
  constructor
  · intro h
    obtain ⟨s', hstep, -⟩ := h
    by_contra hinactive
    rw [cancelInLoop_end hg hx hinactive] at hstep
    cases hstep
  · exact cancelSpec_of_active hg hx

/-- The second of two timers is cancelled while the first one's callback runs. -/
theorem cancel_spec_iff_active_sample :
    ∃ s, run (step (.ok ⟨0, by decide⟩)) (init ⟨0, by decide⟩)
        [.addTimer 16 ⟨5, by decide⟩ true 5, .addTimerInLoop 16,
          .addTimer 32 ⟨7, by decide⟩ true 5, .addTimerInLoop 32,
          .advance ⟨6, by decide⟩, .handleRead, .runCallback] = .ok s ∧
      CancelSpec ⟨0, by decide⟩ s (active 32 2) := by
  have hend : endsIn (step (.ok ⟨0, by decide⟩)) (fun s => decide (active 32 2 ∈ s.issued) &&
      decide (active 32 2 ∈ s.queue.activeTimers)) (init ⟨0, by decide⟩)
        [.addTimer 16 ⟨5, by decide⟩ true 5, .addTimerInLoop 16,
          .addTimer 32 ⟨7, by decide⟩ true 5, .addTimerInLoop 32,
          .advance ⟨6, by decide⟩, .handleRead, .runCallback] = true := by decide +kernel
  obtain ⟨s, hrun, hs⟩ := endsIn_iff.mp hend
  rw [Bool.and_eq_true, decide_eq_true_eq, decide_eq_true_eq] at hs
  exact ⟨s, hrun, (cancel_spec_iff_active hrun hs.1).mpr hs.2⟩

/-- A run that ends with an issued timer inactive, and what cancelling it does there. -/
theorem cancel_reads_end_of_endsIn {x : TimerId} {clock : Timestamp} {as : List Action}
    (h : endsIn (step (.ok clock))
      (fun s => decide (x ∈ s.issued) && decide (x ∉ s.queue.activeTimers)) (init clock) as =
        true) :
    ∃ s, run (step (.ok clock)) (init clock) as = .ok s ∧ x ∈ s.issued ∧
      step (.ok clock) s (.cancelInLoop x) = .error .endIterator ∧ ¬ CancelSpec clock s x := by
  obtain ⟨s, hrun, hs⟩ := endsIn_iff.mp h
  rw [Bool.and_eq_true, decide_eq_true_eq, decide_eq_true_eq] at hs
  have hfault : step (.ok clock) s (.cancelInLoop x) = .error .endIterator :=
    cancelInLoop_end (good_run (init_good _) hrun) hs.1 hs.2
  refine ⟨s, hrun, hs.1, hfault, ?_⟩
  intro h
  obtain ⟨s', hstep, -⟩ := h
  rw [hfault] at hstep
  cases hstep

/-- A repeating timer that cancels itself, and a one-shot timer cancelled after it has run. -/
theorem inactive_cancel_reads_end :
    (∃ s, run (step (.ok ⟨0, by decide⟩)) (init ⟨0, by decide⟩)
        [.addTimer 16 ⟨5, by decide⟩ true 5, .addTimerInLoop 16, .advance ⟨6, by decide⟩,
          .handleRead, .runCallback] = .ok s ∧
      active 16 1 ∈ s.issued ∧
      step (.ok ⟨0, by decide⟩) s (.cancelInLoop (active 16 1)) = .error .endIterator ∧
      ¬ CancelSpec ⟨0, by decide⟩ s (active 16 1)) ∧
    ∃ s, run (step (.ok ⟨0, by decide⟩)) (init ⟨0, by decide⟩)
        [.addTimer 16 ⟨5, by decide⟩ false 0, .addTimerInLoop 16, .advance ⟨6, by decide⟩,
          .handleRead, .runCallback, .reset] = .ok s ∧
      active 16 1 ∈ s.issued ∧
      step (.ok ⟨0, by decide⟩) s (.cancelInLoop (active 16 1)) = .error .endIterator ∧
      ¬ CancelSpec ⟨0, by decide⟩ s (active 16 1) :=
  ⟨cancel_reads_end_of_endsIn (by decide +kernel), cancel_reads_end_of_endsIn (by decide +kernel)⟩

end Summer.Net.TimerSystem
