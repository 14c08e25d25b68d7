import Summer.Net.TimerCancel

/-!
# What a pass executes

A pass takes out the timers that are due at its start and runs each of them, in the order of
the queue. Timers that its callbacks add wait for a later pass.
-/
namespace Summer.Net

open Summer.Lib

/-- The entry of the queue that the execution came from. -/
def Execution.queued (e : Execution) : Entry := entry e.expiration e.timer.timer

namespace TimerSystem

/-- The executions of a pass, latest first. -/
def executionsOf (s : TimerSystem) (pass : Nat) : List Execution :=
  s.executed.filter fun e => e.pass = pass

variable {s s' : TimerSystem} {g : Timestamp}

/-- What a step does to the pass, the clock and the executions. -/
inductive Fires (s s' : TimerSystem) (a : Action) : Prop where
  | begin (es : List Entry) (action : a = .handleRead) (idle : s.pass = none)
      (expired : ∀ e, e ∈ es ↔ e ∈ s.queue.timers ∧ e.when ≤ s.queue.clock)
      (ordered : es.Pairwise (· < ·)) (pass : s'.pass = some ⟨s.queue.clock, es, es⟩)
      (passes : s'.passes = s.passes + 1) (executed : s'.executed = s.executed)
      (clock : s'.queue.clock = s.queue.clock)
  | callback (now : Timestamp) (expired : List Entry) (it : Entry) (rest : List Entry) (t : Timer)
      (action : a = .runCallback) (pass : s.pass = some ⟨now, expired, it :: rest⟩)
      (heap : s.queue.heap it.timer = some t)
      (eq : s' = { s with
        pass := some ⟨now, expired, rest⟩
        executed := ⟨active it.timer t.sequence, it.when, now, s.passes⟩ :: s.executed })
  | finish (now : Timestamp) (expired : List Entry) (action : a = .reset)
      (pass : s.pass = some ⟨now, expired, []⟩) (idle : s'.pass = none)
      (passes : s'.passes = s.passes) (executed : s'.executed = s.executed)
      (clock : s'.queue.clock = s.queue.clock)
  | other (action : a ≠ .reset) (pass : s'.pass = s.pass) (passes : s'.passes = s.passes)
      (executed : s'.executed = s.executed) (clock : s.queue.clock ≤ s'.queue.clock)

theorem fires_of_step (hg : s.Good) {a : Action} (h : step (.ok g) s a = .ok s') :
    Fires s s' a := by
  cases a with
  | addTimer a w r i =>
    obtain ⟨-, -, rfl⟩ := addTimer_cases _ h
    exact .other (by nofun) rfl rfl rfl le_rfl
  | otherTimer =>
    cases h
    exact .other (by nofun) rfl rfl rfl le_rfl
  | addTimerInLoop a =>
    obtain ⟨t, fd, -, -, -, -, rfl⟩ := addTimerInLoop_cases hg h
    exact .other (by nofun) rfl rfl rfl le_rfl
  | cancelInLoop x =>
    obtain ⟨t, -, -, -, -, rfl⟩ := cancelInLoop_cases _ hg h
    exact .other (by nofun) rfl rfl rfl le_rfl
  | handleRead =>
    obtain ⟨es, q, hnone, hex, rfl⟩ := handleRead_cases hg h
    have hclock : q.clock = s.queue.clock := by rw [hex.frame]
    exact .begin es rfl hnone hex.expired hex.ordered rfl rfl rfl hclock
  | runCallback =>
    obtain ⟨now, expired, it, rest, t, hpass, ht, heq⟩ := runCallback_cases _ h
    exact .callback now expired it rest t rfl hpass ht heq
  | reset =>
    obtain ⟨now, expired, q, hpass, hres, rfl⟩ := reset_cases hg h
    refine .finish now expired rfl hpass rfl rfl rfl ?_
    show q.rearm.clock = s.queue.clock
    rw [TimerQueue.rearm_frame, hres.frame]
  | advance c =>
    obtain ⟨_, hen, h⟩ := bind_eq_ok.mp h
    cases h
    exact .other (by nofun) rfl rfl rfl (ensure_eq_ok.mp hen)

/-- Only `reset` changes a timer. -/
theorem heap_kept (hg : s.Good) {a : Action} (ha : a ≠ .reset) (h : step (.ok g) s a = .ok s')
    {b : Addr} {t u : Timer} (hu : s.queue.heap b = some u) (ht : s'.queue.heap b = some t) :
    u = t := by
  cases origin_step hg h ht with
  | kept hheap _ => exact Option.some_inj.mp (hu.symm.trans hheap)
  | restarted p v hreset _ _ _ _ _ => exact absurd hreset ha
  | created hadd _ =>
    rw [hadd] at h
    obtain ⟨-, hfree, -⟩ := addTimer_cases _ h
    rw [hfree] at hu
    cases hu

/-- The timers of the batch stay as they are until `reset`. -/
theorem batch_heap (hg : s.Good) {a : Action} (ha : a ≠ .reset) (h : step (.ok g) s a = .ok s')
    {it : Entry} (hit : it ∈ s.batch) (hit' : it ∈ s'.batch) :
    s'.queue.heap it.timer = s.queue.heap it.timer := by
  obtain ⟨t, ht⟩ := (good_step hg h).batch.live it hit'
  obtain ⟨u, hu⟩ := hg.batch.live it hit
  rw [ht, hu, heap_kept hg ha h hu ht]

/-! ## The invariant -/

/-- What has run in the pass so far, and what is known of all executions. -/
structure Firing (s : TimerSystem) : Prop where
  good : s.Good
  expiration : ∀ it ∈ s.batch, ∀ t, s.queue.heap it.timer = some t → t.expiration = it.when
  due : ∀ p, s.pass = some p → ∀ it ∈ p.expired, it.when ≤ p.now
  sorted : s.batch.Pairwise (· < ·)
  ran : ∀ p, s.pass = some p →
    (executionsOf s s.passes).reverse.map Execution.queued ++ p.rest = p.expired
  numbered : ∀ p, s.pass = some p → ∀ e ∈ executionsOf s s.passes,
    e.now = p.now ∧ ∃ t, s.queue.heap e.timer.timer = some t ∧ t.sequence = e.timer.sequence
  pass_le : ∀ e ∈ s.executed, e.pass ≤ s.passes
  now_le : ∀ e ∈ s.executed, e.now ≤ s.queue.clock
  now_le_pass : ∀ p, s.pass = some p → p.now ≤ s.queue.clock ∧ ∀ e ∈ s.executed, e.now ≤ p.now
  executed_due : ∀ e ∈ s.executed, e.expiration ≤ e.now
  ordered : s.executed.Pairwise fun later earlier =>
    later.pass = earlier.pass → earlier.expiration ≤ later.expiration

theorem init_firing (clock : Timestamp) : (init clock).Firing where
  good := init_good clock
  expiration := fun _ h => absurd h List.not_mem_nil
  due := fun _ h => nomatch h
  sorted := List.Pairwise.nil
  ran := fun _ h => nomatch h
  numbered := fun _ h => nomatch h
  pass_le := fun _ h => nomatch h
  now_le := fun _ h => nomatch h
  now_le_pass := fun _ h => nomatch h
  executed_due := fun _ h => nomatch h
  ordered := List.Pairwise.nil

theorem batch_of_pass {p : Pass} (h : s.pass = some p) : s.batch = p.expired := by
  rw [batch, h]

theorem batch_of_idle (h : s.pass = none) : s.batch = [] := by
  rw [batch, h]

theorem mem_executionsOf {e : Execution} {n : Nat} :
    e ∈ executionsOf s n ↔ e ∈ s.executed ∧ e.pass = n := by
  rw [executionsOf, List.mem_filter, decide_eq_true_eq]

/-- No callback of a pass has run before it starts. -/
theorem executionsOf_next (h : ∀ e ∈ s.executed, e.pass ≤ s.passes) :
    executionsOf s (s.passes + 1) = [] := by
  rw [executionsOf, List.filter_eq_nil_iff]
  intro e he heq
  have := h e he
  rw [decide_eq_true_eq] at heq
  omega

/-- Other steps during a pass leave the batch and what has run alone. -/
theorem firing_other (hf : s.Firing) {a : Action} (h : step (.ok g) s a = .ok s')
    (ha : a ≠ .reset) (hpass : s'.pass = s.pass) (hpasses : s'.passes = s.passes)
    (hexec : s'.executed = s.executed) (hclock : s.queue.clock ≤ s'.queue.clock) :
    s'.Firing := by
  have hbatch : s'.batch = s.batch := by rw [batch, batch, hpass]
  have hof : executionsOf s' s'.passes = executionsOf s s.passes := by
    rw [executionsOf, executionsOf, hexec, hpasses]
  have hheap : ∀ it ∈ s.batch, s'.queue.heap it.timer = s.queue.heap it.timer :=
    fun it hit => batch_heap hf.good ha h hit (hbatch ▸ hit)
  refine ⟨good_step hf.good h, ?_, ?_, hbatch ▸ hf.sorted, ?_, ?_, ?_, ?_, ?_, ?_, ?_⟩
  · intro it hit t ht
    rw [hbatch] at hit
    exact hf.expiration it hit t ((hheap it hit).symm.trans ht)
  · exact hpass ▸ hf.due
  · rw [hof, hpass]
    exact hf.ran
  · rw [hof, hpass]
    intro p hp e he
    obtain ⟨hnow, t, ht, hseq⟩ := hf.numbered p hp e he
    refine ⟨hnow, t, ?_, hseq⟩
    -- What has run in the pass is in the batch.
    have hmem : e.queued ∈ s.batch := by
      rw [batch_of_pass hp, ← hf.ran p hp]
      exact List.mem_append_left _ (List.mem_map_of_mem (List.mem_reverse.mpr he))
    exact (hheap e.queued hmem).trans ht
  · rw [hexec, hpasses]
    exact hf.pass_le
  · rw [hexec]
    exact fun e he => (hf.now_le e he).trans hclock
  · rw [hexec, hpass]
    exact fun p hp => ⟨(hf.now_le_pass p hp).1.trans hclock, (hf.now_le_pass p hp).2⟩
  · rw [hexec]
    exact hf.executed_due
  · rw [hexec]
    exact hf.ordered

/-- The batch of a new pass is due and sorted, and none of it has run. -/
theorem firing_begin (hf : s.Firing) {a : Action} (h : step (.ok g) s a = .ok s')
    (ha : a ≠ .reset) {es : List Entry}
    (hes : ∀ e, e ∈ es ↔ e ∈ s.queue.timers ∧ e.when ≤ s.queue.clock)
    (hsorted : es.Pairwise (· < ·)) (hpass : s'.pass = some ⟨s.queue.clock, es, es⟩)
    (hpasses : s'.passes = s.passes + 1) (hexec : s'.executed = s.executed)
    (hclock : s'.queue.clock = s.queue.clock) : s'.Firing := by
  have hbatch : s'.batch = es := batch_of_pass hpass
  have hof : executionsOf s' s'.passes = [] := by
    rw [hpasses, ← executionsOf_next hf.pass_le, executionsOf, executionsOf, hexec]
  refine ⟨good_step hf.good h, ?_, ?_, hbatch ▸ hsorted, ?_, ?_, ?_, ?_, ?_, ?_, ?_⟩
  · intro it hit t ht
    rw [hbatch] at hit
    obtain ⟨u, hu, hexp, -⟩ := hf.good.consistent.listed it ((hes it).mp hit).1
    rw [← heap_kept hf.good ha h hu ht, hexp]
  · intro p hp it hit
    rw [hpass] at hp
    cases hp
    exact ((hes it).mp hit).2
  · intro p hp
    rw [hpass] at hp
    cases hp
    rw [hof]
    rfl
  · intro p _ e he
    rw [hof] at he
    cases he
  · rw [hexec, hpasses]
    exact fun e he => (hf.pass_le e he).trans (Nat.le_succ _)
  · rw [hexec, hclock]
    exact hf.now_le
  · intro p hp
    rw [hpass] at hp
    cases hp
    rw [hexec, hclock]
    exact ⟨le_rfl, hf.now_le⟩
  · rw [hexec]
    exact hf.executed_due
  · rw [hexec]
    exact hf.ordered

/-- The front of the rest of the batch runs: it is due, and comes after what has run. -/
theorem firing_callback (hf : s.Firing) {a : Action} (h : step (.ok g) s a = .ok s')
    {now : Timestamp} {expired rest : List Entry} {it : Entry} {t : Timer}
    (hpass : s.pass = some ⟨now, expired, it :: rest⟩) (ht : s.queue.heap it.timer = some t)
    (heq : s' = { s with
      pass := some ⟨now, expired, rest⟩
      executed := ⟨active it.timer t.sequence, it.when, now, s.passes⟩ :: s.executed }) :
    s'.Firing := by
  have hg' := good_step hf.good h
  subst heq
  have hbatch : s.batch = expired := batch_of_pass hpass
  have hran := hf.ran _ hpass
  dsimp only at hran
  have hit : it ∈ expired := hran ▸ List.mem_append_right _ List.mem_cons_self
  have hof : ∀ x : Execution, x.pass = s.passes →
      executionsOf { s with pass := some ⟨now, expired, rest⟩, executed := x :: s.executed }
        s.passes = x :: executionsOf s s.passes := by
    intro x hx
    simp [executionsOf, hx]
  have hdue : it.when ≤ now := hf.due _ hpass it hit
  refine ⟨hg', ?_, ?_, ?_, ?_, ?_, ?_, ?_, ?_, ?_, ?_⟩
  · exact hbatch ▸ hf.expiration
  · intro p hp d hd
    cases hp
    exact hf.due _ hpass d hd
  · exact hbatch ▸ hf.sorted
  · intro p hp
    cases hp
    rw [hof _ rfl, List.reverse_cons, List.map_append, List.append_assoc, ← hran]
    rfl
  · intro p hp e he
    cases hp
    rw [hof _ rfl] at he
    rcases List.mem_cons.mp he with rfl | he
    · exact ⟨rfl, t, ht, rfl⟩
    · exact hf.numbered _ hpass e he
  · intro e he
    rcases List.mem_cons.mp he with rfl | he
    · exact le_rfl
    · exact hf.pass_le e he
  · intro e he
    rcases List.mem_cons.mp he with rfl | he
    · exact (hf.now_le_pass _ hpass).1
    · exact hf.now_le e he
  · intro p hp
    cases hp
    refine ⟨(hf.now_le_pass _ hpass).1, ?_⟩
    intro e he
    rcases List.mem_cons.mp he with rfl | he
    · exact le_rfl
    · exact (hf.now_le_pass _ hpass).2 e he
  · intro e he
    rcases List.mem_cons.mp he with rfl | he
    · exact hdue
    · exact hf.executed_due e he
  · refine List.pairwise_cons.mpr ⟨?_, hf.ordered⟩
    intro e he hsame
    -- An earlier execution of this pass came from the sorted batch.
    have hsorted : expired.Pairwise (· < ·) := hbatch ▸ hf.sorted
    rw [← hran, List.pairwise_append] at hsorted
    have hmem : e.queued ∈ (executionsOf s s.passes).reverse.map Execution.queued :=
      List.mem_map_of_mem (List.mem_reverse.mpr (mem_executionsOf.mpr ⟨he, hsame.symm⟩))
    exact TimerQueue.le_when_of_le (hsorted.2.2 _ hmem it List.mem_cons_self).le

theorem firing_finish (hf : s.Firing) {a : Action} (h : step (.ok g) s a = .ok s')
    (hidle : s'.pass = none) (hpasses : s'.passes = s.passes) (hexec : s'.executed = s.executed)
    (hclock : s'.queue.clock = s.queue.clock) : s'.Firing := by
  have hnone : ∀ p, s'.pass ≠ some p := by
    intro p hp
    rw [hidle] at hp
    cases hp
  refine ⟨good_step hf.good h, ?_, fun p hp => absurd hp (hnone p), ?_,
    fun p hp => absurd hp (hnone p), fun p hp => absurd hp (hnone p), ?_, ?_,
    fun p hp => absurd hp (hnone p), ?_, ?_⟩
  · rw [batch_of_idle hidle]
    exact fun _ hit => absurd hit List.not_mem_nil
  · rw [batch_of_idle hidle]
    exact List.Pairwise.nil
  · rw [hexec, hpasses]
    exact hf.pass_le
  · rw [hexec, hclock]
    exact hf.now_le
  · rw [hexec]
    exact hf.executed_due
  · rw [hexec]
    exact hf.ordered

theorem firing_step (hf : s.Firing) {a : Action} (h : step (.ok g) s a = .ok s') :
    s'.Firing := by
  cases fires_of_step hf.good h with
  | begin es ha _ hes hsorted hpass hpasses hexec hclock =>
    exact firing_begin hf h (by rw [ha]; nofun) hes hsorted hpass hpasses hexec hclock
  | callback now expired it rest t _ hpass ht heq => exact firing_callback hf h hpass ht heq
  | finish now expired _ _ hidle hpasses hexec hclock =>
    exact firing_finish hf h hidle hpasses hexec hclock
  | other ha hpass hpasses hexec hclock => exact firing_other hf h ha hpass hpasses hexec hclock

theorem firing_run {as : List Action} (hf : s.Firing) (h : run (step (.ok g)) s as = .ok s') :
    s'.Firing :=
  run_preserves (fun _ _ _ hu hs => firing_step hu hs) hf h

/-! ## One pass, and all that comes after it -/

/-- The pass `s₀` starts is still running in `s`, with the batch as it was. -/
structure During (s₀ : TimerSystem) (es : List Entry) (s : TimerSystem) : Prop where
  pass : ∃ rest, s.pass = some ⟨s₀.queue.clock, es, rest⟩
  passes : s.passes = s₀.passes + 1
  heap : ∀ it ∈ es, s.queue.heap it.timer = s₀.queue.heap it.timer

theorem during_step {s₀ : TimerSystem} {es : List Entry} (hf : s.Firing) (hd : During s₀ es s)
    {a : Action} (ha : a ≠ .reset) (h : step (.ok g) s a = .ok s') : During s₀ es s' := by
  obtain ⟨rest, hpass⟩ := hd.pass
  have hpass' : ∃ rest', s'.pass = some ⟨s₀.queue.clock, es, rest'⟩ ∧ s'.passes = s.passes := by
    cases fires_of_step hf.good h with
    | begin _ _ hidle _ _ _ _ _ _ =>
      rw [hpass] at hidle
      cases hidle
    | callback now expired it rest' t _ hp _ heq =>
      rw [hpass] at hp
      cases hp
      exact ⟨rest', by rw [heq], by rw [heq]⟩
    | finish _ _ hreset _ _ _ _ _ => exact absurd hreset ha
    | other _ hsame hpasses _ _ => exact ⟨rest, hsame.trans hpass, hpasses⟩
  obtain ⟨rest', hrest, hpasses⟩ := hpass'
  refine ⟨⟨rest', hrest⟩, hpasses.trans hd.passes, ?_⟩
  intro it hit
  have hbatch : it ∈ s.batch := by rwa [batch_of_pass hpass]
  have hbatch' : it ∈ s'.batch := by rwa [batch_of_pass hrest]
  exact (batch_heap hf.good ha h hbatch hbatch').trans (hd.heap it hit)

theorem during_run {s₀ : TimerSystem} {es : List Entry} (hf : s.Firing) (hd : During s₀ es s)
    {as : List Action} (has : ∀ a ∈ as, a ≠ .reset) (h : run (step (.ok g)) s as = .ok s') :
    During s₀ es s' := by
  have hinv := run_invariant (C := fun _ a => a ≠ Action.reset)
    (I := fun u => u.Firing ∧ During s₀ es u)
    (fun _ _ _ hu ha hs => ⟨firing_step hu.1 hs, during_step hu.1 hu.2 ha hs⟩) ⟨hf, hd⟩
    (along_of_forall_mem has) h
  exact hinv.2

/-- The batch holds the timers that were active and due, each with its own number. -/
theorem handleRead_during (hf : s.Firing) (h : step (.ok g) s .handleRead = .ok s') :
    ∃ es, (∀ e, e ∈ es ↔ e ∈ s.queue.timers ∧ e.when ≤ s.queue.clock) ∧ es.Pairwise (· < ·) ∧
      During s es s' := by
  cases fires_of_step hf.good h with
  | begin es _ _ hes hsorted hpass hpasses _ _ =>
    refine ⟨es, hes, hsorted, ⟨es, hpass⟩, hpasses, ?_⟩
    intro it hit
    obtain ⟨t, ht, -, -⟩ := hf.good.consistent.listed it ((hes it).mp hit).1
    have hbatch : it ∈ s'.batch := by rwa [batch_of_pass hpass]
    obtain ⟨u, hu⟩ := (good_step hf.good h).batch.live it hbatch
    cases origin_step hf.good h hu with
    | kept hheap _ => rw [hu, hheap]
    | restarted _ _ hreset _ _ _ _ _ => cases hreset
    | created hadd _ => cases hadd
  | callback _ _ _ _ _ ha _ _ _ => cases ha
  | finish _ _ ha _ _ _ _ _ => cases ha
  | other _ hpass hpasses _ _ =>
    obtain ⟨es, q, hnone, -, rfl⟩ := handleRead_cases hf.good h
    rw [hnone] at hpass
    cases hpass

/-- No more callbacks of this pass will run. -/
def PassOver (s : TimerSystem) (n : Nat) : Prop :=
  n < s.passes ∨ (n = s.passes ∧ s.pass = none)

theorem passOver_step (hf : s.Firing) {n : Nat} (ho : PassOver s n) {a : Action}
    (h : step (.ok g) s a = .ok s') : PassOver s' n ∧ executionsOf s' n = executionsOf s n := by
  cases fires_of_step hf.good h with
  | begin es _ hidle _ _ hpass hpasses hexec _ =>
    refine ⟨.inl ?_, by rw [executionsOf, executionsOf, hexec]⟩
    rcases ho with ho | ⟨ho, -⟩ <;> omega
  | callback now expired it rest t _ hpass _ heq =>
    rcases ho with ho | ⟨-, hnone⟩
    · subst heq
      refine ⟨.inl ho, ?_⟩
      have hne : s.passes ≠ n := by omega
      simp [executionsOf, hne]
    · rw [hnone] at hpass
      cases hpass
  | finish _ _ _ _ hidle hpasses hexec _ =>
    refine ⟨?_, by rw [executionsOf, executionsOf, hexec]⟩
    rw [PassOver, hpasses, hidle]
    exact ho.imp_right fun ho => ⟨ho.1, rfl⟩
  | other _ hpass hpasses hexec _ =>
    refine ⟨?_, by rw [executionsOf, executionsOf, hexec]⟩
    rw [PassOver, hpasses, hpass]
    exact ho

theorem passOver_run (hf : s.Firing) {n : Nat} (ho : PassOver s n) {as : List Action}
    (h : run (step (.ok g)) s as = .ok s') : executionsOf s' n = executionsOf s n := by
  have hinv := run_preserves
    (I := fun u => u.Firing ∧ PassOver u n ∧ executionsOf u n = executionsOf s n)
    (fun u a v hu hs => ⟨firing_step hu.1 hs, (passOver_step hu.1 hu.2.1 hs).1,
      (passOver_step hu.1 hu.2.1 hs).2.trans hu.2.2⟩) ⟨hf, ho, rfl⟩ h
  exact hinv.2.2

/-- What the pass that starts in `s₀` may execute: the timers active and due then, once. -/
structure Fired (s₀ s : TimerSystem) : Prop where
  once : ((executionsOf s (s₀.passes + 1)).map Execution.timer).Nodup
  active : ∀ e ∈ executionsOf s (s₀.passes + 1), e.timer ∈ s₀.queue.activeTimers ∧
    e.now = s₀.queue.clock ∧ ∃ t, s₀.queue.heap e.timer.timer = some t ∧
      t.expiration = e.expiration ∧ t.expiration ≤ s₀.queue.clock

/-- The pass executes every timer that was active and due. -/
def FiredAll (s₀ s : TimerSystem) : Prop :=
  ∀ x ∈ s₀.queue.activeTimers, ∀ t, s₀.queue.heap x.timer = some t →
    t.expiration ≤ s₀.queue.clock →
    ⟨x, t.expiration, s₀.queue.clock, s₀.passes + 1⟩ ∈ s.executed

section

variable {s₀ : TimerSystem} {es : List Entry}

/-- The executions so far come from the front of the batch. -/
theorem During.ran (hd : During s₀ es s) (hf : s.Firing) : ∃ rest,
    s.pass = some ⟨s₀.queue.clock, es, rest⟩ ∧
    (executionsOf s (s₀.passes + 1)).reverse.map Execution.queued ++ rest = es := by
  obtain ⟨rest, hpass⟩ := hd.pass
  refine ⟨rest, hpass, ?_⟩
  rw [← hd.passes]
  exact hf.ran _ hpass

/-- An execution of the pass bears the number its timer had at the start. -/
theorem During.execution (hd : During s₀ es s) (hf : s.Firing) (hf₀ : s₀.Firing)
    (hes : ∀ e, e ∈ es ↔ e ∈ s₀.queue.timers ∧ e.when ≤ s₀.queue.clock) {e : Execution}
    (he : e ∈ executionsOf s (s₀.passes + 1)) :
    e.queued ∈ es ∧ e.now = s₀.queue.clock ∧ ∃ t, s₀.queue.heap e.timer.timer = some t ∧
      t.sequence = e.timer.sequence ∧ t.expiration = e.expiration ∧
      e.timer ∈ s₀.queue.activeTimers := by
  obtain ⟨rest, hpass, hran⟩ := hd.ran hf
  have hmem : e.queued ∈ es :=
    hran ▸ List.mem_append_left _ (List.mem_map_of_mem (List.mem_reverse.mpr he))
  obtain ⟨hnow, t, ht, hseq⟩ := hf.numbered _ hpass e (by rwa [hd.passes])
  have ht₀ : s₀.queue.heap e.timer.timer = some t := (hd.heap e.queued hmem).symm.trans ht
  obtain ⟨u, hu, hexp, hact⟩ := hf₀.good.consistent.listed _ ((hes _).mp hmem).1
  obtain rfl : t = u := Option.some_inj.mp (ht₀.symm.trans hu)
  refine ⟨hmem, hnow, t, ht₀, hseq, hexp, ?_⟩
  rwa [hseq] at hact

theorem During.fired (hd : During s₀ es s) (hf : s.Firing) (hf₀ : s₀.Firing)
    (hes : ∀ e, e ∈ es ↔ e ∈ s₀.queue.timers ∧ e.when ≤ s₀.queue.clock) : Fired s₀ s := by
  obtain ⟨rest, hpass, hran⟩ := hd.ran hf
  constructor
  · -- Two executions of one timer would be two entries of the batch at one address.
    have hbatch : s.batch = es := batch_of_pass hpass
    have hnd := hbatch ▸ hf.good.batch.nodup
    rw [← hran, List.map_append, List.map_map, List.map_reverse] at hnd
    have hrev := List.nodup_reverse.mp (List.nodup_append.mp hnd).1
    exact List.Nodup.of_map Active.timer (by rwa [List.map_map])
  · intro e he
    obtain ⟨hmem, hnow, t, ht, -, hexp, hact⟩ := hd.execution hf hf₀ hes he
    refine ⟨hact, hnow, t, ht, hexp, ?_⟩
    rw [hexp]
    exact ((hes _).mp hmem).2

theorem During.firedAll (hd : During s₀ es s) (hf : s.Firing) (hf₀ : s₀.Firing)
    (hes : ∀ e, e ∈ es ↔ e ∈ s₀.queue.timers ∧ e.when ≤ s₀.queue.clock)
    (hdone : ∃ now expired, s.pass = some ⟨now, expired, []⟩) : FiredAll s₀ s := by
  intro x hx t ht hle
  obtain ⟨rest, hpass, hran⟩ := hd.ran hf
  obtain ⟨now, expired, hdone⟩ := hdone
  rw [hpass] at hdone
  cases hdone
  obtain ⟨u, hu, hseq, hentry⟩ := hf₀.good.consistent.activated x hx
  obtain rfl : t = u := Option.some_inj.mp (ht.symm.trans hu)
  have hmem : entry t.expiration x.timer ∈ es := (hes _).mpr ⟨hentry, hle⟩
  rw [← hran, List.append_nil, List.mem_map] at hmem
  obtain ⟨e, he, heq⟩ := hmem
  have he := List.mem_reverse.mp he
  obtain ⟨-, hnow, v, hv, hvseq, hvexp, -⟩ := hd.execution hf hf₀ hes he
  have haddr : e.timer.timer = x.timer := congrArg Entry.timer heq
  obtain rfl : t = v := by
    rw [haddr, ht] at hv
    exact Option.some_inj.mp hv
  have htimer : e.timer = x := by
    rw [← active_eta e.timer, ← active_eta x, haddr, ← hvseq, hseq]
  obtain ⟨hexec, hn⟩ := mem_executionsOf.mp he
  have hx : e = ⟨x, t.expiration, s₀.queue.clock, s₀.passes + 1⟩ := by
    cases e
    simp only [Execution.mk.injEq]
    exact ⟨htimer, hvexp.symm, hnow, hn⟩
  rwa [← hx]

/-- `reset` ends a pass whose callbacks have all run. -/
theorem During.reset (hd : During s₀ es s) (hf : s.Firing) (h : step (.ok g) s .reset = .ok s') :
    (∃ now expired, s.pass = some ⟨now, expired, []⟩) ∧ PassOver s' (s₀.passes + 1) ∧
      executionsOf s' (s₀.passes + 1) = executionsOf s (s₀.passes + 1) := by
  obtain ⟨now, expired, q, hpass, -, rfl⟩ := reset_cases hf.good h
  exact ⟨⟨now, expired, hpass⟩, .inr ⟨hd.passes.symm, rfl⟩, rfl⟩

theorem Fired.congr {u : TimerSystem} (h : Fired s₀ s)
    (heq : executionsOf u (s₀.passes + 1) = executionsOf s (s₀.passes + 1)) : Fired s₀ u :=
  ⟨heq ▸ h.once, heq ▸ h.active⟩

theorem FiredAll.congr {u : TimerSystem} (h : FiredAll s₀ s)
    (heq : executionsOf u (s₀.passes + 1) = executionsOf s (s₀.passes + 1)) :
    FiredAll s₀ u := by
  intro x hx t ht hle
  have hmem := mem_executionsOf.mpr ⟨h x hx t ht hle, rfl⟩
  rw [← heq] at hmem
  exact (mem_executionsOf.mp hmem).1

/-- At any time after the start of a pass it has executed only what was active and due at its
start, each at most once, and all of it when the pass is over. -/
theorem pass_fired (hf₀ : s₀.Firing) (h : step (.ok g) s₀ .handleRead = .ok s')
    {after : List Action} (hrun : run (step (.ok g)) s' after = .ok s) :
    Fired s₀ s ∧ (.reset ∈ after → FiredAll s₀ s) := by
  obtain ⟨es, hes, -, hd⟩ := handleRead_during hf₀ h
  have hf' := firing_step hf₀ h
  by_cases hreset : Action.reset ∈ after
  · obtain ⟨during, post, rfl, hnot⟩ := List.eq_append_cons_of_mem hreset
    obtain ⟨u, hu, hrun⟩ := run_append_ok.mp hrun
    obtain ⟨v, hv, hrun⟩ := run_cons_ok.mp hrun
    have hfu := firing_run hf' hu
    have hdu := during_run hf' hd (fun a ha heq => hnot (heq ▸ ha)) hu
    obtain ⟨hdone, hover, heq⟩ := hdu.reset hfu hv
    have heq' := (passOver_run (firing_step hfu hv) hover hrun).trans heq
    exact ⟨(hdu.fired hfu hf₀ hes).congr heq',
      fun _ => (hdu.firedAll hfu hf₀ hes hdone).congr heq'⟩
  · have hd' := during_run hf' hd (fun a ha heq => hreset (heq ▸ ha)) hrun
    exact ⟨hd'.fired (firing_run hf' hrun) hf₀ hes, fun hr => absurd hr hreset⟩

end

end TimerSystem

end Summer.Net
