import Summer.Net.TimerRuns

/-!
# The wake-up of the timer queue

Outside a pass a queue with timers has its descriptor armed in time for the earliest one,
in every run in which the descriptor is never set for a time that has already come. The
descriptor is set when `addTimerInLoop` finds a new earliest timer and at the end of a
pass; a time that has come gives a zero value, which disarms it, or one the kernel refuses.
-/
namespace Summer.Net.TimerSystem

open Summer.Lib

variable {s s' : TimerSystem} {g : Timestamp}

/-- A queue with timers has its descriptor armed, in time for the earliest one to come. -/
def Armed (q : TimerQueue) : Prop :=
  q.timers ≠ ∅ → ∃ v : Setting, q.timerfd = some v ∧ v.it_value.InRange ∧ ¬ v.it_value.IsZero ∧
    ∀ e, q.timers.first? = some e → q.clock < e.when → v.due ≤ e.when.1 * 1000

/-- Where the step sets the descriptor for good, the time it is set for is still to come. -/
def SetInTime (s : TimerSystem) : Action → Prop
  | .addTimerInLoop timer => s.pass = none → ∀ t ∈ s.queue.heap timer,
      s.queue.Earliest t.expiration → s.queue.clock < t.expiration
  | .reset => (∀ e ∈ s.queue.timers.toList, s.queue.clock < e.when) ∧
      ∀ p ∈ s.pass, ∀ e ∈ p.expired, ∀ t ∈ s.queue.heap e.timer,
        s.queue.Rearmed e.timer t → s.queue.clock < p.now.addTime t.interval
  | _ => True

instance (q : TimerQueue) (w : Timestamp) : Decidable (q.Earliest w) :=
  inferInstanceAs (Decidable (∀ e ∈ q.timers.toList, _))

instance (s : TimerSystem) : ∀ a : Action, Decidable (SetInTime s a)
  | .addTimerInLoop timer => inferInstanceAs (Decidable (_ → ∀ t ∈ s.queue.heap timer, _))
  | .reset => inferInstanceAs (Decidable (_ ∧ _))
  | .addTimer .. | .otherTimer | .cancelInLoop _ | .handleRead | .runCallback | .advance _ =>
    .isTrue trivial

/-- The descriptor is armed in time for every timer in the queue. -/
def ArmedInTime (q : TimerQueue) : Prop :=
  q.timers ≠ ∅ → ∃ v : Setting, q.timerfd = some v ∧ v.it_value.InRange ∧ ¬ v.it_value.IsZero ∧
    ∀ e ∈ q.timers, v.due ≤ e.when.1 * 1000

theorem ArmedInTime.armed {q : TimerQueue} (h : ArmedInTime q) : Armed q := by
  intro hne
  obtain ⟨v, hv, hrange, hzero, hdue⟩ := h hne
  exact ⟨v, hv, hrange, hzero, fun e he _ => hdue e (OrderedSet.first?_mem he)⟩

/-- Fewer timers, and the same descriptor. -/
theorem ArmedInTime.of_subset {q q' : TimerQueue} (h : ArmedInTime q)
    (hsub : ∀ e ∈ q'.timers, e ∈ q.timers) (hfd : q'.timerfd = q.timerfd) : ArmedInTime q' := by
  intro hne
  have hne' : q.timers ≠ ∅ := by
    intro hempty
    refine hne (OrderedSet.ext_mem fun e => ?_)
    constructor
    · intro he
      rw [← hempty]
      exact hsub e he
    · intro he
      exact absurd he (OrderedSet.notMem_empty e)
  obtain ⟨v, hv, hrange, hzero, hdue⟩ := h hne'
  exact ⟨v, hfd.trans hv, hrange, hzero, fun e he => hdue e (hsub e he)⟩

/-- What holds of every state of such a run. -/
structure Ready (s : TimerSystem) : Prop where
  good : s.Good
  clock : 0 ≤ s.queue.clock.1
  armed : s.pass = none → ArmedInTime s.queue

/-- A timer added outside a pass: the new earliest is to come, or there is an earlier one. -/
theorem armed_addTimerInLoop (hr : Ready s) {a : Addr} (hc : SetInTime s (.addTimerInLoop a))
    (h : step (.ok g) s (.addTimerInLoop a) = .ok s') (hpass : s'.pass = none) :
    ArmedInTime s'.queue := by
  obtain ⟨t, fd, -, ht, hnew, hold, rfl⟩ := addTimerInLoop_cases hr.good h
  intro _
  by_cases hearly : s.queue.Earliest t.expiration
  · have hlt : s.queue.clock < t.expiration := hc hpass t ht hearly
    obtain ⟨v, hv, hrange, hzero, hdue⟩ := resetTimerfd_future hr.clock hlt s.queue.timerfd
    refine ⟨v, (hnew hearly).trans hv, hrange, hzero, ?_⟩
    intro e he
    rcases TimerQueue.mem_put_timers.mp he with rfl | he
    · exact hdue.le
    · have hlt : t.expiration.1 < e.when.1 := hearly e he
      omega
  · obtain ⟨d, hd, hle⟩ : ∃ d ∈ s.queue.timers, d.when ≤ t.expiration := by
      by_contra hno
      exact hearly fun d hd => not_le.mp fun hle => hno ⟨d, hd, hle⟩
    have hne : s.queue.timers ≠ ∅ := fun hempty => OrderedSet.notMem_empty d (hempty ▸ hd)
    obtain ⟨v, hv, hrange, hzero, hdue⟩ := hr.armed hpass hne
    refine ⟨v, (hold hearly).trans hv, hrange, hzero, ?_⟩
    intro e he
    rcases TimerQueue.mem_put_timers.mp he with rfl | he
    · have hle' : d.when.1 ≤ t.expiration.1 := hle
      exact (hdue d hd).trans (by rw [entry_when]; omega)
    · exact hdue e he

/-- The end of a pass: the earliest timer left is to come. -/
theorem armed_reset (hr : Ready s) (hc : SetInTime s .reset)
    (h : step (.ok g) s .reset = .ok s') : ArmedInTime s'.queue := by
  obtain ⟨now, expired, q, hpass, hres, rfl⟩ := reset_cases hr.good h
  have hclock : q.clock = s.queue.clock := by rw [hres.frame]
  have hfr := TimerQueue.rearm_frame q
  have hfuture : ∀ e ∈ q.timers, q.clock < e.when := by
    intro e he
    rw [hclock]
    rcases (hres.timers e).mp he with he | ⟨f, hf, t, ht, hre, rfl⟩
    · exact hc.1 e he
    · exact hc.2 _ hpass f hf t ht hre
  have htimers : q.rearm.timers = q.timers := by rw [hfr]
  intro hne
  rw [htimers] at hne
  obtain ⟨v, hv, hrange, hzero, hdue⟩ :=
    TimerQueue.rearm_future (hclock ▸ hr.clock) hne hfuture
  exact ⟨v, hv, hrange, hzero, htimers ▸ hdue⟩

theorem clock_step (hg : s.Good) {a : Action} (h : step (.ok g) s a = .ok s') :
    s.queue.clock ≤ s'.queue.clock := by
  cases a with
  | addTimer a w r i =>
    obtain ⟨-, -, rfl⟩ := addTimer_cases _ h
    exact le_rfl
  | otherTimer =>
    cases h
    exact le_rfl
  | addTimerInLoop a =>
    obtain ⟨t, fd, -, -, -, -, rfl⟩ := addTimerInLoop_cases hg h
    exact le_rfl
  | cancelInLoop x =>
    obtain ⟨t, -, -, -, -, rfl⟩ := cancelInLoop_cases _ hg h
    exact le_rfl
  | handleRead =>
    obtain ⟨es, q, -, hex, rfl⟩ := handleRead_cases hg h
    rw [hex.frame]
  | runCallback =>
    obtain ⟨now, expired, it, rest, t, -, -, rfl⟩ := runCallback_cases _ h
    exact le_rfl
  | reset =>
    obtain ⟨now, expired, q, -, hres, rfl⟩ := reset_cases hg h
    rw [TimerQueue.rearm_frame, hres.frame]
  | advance c =>
    obtain ⟨_, hen, h⟩ := bind_eq_ok.mp h
    cases h
    exact ensure_eq_ok.mp hen

theorem ready_step (hr : Ready s) {a : Action} (hc : SetInTime s a)
    (h : step (.ok g) s a = .ok s') : Ready s' := by
  have hclock : s.queue.clock.1 ≤ s'.queue.clock.1 := clock_step hr.good h
  refine ⟨good_step hr.good h, hr.clock.trans hclock, ?_⟩
  intro hpass
  cases a with
  | addTimer a w r i =>
    obtain ⟨-, -, rfl⟩ := addTimer_cases _ h
    exact hr.armed hpass
  | otherTimer =>
    cases h
    exact hr.armed hpass
  | addTimerInLoop a => exact armed_addTimerInLoop hr hc h hpass
  | cancelInLoop x =>
    obtain ⟨t, -, -, -, -, rfl⟩ := cancelInLoop_cases _ hr.good h
    exact (hr.armed hpass).of_subset (fun e he => (TimerQueue.mem_remove_timers_erase.mp he).2) rfl
  | handleRead =>
    obtain ⟨es, q, -, -, rfl⟩ := handleRead_cases hr.good h
    cases hpass
  | runCallback =>
    obtain ⟨now, expired, it, rest, t, -, -, rfl⟩ := runCallback_cases _ h
    cases hpass
  | reset => exact armed_reset hr hc h
  | advance c =>
    obtain ⟨_, -, h⟩ := bind_eq_ok.mp h
    cases h
    exact hr.armed hpass

theorem init_ready {clock : Timestamp} (h : 0 ≤ clock.1) : Ready (init clock) :=
  ⟨init_good clock, h, fun _ hne => absurd rfl hne⟩

/-- In a run that never sets the descriptor for a time already come, a queue with timers is
armed in time outside every pass. -/
theorem wakeup_never_lost {clock : Timestamp} (hclock : 0 ≤ clock.1) {as : List Action}
    (hrun : run (step (.ok g)) (init clock) as = .ok s)
    (hcond : Along (step (.ok g)) SetInTime (init clock) as) (hpass : s.pass = none) :
    Armed s.queue := by
  have hr : Ready s :=
    run_invariant (fun _ _ _ hr hc h => ready_step hr hc h) (init_ready hclock) hcond hrun
  exact (hr.armed hpass).armed

/-- A one-shot and a repeating timer, a pass that runs the latter, and a cancellation. -/
def sampleRun : List Action :=
  [.addTimer 16 ⟨2000000, by decide⟩ false 0, .addTimerInLoop 16,
    .addTimer 32 ⟨1500000, by decide⟩ true 500000, .addTimerInLoop 32,
    .advance ⟨1500003, by decide⟩, .handleRead, .runCallback, .advance ⟨1500100, by decide⟩,
    .reset, .cancelInLoop (active 16 1)]

theorem wakeup_never_lost_sample :
    ∃ s, run (step (.ok ⟨1000000, by decide⟩)) (init ⟨1000000, by decide⟩) sampleRun = .ok s ∧
      s.queue.timers ≠ ∅ ∧ Armed s.queue := by
  have hend : endsIn (step (.ok ⟨1000000, by decide⟩))
      (fun s => s.pass.isNone && decide (s.queue.timers ≠ ∅)) (init ⟨1000000, by decide⟩)
      sampleRun = true := by decide +kernel
  obtain ⟨s, hrun, hs⟩ := endsIn_iff.mp hend
  rw [Bool.and_eq_true, Option.isNone_iff_eq_none, decide_eq_true_eq] at hs
  exact ⟨s, hrun, hs.2, wakeup_never_lost (by decide) hrun (by decide +kernel) hs.1⟩

/-- A run that ends outside a pass with timers in the queue and the descriptor disarmed. -/
theorem not_armed_of_endsIn {clock : Timestamp} {as : List Action}
    (h : endsIn (step (.ok clock)) (fun s => s.pass.isNone && decide (s.queue.timers ≠ ∅) &&
      s.queue.timerfd.isNone) (init clock) as = true) :
    ∃ s, run (step (.ok clock)) (init clock) as = .ok s ∧ s.pass = none ∧ ¬ Armed s.queue := by
  obtain ⟨s, hrun, hs⟩ := endsIn_iff.mp h
  rw [Bool.and_eq_true, Bool.and_eq_true, Option.isNone_iff_eq_none, Option.isNone_iff_eq_none,
    decide_eq_true_eq] at hs
  refine ⟨s, hrun, hs.1.1, fun harmed => ?_⟩
  obtain ⟨v, hv, -⟩ := harmed hs.1.2
  rw [hs.2] at hv
  cases hv

/-- A timer for the present, one for the past, and a repeating timer whose callback takes
longer than its interval leave the descriptor disarmed. -/
theorem arming_for_the_past_disarms :
    (∃ s, run (step (.ok ⟨1000000, by decide⟩)) (init ⟨1000000, by decide⟩)
        [.addTimer 16 ⟨1000000, by decide⟩ false 0, .addTimerInLoop 16] = .ok s ∧
      s.pass = none ∧ ¬ Armed s.queue) ∧
    (∃ s, run (step (.ok ⟨1000000, by decide⟩)) (init ⟨1000000, by decide⟩)
        [.addTimer 16 ⟨999999, by decide⟩ false 0, .addTimerInLoop 16] = .ok s ∧
      s.pass = none ∧ ¬ Armed s.queue) ∧
    ∃ s, run (step (.ok ⟨1000000, by decide⟩)) (init ⟨1000000, by decide⟩)
        [.addTimer 16 ⟨1500000, by decide⟩ true 500000, .addTimerInLoop 16,
          .advance ⟨1500000, by decide⟩, .handleRead, .runCallback, .advance ⟨2000001, by decide⟩,
          .reset] = .ok s ∧
      s.pass = none ∧ ¬ Armed s.queue :=
  ⟨not_armed_of_endsIn (by decide +kernel), not_armed_of_endsIn (by decide +kernel),
    not_armed_of_endsIn (by decide +kernel)⟩

end Summer.Net.TimerSystem
