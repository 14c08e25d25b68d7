import Summer.Net.TimerCancel

/-!
# The two sets of a timer queue hold the same timers

Passes run at arbitrary times: a step may find the clock at any value, also an earlier one.
`deletes` lists the timers that a step deletes, in the order of the `delete` expressions.
-/
namespace Summer.Net.TimerSystem

open Summer.Lib

def setClock (s : TimerSystem) (clock : Timestamp) : TimerSystem :=
  { s with queue := { s.queue with clock := clock } }

/-- A step at any time. -/
def stepAt (endFirst : Except Fault Timestamp) (s : TimerSystem) (a : Timestamp × Action) :
    Except Fault TimerSystem := step endFirst (s.setClock a.1) a.2

/-- A cancellation names a timer that is active. -/
def CancelsActive (s : TimerSystem) : Timestamp × Action → Prop
  | (_, .cancelInLoop timerId) => timerId ∈ s.queue.activeTimers
  | _ => True

instance (s : TimerSystem) (a : Timestamp × Action) : Decidable (CancelsActive s a) := by
  obtain ⟨clock, a⟩ := a
  cases a <;> unfold CancelsActive <;> infer_instance

/-- The timer of a batch entry that `reset` deletes. -/
def discard (s : TimerSystem) (it : Entry) : Option TimerId :=
  match s.queue.heap it.timer with
  | none => none
  | some t => if s.queue.Rearmed it.timer t then none else some (active it.timer t.sequence)

/-- The timers the step deletes. -/
def deletes (s : TimerSystem) : Timestamp × Action → List TimerId
  | (_, .cancelInLoop timerId) => [timerId]
  | (_, .reset) => s.batch.filterMap s.discard
  | _ => []

/-- The timer has been created and not been deleted. -/
def Alive (s : TimerSystem) (x : TimerId) : Prop :=
  ∃ t, s.queue.heap x.timer = some t ∧ t.sequence = x.sequence

/-- The two sets agree, and the batch is in neither. -/
structure Synchronised (s : TimerSystem) : Prop where
  same : ∀ timer sequence, active timer sequence ∈ s.queue.activeTimers ↔
    ∃ t, s.queue.heap timer = some t ∧ t.sequence = sequence ∧
      entry t.expiration timer ∈ s.queue.timers
  listed : ∀ e ∈ s.queue.timers, ∃ t, s.queue.heap e.timer = some t ∧ t.expiration = e.when
  once : ∀ d ∈ s.queue.timers, ∀ e ∈ s.queue.timers, d.timer = e.timer → d = e
  onceActive : ∀ x ∈ s.queue.activeTimers, ∀ y ∈ s.queue.activeTimers,
    x.timer = y.timer → x = y
  sizes : s.queue.timers.size = s.queue.activeTimers.size
  batch : ∀ it ∈ s.batch, (∀ e ∈ s.queue.timers, e.timer ≠ it.timer) ∧
    ∀ x ∈ s.queue.activeTimers, x.timer ≠ it.timer

variable {s s' : TimerSystem} {g : Timestamp}

theorem Good.setClock (hg : s.Good) (clock : Timestamp) : (s.setClock clock).Good :=
  hg.at_clock clock

theorem good_stepAt (hg : s.Good) {a : Timestamp × Action} (h : stepAt (.ok g) s a = .ok s') :
    s'.Good := good_step (hg.setClock a.1) h

theorem good_runAt {as : List (Timestamp × Action)} (hg : s.Good)
    (h : run (stepAt (.ok g)) s as = .ok s') : s'.Good :=
  run_preserves (fun _ _ _ hs ht => good_stepAt hs ht) hg h

theorem Good.synchronised (hg : s.Good) : s.Synchronised := by
  have hc := hg.consistent
  refine ⟨?_, ?_, ?_, ?_, hc.sizes, ?_⟩
  · intro a n
    constructor
    · intro hx
      obtain ⟨t, ht, hseq, he⟩ := hc.activated _ hx
      exact ⟨t, ht, hseq, he⟩
    · intro h
      obtain ⟨t, ht, rfl, he⟩ := h
      obtain ⟨u, hu, -, hx⟩ := hc.listed _ he
      rw [entry_timer, ht, Option.some_inj] at hu
      rwa [hu]
  · intro e he
    obtain ⟨t, ht, hexp, -⟩ := hc.listed e he
    exact ⟨t, ht, hexp⟩
  · intro d hd e he heq
    obtain ⟨t, ht, -, -⟩ := hc.listed d hd
    rw [hc.eq_of_mem hd ht, hc.eq_of_mem he (heq ▸ ht), heq]
  · intro x hx y hy heq
    obtain ⟨t, ht, -, -⟩ := hc.activated x hx
    rw [hc.active_eq hx ht, hc.active_eq hy (heq ▸ ht), heq]
  · intro it hit
    refine ⟨fun e he heq => hg.batch.loose it hit ⟨e, he, heq⟩, ?_⟩
    intro x hx heq
    exact hg.batch.loose it hit (heq ▸ hc.holds_of_active hx)

/-! ## No assertion fails -/

theorem step_error (hg : s.Good) {a : Action}
    (ha : ∀ x, a = .cancelInLoop x → x ∈ s.queue.activeTimers) {f : Fault}
    (h : step (.ok g) s a = .error f) : f = .notEnabled := by
  cases a with
  | addTimer a w r i =>
    rcases ensure_bind_eq_error.mp h with ⟨-, rfl⟩ | ⟨-, h⟩
    · rfl
    · cases h
  | otherTimer => cases h
  | addTimerInLoop a =>
    rcases ensure_bind_eq_error.mp h with ⟨-, rfl⟩ | ⟨hp, h⟩
    · rfl
    · obtain ⟨t, ht⟩ := hg.pending_live a hp
      have hl := (hg.pending_loose a hp).1
      rcases TimerQueue.addTimerInLoop_spec (g := g) hg.consistent ht hl with
        ⟨-, hok⟩ | ⟨-, hok⟩
      · rw [hok] at h
        cases h
      · rw [hok] at h
        cases h
  | cancelInLoop x =>
    rcases ensure_bind_eq_error.mp h with ⟨-, rfl⟩ | ⟨-, h⟩
    · rfl
    · obtain ⟨t, -, -, hok, -⟩ := TimerQueue.cancelInLoop_spec hg.consistent (ha x rfl)
      rw [hok] at h
      cases h
  | handleRead =>
    rcases ensure_bind_eq_error.mp h with ⟨-, rfl⟩ | ⟨-, h⟩
    · rfl
    · have hc : TimerQueue.Consistent
          { s.queue with timerfd := s.queue.timerfd.read s.queue.clock } :=
        ⟨hg.consistent.sizes, hg.consistent.listed, hg.consistent.activated,
          hg.consistent.address⟩
      obtain ⟨es, q, hok, -⟩ := TimerQueue.getExpired_spec s.queue.clock hc
      rw [TimerQueue.handleReadBegin] at h
      dsimp only at h
      rw [hok] at h
      cases h
  | runCallback =>
    rw [step] at h
    split at h
    · rename_i now expired it rest hpass
      have hmem : it ∈ s.batch := by
        rw [batch, hpass]
        exact hg.rest _ hpass it List.mem_cons_self
      obtain ⟨t, ht⟩ := hg.batch.live it hmem
      rw [TimerQueue.deref_of ht] at h
      cases h
    · cases h
      rfl
  | reset =>
    rw [step] at h
    split at h
    · rename_i now expired hpass
      obtain ⟨q, -, hok⟩ := hg.handleReadEnd (g := g) hpass
      rw [hok] at h
      cases h
    · cases h
      rfl
  | advance c =>
    rcases ensure_bind_eq_error.mp h with ⟨-, rfl⟩ | ⟨-, h⟩
    · rfl
    · cases h

theorem runAt_error {as : List (Timestamp × Action)} (hg : s.Good)
    (ha : Along (stepAt (.ok g)) CancelsActive s as) {f : Fault}
    (h : run (stepAt (.ok g)) s as = .error f) : f = .notEnabled := by
  by_contra hne
  have herr : ∀ u a e, u.Good → CancelsActive u a → stepAt (.ok g) u a = .error e →
      ¬ e ≠ .notEnabled := by
    intro u a e hu hc he hbad
    obtain ⟨clock, a⟩ := a
    refine hbad (step_error (hu.setClock clock) ?_ he)
    intro x hx
    subst hx
    exact hc
  exact run_ne_error (fun _ _ _ hs _ ht => good_stepAt hs ht) herr hg ha h hne

/-! ## Every timer is deleted at most once -/

theorem discard_eq_some {it : Entry} {x : TimerId} : s.discard it = some x ↔
    ∃ t, s.queue.heap it.timer = some t ∧ ¬ s.queue.Rearmed it.timer t ∧
      active it.timer t.sequence = x := by
  rw [discard]
  cases s.queue.heap it.timer with
  | none => simp
  | some t =>
    by_cases hr : s.queue.Rearmed it.timer t
    · simp [hr]
    · simp [hr]

theorem Good.deletes_nodup (hg : s.Good) (a : Timestamp × Action) : (deletes s a).Nodup := by
  obtain ⟨clock, a⟩ := a
  cases a with
  | cancelInLoop x => exact List.nodup_singleton x
  | reset =>
    rw [deletes, List.Nodup, List.pairwise_filterMap]
    refine (List.pairwise_map.mp hg.batch.nodup).imp ?_
    intro d e hne x hx y hy heq
    obtain ⟨t, -, -, rfl⟩ := discard_eq_some.mp hx
    obtain ⟨u, -, -, rfl⟩ := discard_eq_some.mp hy
    exact hne (congrArg Active.timer heq)
  | addTimer | otherTimer | addTimerInLoop | handleRead | runCallback | advance =>
    exact List.nodup_nil

/-- The step frees the only timer with this number. -/
theorem gone_of_freed (hg : s.Good) {a : Action} (h : step (.ok g) s a = .ok s') {x : TimerId}
    {t : Timer} (ht : s.queue.heap x.timer = some t) (hseq : t.sequence = x.sequence)
    (hfree : s'.queue.heap x.timer = none) : Gone s' x := by
  have hle : x.sequence ≤ s.numCreated := hseq ▸ hg.number_le _ t ht
  refine ⟨hle.trans (created_step hg h).1, ?_⟩
  intro b u hb heq
  rcases live_step hg h b u hb with ⟨v, hv, hvseq⟩ | hnext
  · have hbx : b = x.timer := hg.number_inj b x.timer v t hv ht (by rw [hvseq, heq, hseq])
    rw [hbx, hfree] at hb
    cases hb
  · omega

/-- What the step deletes was alive, and is gone for ever. -/
theorem gone_of_deletes (hg : s.Good) {a : Timestamp × Action}
    (h : stepAt (.ok g) s a = .ok s') {x : TimerId} (hx : x ∈ deletes s a) :
    Alive s x ∧ Gone s' x := by
  obtain ⟨clock, a⟩ := a
  have hg' := hg.setClock clock
  cases a with
  | cancelInLoop y =>
    obtain rfl := List.mem_singleton.mp hx
    obtain ⟨t, -, ht, hseq, -, heq⟩ := cancelInLoop_cases _ hg' h
    refine ⟨⟨t, ht, hseq⟩, gone_of_freed hg' h ht hseq ?_⟩
    rw [heq]
    exact TimerQueue.remove_heap_self ..
  | reset =>
    obtain ⟨it, hit, hx⟩ := List.mem_filterMap.mp hx
    obtain ⟨t, ht, hr, rfl⟩ := discard_eq_some.mp hx
    obtain ⟨now, expired, q, hpass, hres, heq⟩ := reset_cases hg' h
    have hbatch : s.batch = expired := by
      rw [batch, show s.pass = some ⟨now, expired, []⟩ from hpass]
    refine ⟨⟨t, ht, rfl⟩, gone_of_freed hg' h ht rfl ?_⟩
    rw [heq, TimerQueue.rearm_frame]
    exact (hres.heap_in it (hbatch ▸ hit) t ht).trans (if_neg hr)
  | addTimer | otherTimer | addTimerInLoop | handleRead | runCallback | advance =>
    exact absurd hx List.not_mem_nil

/-- A step deletes nothing but what `deletes` lists. -/
theorem alive_step (hg : s.Good) {a : Timestamp × Action} (h : stepAt (.ok g) s a = .ok s')
    {x : TimerId} (hx : Alive s x) : Alive s' x ∨ x ∈ deletes s a := by
  obtain ⟨clock, a⟩ := a
  have hg' := hg.setClock clock
  obtain ⟨t, ht, hseq⟩ := hx
  cases a with
  | addTimer a w r i =>
    obtain ⟨-, hfree, rfl⟩ := addTimer_cases _ h
    have hne : x.timer ≠ a := by
      intro heq
      rw [heq, show s.queue.heap a = none from hfree] at ht
      cases ht
    exact .inl ⟨t, (TimerQueue.store_heap_ne hne _).trans ht, hseq⟩
  | cancelInLoop y =>
    obtain ⟨u, hy, hu, huseq, -, rfl⟩ := cancelInLoop_cases _ hg' h
    by_cases hxy : x.timer = y.timer
    · rw [hxy, show s.queue.heap y.timer = some u from hu, Option.some_inj] at ht
      refine .inr (List.mem_singleton.mpr ?_)
      rw [← active_eta x, ← active_eta y, hxy, ← hseq, ← huseq, ht]
    · exact .inl ⟨t, (TimerQueue.remove_heap_ne hxy u).trans ht, hseq⟩
  | reset =>
    obtain ⟨now, expired, q, hpass, hres, rfl⟩ := reset_cases hg' h
    have hbatch : s.batch = expired := by
      rw [batch, show s.pass = some ⟨now, expired, []⟩ from hpass]
    rw [Alive, TimerQueue.rearm_frame]
    by_cases hmem : x.timer ∈ expired.map Entry.timer
    · obtain ⟨it, hit, hitx⟩ := List.mem_map.mp hmem
      have hin := hres.heap_in it hit t (hitx ▸ ht)
      by_cases hr : s.queue.Rearmed it.timer t
      · have hsome := hin.trans (if_pos hr)
        exact .inl ⟨_, hitx ▸ hsome, (Timer.restart_sequence t now).trans hseq⟩
      · refine .inr (List.mem_filterMap.mpr ⟨it, hbatch ▸ hit, discard_eq_some.mpr ?_⟩)
        exact ⟨t, hitx ▸ ht, hr, by rw [hitx, hseq, active_eta]⟩
    · exact .inl ⟨t, (hres.heap_out _ hmem).trans ht, hseq⟩
  | otherTimer =>
    cases h
    exact .inl ⟨t, ht, hseq⟩
  | addTimerInLoop a =>
    obtain ⟨u, fd, -, -, -, -, rfl⟩ := addTimerInLoop_cases hg' h
    exact .inl ⟨t, ht, hseq⟩
  | handleRead =>
    obtain ⟨es, q, -, hex, rfl⟩ := handleRead_cases hg' h
    rw [Alive]
    dsimp only
    rw [hex.frame]
    exact .inl ⟨t, ht, hseq⟩
  | runCallback =>
    obtain ⟨now, expired, it, rest, u, -, -, rfl⟩ := runCallback_cases _ h
    exact .inl ⟨t, ht, hseq⟩
  | advance c =>
    obtain ⟨_, -, h⟩ := bind_eq_ok.mp h
    cases h
    exact .inl ⟨t, ht, hseq⟩

/-- A `TimerId` is returned for the timer that has just been created. -/
theorem issued_step (hg : s.Good) {a : Timestamp × Action} (h : stepAt (.ok g) s a = .ok s')
    {x : TimerId} (hx : x ∈ s'.issued) : x ∈ s.issued ∨ Alive s' x := by
  obtain ⟨clock, a⟩ := a
  have hg' := hg.setClock clock
  cases a with
  | addTimer a w r i =>
    obtain ⟨-, -, rfl⟩ := addTimer_cases _ h
    rcases List.mem_cons.mp hx with rfl | hx
    · exact .inr ⟨_, TimerQueue.store_heap_self .., rfl⟩
    · exact .inl hx
  | cancelInLoop y =>
    obtain ⟨u, -, -, -, -, rfl⟩ := cancelInLoop_cases _ hg' h
    exact .inl hx
  | reset =>
    obtain ⟨now, expired, q, -, -, rfl⟩ := reset_cases hg' h
    exact .inl hx
  | otherTimer =>
    cases h
    exact .inl hx
  | addTimerInLoop a =>
    obtain ⟨u, fd, -, -, -, -, rfl⟩ := addTimerInLoop_cases hg' h
    exact .inl hx
  | handleRead =>
    obtain ⟨es, q, -, -, rfl⟩ := handleRead_cases hg' h
    exact .inl hx
  | runCallback =>
    obtain ⟨now, expired, it, rest, u, -, -, rfl⟩ := runCallback_cases _ h
    exact .inl hx
  | advance c =>
    obtain ⟨_, -, h⟩ := bind_eq_ok.mp h
    cases h
    exact .inl hx

theorem gone_stepAt (hg : s.Good) {a : Timestamp × Action} (h : stepAt (.ok g) s a = .ok s')
    {x : TimerId} (hx : Gone s x) : Gone s' x ∧ runsOf s' x = runsOf s x :=
  gone_step (hg.setClock a.1) ⟨hx.number, hx.dead⟩ h

theorem Gone.not_alive {x : TimerId} (hx : Gone s x) : ¬ Alive s x := by
  intro h
  obtain ⟨t, ht, hseq⟩ := h
  exact hx.dead x.timer t ht hseq

/-- All the timers the run deletes, in order. -/
def deletions (g : Timestamp) (s : TimerSystem) (as : List (Timestamp × Action)) : List TimerId :=
  emitted (stepAt (.ok g)) deletes s as

theorem deletions_nodup (hg : s.Good) (as : List (Timestamp × Action)) :
    (deletions g s as).Nodup := by
  have hemit : ∀ u a v, u.Good → stepAt (.ok g) u a = .ok v →
      (deletes u a).Nodup ∧ ∀ x ∈ deletes u a, ¬ Gone u x ∧ Gone v x := by
    intro u a v hu h
    refine ⟨hu.deletes_nodup a, fun x hx => ?_⟩
    obtain ⟨halive, hgone⟩ := gone_of_deletes hu h hx
    exact ⟨fun hdead => hdead.not_alive halive, hgone⟩
  exact (emitted_nodup (fun _ _ _ hu h => good_stepAt hu h) hemit
    (fun _ _ _ _ hu h hx => (gone_stepAt hu h hx).1) hg).1

theorem gone_of_deletions (hg : s.Good) {as : List (Timestamp × Action)}
    (hrun : run (stepAt (.ok g)) s as = .ok s') {x : TimerId} (hx : x ∈ deletions g s as) :
    Gone s' x :=
  emitted_spent (fun _ _ _ hu h => good_stepAt hu h)
    (fun _ _ _ hu h _ hx => (gone_of_deletes hu h hx).2)
    (fun _ _ _ _ hu h hx => (gone_stepAt hu h hx).1) hg hrun x hx

/-- Every timer created is alive, or the run has deleted it. -/
theorem alive_or_deleted {clock : Timestamp} {as : List (Timestamp × Action)}
    (hrun : run (stepAt (.ok g)) (init clock) as = .ok s) :
    ∀ x ∈ s.issued, Alive s x ∨ x ∈ deletions g (init clock) as := by
  refine run_history (J := fun as s => ∀ x ∈ s.issued, Alive s x ∨
    x ∈ deletions g (init clock) as) (fun _ hx => absurd hx List.not_mem_nil) ?_ hrun
  intro as u a v hu ih hstep x hx
  have hgood := good_runAt (init_good clock) hu
  rw [deletions, emitted_append hu, emitted_cons_ok hstep, List.mem_append, List.mem_append]
  rcases issued_step hgood hstep hx with hold | halive
  · rcases ih x hold with halive | hdel
    · exact (alive_step hgood hstep halive).imp_right fun h => .inr (.inl h)
    · exact .inr (.inl hdel)
  · exact .inl halive

/-- What becomes of a deleted timer. -/
structure NeverFound (g : Timestamp) (s : TimerSystem) (x : TimerId) : Prop where
  dead : ¬ Alive s x
  timers : ∀ e ∈ s.queue.timers, ∀ t, s.queue.heap e.timer = some t → t.sequence ≠ x.sequence
  activeTimers : ∀ y ∈ s.queue.activeTimers, y.sequence ≠ x.sequence
  runs : ∀ bs u, run (stepAt (.ok g)) s bs = .ok u → runsOf u x = runsOf s x

theorem Gone.neverFound (hg : s.Good) {x : TimerId} (hx : Gone s x) : NeverFound g s x := by
  refine ⟨hx.not_alive, fun e _ t ht => hx.dead _ t ht, ?_, ?_⟩
  · intro y hy
    obtain ⟨t, ht, hseq, -⟩ := hg.consistent.activated y hy
    exact hseq ▸ hx.dead _ t ht
  · intro bs u hu
    have hinv : u.Good ∧ Gone u x ∧ runsOf u x = runsOf s x := by
      refine run_preserves (I := fun v => v.Good ∧ Gone v x ∧ runsOf v x = runsOf s x) ?_
        ⟨hg, hx, rfl⟩ hu
      intro v a w hv hstep
      obtain ⟨hvg, hgone, hruns⟩ := hv
      obtain ⟨hgone', hruns'⟩ := gone_stepAt hvg hstep hgone
      exact ⟨good_stepAt hvg hstep, hgone', hruns'.trans hruns⟩
    exact hinv.2.2

/-- The timer store stays consistent: as long as only active timers are cancelled no assertion
fails and no deleted timer is used, both sets hold the same timers after every step, and
every timer is deleted at most once and never found or run again. -/
theorem timer_store_consistent {clock : Timestamp} {as : List (Timestamp × Action)}
    (hcancel : Along (stepAt (.ok g)) CancelsActive (init clock) as) :
    (∀ f, run (stepAt (.ok g)) (init clock) as = .error f → f = .notEnabled) ∧
    (deletions g (init clock) as).Nodup ∧
    ∀ s, run (stepAt (.ok g)) (init clock) as = .ok s → s.Synchronised ∧
      (∀ x ∈ s.issued, Alive s x ∨ x ∈ deletions g (init clock) as) ∧
      ∀ x ∈ deletions g (init clock) as, NeverFound g s x := by
  have hinit := init_good clock
  refine ⟨fun f hf => runAt_error hinit hcancel hf, deletions_nodup hinit as, ?_⟩
  intro s hrun
  have hg := good_runAt hinit hrun
  refine ⟨hg.synchronised, alive_or_deleted hrun, ?_⟩
  intro x hx
  exact (gone_of_deletions hinit hrun hx).neverFound hg

/-- The callback of one timer cancels a second one and adds a third; the pass deletes the
first, and the next pass finds the clock set back. -/
theorem timer_store_consistent_sample :
    ∃ s, run (stepAt (.ok ⟨0, by decide⟩)) (init ⟨0, by decide⟩)
        [(⟨1, by decide⟩, .addTimer 16 ⟨5, by decide⟩ false 0),
          (⟨1, by decide⟩, .addTimerInLoop 16),
          (⟨1, by decide⟩, .addTimer 32 ⟨9, by decide⟩ true 4),
          (⟨1, by decide⟩, .addTimerInLoop 32), (⟨6, by decide⟩, .handleRead),
          (⟨6, by decide⟩, .runCallback), (⟨6, by decide⟩, .cancelInLoop (active 32 2)),
          (⟨7, by decide⟩, .addTimer 32 ⟨6, by decide⟩ true 4),
          (⟨7, by decide⟩, .addTimerInLoop 32), (⟨8, by decide⟩, .reset),
          (⟨3, by decide⟩, .handleRead)] = .ok s ∧ s.Synchronised := by
  have hend : endsIn (stepAt (.ok ⟨0, by decide⟩)) (fun _ => true) (init ⟨0, by decide⟩)
        [(⟨1, by decide⟩, .addTimer 16 ⟨5, by decide⟩ false 0),
          (⟨1, by decide⟩, .addTimerInLoop 16),
          (⟨1, by decide⟩, .addTimer 32 ⟨9, by decide⟩ true 4),
          (⟨1, by decide⟩, .addTimerInLoop 32), (⟨6, by decide⟩, .handleRead),
          (⟨6, by decide⟩, .runCallback), (⟨6, by decide⟩, .cancelInLoop (active 32 2)),
          (⟨7, by decide⟩, .addTimer 32 ⟨6, by decide⟩ true 4),
          (⟨7, by decide⟩, .addTimerInLoop 32), (⟨8, by decide⟩, .reset),
          (⟨3, by decide⟩, .handleRead)] = true := by decide +kernel
  obtain ⟨s, hrun, -⟩ := endsIn_iff.mp hend
  refine ⟨s, hrun, ((timer_store_consistent ?_).2.2 s hrun).1⟩
  decide +kernel

end Summer.Net.TimerSystem
