import Summer.Net.TimerPasses

/-!
# The firing law

`firing_law` collects what the passes of a whole run do to a timer: when it runs, in which
order, and how often.
-/
namespace Summer.Net.TimerSystem

open Summer.Lib

variable {s s' : TimerSystem} {g : Timestamp}

/-- The number of `x` was given to this timer: at this address, repeating or not. -/
structure Described (s : TimerSystem) (x : TimerId) (repeats : Bool) (interval : Int) :
    Prop where
  number : x.sequence ≤ s.numCreated
  timer : ∀ a t, s.queue.heap a = some t → t.sequence = x.sequence →
    a = x.timer ∧ t.repeats = repeats ∧ t.interval = interval

/-- The timer has run in the pass that is running. -/
def RanInBatch (s : TimerSystem) (x : TimerId) : Prop :=
  ∃ p, s.pass = some p ∧ x.timer ∈ p.expired.map Entry.timer ∧ x.timer ∉ p.rest.map Entry.timer

/-- A timer that has run and is still alive is one of the batch. -/
structure RunsOnce (s : TimerSystem) (x : TimerId) : Prop where
  runs : runsOf s x ≤ 1
  batch : 0 < runsOf s x → ∀ t, s.queue.heap x.timer = some t → t.sequence = x.sequence →
    RanInBatch s x

/-- `now + d` is a time. -/
def Fits (now : Timestamp) (d : Int) : Prop := -2 ^ 63 ≤ now.1 + d ∧ now.1 + d < 2 ^ 63

instance (now : Timestamp) (d : Int) : Decidable (Fits now d) :=
  inferInstanceAs (Decidable (_ ∧ _))

/-- The next run of the timer is at least `d` after its runs so far. -/
structure Spaced (s : TimerSystem) (x : TimerId) (d : Int) : Prop where
  apart : s.executed.Pairwise fun later earlier => later.timer = x → earlier.timer = x →
    earlier.now.1 + d ≤ later.now.1
  next : ∀ e ∈ s.executed, e.timer = x → ∀ t, s.queue.heap x.timer = some t →
    t.sequence = x.sequence → RanInBatch s x ∨ e.now.1 + d ≤ t.expiration.1

/-! ## The number names the timer -/

theorem Described.step {x : TimerId} {r : Bool} {d : Int} (hx : Described s x r d) (hg : s.Good)
    {a : Action} (h : TimerSystem.step (.ok g) s a = .ok s') : Described s' x r d := by
  refine ⟨hx.number.trans (created_step hg h).1, ?_⟩
  intro b t hb hseq
  cases origin_step hg h hb with
  | kept hheap _ => exact hx.timer b t hheap hseq
  | restarted p u _ _ _ hheap _ heq =>
    subst heq
    rw [Timer.restart_sequence] at hseq
    rw [Timer.restart_repeats, Timer.restart_interval]
    exact hx.timer b u hheap hseq
  | created _ hnext =>
    have := hx.number
    omega

/-- Only `reset` changes the timer. -/
theorem Described.kept {x : TimerId} {r : Bool} {d : Int} (hx : Described s x r d) (hg : s.Good)
    {a : Action} (ha : a ≠ .reset) (h : TimerSystem.step (.ok g) s a = .ok s') {t : Timer}
    (ht : s'.queue.heap x.timer = some t) (hseq : t.sequence = x.sequence) :
    s.queue.heap x.timer = some t := by
  cases origin_step hg h ht with
  | kept hheap _ => exact hheap
  | restarted _ _ hreset _ _ _ _ _ => exact absurd hreset ha
  | created _ hnext =>
    have := hx.number
    omega

/-- Only timers that were created have run. -/
def Numbered (s : TimerSystem) : Prop := ∀ e ∈ s.executed, e.timer.sequence ≤ s.numCreated

theorem numbered_step (hg : s.Good) (hn : s.Numbered) {a : Action}
    (h : step (.ok g) s a = .ok s') : s'.Numbered := by
  obtain ⟨hle, hexec⟩ := created_step hg h
  intro e he
  rcases hexec with hsame | ⟨it, t, n, ht, hcons⟩
  · rw [hsame] at he
    exact (hn e he).trans hle
  · rw [hcons] at he
    rcases List.mem_cons.mp he with rfl | he
    · exact (hg.number_le _ t ht).trans hle
    · exact (hn e he).trans hle

theorem runsOf_eq_zero {x : TimerId} (h : ∀ e ∈ s.executed, e.timer ≠ x) : runsOf s x = 0 := by
  rw [runsOf, List.count_eq_zero]
  intro hmem
  obtain ⟨e, he, heq⟩ := List.mem_map.mp hmem
  exact h e he heq

/-- The `TimerId` that `addTimer` returns is new. -/
theorem addTimer_new (hg : s.Good) (hn : s.Numbered) {a : Addr} {w : Timestamp} {r : Bool}
    {d : Int} (h : step (.ok g) s (.addTimer a w r d) = .ok s') :
    Described s' (active a (s.numCreated + 1)) r d ∧
      ∀ e ∈ s'.executed, e.timer ≠ active a (s.numCreated + 1) := by
  obtain ⟨-, -, rfl⟩ := addTimer_cases _ h
  refine ⟨⟨le_rfl, ?_⟩, ?_⟩
  · intro b t hb hseq
    by_cases hba : b = a
    · subst hba
      rw [TimerQueue.store_heap_self, Option.some_inj] at hb
      subst hb
      exact ⟨rfl, rfl, rfl⟩
    · rw [TimerQueue.store_heap_ne hba] at hb
      have := hg.number_le b t hb
      rw [active_sequence] at hseq
      omega
  · intro e he heq
    have := hn e he
    rw [heq, active_sequence] at this
    omega

/-! ## Runs in the batch -/

theorem Firing.rest_nodup (hf : s.Firing) {p : Pass} (hp : s.pass = some p) :
    (p.rest.map Entry.timer).Nodup := by
  have hnd := hf.good.batch.nodup
  rw [batch_of_pass hp, ← hf.ran p hp, List.map_append] at hnd
  exact (List.nodup_append.mp hnd).2.1

/-- What is left of the batch has not run in this pass. -/
theorem RanInBatch.notMem {x : TimerId} (hx : RanInBatch s x) {now : Timestamp}
    {expired rest : List Entry} {it : Entry} (hp : s.pass = some ⟨now, expired, it :: rest⟩) :
    x.timer ≠ it.timer := by
  obtain ⟨p, hp', -, hnot⟩ := hx
  rw [hp] at hp'
  cases hp'
  exact fun heq => hnot (heq ▸ List.mem_cons_self)

/-- A callback of another timer. -/
theorem RanInBatch.callback {x : TimerId} (hx : RanInBatch s x) {now : Timestamp}
    {expired rest : List Entry} {it : Entry} (hp : s.pass = some ⟨now, expired, it :: rest⟩)
    {executed : List Execution} :
    RanInBatch { s with pass := some ⟨now, expired, rest⟩, executed := executed } x := by
  obtain ⟨p, hp', hmem, hnot⟩ := hx
  rw [hp] at hp'
  cases hp'
  exact ⟨_, rfl, hmem, fun hr => hnot (List.mem_cons_of_mem _ hr)⟩

/-- The callback of the timer itself. -/
theorem ranInBatch_self (hf : s.Firing) {now : Timestamp} {expired rest : List Entry} {it : Entry}
    (hp : s.pass = some ⟨now, expired, it :: rest⟩) {x : TimerId} (hx : x.timer = it.timer)
    {executed : List Execution} :
    RanInBatch { s with pass := some ⟨now, expired, rest⟩, executed := executed } x := by
  refine ⟨_, rfl, ?_, ?_⟩
  · rw [hx]
    exact List.mem_map_of_mem (hf.good.rest _ hp it List.mem_cons_self)
  · rw [hx]
    exact (List.nodup_cons.mp (hf.rest_nodup hp)).1

theorem not_ranInBatch (h : s.pass = none) (x : TimerId) : ¬ RanInBatch s x := by
  intro hx
  obtain ⟨p, hp, -⟩ := hx
  rw [h] at hp
  cases hp

/-! ## One-shot timers -/

theorem RunsOnce.congr {x : TimerId} (hx : RunsOnce s x) (hruns : runsOf s' x = runsOf s x)
    (hbatch : 0 < runsOf s x → ∀ t, s'.queue.heap x.timer = some t → t.sequence = x.sequence →
      RanInBatch s' x) : RunsOnce s' x :=
  ⟨hruns ▸ hx.runs, fun hpos => hbatch (hruns ▸ hpos)⟩

theorem runsOf_congr (h : s'.executed = s.executed) (x : TimerId) : runsOf s' x = runsOf s x := by
  rw [runsOf, runsOf, h]

theorem runsOnce_step (hf : s.Firing) {x : TimerId} {d : Int} (hd : Described s x false d)
    (hx : RunsOnce s x) {a : Action} (h : step (.ok g) s a = .ok s') : RunsOnce s' x := by
  have hkept : a ≠ .reset → ∀ t, s'.queue.heap x.timer = some t → t.sequence = x.sequence →
      s.queue.heap x.timer = some t := fun ha t ht hseq => hd.kept hf.good ha h ht hseq
  cases fires_of_step hf.good h with
  | begin es ha hidle _ _ _ _ hexec _ =>
    refine hx.congr (runsOf_congr hexec x) fun hpos t ht hseq => ?_
    have ha' : a ≠ .reset := by
      rw [ha]
      nofun
    exact absurd (hx.batch hpos t (hkept ha' t ht hseq) hseq) (not_ranInBatch hidle x)
  | callback now expired it rest t _ hpass hheap heq =>
    subst heq
    by_cases hit : active it.timer t.sequence = x
    · -- It has not run before: then it would not be left in the batch.
      have hzero : runsOf s x = 0 := by
        by_contra hne
        subst hit
        exact (hx.batch (Nat.pos_of_ne_zero hne) t hheap rfl).notMem hpass rfl
      refine ⟨?_, fun _ _ _ _ => ranInBatch_self hf hpass (congrArg Active.timer hit).symm⟩
      have hone : (s.executed.map Execution.timer).count x = 0 := hzero
      simp [runsOf, hit, hone]
    · refine hx.congr ?_ fun hpos u hu hseq => (hx.batch hpos u hu hseq).callback hpass
      rw [runsOf, runsOf, List.map_cons, List.count_cons_of_ne hit]
  | finish now expired hreset hpass _ _ hexec _ =>
    refine hx.congr (runsOf_congr hexec x) fun hpos t ht hseq => ?_
    have hbatch : s.batch = expired := batch_of_pass hpass
    cases origin_step hf.good h ht with
    | kept hheap hnot =>
      obtain ⟨p, hp, hmem, -⟩ := hx.batch hpos t hheap hseq
      rw [hpass] at hp
      cases hp
      exact absurd (hbatch ▸ hmem) (hnot hreset)
    | restarted p u _ _ _ hheap hrepeats heq =>
      subst heq
      rw [Timer.restart_sequence] at hseq
      rw [(hd.timer _ u hheap hseq).2.1] at hrepeats
      cases hrepeats
    | created hadd _ =>
      rw [hreset] at hadd
      cases hadd
  | other ha hpass _ hexec _ =>
    refine hx.congr (runsOf_congr hexec x) fun hpos t ht hseq => ?_
    obtain ⟨p, hp, hran⟩ := hx.batch hpos t (hkept ha t ht hseq) hseq
    exact ⟨p, hpass.trans hp, hran⟩

/-! ## Repeating timers -/

/-- At the end of a pass every timer of the batch has run in it. -/
theorem Firing.ran_of_batch (hf : s.Firing) {now : Timestamp} {expired : List Entry}
    (hp : s.pass = some ⟨now, expired, []⟩) {x : TimerId}
    (hmem : x.timer ∈ expired.map Entry.timer) {u : Timer} (hu : s.queue.heap x.timer = some u)
    (hseq : u.sequence = x.sequence) : ∃ e ∈ s.executed, e.timer = x ∧ e.now = now := by
  obtain ⟨it, hit, hx⟩ := List.mem_map.mp hmem
  have hran := hf.ran _ hp
  dsimp only at hran
  rw [← hran, List.append_nil, List.mem_map] at hit
  obtain ⟨e, he, rfl⟩ := hit
  have he := List.mem_reverse.mp he
  obtain ⟨hnow, v, hv, hvseq⟩ := hf.numbered _ hp e he
  have haddr : e.timer.timer = x.timer := hx
  refine ⟨e, (mem_executionsOf.mp he).1, ?_, hnow⟩
  rw [haddr, hu, Option.some_inj] at hv
  rw [← active_eta e.timer, ← active_eta x, haddr, ← hvseq, ← hv, hseq]

/-- The expiration that `restart` gives a repeating timer. -/
theorem restart_fits {u : Timer} (h : u.repeats = true) {now : Timestamp}
    (hfit : Fits now u.interval) : (u.restart now).expiration.1 = now.1 + u.interval := by
  rw [Timer.restart_expiration h]
  exact int64_cast hfit.1 hfit.2

/-- The timer whose callback is next is the one the pass found expired. -/
theorem Firing.next_timer (hf : s.Firing) {now : Timestamp} {expired rest : List Entry}
    {it : Entry} {t : Timer} (hpass : s.pass = some ⟨now, expired, it :: rest⟩)
    (ht : s.queue.heap it.timer = some t) : t.expiration = it.when ∧ it.when ≤ now := by
  have hit : it ∈ expired := hf.good.rest _ hpass it List.mem_cons_self
  exact ⟨hf.expiration it (batch_of_pass hpass ▸ hit) t ht, hf.due _ hpass it hit⟩

theorem spaced_step (hf : s.Firing) {x : TimerId} {d : Int} (hd : Described s x true d)
    (hfit : ∀ e ∈ s.executed, e.timer = x → Fits e.now d) (hx : Spaced s x d) {a : Action}
    (h : step (.ok g) s a = .ok s') : Spaced s' x d := by
  cases fires_of_step hf.good h with
  | begin es ha hidle _ _ _ _ hexec _ =>
    refine ⟨hexec ▸ hx.apart, fun e he hex t ht hseq => ?_⟩
    have ha' : a ≠ .reset := by
      rw [ha]
      nofun
    have hnext := hx.next e (hexec ▸ he) hex t (hd.kept hf.good ha' h ht hseq) hseq
    exact .inr (hnext.resolve_left (not_ranInBatch hidle x))
  | callback now expired it rest t _ hpass hheap heq =>
    subst heq
    obtain ⟨hexp, hwhen⟩ := hf.next_timer hpass hheap
    have hdue : t.expiration ≤ now := hexp ▸ hwhen
    constructor
    · refine List.pairwise_cons.mpr ⟨?_, hx.apart⟩
      intro e he hlater hearlier
      subst hlater
      rcases hx.next e he hearlier t hheap rfl with hran | hle
      · exact absurd rfl (hran.notMem hpass)
      · exact hle.trans hdue
    · intro e he hex u hu hseq
      by_cases hself : active it.timer t.sequence = x
      · exact .inl (ranInBatch_self hf hpass (congrArg Active.timer hself).symm)
      · rcases List.mem_cons.mp he with rfl | he
        · exact absurd hex hself
        · exact (hx.next e he hex u hu hseq).imp_left fun hran => hran.callback hpass
  | finish now expired hreset hpass _ _ hexec _ =>
    refine ⟨hexec ▸ hx.apart, fun e he hex t ht hseq => .inr ?_⟩
    have hbatch : s.batch = expired := batch_of_pass hpass
    rw [hexec] at he
    cases origin_step hf.good h ht with
    | kept hheap hnot =>
      rcases hx.next e he hex t hheap hseq with hran | hle
      · obtain ⟨p, hp, hmem, -⟩ := hran
        rw [hpass] at hp
        cases hp
        exact absurd (hbatch ▸ hmem) (hnot hreset)
      · exact hle
    | restarted p u _ hp hmem hheap hrepeats heq =>
      rw [hpass] at hp
      cases hp
      subst heq
      rw [Timer.restart_sequence] at hseq
      obtain ⟨-, -, hinterval⟩ := hd.timer _ u hheap hseq
      obtain ⟨e', he', hex', hnow⟩ := hf.ran_of_batch hpass hmem hheap hseq
      have hfits : Fits now u.interval := by
        rw [hinterval, ← hnow]
        exact hfit e' he' hex'
      have hle : e.now.1 ≤ now.1 := (hf.now_le_pass _ hpass).2 e he
      rw [restart_fits hrepeats hfits, hinterval]
      omega
    | created hadd _ =>
      rw [hreset] at hadd
      cases hadd
  | other ha hpass _ hexec _ =>
    refine ⟨hexec ▸ hx.apart, fun e he hex t ht hseq => ?_⟩
    have hnext := hx.next e (hexec ▸ he) hex t (hd.kept hf.good ha h ht hseq) hseq
    refine hnext.imp_left ?_
    intro hran
    obtain ⟨p, hp, hran⟩ := hran
    exact ⟨p, hpass.trans hp, hran⟩

/-! ## Whole runs -/

theorem numbered_run {clock : Timestamp} {as : List Action}
    (h : run (step (.ok g)) (init clock) as = .ok s) : s.Numbered := by
  have hinit : (init clock).Numbered := fun _ he => absurd he List.not_mem_nil
  have hinv := run_preserves (I := fun u => u.Good ∧ u.Numbered)
    (fun _ _ _ hu hs => ⟨good_step hu.1 hs, numbered_step hu.1 hu.2 hs⟩)
    ⟨init_good clock, hinit⟩ h
  exact hinv.2

/-- The record of a callback: the timer, its expiration at that moment, and the pass. -/
theorem callback_recorded (hf : s.Firing) (h : step (.ok g) s .runCallback = .ok s') :
    ∃ e p t, s'.executed = e :: s.executed ∧ s.pass = some p ∧ e.now = p.now ∧
      e.pass = s.passes ∧ s.queue.heap e.timer.timer = some t ∧
      t.sequence = e.timer.sequence ∧ t.expiration = e.expiration := by
  obtain ⟨now, expired, it, rest, t, hpass, ht, rfl⟩ := runCallback_cases _ h
  exact ⟨_, _, t, rfl, hpass, rfl, rfl, ht, rfl, (hf.next_timer hpass ht).1⟩

theorem executed_subset (hg : s.Good) {a : Action} (h : step (.ok g) s a = .ok s') {e : Execution}
    (he : e ∈ s.executed) : e ∈ s'.executed := by
  rcases (created_step hg h).2 with hsame | ⟨_, _, _, _, hcons⟩
  · rwa [hsame]
  · rw [hcons]
    exact List.mem_cons_of_mem _ he

theorem oneShot_run (hf : s.Firing) (hn : s.Numbered) {a : Addr} {w : Timestamp} {d : Int}
    (h : step (.ok g) s (.addTimer a w false d) = .ok s') {as : List Action} {u : TimerSystem}
    (hrun : run (step (.ok g)) s' as = .ok u) : runsOf u (active a (s.numCreated + 1)) ≤ 1 := by
  obtain ⟨hd, hnew⟩ := addTimer_new hf.good hn h
  have hzero := runsOf_eq_zero hnew
  have honce : RunsOnce s' (active a (s.numCreated + 1)) :=
    ⟨by omega, fun hpos => by omega⟩
  have hinv := run_preserves (I := fun v => v.Firing ∧
      Described v (active a (s.numCreated + 1)) false d ∧
      RunsOnce v (active a (s.numCreated + 1)))
    (fun _ _ _ hv hs => ⟨firing_step hv.1 hs, hv.2.1.step hv.1.good hs,
      runsOnce_step hv.1 hv.2.1 hv.2.2 hs⟩) ⟨firing_step hf h, hd, honce⟩ hrun
  exact hinv.2.2.runs

theorem spaced_run (hf : s.Firing) (hn : s.Numbered) {a : Addr} {w : Timestamp} {d : Int}
    (h : step (.ok g) s (.addTimer a w true d) = .ok s') {as : List Action} {u : TimerSystem}
    (hrun : run (step (.ok g)) s' as = .ok u)
    (hfit : ∀ e ∈ u.executed, e.timer = active a (s.numCreated + 1) → Fits e.now d) :
    Spaced u (active a (s.numCreated + 1)) d := by
  obtain ⟨hd, hnew⟩ := addTimer_new hf.good hn h
  have hspaced : Spaced s' (active a (s.numCreated + 1)) d := by
    refine ⟨?_, fun e he heq => absurd heq (hnew e he)⟩
    exact List.Pairwise.imp_of_mem (fun he _ _ heq => absurd heq (hnew _ he))
      (List.pairwise_of_forall fun _ _ => trivial)
  have hinv := run_history (J := fun _ v => v.Firing ∧
      Described v (active a (s.numCreated + 1)) true d ∧
      ((∀ e ∈ v.executed, e.timer = active a (s.numCreated + 1) → Fits e.now d) →
        Spaced v (active a (s.numCreated + 1)) d)) ⟨firing_step hf h, hd, fun _ => hspaced⟩ ?_ hrun
  · exact hinv.2.2 hfit
  · intro _ v b w _ hv hs
    obtain ⟨hvf, hvd, hvs⟩ := hv
    refine ⟨firing_step hvf hs, hvd.step hvf.good hs, fun hfit' => ?_⟩
    have hfit'' : ∀ e ∈ v.executed, e.timer = active a (s.numCreated + 1) → Fits e.now d :=
      fun e he => hfit' e (executed_subset hvf.good hs he)
    exact spaced_step hvf hvd hfit'' (hvs hfit'') hs

/-- What a run that ends in `s` executes, and when. -/
structure FiringLaw (g clock : Timestamp) (as : List Action) (s : TimerSystem) : Prop where
  /-- The record is of the timer's own expiration and of the pass that runs it. -/
  recorded : ∀ before after s₀ s₁, as = before ++ .runCallback :: after →
    run (step (.ok g)) (init clock) before = .ok s₀ → step (.ok g) s₀ .runCallback = .ok s₁ →
    ∃ e p t, s₁.executed = e :: s₀.executed ∧ s₀.pass = some p ∧ e.now = p.now ∧
      e.pass = s₀.passes ∧ s₀.queue.heap e.timer.timer = some t ∧
      t.sequence = e.timer.sequence ∧ t.expiration = e.expiration
  due : ∀ e ∈ s.executed, e.expiration ≤ e.now
  pass : ∀ before after s₀, as = before ++ .handleRead :: after →
    run (step (.ok g)) (init clock) before = .ok s₀ →
    Fired s₀ s ∧ (.reset ∈ after → FiredAll s₀ s)
  ordered : s.executed.Pairwise fun later earlier =>
    later.pass = earlier.pass → earlier.expiration ≤ later.expiration
  oneShot : ∀ before after s₀ a w d, as = before ++ .addTimer a w false d :: after →
    run (step (.ok g)) (init clock) before = .ok s₀ →
    runsOf s (active a (s₀.numCreated + 1)) ≤ 1
  period : ∀ before after s₀ a w d, as = before ++ .addTimer a w true d :: after →
    run (step (.ok g)) (init clock) before = .ok s₀ →
    (∀ e ∈ s.executed, e.timer = active a (s₀.numCreated + 1) → Fits e.now d) →
    s.executed.Pairwise fun later earlier => later.timer = active a (s₀.numCreated + 1) →
      earlier.timer = active a (s₀.numCreated + 1) → earlier.now.1 + d ≤ later.now.1

/-- The state before an action of a run, the state after it, and the rest of the run. -/
theorem run_split {clock : Timestamp} {before after : List Action} {a : Action}
    {s₀ : TimerSystem} (hrun : run (step (.ok g)) (init clock) (before ++ a :: after) = .ok s)
    (hbefore : run (step (.ok g)) (init clock) before = .ok s₀) :
    ∃ s₁, step (.ok g) s₀ a = .ok s₁ ∧ run (step (.ok g)) s₁ after = .ok s := by
  obtain ⟨u, hu, hrun⟩ := run_append_ok.mp hrun
  rw [hbefore] at hu
  cases hu
  exact run_cons_ok.mp hrun

theorem firing_law {clock : Timestamp} {as : List Action}
    (hrun : run (step (.ok g)) (init clock) as = .ok s) : FiringLaw g clock as s := by
  have hfiring : ∀ {bs u}, run (step (.ok g)) (init clock) bs = .ok u → u.Firing :=
    fun h => firing_run (init_firing clock) h
  have hf := hfiring hrun
  refine ⟨?_, hf.executed_due, ?_, hf.ordered, ?_, ?_⟩
  · intro before after s₀ s₁ _ hbefore hstep
    exact callback_recorded (hfiring hbefore) hstep
  · intro before after s₀ has hbefore
    subst has
    obtain ⟨s₁, hstep, hafter⟩ := run_split hrun hbefore
    exact pass_fired (hfiring hbefore) hstep hafter
  · intro before after s₀ a w d has hbefore
    subst has
    obtain ⟨s₁, hstep, hafter⟩ := run_split hrun hbefore
    exact oneShot_run (hfiring hbefore) (numbered_run hbefore) hstep hafter
  · intro before after s₀ a w d has hbefore hfit
    subst has
    obtain ⟨s₁, hstep, hafter⟩ := run_split hrun hbefore
    exact (spaced_run (hfiring hbefore) (numbered_run hbefore) hstep hafter hfit).apart

/-- A repeating and a one-shot timer in one pass, and the repeating one again in the next. -/
theorem firing_law_sample :
    ∃ s, run (step (.ok ⟨0, by decide⟩)) (init ⟨0, by decide⟩)
        [.addTimer 16 ⟨5, by decide⟩ true 3, .addTimerInLoop 16,
          .addTimer 32 ⟨4, by decide⟩ false 0, .addTimerInLoop 32, .advance ⟨6, by decide⟩,
          .handleRead, .runCallback, .advance ⟨9, by decide⟩, .runCallback, .reset,
          .handleRead, .runCallback, .reset] = .ok s ∧
      (s.executed.map fun e => (e.timer.sequence, e.now.1)) = [(1, 9), (1, 6), (2, 6)] ∧
      FiringLaw ⟨0, by decide⟩ ⟨0, by decide⟩
        [.addTimer 16 ⟨5, by decide⟩ true 3, .addTimerInLoop 16,
          .addTimer 32 ⟨4, by decide⟩ false 0, .addTimerInLoop 32, .advance ⟨6, by decide⟩,
          .handleRead, .runCallback, .advance ⟨9, by decide⟩, .runCallback, .reset,
          .handleRead, .runCallback, .reset] s := by
  have hend : endsIn (step (.ok ⟨0, by decide⟩))
      (fun s => decide ((s.executed.map fun e => (e.timer.sequence, e.now.1)) =
        [(1, 9), (1, 6), (2, 6)])) (init ⟨0, by decide⟩)
        [.addTimer 16 ⟨5, by decide⟩ true 3, .addTimerInLoop 16,
          .addTimer 32 ⟨4, by decide⟩ false 0, .addTimerInLoop 32, .advance ⟨6, by decide⟩,
          .handleRead, .runCallback, .advance ⟨9, by decide⟩, .runCallback, .reset,
          .handleRead, .runCallback, .reset] = true := by decide +kernel
  obtain ⟨s, hrun, hs⟩ := endsIn_iff.mp hend
  exact ⟨s, hrun, of_decide_eq_true hs, firing_law hrun⟩

end Summer.Net.TimerSystem
