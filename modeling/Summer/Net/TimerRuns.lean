import Summer.Net.TimerBatch

/-!
# Runs of a timer queue

Timers are created by any thread at any time, while `addTimerInLoop`, `cancelInLoop` and
the passes of `handleRead` are steps of the loop thread. During a pass each callback is
one step, and the steps between it and the next one are what the callback does.
-/
namespace Summer.Net

open Summer.Lib

/-- The local variables of `handleRead`, and how far its loop over the callbacks is. -/
structure Pass where
  now : Timestamp
  expired : List Entry
  rest : List Entry

/-- A callback execution: the timer, its expiration then, and the pass it happened in. -/
structure Execution where
  timer : TimerId
  expiration : Timestamp
  now : Timestamp
  pass : Nat
  deriving DecidableEq

/-- `pending` holds the timers whose `addTimerInLoop` has not run; `issued` and `executed`
record every `TimerId` returned and every callback run. -/
structure TimerSystem where
  queue : TimerQueue
  pass : Option Pass
  pending : List Addr
  numCreated : Nat
  issued : List TimerId
  passes : Nat
  executed : List Execution

namespace TimerSystem

inductive Action where
  /-- `addTimer` up to its `runInLoop`, the allocator answering `timer`. -/
  | addTimer (timer : Addr) (when : Timestamp) (repeats : Bool) (interval : Int)
  /-- Another queue creates a timer. -/
  | otherTimer
  | addTimerInLoop (timer : Addr)
  | cancelInLoop (timerId : TimerId)
  /-- `handleRead` up to its first callback. -/
  | handleRead
  | runCallback
  /-- `handleRead` after its last callback. -/
  | reset
  | advance (clock : Timestamp)
  deriving DecidableEq

def init (clock : Timestamp) : TimerSystem where
  queue := ⟨∅, ∅, false, ∅, none, fun _ => none, clock⟩
  pass := none
  pending := []
  numCreated := 0
  issued := []
  passes := 0
  executed := []

/-- The timers of the pass that is running. -/
def batch (s : TimerSystem) : List Entry :=
  match s.pass with
  | none => []
  | some p => p.expired

variable (endFirst : Except Fault Timestamp)

def step (s : TimerSystem) : Action → Except Fault TimerSystem
  | .addTimer timer when repeats interval => do
    ensure (timer < UINTPTR_MAX ∧ s.queue.heap timer = none) .notEnabled
    let sequence := s.numCreated + 1
    .ok { s with
      queue := s.queue.store timer (some ⟨when, repeats, interval, sequence⟩)
      pending := timer :: s.pending
      numCreated := sequence
      issued := active timer sequence :: s.issued }
  | .otherTimer => .ok { s with numCreated := s.numCreated + 1 }
  | .addTimerInLoop timer => do
    ensure (timer ∈ s.pending) .notEnabled
    let queue ← s.queue.addTimerInLoop endFirst timer
    .ok { s with queue := queue, pending := s.pending.erase timer }
  | .cancelInLoop timerId => do
    ensure (timerId ∈ s.issued) .notEnabled
    let queue ← s.queue.cancelInLoop timerId
    .ok { s with queue := queue }
  | .handleRead => do
    ensure (s.pass.isNone = true) .notEnabled
    let (expired, queue) ← s.queue.handleReadBegin endFirst
    .ok { s with
      queue := queue
      pass := some ⟨s.queue.clock, expired, expired⟩
      passes := s.passes + 1 }
  | .runCallback =>
    match s.pass with
    | some ⟨now, expired, it :: rest⟩ => do
      let t ← s.queue.deref it.timer
      .ok { s with
        pass := some ⟨now, expired, rest⟩
        executed := ⟨active it.timer t.sequence, it.when, now, s.passes⟩ :: s.executed }
    | _ => .error .notEnabled
  | .reset =>
    match s.pass with
    | some ⟨now, expired, []⟩ => do
      let queue ← s.queue.handleReadEnd endFirst expired now
      .ok { s with queue := queue, pass := none }
    | _ => .error .notEnabled
  | .advance clock => do
    ensure (s.queue.clock ≤ clock) .notEnabled
    .ok { s with queue := { s.queue with clock := clock } }

/-! ## The invariant -/

/-- Every live timer is pending, in the batch or in the queue, and has a number of its own. -/
structure Good (s : TimerSystem) : Prop where
  consistent : s.queue.Consistent
  batch : s.queue.Batch s.batch
  rest : ∀ p, s.pass = some p → ∀ e ∈ p.rest, e ∈ p.expired
  pending_nodup : s.pending.Nodup
  pending_live : ∀ a ∈ s.pending, ∃ t, s.queue.heap a = some t
  pending_loose : ∀ a ∈ s.pending, ¬ s.queue.Holds a ∧ a ∉ s.batch.map Entry.timer
  number_le : ∀ a t, s.queue.heap a = some t → t.sequence ≤ s.numCreated
  number_inj : ∀ a b t u, s.queue.heap a = some t → s.queue.heap b = some u →
    t.sequence = u.sequence → a = b
  issued_le : ∀ x ∈ s.issued, x.sequence ≤ s.numCreated
  owned : ∀ a t, s.queue.heap a = some t →
    a ∈ s.pending ∨ a ∈ s.batch.map Entry.timer ∨ s.queue.Holds a

theorem init_good (clock : Timestamp) : (init clock).Good where
  consistent := ⟨rfl, fun _ he => absurd he (OrderedSet.notMem_empty _),
    fun _ hx => absurd hx (OrderedSet.notMem_empty _), fun _ _ h => nomatch h⟩
  batch := ⟨List.nodup_nil, (fun _ h => nomatch h), (fun _ h => nomatch h)⟩
  rest := fun _ h => nomatch h
  pending_nodup := List.nodup_nil
  pending_live := fun _ h => nomatch h
  pending_loose := fun _ h => nomatch h
  number_le := fun _ _ h => nomatch h
  number_inj := fun _ _ _ _ h => nomatch h
  issued_le := fun _ h => nomatch h
  owned := fun _ _ h => nomatch h

/-! ## What each step does -/

variable {s s' : TimerSystem} {g : Timestamp}

theorem addTimer_cases {a : Addr} {w : Timestamp} {r : Bool} {i : Int}
    (h : step endFirst s (.addTimer a w r i) = .ok s') :
    a < UINTPTR_MAX ∧ s.queue.heap a = none ∧ s' = { s with
      queue := s.queue.store a (some ⟨w, r, i, s.numCreated + 1⟩)
      pending := a :: s.pending
      numCreated := s.numCreated + 1
      issued := active a (s.numCreated + 1) :: s.issued } := by
  obtain ⟨_, hen, h⟩ := bind_eq_ok.mp h
  obtain ⟨hlt, hfree⟩ := ensure_eq_ok.mp hen
  cases h
  exact ⟨hlt, hfree, rfl⟩

/-- The timer goes into the queue; the descriptor is set anew for a new earliest one. -/
theorem addTimerInLoop_cases (hg : s.Good) {a : Addr}
    (h : step (.ok g) s (.addTimerInLoop a) = .ok s') :
    ∃ t fd, a ∈ s.pending ∧ s.queue.heap a = some t ∧
      (s.queue.Earliest t.expiration →
        fd = resetTimerfd s.queue.timerfd s.queue.clock t.expiration) ∧
      (¬ s.queue.Earliest t.expiration → fd = s.queue.timerfd) ∧
      s' = { s with
        queue := { s.queue.put a t with timerfd := fd }
        pending := s.pending.erase a } := by
  obtain ⟨_, hen, h⟩ := bind_eq_ok.mp h
  obtain ⟨q, hq, h⟩ := bind_eq_ok.mp h
  have hp := ensure_eq_ok.mp hen
  obtain ⟨t, ht⟩ := hg.pending_live a hp
  cases h
  rcases TimerQueue.addTimerInLoop_spec (g := g) hg.consistent ht (hg.pending_loose a hp).1 with
    ⟨he, hok⟩ | ⟨he, hok⟩
  · rw [hok] at hq
    cases hq
    exact ⟨t, _, hp, ht, fun _ => rfl, fun hn => absurd he hn, rfl⟩
  · rw [hok] at hq
    cases hq
    exact ⟨t, _, hp, ht, fun hy => absurd hy he, fun _ => rfl, rfl⟩

theorem cancelInLoop_cases (hg : s.Good) {x : TimerId}
    (h : step endFirst s (.cancelInLoop x) = .ok s') :
    ∃ t, x ∈ s.queue.activeTimers ∧ s.queue.heap x.timer = some t ∧ t.sequence = x.sequence ∧
      (s.queue.remove x t).Consistent ∧ s' = { s with queue := s.queue.remove x t } := by
  obtain ⟨-, -, h⟩ := bind_eq_ok.mp h
  obtain ⟨q, hq, h⟩ := bind_eq_ok.mp h
  cases h
  by_cases hx : x ∈ s.queue.activeTimers
  · obtain ⟨t, ht, hseq, hok, hc⟩ := TimerQueue.cancelInLoop_spec hg.consistent hx
    rw [hok] at hq
    cases hq
    exact ⟨t, hx, ht, hseq, hc, rfl⟩
  · rw [TimerQueue.cancelInLoop_inactive hg.consistent hx] at hq
    cases hq

/-- The pass starts with the timers that are due, and with nothing cancelled. -/
theorem handleRead_cases (hg : s.Good) (h : step (.ok g) s .handleRead = .ok s') :
    ∃ es q, s.pass = none ∧
      TimerQueue.Extracted { s.queue with timerfd := s.queue.timerfd.read s.queue.clock }
        s.queue.clock es q ∧
      s' = { s with
        queue := { q with doingExpiredTimers := true, cancelTimers := ∅ }
        pass := some ⟨s.queue.clock, es, es⟩
        passes := s.passes + 1 } := by
  obtain ⟨_, hen, h⟩ := bind_eq_ok.mp h
  obtain ⟨⟨expired, queue⟩, hq, h⟩ := bind_eq_ok.mp h
  have hnone : s.pass = none := Option.isNone_iff_eq_none.mp (ensure_eq_ok.mp hen)
  have hc : TimerQueue.Consistent { s.queue with timerfd := s.queue.timerfd.read s.queue.clock } :=
    ⟨hg.consistent.sizes, hg.consistent.listed, hg.consistent.activated, hg.consistent.address⟩
  obtain ⟨es, q, hok, hex⟩ := TimerQueue.getExpired_spec s.queue.clock hc
  rw [TimerQueue.handleReadBegin] at hq
  dsimp only at hq
  rw [hok] at hq
  cases hq
  cases h
  exact ⟨es, q, hnone, hex, rfl⟩

theorem runCallback_cases (h : step endFirst s .runCallback = .ok s') :
    ∃ now expired it rest t, s.pass = some ⟨now, expired, it :: rest⟩ ∧
      s.queue.heap it.timer = some t ∧
      s' = { s with
        pass := some ⟨now, expired, rest⟩
        executed := ⟨active it.timer t.sequence, it.when, now, s.passes⟩ :: s.executed } := by
  rw [step] at h
  split at h
  · rename_i now expired it rest hpass
    obtain ⟨t, ht, h⟩ := bind_eq_ok.mp h
    cases hheap : s.queue.heap it.timer with
    | none =>
      rw [TimerQueue.deref, hheap] at ht
      cases ht
    | some u =>
      rw [TimerQueue.deref_of hheap] at ht
      cases ht
      cases h
      exact ⟨now, expired, it, rest, _, hpass, hheap, rfl⟩
  · cases h

/-- The queue `reset` gets, and the batch. -/
theorem Good.resetBatch (hg : s.Good) {now : Timestamp} {expired rest : List Entry}
    (hpass : s.pass = some ⟨now, expired, rest⟩) :
    TimerQueue.Consistent { s.queue with doingExpiredTimers := false } ∧
      TimerQueue.Batch { s.queue with doingExpiredTimers := false } expired := by
  have hc := hg.consistent
  have hb := hg.batch
  rw [TimerSystem.batch, hpass] at hb
  exact ⟨⟨hc.sizes, hc.listed, hc.activated, hc.address⟩, hb.nodup, hb.live, hb.loose⟩

/-- `reset` finds the timers of the batch, and restarts or deletes them. -/
theorem Good.handleReadEnd (hg : s.Good) {now : Timestamp} {expired rest : List Entry}
    (hpass : s.pass = some ⟨now, expired, rest⟩) :
    ∃ q, TimerQueue.Restarted { s.queue with doingExpiredTimers := false } now expired q ∧
      s.queue.handleReadEnd (.ok g) expired now = .ok q.rearm := by
  obtain ⟨hc, hb⟩ := hg.resetBatch hpass
  obtain ⟨q, hok, hr⟩ := TimerQueue.restartOrDelete_spec (g := g) now hc hb
  refine ⟨q, hr, ?_⟩
  rw [TimerQueue.handleReadEnd, TimerQueue.reset, hok]
  rfl

/-- The repeating timers of the pass go back into the queue, and the others are deleted. -/
theorem reset_cases (hg : s.Good) (h : step (.ok g) s .reset = .ok s') :
    ∃ now expired q, s.pass = some ⟨now, expired, []⟩ ∧
      TimerQueue.Restarted { s.queue with doingExpiredTimers := false } now expired q ∧
      s' = { s with queue := q.rearm, pass := none } := by
  rw [step] at h
  split at h
  · rename_i now expired hpass
    obtain ⟨queue, hq, h⟩ := bind_eq_ok.mp h
    cases h
    obtain ⟨q, hr, hok⟩ := hg.handleReadEnd (g := g) hpass
    rw [hok] at hq
    cases hq
    exact ⟨now, expired, q, hpass, hr, rfl⟩
  · cases h

/-! ## Every step keeps the invariant -/

/-- The clock is no part of the invariant. -/
theorem Good.at_clock (hg : s.Good) (clock : Timestamp) :
    Good { s with queue := { s.queue with clock := clock } } := by
  have hc := hg.consistent
  exact ⟨⟨hc.sizes, hc.listed, hc.activated, hc.address⟩,
    ⟨hg.batch.nodup, hg.batch.live, hg.batch.loose⟩, hg.rest, hg.pending_nodup, hg.pending_live,
    hg.pending_loose, hg.number_le, hg.number_inj, hg.issued_le, hg.owned⟩

theorem good_addTimer (hg : s.Good) {a : Addr} {w : Timestamp} {r : Bool} {i : Int}
    (h : step endFirst s (.addTimer a w r i) = .ok s') : s'.Good := by
  obtain ⟨hlt, hfree, rfl⟩ := addTimer_cases _ h
  have hne : ∀ {b t}, s.queue.heap b = some t → b ≠ a := by
    intro b t hb heq
    rw [heq, hfree] at hb
    cases hb
  have hold : ∀ {b t}, s.queue.heap b = some t →
      (s.queue.store a (some ⟨w, r, i, s.numCreated + 1⟩)).heap b = some t :=
    fun hb => (TimerQueue.store_heap_ne (hne hb) _).trans hb
  have hloose : ¬ s.queue.Holds a := by
    intro h
    obtain ⟨e, he, heq⟩ := h
    obtain ⟨t, ht, -, -⟩ := hg.consistent.listed e he
    exact hne ht heq
  have hbatch : a ∉ s.batch.map Entry.timer := by
    intro hmem
    obtain ⟨e, he, heq⟩ := List.mem_map.mp hmem
    obtain ⟨t, ht⟩ := hg.batch.live e he
    exact hne ht heq
  -- What lies in the heap after the step: the new timer, or an old one.
  have hheap : ∀ b t, (s.queue.store a (some ⟨w, r, i, s.numCreated + 1⟩)).heap b = some t →
      (b = a ∧ t.sequence = s.numCreated + 1) ∨ s.queue.heap b = some t := by
    intro b t hb
    by_cases hba : b = a
    · subst hba
      rw [TimerQueue.store_heap_self, Option.some_inj] at hb
      exact .inl ⟨rfl, by rw [← hb]⟩
    · exact .inr (by rwa [TimerQueue.store_heap_ne hba] at hb)
  refine ⟨hg.consistent.store_loose hloose fun _ => hlt, ⟨hg.batch.nodup, ?_, hg.batch.loose⟩,
    hg.rest, ?_, ?_, ?_, ?_, ?_, ?_, ?_⟩
  · intro e he
    obtain ⟨t, ht⟩ := hg.batch.live e he
    exact ⟨t, hold ht⟩
  · refine List.nodup_cons.mpr ⟨?_, hg.pending_nodup⟩
    intro hmem
    obtain ⟨t, ht⟩ := hg.pending_live a hmem
    exact hne ht rfl
  · intro b hb
    rcases List.mem_cons.mp hb with rfl | hb
    · exact ⟨_, TimerQueue.store_heap_self ..⟩
    · obtain ⟨t, ht⟩ := hg.pending_live b hb
      exact ⟨t, hold ht⟩
  · intro b hb
    rcases List.mem_cons.mp hb with rfl | hb
    · exact ⟨hloose, hbatch⟩
    · exact hg.pending_loose b hb
  · intro b t hb
    rcases hheap b t hb with ⟨-, hseq⟩ | hb
    · exact hseq.le
    · exact Nat.le_succ_of_le (hg.number_le b t hb)
  · intro b c t u hb hc heq
    rcases hheap b t hb with ⟨hba, hseq⟩ | hb' <;> rcases hheap c u hc with ⟨hca, hseq'⟩ | hc'
    · rw [hba, hca]
    · have := hg.number_le c u hc'
      omega
    · have := hg.number_le b t hb'
      omega
    · exact hg.number_inj b c t u hb' hc' heq
  · intro x hx
    rcases List.mem_cons.mp hx with rfl | hx
    · exact le_rfl
    · exact Nat.le_succ_of_le (hg.issued_le x hx)
  · intro b t hb
    rcases hheap b t hb with ⟨rfl, -⟩ | hb
    · exact .inl List.mem_cons_self
    · exact (hg.owned b t hb).imp_left (List.mem_cons_of_mem _)

theorem good_addTimerInLoop (hg : s.Good) {a : Addr}
    (h : step (.ok g) s (.addTimerInLoop a) = .ok s') : s'.Good := by
  obtain ⟨t, fd, hp, ht, -, -, rfl⟩ := addTimerInLoop_cases hg h
  have hl := hg.pending_loose a hp
  have hc := hg.consistent.put ht hl.1
  have hholds : ∀ {b}, (s.queue.put a t).Holds b ↔ b = a ∨ s.queue.Holds b := TimerQueue.holds_put
  refine ⟨⟨hc.sizes, hc.listed, hc.activated, hc.address⟩, ⟨hg.batch.nodup, hg.batch.live, ?_⟩,
    hg.rest, hg.pending_nodup.erase a, ?_, ?_, hg.number_le, hg.number_inj, hg.issued_le, ?_⟩
  · intro e he hh
    rcases hholds.mp hh with heq | hh
    · exact hl.2 (heq ▸ List.mem_map_of_mem he)
    · exact hg.batch.loose e he hh
  · exact fun b hb => hg.pending_live b (List.mem_of_mem_erase hb)
  · intro b hb
    obtain ⟨hne, hb⟩ := hg.pending_nodup.mem_erase_iff.mp hb
    refine ⟨fun hh => ?_, (hg.pending_loose b hb).2⟩
    exact (hholds.mp hh).elim hne (hg.pending_loose b hb).1
  · intro b u hb
    rcases hg.owned b u hb with hp' | hbatch | hh
    · by_cases hba : b = a
      · exact .inr (.inr (hholds.mpr (.inl hba)))
      · exact .inl ((List.mem_erase_of_ne hba).mpr hp')
    · exact .inr (.inl hbatch)
    · exact .inr (.inr (hholds.mpr (.inr hh)))

theorem good_cancelInLoop (hg : s.Good) {x : TimerId}
    (h : step endFirst s (.cancelInLoop x) = .ok s') : s'.Good := by
  obtain ⟨t, hx, ht, -, hc, rfl⟩ := cancelInLoop_cases _ hg h
  have hheld := hg.consistent.holds_of_active hx
  have hmem : ∀ {e}, e ∈ (s.queue.remove x t).timers ↔ e ∈ s.queue.timers ∧ e.timer ≠ x.timer :=
    hg.consistent.mem_remove_timers ht
  have hholds : ∀ {b}, (s.queue.remove x t).Holds b → s.queue.Holds b :=
    fun ⟨e, he, heq⟩ => ⟨e, (hmem.mp he).1, heq⟩
  have hne : ∀ {b}, ¬ s.queue.Holds b → b ≠ x.timer := fun hb heq => hb (heq ▸ hheld)
  have hheap : ∀ {b u}, (s.queue.remove x t).heap b = some u → b ≠ x.timer ∧
      s.queue.heap b = some u := by
    intro b u hb
    by_cases hbx : b = x.timer
    · rw [hbx, TimerQueue.remove_heap_self] at hb
      cases hb
    · exact ⟨hbx, by rwa [TimerQueue.remove_heap_ne hbx] at hb⟩
  refine ⟨hc, ⟨hg.batch.nodup, ?_, fun e he hh => hg.batch.loose e he (hholds hh)⟩, hg.rest,
    hg.pending_nodup, ?_, ?_, ?_, ?_, hg.issued_le, ?_⟩
  · intro e he
    obtain ⟨u, hu⟩ := hg.batch.live e he
    exact ⟨u, (TimerQueue.remove_heap_ne (hne (hg.batch.loose e he)) t).trans hu⟩
  · intro b hb
    obtain ⟨u, hu⟩ := hg.pending_live b hb
    exact ⟨u, (TimerQueue.remove_heap_ne (hne (hg.pending_loose b hb).1) t).trans hu⟩
  · exact fun b hb => ⟨fun hh => (hg.pending_loose b hb).1 (hholds hh), (hg.pending_loose b hb).2⟩
  · exact fun b u hb => hg.number_le b u (hheap hb).2
  · exact fun b c u v hb hc => hg.number_inj b c u v (hheap hb).2 (hheap hc).2
  · intro b u hb
    obtain ⟨hbx, hb⟩ := hheap hb
    refine (hg.owned b u hb).imp_right (Or.imp_right ?_)
    intro h
    obtain ⟨e, he, heq⟩ := h
    exact ⟨e, hmem.mpr ⟨he, heq ▸ hbx⟩, heq⟩

theorem good_handleRead (hg : s.Good) (h : step (.ok g) s .handleRead = .ok s') : s'.Good := by
  obtain ⟨es, q, hnone, hex, rfl⟩ := handleRead_cases hg h
  have hheap : q.heap = s.queue.heap := by rw [hex.frame]
  have hempty : s.batch = [] := by rw [batch, hnone]
  have hc := hex.consistent
  have hholds : ∀ {b}, q.Holds b → s.queue.Holds b :=
    fun ⟨e, he, heq⟩ => ⟨e, ((hex.kept e).mp he).1, heq⟩
  have hlive : ∀ e ∈ es, ∃ t, s.queue.heap e.timer = some t ∧ e = entry t.expiration e.timer := by
    intro e he
    have heq := ((hex.expired e).mp he).1
    obtain ⟨t, ht, -, -⟩ := hg.consistent.listed e heq
    exact ⟨t, ht, hg.consistent.eq_of_mem heq ht⟩
  refine ⟨⟨hc.sizes, hc.listed, hc.activated, hc.address⟩, ⟨hex.nodup ?_, ?_, ?_⟩, ?_,
    hg.pending_nodup, ?_, ?_, ?_, ?_, hg.issued_le, ?_⟩
  · exact ⟨hg.consistent.sizes, hg.consistent.listed, hg.consistent.activated,
      hg.consistent.address⟩
  · intro e he
    obtain ⟨t, ht, -⟩ := hlive e he
    exact ⟨t, by rw [← ht, ← hheap]⟩
  · rintro e he ⟨f, hf, heq⟩
    obtain ⟨t, ht, hent⟩ := hlive e he
    obtain ⟨hfq, hlt⟩ := (hex.kept f).mp hf
    have hfent := hg.consistent.eq_of_mem hfq (heq ▸ ht)
    have hle := ((hex.expired e).mp he).2
    rw [hfent, entry_when] at hlt
    rw [hent, entry_when] at hle
    exact absurd hlt (not_lt.mpr hle)
  · rintro p hp
    cases hp
    exact fun e he => he
  · exact fun a ha => hheap ▸ hg.pending_live a ha
  · intro a ha
    refine ⟨fun hh => (hg.pending_loose a ha).1 (hholds hh), fun hmem => ?_⟩
    obtain ⟨e, he, heq⟩ := List.mem_map.mp hmem
    exact (hg.pending_loose a ha).1 ⟨e, ((hex.expired e).mp he).1, heq⟩
  · exact fun a t ha => hg.number_le a t (hheap ▸ ha)
  · exact fun a b t u ha hb => hg.number_inj a b t u (hheap ▸ ha) (hheap ▸ hb)
  · intro a t ha
    rcases hg.owned a t (hheap ▸ ha) with hp | hbatch | ⟨e, he, heq⟩
    · exact .inl hp
    · rw [hempty] at hbatch
      cases hbatch
    · rcases le_or_gt e.when s.queue.clock with hle | hlt
      · exact .inr (.inl (heq ▸ List.mem_map_of_mem ((hex.expired e).mpr ⟨he, hle⟩)))
      · exact .inr (.inr ⟨e, (hex.kept e).mpr ⟨he, hlt⟩, heq⟩)

theorem good_runCallback (hg : s.Good) (h : step endFirst s .runCallback = .ok s') :
    s'.Good := by
  obtain ⟨now, expired, it, rest, t, hpass, -, rfl⟩ := runCallback_cases _ h
  have hbatch : s.batch = expired := by rw [batch, hpass]
  refine ⟨hg.consistent, hbatch ▸ hg.batch, ?_, hg.pending_nodup, hg.pending_live,
    hbatch ▸ hg.pending_loose, hg.number_le, hg.number_inj, hg.issued_le, hbatch ▸ hg.owned⟩
  rintro p hp e he
  cases hp
  exact hg.rest _ hpass e (List.mem_cons_of_mem _ he)

theorem good_reset (hg : s.Good) (h : step (.ok g) s .reset = .ok s') : s'.Good := by
  obtain ⟨now, expired, q, hpass, hr, rfl⟩ := reset_cases hg h
  have hbatch : s.batch = expired := by rw [batch, hpass]
  have hc := hr.consistent
  have hfr := TimerQueue.rearm_frame q
  -- The heap after the pass: an old timer, or a restarted one with the same number.
  have hheap : ∀ a t, q.heap a = some t → ∃ u, s.queue.heap a = some u ∧
      u.sequence = t.sequence ∧ (a ∈ expired.map Entry.timer → q.Holds a) := by
    intro a t ha
    by_cases hmem : a ∈ expired.map Entry.timer
    · obtain ⟨e, he, rfl⟩ := List.mem_map.mp hmem
      obtain ⟨u, hu⟩ := hg.batch.live e (hbatch ▸ he)
      rw [hr.heap_in e he u hu] at ha
      split at ha
      · rename_i hre
        cases ha
        exact ⟨u, hu, (Timer.restart_sequence u now).symm, fun _ =>
          ⟨_, (hr.timers _).mpr (.inr ⟨e, he, u, hu, hre, rfl⟩), rfl⟩⟩
      · cases ha
    · rw [hr.heap_out a hmem] at ha
      exact ⟨t, ha, rfl, fun hm => absurd hm hmem⟩
  have hholds : ∀ {b}, s.queue.Holds b → q.Holds b :=
    fun ⟨e, he, heq⟩ => ⟨e, (hr.timers e).mpr (.inl he), heq⟩
  rw [hfr]
  refine ⟨⟨hc.sizes, hc.listed, hc.activated, hc.address⟩,
    ⟨List.nodup_nil, (fun _ he => nomatch he), (fun _ he => nomatch he)⟩, (fun _ hp => nomatch hp),
    hg.pending_nodup, ?_, ?_, ?_, ?_, hg.issued_le, ?_⟩
  · intro a ha
    obtain ⟨t, ht⟩ := hg.pending_live a ha
    exact ⟨t, (hr.heap_out a (hbatch ▸ (hg.pending_loose a ha).2)).trans ht⟩
  · intro a ha
    obtain ⟨hl, hn⟩ := hg.pending_loose a ha
    refine ⟨?_, List.not_mem_nil⟩
    intro h
    obtain ⟨e, he, heq⟩ := h
    rcases (hr.timers e).mp he with he | ⟨f, hf, t, -, -, rfl⟩
    · exact hl ⟨e, he, heq⟩
    · rw [entry_timer] at heq
      exact hn (hbatch ▸ heq ▸ List.mem_map_of_mem hf)
  · intro a t ha
    obtain ⟨u, hu, hseq, -⟩ := hheap a t ha
    exact hseq ▸ hg.number_le a u hu
  · intro a b t u ha hb heq
    obtain ⟨t', ht', hseq, -⟩ := hheap a t ha
    obtain ⟨u', hu', hseq', -⟩ := hheap b u hb
    exact hg.number_inj a b t' u' ht' hu' (by rw [hseq, hseq', heq])
  · intro a t ha
    obtain ⟨u, hu, -, hin⟩ := hheap a t ha
    rcases hg.owned a u hu with hp | hmem | hh
    · exact .inl hp
    · exact .inr (.inr (hin (hbatch ▸ hmem)))
    · exact .inr (.inr (hholds hh))

theorem good_step (hg : s.Good) {a : Action} (h : step (.ok g) s a = .ok s') : s'.Good := by
  cases a with
  | addTimer a w r i => exact good_addTimer _ hg h
  | otherTimer =>
    cases h
    exact ⟨hg.consistent, hg.batch, hg.rest, hg.pending_nodup, hg.pending_live, hg.pending_loose,
      fun a t ha => Nat.le_succ_of_le (hg.number_le a t ha), hg.number_inj,
      fun x hx => Nat.le_succ_of_le (hg.issued_le x hx), hg.owned⟩
  | addTimerInLoop a => exact good_addTimerInLoop hg h
  | cancelInLoop x => exact good_cancelInLoop _ hg h
  | handleRead => exact good_handleRead hg h
  | runCallback => exact good_runCallback _ hg h
  | reset => exact good_reset hg h
  | advance c =>
    obtain ⟨-, -, h⟩ := bind_eq_ok.mp h
    cases h
    exact hg.at_clock c

theorem good_run {as : List Action} (hg : s.Good) (h : run (step (.ok g)) s as = .ok s') :
    s'.Good :=
  run_preserves (fun _ _ _ hs ht => good_step hs ht) hg h

end TimerSystem

end Summer.Net
