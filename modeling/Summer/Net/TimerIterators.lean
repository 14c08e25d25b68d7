import Summer.Net.TimerConsistency

/-!
# The end iterator of the timers

`insert` reads `first` through `timers_.begin()`, and `getExpired` through the lower bound, before
they compare the iterator with the end. With the end iterator unreadable both fail in the states
where it is what they get. The runs go on behind such a read, as the compiled code does: what it
gives is compared with nothing.
-/
namespace Summer.Net

open Summer.Lib

namespace TimerQueue

variable {q : TimerQueue} {a : Addr} {t : Timer} {es : List Entry}

/-- `insert` dereferences an element unless `timers` is empty. -/
theorem insert_reads_end_iff (hsize : q.timers.size = q.activeTimers.size)
    (ha : q.heap a = some t) :
    insert (.error .endIterator) q a = .error .endIterator ↔ q.timers = ∅ := by
  rw [← OrderedSet.first?_eq_none, insert, ensure_of hsize, ok_bind, deref_of ha, ok_bind]
  dsimp only
  cases hf : q.timers.first? with
  | none => exact ⟨fun _ => rfl, fun _ => rfl⟩
  | some e =>
    rw [firstOf, ok_bind]
    constructor
    · intro h
      have h := (ensure_bind_error_of_ne h (by decide)).2
      have h := (ensure_bind_error_of_ne h (by decide)).2
      have h := (ensure_bind_error_of_ne h (by decide)).2
      cases h
    · intro h
      cases h

theorem eraseActive_ne_end : eraseActive q es ≠ .error .endIterator := by
  induction es generalizing q with
  | nil => exact fun h => nomatch h
  | cons e es ih =>
    intro h
    rw [eraseActive] at h
    rcases bind_eq_error.mp h with h | ⟨t, -, h⟩
    · rw [deref] at h
      split at h
      · cases h
      · cases h
    · exact ih (ensure_bind_error_of_ne h (by decide)).2

/-- `getExpired` dereferences an element unless every timer is due. -/
theorem getExpired_reads_end_iff (h : q.Consistent) (now : Timestamp) :
    getExpired (.error .endIterator) q now = .error .endIterator ↔
      ∀ e ∈ q.timers, e.when ≤ now := by
  have hkept : ∀ e, e ∈ q.timers.fromLowerBound (entry now UINTPTR_MAX) ↔
      e ∈ q.timers ∧ now < e.when := by
    intro e
    rw [OrderedSet.mem_fromLowerBound]
    refine and_congr_right fun he => ?_
    obtain ⟨t, ht, -, -⟩ := h.listed e he
    rw [← not_lt, lt_sentinel (h.address _ t ht), not_le]
  rw [getExpired, ensure_of h.sizes, ok_bind]
  dsimp only
  cases hf : (q.timers.fromLowerBound (entry now UINTPTR_MAX)).first? with
  | none =>
    have hempty := OrderedSet.first?_eq_none.mp hf
    refine ⟨fun _ e he => ?_, fun _ => rfl⟩
    by_contra hlt
    have hmem := (hkept e).mpr ⟨he, not_le.mp hlt⟩
    rw [hempty] at hmem
    exact OrderedSet.notMem_empty e hmem
  | some e =>
    obtain ⟨he, hlt⟩ := (hkept e).mp (OrderedSet.first?_mem hf)
    rw [firstOf, ok_bind]
    constructor
    · intro herr
      have herr := (ensure_bind_error_of_ne herr (by decide)).2
      rcases bind_eq_error.mp herr with herr | ⟨q', -, herr⟩
      · exact absurd herr eraseActive_ne_end
      · cases (ensure_bind_error_of_ne herr (by decide)).2
    · intro hall
      exact absurd (hall e he) (not_le.mpr hlt)

/-- A part of the batch that was gone through, and what remains of it. -/
theorem restartOrDelete_prefix {g : Timestamp} (now : Timestamp) (h : q.Consistent)
    {pre post : List Entry} (hb : q.Batch (pre ++ post)) :
    ∃ q', restartOrDelete (.ok g) q now pre = .ok q' ∧ q'.Consistent ∧ q'.Batch post := by
  induction pre generalizing q with
  | nil => exact ⟨q, rfl, h, hb⟩
  | cons e pre ih =>
    rw [List.cons_append] at hb
    obtain ⟨q₁, hc₁, hb₁, -, hstep⟩ := restartOrDelete_step (g := g) now h hb
    obtain ⟨q', hok, hc', hb'⟩ := ih hc₁ hb₁
    exact ⟨q', (hstep pre).trans hok, hc', hb'⟩

end TimerQueue

namespace TimerSystem

variable {s : TimerSystem} {g clock : Timestamp}

/-- The states of the queue in which `insert` and `getExpired` may be called: between two steps
of the system, at any time, and in the loop of `reset`, where a timer was just restarted. -/
inductive Visits (g : Timestamp) (s : TimerSystem) : TimerQueue → Prop where
  | between (clock : Timestamp) (timerfd : Timerfd) :
    Visits g s { s.queue with clock := clock, timerfd := timerfd }
  | restarted {now : Timestamp} {pre post : List Entry} {it : Entry} {q : TimerQueue} {t : Timer}
    (hpass : s.pass = some ⟨now, pre ++ it :: post, []⟩)
    (hpre : TimerQueue.restartOrDelete (.ok g) { s.queue with doingExpiredTimers := false } now pre
      = .ok q)
    (ht : q.heap it.timer = some t) (hr : q.Rearmed it.timer t) :
    Visits g s (q.store it.timer (some (t.restart now)))

theorem Good.visits_consistent (hg : s.Good) {q : TimerQueue} (hq : Visits g s q) :
    q.Consistent := by
  cases hq with
  | between clock timerfd =>
    have hc := hg.consistent
    exact ⟨hc.sizes, hc.listed, hc.activated, hc.address⟩
  | @restarted now pre post it q t hpass hpre ht =>
    obtain ⟨hc, hb⟩ := hg.resetBatch hpass
    obtain ⟨q', hok, hc', hb'⟩ := TimerQueue.restartOrDelete_prefix (g := g) now hc hb
    cases hpre.symm.trans hok
    exact hc'.store_loose (hb'.loose it List.mem_cons_self) fun _ => hc'.address _ t ht

/-- In every state of every run, `insert` reads only elements of `timers` exactly if `timers` is
not empty, and `getExpired` exactly if a timer expires later than `now`. -/
theorem end_never_read_iff {as : List (Timestamp × Action)}
    (hrun : run (stepAt (.ok g)) (init clock) as = .ok s) {q : TimerQueue} (hq : Visits g s q) :
    (∀ a t, q.heap a = some t →
      (TimerQueue.insert (.error .endIterator) q a ≠ .error .endIterator ↔ q.timers ≠ ∅)) ∧
    ∀ now, (TimerQueue.getExpired (.error .endIterator) q now ≠ .error .endIterator ↔
      ∃ e ∈ q.timers, now < e.when) := by
  have hc := (good_runAt (init_good clock) hrun).visits_consistent hq
  constructor
  · intro a t ha
    exact not_congr (TimerQueue.insert_reads_end_iff hc.sizes ha)
  · intro now
    rw [ne_eq, TimerQueue.getExpired_reads_end_iff hc now]
    simp only [not_forall, not_le, exists_prop]

/-- A second timer, while the first one is not due. -/
theorem end_never_read_sample : ∃ s, run (stepAt (.ok ⟨0, by decide⟩)) (init ⟨0, by decide⟩)
      [(⟨1, by decide⟩, .addTimer 16 ⟨5, by decide⟩ false 0),
        (⟨1, by decide⟩, .addTimerInLoop 16),
        (⟨1, by decide⟩, .addTimer 32 ⟨9, by decide⟩ true 4)] = .ok s ∧
    TimerQueue.insert (.error .endIterator) s.queue 32 ≠ .error .endIterator ∧
    TimerQueue.getExpired (.error .endIterator) s.queue ⟨4, by decide⟩ ≠ .error .endIterator := by
  have hend : endsIn (stepAt (.ok ⟨0, by decide⟩))
      (fun s => decide (s.queue.heap 32 = some ⟨⟨9, by decide⟩, true, 4, 2⟩) &&
        decide (entry ⟨5, by decide⟩ 16 ∈ s.queue.timers)) (init ⟨0, by decide⟩)
      [(⟨1, by decide⟩, .addTimer 16 ⟨5, by decide⟩ false 0),
        (⟨1, by decide⟩, .addTimerInLoop 16),
        (⟨1, by decide⟩, .addTimer 32 ⟨9, by decide⟩ true 4)] = true := by decide +kernel
  obtain ⟨s, hrun, hs⟩ := endsIn_iff.mp hend
  obtain ⟨ht, hmem⟩ := (Bool.and_eq_true ..).mp hs
  replace ht := of_decide_eq_true ht
  replace hmem := of_decide_eq_true hmem
  obtain ⟨hins, hexp⟩ := end_never_read_iff hrun (.between s.queue.clock s.queue.timerfd)
  refine ⟨s, hrun, (hins 32 _ ht).mpr fun hempty => ?_, (hexp _).mpr ⟨_, hmem, by decide⟩⟩
  rw [hempty] at hmem
  exact OrderedSet.notMem_empty _ hmem

/-- The first timer, and a pass in which it is due and the only one. -/
theorem end_is_read :
    run (stepAt (.error .endIterator)) (init ⟨0, by decide⟩)
      [(⟨1, by decide⟩, .addTimer 16 ⟨5, by decide⟩ false 0),
        (⟨1, by decide⟩, .addTimerInLoop 16)] = .error .endIterator ∧
    ∃ s, run (stepAt (.ok ⟨0, by decide⟩)) (init ⟨0, by decide⟩)
      [(⟨1, by decide⟩, .addTimer 16 ⟨5, by decide⟩ false 0),
        (⟨1, by decide⟩, .addTimerInLoop 16)] = .ok s ∧
      stepAt (.error .endIterator) s (⟨5, by decide⟩, .handleRead) = .error .endIterator := by
  have hend : endsIn (stepAt (.ok ⟨0, by decide⟩))
      (fun s => decide (faultOf (stepAt (.error .endIterator) s (⟨5, by decide⟩, .handleRead)) =
        some .endIterator)) (init ⟨0, by decide⟩)
      [(⟨1, by decide⟩, .addTimer 16 ⟨5, by decide⟩ false 0),
        (⟨1, by decide⟩, .addTimerInLoop 16)] = true := by decide +kernel
  obtain ⟨s, hrun, hs⟩ := endsIn_iff.mp hend
  exact ⟨faultOf_eq_some.mp (by decide +kernel), s, hrun,
    faultOf_eq_some.mp (of_decide_eq_true hs)⟩

end TimerSystem

end Summer.Net
