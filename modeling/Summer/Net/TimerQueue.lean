import Summer.Net.Timer
import Summer.Lib.OrderedSet
import Summer.Lib.Run

/-!
# The timer queue

`timers` is ordered by expiration and address, `activeTimers` by address and sequence
number. A `Timer` is an address in the heap; using an address that holds no timer is a
fault. `endFirst` is what reading `first` through the end iterator of `timers` gives.
-/
namespace Summer.Net

open Summer.Lib

/-- `std::pair<Timestamp, Timer*>`, with the order of pairs. -/
abbrev Entry := Timestamp ×ₗ Addr

/-- `std::pair<Timer*, int64_t>`. A `TimerId` holds the same two values. -/
abbrev Active := Addr ×ₗ Nat

abbrev TimerId := Active

instance : LinearOrder Entry := @Prod.Lex.instLinearOrder _ _ inferInstance Nat.instLinearOrder

instance : LinearOrder Active :=
  @Prod.Lex.instLinearOrder _ _ Nat.instLinearOrder Nat.instLinearOrder

namespace Entry

def when (e : Entry) : Timestamp := (ofLex e).1

def timer (e : Entry) : Addr := (ofLex e).2

end Entry

namespace Active

def timer (x : Active) : Addr := (ofLex x).1

def sequence (x : Active) : Nat := (ofLex x).2

end Active

def entry (when : Timestamp) (timer : Addr) : Entry := toLex (when, timer)

def active (timer : Addr) (sequence : Nat) : Active := toLex (timer, sequence)

@[simp] theorem entry_when (w : Timestamp) (a : Addr) : (entry w a).when = w := rfl

@[simp] theorem entry_timer (w : Timestamp) (a : Addr) : (entry w a).timer = a := rfl

@[simp] theorem active_timer (a : Addr) (n : Nat) : (active a n).timer = a := rfl

@[simp] theorem active_sequence (a : Addr) (n : Nat) : (active a n).sequence = n := rfl

theorem entry_eta (e : Entry) : entry e.when e.timer = e := rfl

theorem active_eta (x : Active) : active x.timer x.sequence = x := rfl

/-- The object, with the timers it points to and the descriptor it owns. -/
structure TimerQueue where
  timers : OrderedSet Entry
  activeTimers : OrderedSet Active
  doingExpiredTimers : Bool
  cancelTimers : OrderedSet Active
  timerfd : Timerfd
  heap : Addr → Option Timer
  clock : Timestamp

namespace TimerQueue

/-- `it->first` for an iterator into `timers`, which may be the end. -/
def firstOf (endFirst : Except Fault Timestamp) : Option Entry → Except Fault Timestamp
  | none => endFirst
  | some e => .ok e.when

/-- `*it` for an iterator into `activeTimers`. -/
def element : Option Active → Except Fault Active
  | none => .error .endIterator
  | some x => .ok x

def deref (q : TimerQueue) (timer : Addr) : Except Fault Timer :=
  match q.heap timer with
  | none => .error .dangling
  | some t => .ok t

def store (q : TimerQueue) (timer : Addr) (t : Option Timer) : TimerQueue :=
  { q with heap := Function.update q.heap timer t }

section Operations

variable (endFirst : Except Fault Timestamp)

/-- Whether the earliest expiration changed, and the queue with the timer in both sets. -/
def insert (q : TimerQueue) (timer : Addr) : Except Fault (Bool × TimerQueue) := do
  ensure (q.timers.size = q.activeTimers.size) (.assertion .insert)
  let t ← q.deref timer
  let it := q.timers.first?
  -- The source reads through the iterator before it compares it with the end.
  let first ← firstOf endFirst it
  let earliestTimerChanged := decide (it = none ∨ t.expiration < first)
  let timers := q.timers.insert (entry t.expiration timer)
  ensure (timers.2 = true) (.assertion .insert)
  let activeTimers := q.activeTimers.insert (active timer t.sequence)
  ensure (activeTimers.2 = true) (.assertion .insert)
  ensure (activeTimers.1.size = timers.1.size) (.assertion .insert)
  .ok (earliestTimerChanged, { q with timers := timers.1, activeTimers := activeTimers.1 })

def addTimerInLoop (q : TimerQueue) (timer : Addr) : Except Fault TimerQueue := do
  let (earliestTimerChanged, q) ← insert endFirst q timer
  let t ← q.deref timer
  .ok (if earliestTimerChanged = true then
    { q with timerfd := resetTimerfd q.timerfd q.clock t.expiration } else q)

def cancelInLoop (q : TimerQueue) (timerId : TimerId) : Except Fault TimerQueue := do
  ensure (q.timers.size = q.activeTimers.size) (.assertion .cancelInLoop)
  let it := if timerId ∈ q.activeTimers then some timerId else none
  -- The source reads through the iterator before it compares it with the end.
  let first ← element it
  let t ← q.deref first.timer
  let n := q.timers.erase (entry t.expiration first.timer)
  let q ← (if it ≠ none then do
      ensure (n.2 = 1) (.assertion .cancelInLoop)
      .ok { q.store first.timer none with
        timers := n.1, activeTimers := (q.activeTimers.erase first).1 }
    else if q.doingExpiredTimers = true then do
      let timer ← element it
      .ok { q with cancelTimers := (q.cancelTimers.insert timer).1 }
    else .ok q)
  ensure (q.timers.size = q.activeTimers.size) (.assertion .cancelInLoop)
  .ok q

/-- The loop of `getExpired` that takes the expired timers out of `activeTimers`. -/
def eraseActive (q : TimerQueue) : List Entry → Except Fault TimerQueue
  | [] => .ok q
  | it :: expired => do
    let t ← q.deref it.timer
    let n := q.activeTimers.erase (active it.timer t.sequence)
    ensure (n.2 = 1) (.assertion .getExpired)
    eraseActive { q with activeTimers := n.1 } expired

def getExpired (q : TimerQueue) (now : Timestamp) : Except Fault (List Entry × TimerQueue) := do
  ensure (q.timers.size = q.activeTimers.size) (.assertion .getExpired)
  let lower_it := (q.timers.fromLowerBound (entry now UINTPTR_MAX)).first?
  let first ← firstOf endFirst lower_it
  ensure (lower_it = none ∨ now < first) (.assertion .getExpired)
  let expired := q.timers.below (entry now UINTPTR_MAX)
  let q ← eraseActive { q with timers := q.timers.fromLowerBound (entry now UINTPTR_MAX) } expired
  ensure (q.timers.size = q.activeTimers.size) (.assertion .getExpired)
  .ok (expired, q)

/-- A timer of the batch goes back into the queue. -/
def Rearmed (q : TimerQueue) (timer : Addr) (t : Timer) : Prop :=
  t.repeats = true ∧ active timer t.sequence ∉ q.cancelTimers

instance (q : TimerQueue) (timer : Addr) (t : Timer) : Decidable (q.Rearmed timer t) :=
  inferInstanceAs (Decidable (_ ∧ _))

/-- The loop of `reset` over the batch. -/
def restartOrDelete (q : TimerQueue) (now : Timestamp) : List Entry → Except Fault TimerQueue
  | [] => .ok q
  | it :: expired => do
    let t ← q.deref it.timer
    if q.Rearmed it.timer t then do
      let (_, q) ← insert endFirst (q.store it.timer (some (t.restart now))) it.timer
      restartOrDelete q now expired
    else restartOrDelete (q.store it.timer none) now expired

/-- The expiration `reset` arms the descriptor for, invalid for an empty queue. -/
def nextExpired (q : TimerQueue) : Timestamp :=
  match q.timers.first? with
  | none => Timestamp.invalid
  | some e => e.when

def rearm (q : TimerQueue) : TimerQueue :=
  if q.nextExpired.valid = true then
    { q with timerfd := resetTimerfd q.timerfd q.clock q.nextExpired } else q

def reset (q : TimerQueue) (expired : List Entry) (now : Timestamp) :
    Except Fault TimerQueue := do
  let q ← restartOrDelete endFirst q now expired
  .ok q.rearm

/-- `handleRead` up to its loop over the callbacks. -/
def handleReadBegin (q : TimerQueue) : Except Fault (List Entry × TimerQueue) := do
  let now := q.clock
  let (expired, q) ← getExpired endFirst { q with timerfd := q.timerfd.read q.clock } now
  .ok (expired, { q with doingExpiredTimers := true, cancelTimers := ∅ })

/-- `handleRead` from the end of its loop on. -/
def handleReadEnd (q : TimerQueue) (expired : List Entry) (now : Timestamp) :
    Except Fault TimerQueue :=
  reset endFirst { q with doingExpiredTimers := false } expired now

end Operations

/-! ## Consistency -/

/-- The timer is in the queue. -/
def Holds (q : TimerQueue) (timer : Addr) : Prop := ∃ e ∈ q.timers, e.timer = timer

/-- Both sets hold the same live timers, each under its own expiration and sequence number. -/
structure Consistent (q : TimerQueue) : Prop where
  sizes : q.timers.size = q.activeTimers.size
  listed : ∀ e ∈ q.timers, ∃ t, q.heap e.timer = some t ∧ t.expiration = e.when ∧
    active e.timer t.sequence ∈ q.activeTimers
  activated : ∀ x ∈ q.activeTimers, ∃ t, q.heap x.timer = some t ∧ t.sequence = x.sequence ∧
    entry t.expiration x.timer ∈ q.timers
  address : ∀ a t, q.heap a = some t → a < UINTPTR_MAX

variable {q : TimerQueue} {a : Addr} {t : Timer} {g : Timestamp}

theorem deref_of (h : q.heap a = some t) : q.deref a = .ok t := by
  rw [deref, h]

@[simp] theorem store_heap_self (q : TimerQueue) (a : Addr) (t : Option Timer) :
    (q.store a t).heap a = t := Function.update_self ..

theorem store_heap_ne {b : Addr} (h : b ≠ a) (t : Option Timer) :
    (q.store a t).heap b = q.heap b := Function.update_of_ne h ..

namespace Consistent

variable (h : q.Consistent)

include h

theorem holds_of_active {x : Active} (hx : x ∈ q.activeTimers) : q.Holds x.timer := by
  obtain ⟨u, -, -, he⟩ := h.activated x hx
  exact ⟨_, he, rfl⟩

/-- An address names one entry at most. -/
theorem eq_of_mem {e : Entry} (he : e ∈ q.timers) (ha : q.heap e.timer = some t) :
    e = entry t.expiration e.timer := by
  obtain ⟨u, hu, hexp, -⟩ := h.listed e he
  rw [ha, Option.some_inj] at hu
  rw [hu, hexp, entry_eta]

/-- An address carries one sequence number at most. -/
theorem active_eq {x : Active} (hx : x ∈ q.activeTimers) (ha : q.heap x.timer = some t) :
    x = active x.timer t.sequence := by
  obtain ⟨u, hu, hseq, -⟩ := h.activated x hx
  rw [ha, Option.some_inj] at hu
  rw [hu, hseq, active_eta]

/-- A timer that is not in the queue can be changed or deleted. -/
theorem store_loose (hl : ¬ q.Holds a) {t : Option Timer} (ht : t ≠ none → a < UINTPTR_MAX) :
    (q.store a t).Consistent where
  sizes := h.sizes
  listed e he := by
    have hne : e.timer ≠ a := fun heq => hl ⟨e, he, heq⟩
    rw [store_heap_ne hne]
    exact h.listed e he
  activated x hx := by
    have hne : x.timer ≠ a := fun heq => hl (heq ▸ h.holds_of_active hx)
    rw [store_heap_ne hne]
    exact h.activated x hx
  address b u hb := by
    by_cases hba : b = a
    · subst hba
      rw [store_heap_self] at hb
      exact ht (by rw [hb]; exact Option.some_ne_none u)
    · rw [store_heap_ne hba] at hb
      exact h.address b u hb

end Consistent

/-! ## Insertion -/

/-- The queue with the timer in both sets. -/
def put (q : TimerQueue) (a : Addr) (t : Timer) : TimerQueue :=
  { q with
    timers := (q.timers.insert (entry t.expiration a)).1
    activeTimers := (q.activeTimers.insert (active a t.sequence)).1 }

@[simp] theorem put_heap (q : TimerQueue) (a : Addr) (t : Timer) : (q.put a t).heap = q.heap := rfl

@[simp] theorem mem_put_timers {e : Entry} :
    e ∈ (q.put a t).timers ↔ e = entry t.expiration a ∨ e ∈ q.timers := OrderedSet.mem_insert

@[simp] theorem mem_put_active {x : Active} :
    x ∈ (q.put a t).activeTimers ↔ x = active a t.sequence ∨ x ∈ q.activeTimers :=
  OrderedSet.mem_insert

theorem holds_put {b : Addr} : (q.put a t).Holds b ↔ b = a ∨ q.Holds b := by
  constructor
  · intro h
    obtain ⟨e, he, rfl⟩ := h
    rcases mem_put_timers.mp he with rfl | he
    · exact .inl rfl
    · exact .inr ⟨e, he, rfl⟩
  · intro h
    rcases h with rfl | ⟨e, he, rfl⟩
    · exact ⟨_, mem_put_timers.mpr (.inl rfl), rfl⟩
    · exact ⟨e, mem_put_timers.mpr (.inr he), rfl⟩

theorem entry_notMem (hl : ¬ q.Holds a) (w : Timestamp) : entry w a ∉ q.timers :=
  fun he => hl ⟨_, he, rfl⟩

theorem Consistent.active_notMem (h : q.Consistent) (hl : ¬ q.Holds a) (n : Nat) :
    active a n ∉ q.activeTimers := fun hx => hl (h.holds_of_active hx)

theorem Consistent.put (h : q.Consistent) (ha : q.heap a = some t) (hl : ¬ q.Holds a) :
    (q.put a t).Consistent where
  sizes := by
    show (q.timers.insert _).1.size = (q.activeTimers.insert _).1.size
    rw [OrderedSet.size_insert (entry_notMem hl _),
      OrderedSet.size_insert (h.active_notMem hl _), h.sizes]
  listed e he := by
    rcases mem_put_timers.mp he with rfl | he
    · exact ⟨t, ha, rfl, mem_put_active.mpr (.inl rfl)⟩
    · obtain ⟨u, hu, hexp, hx⟩ := h.listed e he
      exact ⟨u, hu, hexp, mem_put_active.mpr (.inr hx)⟩
  activated x hx := by
    rcases mem_put_active.mp hx with rfl | hx
    · exact ⟨t, ha, rfl, mem_put_timers.mpr (.inl rfl)⟩
    · obtain ⟨u, hu, hseq, he⟩ := h.activated x hx
      exact ⟨u, hu, hseq, mem_put_timers.mpr (.inr he)⟩
  address := h.address

/-- The timer expires before every timer in the queue. -/
def Earliest (q : TimerQueue) (when : Timestamp) : Prop := ∀ e ∈ q.timers, when < e.when

theorem le_when_of_le {d e : Entry} (h : d ≤ e) : d.when ≤ e.when := by
  rcases Prod.Lex.le_iff.mp h with h | h
  · exact le_of_lt h
  · exact le_of_eq h.1

theorem earliest_iff_first {w : Timestamp} :
    q.Earliest w ↔ ∀ e, q.timers.first? = some e → w < e.when := by
  constructor
  · exact fun h e he => h e (OrderedSet.first?_mem he)
  · intro h e he
    cases hf : q.timers.first? with
    | none => exact absurd (OrderedSet.first?_eq_none.mp hf ▸ he) (OrderedSet.notMem_empty e)
    | some d => exact lt_of_lt_of_le (h d hf) (le_when_of_le (OrderedSet.first?_le hf he))

/-- `insert` on a timer that is not in the queue. -/
theorem insert_spec (h : q.Consistent) (ha : q.heap a = some t) (hl : ¬ q.Holds a) :
    ∃ changed, insert (.ok g) q a = .ok (changed, q.put a t) ∧
      (changed = true ↔ q.Earliest t.expiration) := by
  have hfirst : ∃ first, firstOf (.ok g) q.timers.first? = .ok first ∧
      ((q.timers.first? = none ∨ t.expiration < first) ↔ q.Earliest t.expiration) := by
    rw [earliest_iff_first]
    cases hf : q.timers.first? with
    | none => exact ⟨g, rfl, by simp⟩
    | some e => exact ⟨e.when, rfl, by simp⟩
  obtain ⟨first, hfirst, hiff⟩ := hfirst
  refine ⟨decide (q.timers.first? = none ∨ t.expiration < first), ?_, ?_⟩
  · have hp : (q.activeTimers.insert (active a t.sequence)).1.size =
        (q.timers.insert (entry t.expiration a)).1.size := (h.put ha hl).sizes.symm
    rw [insert, ensure_of h.sizes, ok_bind, deref_of ha, ok_bind]
    dsimp only
    rw [hfirst, ok_bind, ensure_of (OrderedSet.insert_new (entry_notMem hl _)), ok_bind,
      ensure_of (OrderedSet.insert_new (h.active_notMem hl _)), ok_bind, ensure_of hp]
    rfl
  · rw [decide_eq_true_eq, hiff]

/-- `addTimerInLoop` on a timer that is not in the queue. -/
theorem addTimerInLoop_spec (h : q.Consistent) (ha : q.heap a = some t) (hl : ¬ q.Holds a) :
    (q.Earliest t.expiration ∧ addTimerInLoop (.ok g) q a =
        .ok { q.put a t with timerfd := resetTimerfd q.timerfd q.clock t.expiration }) ∨
      (¬ q.Earliest t.expiration ∧ addTimerInLoop (.ok g) q a = .ok (q.put a t)) := by
  obtain ⟨changed, hins, hiff⟩ := insert_spec (g := g) h ha hl
  rw [addTimerInLoop, hins, ok_bind]
  dsimp only
  rw [deref_of (q := q.put a t) ha, ok_bind]
  by_cases he : q.Earliest t.expiration
  · exact .inl ⟨he, by rw [if_pos (hiff.mpr he)]; rfl⟩
  · exact .inr ⟨he, by rw [if_neg (mt hiff.mp he)]⟩

/-! ## Cancellation -/

/-- The queue without an active timer, which is deleted. -/
def remove (q : TimerQueue) (x : TimerId) (t : Timer) : TimerQueue :=
  { q.store x.timer none with
    timers := (q.timers.erase (entry t.expiration x.timer)).1
    activeTimers := (q.activeTimers.erase x).1 }

theorem remove_heap_self (q : TimerQueue) (x : TimerId) (t : Timer) :
    (q.remove x t).heap x.timer = none := store_heap_self q x.timer none

theorem remove_heap_ne {x : TimerId} (h : a ≠ x.timer) (t : Timer) :
    (q.remove x t).heap a = q.heap a := store_heap_ne h none

theorem mem_remove_active {x y : TimerId} :
    y ∈ (q.remove x t).activeTimers ↔ y ≠ x ∧ y ∈ q.activeTimers := OrderedSet.mem_erase

theorem mem_remove_timers_erase {x : TimerId} {e : Entry} :
    e ∈ (q.remove x t).timers ↔ e ≠ entry t.expiration x.timer ∧ e ∈ q.timers :=
  OrderedSet.mem_erase

/-- Exactly the entry of the removed timer leaves the queue. -/
theorem Consistent.mem_remove_timers (h : q.Consistent) {x : TimerId}
    (hx : q.heap x.timer = some t) {e : Entry} :
    e ∈ (q.remove x t).timers ↔ e ∈ q.timers ∧ e.timer ≠ x.timer := by
  rw [mem_remove_timers_erase]
  constructor
  · intro h
    obtain ⟨hne, he⟩ := h
    refine ⟨he, fun heq => hne ?_⟩
    rw [h.eq_of_mem he (by rw [heq]; exact hx), heq]
  · intro h
    obtain ⟨he, hne⟩ := h
    exact ⟨fun heq => hne (by rw [heq, entry_timer]), he⟩

theorem Consistent.remove (h : q.Consistent) {x : TimerId} (hx : x ∈ q.activeTimers)
    (ht : q.heap x.timer = some t) (he : entry t.expiration x.timer ∈ q.timers) :
    (q.remove x t).Consistent where
  sizes := by
    have h1 := OrderedSet.size_erase hx
    have h2 := OrderedSet.size_erase he
    have h3 := h.sizes
    show (q.timers.erase _).1.size = (q.activeTimers.erase _).1.size
    omega
  listed e hmem := by
    obtain ⟨he, hne⟩ := (h.mem_remove_timers ht).mp hmem
    obtain ⟨u, hu, hexp, hact⟩ := h.listed e he
    refine ⟨u, by rw [remove_heap_ne hne, hu], hexp, mem_remove_active.mpr ⟨?_, hact⟩⟩
    intro heq
    exact hne (by rw [← heq, active_timer])
  activated y hmem := by
    obtain ⟨hne, hy⟩ := mem_remove_active.mp hmem
    obtain ⟨u, hu, hseq, hent⟩ := h.activated y hy
    have hadd : y.timer ≠ x.timer := by
      intro heq
      have h1 := h.active_eq hy hu
      have h2 := h.active_eq hx (heq ▸ hu)
      exact hne (by rw [h1, h2, heq])
    exact ⟨u, by rw [remove_heap_ne hadd, hu], hseq,
      (h.mem_remove_timers ht).mpr ⟨hent, by rwa [entry_timer]⟩⟩
  address b u hb := by
    by_cases hbx : b = x.timer
    · rw [hbx, remove_heap_self] at hb
      cases hb
    · rw [remove_heap_ne hbx] at hb
      exact h.address b u hb

/-- `cancelInLoop` on an active timer. -/
theorem cancelInLoop_spec (h : q.Consistent) {x : TimerId} (hx : x ∈ q.activeTimers) :
    ∃ t, q.heap x.timer = some t ∧ t.sequence = x.sequence ∧
      cancelInLoop q x = .ok (q.remove x t) ∧ (q.remove x t).Consistent := by
  obtain ⟨t, ht, hseq, he⟩ := h.activated x hx
  have hrem := h.remove hx ht he
  refine ⟨t, ht, hseq, ?_, hrem⟩
  rw [cancelInLoop, ensure_of h.sizes, ok_bind]
  dsimp only
  rw [if_pos hx, element, ok_bind, deref_of ht, ok_bind,
    if_pos (Option.some_ne_none x), ensure_of (OrderedSet.erase_count he), ok_bind]
  show (ensure ((q.remove x t).timers.size = (q.remove x t).activeTimers.size) _ >>=
    fun _ => Except.ok (q.remove x t)) = _
  rw [ensure_of hrem.sizes, ok_bind]

/-- `cancelInLoop` on any other timer reads the element at the end iterator. -/
theorem cancelInLoop_inactive (h : q.Consistent) {x : TimerId} (hx : x ∉ q.activeTimers) :
    cancelInLoop q x = .error .endIterator := by
  rw [cancelInLoop, ensure_of h.sizes, ok_bind]
  dsimp only
  rw [if_neg hx]
  rfl

end TimerQueue

end Summer.Net
