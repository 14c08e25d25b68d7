import Summer.Basic
import Summer.Lib.MachineInt
import Mathlib.Data.Prod.Lex

/-!
# Timers and the timer descriptor

A `Timestamp` counts microseconds in an `int64_t`. The wall clock, which dates the
timers, and the monotonic clock of the descriptor advance together, so the model has one
clock. The clock does not move between the reading of it and the call that uses it.
-/
namespace Summer.Net

open Summer.Lib

/-- Microseconds since the epoch, as the `int64_t` member keeps them. -/
@[ext] structure Timestamp where
  microSecondSinceEpoch : Int
  isInt64 : -2 ^ 63 ≤ microSecondSinceEpoch ∧ microSecondSinceEpoch < 2 ^ 63
  deriving DecidableEq

namespace Timestamp

instance : LE Timestamp := ⟨fun lt rt => lt.microSecondSinceEpoch ≤ rt.microSecondSinceEpoch⟩

instance : LT Timestamp := ⟨fun lt rt => lt.microSecondSinceEpoch < rt.microSecondSinceEpoch⟩

instance : DecidableLE Timestamp := fun lt rt =>
  inferInstanceAs (Decidable (lt.microSecondSinceEpoch ≤ rt.microSecondSinceEpoch))

instance : DecidableLT Timestamp := fun lt rt =>
  inferInstanceAs (Decidable (lt.microSecondSinceEpoch < rt.microSecondSinceEpoch))

instance : LinearOrder Timestamp where
  le_refl t := Int.le_refl t.microSecondSinceEpoch
  le_trans _ _ _ h k := Int.le_trans h k
  le_antisymm _ _ h k := Timestamp.ext (Int.le_antisymm h k)
  le_total lt rt := Int.le_total lt.microSecondSinceEpoch rt.microSecondSinceEpoch
  lt_iff_le_not_ge _ _ := Int.lt_iff_le_and_not_ge
  toDecidableLE := inferInstance

def kMicroSecondPerSecond : Int := 1000 * 1000

def ofInt64 (x : Int) : Timestamp := ⟨int64 x, int64_bounds x⟩

def invalid : Timestamp := ofInt64 0

def valid (t : Timestamp) : Bool := decide (t.1 > 0)

/-- `addTime`, with the seconds already converted to whole microseconds. -/
def addTime (t : Timestamp) (delay : Int) : Timestamp := ofInt64 (t.1 + delay)

end Timestamp

/-- The address of a `Timer`. -/
abbrev Addr := Nat

/-- No object lies at this address. -/
def UINTPTR_MAX : Addr := 2 ^ 64 - 1

/-- `repeats` is `repeat_`, and `interval` is `interval_` converted to microseconds. -/
structure Timer where
  expiration : Timestamp
  repeats : Bool
  interval : Int
  sequence : Nat
  deriving DecidableEq

def Timer.restart (t : Timer) (now : Timestamp) : Timer :=
  if t.repeats = true then { t with expiration := now.addTime t.interval }
  else { t with expiration := Timestamp.invalid }

@[simp] theorem Timer.restart_sequence (t : Timer) (now : Timestamp) :
    (t.restart now).sequence = t.sequence := by
  rw [restart]
  split <;> rfl

theorem Timer.restart_expiration {t : Timer} (h : t.repeats = true) (now : Timestamp) :
    (t.restart now).expiration = now.addTime t.interval := by
  rw [restart, if_pos h]

@[simp] theorem Timer.restart_repeats (t : Timer) (now : Timestamp) :
    (t.restart now).repeats = t.repeats := by
  rw [restart]
  split <;> rfl

@[simp] theorem Timer.restart_interval (t : Timer) (now : Timestamp) :
    (t.restart now).interval = t.interval := by
  rw [restart]
  split <;> rfl

/-! ## The timer descriptor -/

/-- `struct timespec`. -/
structure Timespec where
  tv_sec : Int
  tv_nsec : Int
  deriving DecidableEq, Repr

namespace Timespec

/-- The fields are in the range the kernel asks for. -/
def InRange (v : Timespec) : Prop := 0 ≤ v.tv_sec ∧ 0 ≤ v.tv_nsec ∧ v.tv_nsec < 10 ^ 9

def IsZero (v : Timespec) : Prop := v.tv_sec = 0 ∧ v.tv_nsec = 0

instance (v : Timespec) : Decidable v.InRange := inferInstanceAs (Decidable (_ ∧ _ ∧ _))

instance (v : Timespec) : Decidable v.IsZero := inferInstanceAs (Decidable (_ ∧ _))

end Timespec

/-- A value given to `timerfd_settime`, and the clock at the call. -/
structure Setting where
  it_value : Timespec
  setAt : Timestamp
  deriving DecidableEq

/-- When the setting expires, in nanoseconds. -/
def Setting.due (v : Setting) : Int :=
  v.setAt.1 * 1000 + v.it_value.tv_sec * 10 ^ 9 + v.it_value.tv_nsec

/-- The setting the descriptor is armed with. It expires when it is due; until the expiration
is read the descriptor is readable, and the read leaves it disarmed. -/
abbrev Timerfd := Option Setting

namespace Timerfd

/-- `timerfd_settime` with a relative value: a field out of range changes nothing, and a zero
value disarms. -/
def settime (fd : Timerfd) (clock : Timestamp) (v : Timespec) : Timerfd :=
  if v.InRange then (if v.IsZero then none else some ⟨v, clock⟩) else fd

/-- `readTimerfd`: an expired setting is consumed, and otherwise there is nothing to read. -/
def read (fd : Timerfd) (clock : Timestamp) : Timerfd :=
  match fd with
  | none => none
  | some v => if v.due ≤ clock.1 * 1000 then none else some v

end Timerfd

def howLongToExpiration (clock when : Timestamp) : Timespec :=
  let microSeconds := int64 (when.1 - clock.1)
  ⟨microSeconds.tdiv Timestamp.kMicroSecondPerSecond,
    microSeconds.tmod Timestamp.kMicroSecondPerSecond * 1000⟩

def resetTimerfd (fd : Timerfd) (clock when : Timestamp) : Timerfd :=
  fd.settime clock (howLongToExpiration clock when)

/-- A time to come arms the descriptor for exactly that time. -/
theorem resetTimerfd_future {clock when : Timestamp} (hc : 0 ≤ clock.1) (h : clock < when)
    (fd : Timerfd) :
    ∃ v : Setting, resetTimerfd fd clock when = some v ∧ v.it_value.InRange ∧
      ¬ v.it_value.IsZero ∧ v.due = when.1 * 1000 := by
  have hlt : clock.1 < when.1 := h
  have hmicro : int64 (when.1 - clock.1) = when.1 - clock.1 :=
    int64_cast (by omega) (by have := when.2.2; omega)
  have hdiv := Int.tdiv_eq_ediv_of_nonneg (b := Timestamp.kMicroSecondPerSecond)
    (show 0 ≤ when.1 - clock.1 by omega)
  have hmod := Int.tmod_eq_emod_of_nonneg (b := Timestamp.kMicroSecondPerSecond)
    (show 0 ≤ when.1 - clock.1 by omega)
  have hv : howLongToExpiration clock when =
      ⟨(when.1 - clock.1) / 1000000, (when.1 - clock.1) % 1000000 * 1000⟩ := by
    simp only [howLongToExpiration, hmicro, hdiv, hmod]
    rfl
  have hrange : (howLongToExpiration clock when).InRange := by
    rw [hv, Timespec.InRange]
    dsimp only
    omega
  have hzero : ¬ (howLongToExpiration clock when).IsZero := by
    rw [hv, Timespec.IsZero]
    dsimp only
    omega
  refine ⟨⟨howLongToExpiration clock when, clock⟩, ?_, hrange, hzero, ?_⟩
  · rw [resetTimerfd, Timerfd.settime, if_pos hrange, if_neg hzero]
  · rw [Setting.due, hv]
    dsimp only
    omega

end Summer.Net
