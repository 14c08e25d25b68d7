import Summer.Lib.MachineInt
import Summer.Lib.Monitor

/-!
# The count-down latch

A latch is a monitor over an `int`. `wait` tests the count again whenever it wakes, and
`countDown` broadcasts when it has made the count 0, not when it finds it below.
-/
namespace Summer.Base

open Summer.Lib

/-- The `int` member `count_`. -/
abbrev Count := { x : Int // -2 ^ 31 ≤ x ∧ x < 2 ^ 31 }

inductive LatchOperation where
  | countDown
  | getCount
  deriving DecidableEq

namespace CountDownLatch

/-- `wait` returns when the count is not above 0. -/
def latch : MonitorSpec Count LatchOperation where
  awaited count := decide (¬ count.1 > 0)
  change
    | .countDown, count => ⟨int32 (count.1 - 1), int32_bounds _⟩
    | .getCount, count => count
  broadcasts
    | .countDown, count => decide (count.1 = 0)
    | .getCount, _ => false

variable {T : Type} [DecidableEq T]

def step (s : Monitor T Count LatchOperation) (a : Monitor.Action T LatchOperation) :
    Except Monitor.Error (Monitor T Count LatchOperation) := Monitor.step latch s a

/-- `CountDownLatch(count)`. -/
def init (count : Count) : Monitor T Count LatchOperation := { value := count }

/-- How often `countDown` has decremented the count. -/
def countDowns (log : List (MonitorEvent T Count LatchOperation)) : Nat :=
  log.countP fun
    | .applied _ .countDown _ => true
    | _ => false

/-- The count falls to 0 and nowhere below from above. -/
theorem signals : Monitor.Signals latch := by
  intro o count hbefore hafter
  have hpos : count.1 > 0 := by simpa [latch] using hbefore
  have hlt := count.2.2
  cases o with
  | countDown =>
    have hcast : int32 (count.1 - 1) = count.1 - 1 := int32_cast (by omega) (by omega)
    simp only [latch, decide_eq_true_eq] at hafter ⊢
    rw [hcast] at hafter ⊢
    omega
  | getCount =>
    rw [show latch.change .getCount count = count from rfl, hbefore] at hafter
    cases hafter

/-! ## The count is what was counted -/

/-- The count before a part of the log, and what that part says of it: a wait is passed only when
at least the initial count was counted, and an operation leaves what is not counted yet. -/
structure Counted (n : Int) (earlier : List (MonitorEvent T Count LatchOperation))
    (e : MonitorEvent T Count LatchOperation) : Prop where
  passed : ∀ t, e = .passed t → n ≤ countDowns earlier
  applied : ∀ t o v, e = .applied t o v →
    v.1 = int32 (n - countDowns (earlier ++ [e]))

/-- Every event of the log is as what was counted before it says. -/
def AllCounted (n : Int) (log : List (MonitorEvent T Count LatchOperation)) : Prop :=
  ∀ earlier e later, log = earlier ++ e :: later → Counted n earlier e

omit [DecidableEq T] in
theorem AllCounted.concat {n : Int} {log : List (MonitorEvent T Count LatchOperation)}
    (h : AllCounted n log) {e : MonitorEvent T Count LatchOperation} (he : Counted n log e) :
    AllCounted n (log ++ [e]) := by
  intro earlier d later heq
  rcases List.eq_nil_or_concat later with rfl | ⟨later, x, rfl⟩
  · obtain ⟨rfl, hx⟩ := List.append_inj' heq rfl
    rw [← List.cons.inj hx |>.1]
    exact he
  · rw [List.concat_eq_append, ← List.cons_append, ← List.append_assoc] at heq
    obtain ⟨rfl, -⟩ := List.append_inj' heq rfl
    exact h earlier d later rfl

structure Counting (n : Count) (s : Monitor T Count LatchOperation) : Prop where
  value : s.value.1 = int32 (n.1 - countDowns s.log)
  log : AllCounted n.1 s.log

omit [DecidableEq T] in
theorem counting_init (n : Count) : Counting n (init n : Monitor T Count LatchOperation) := by
  refine ⟨?_, fun earlier e later h => by simp [init] at h⟩
  have hn := n.2
  simp only [init, countDowns, List.countP_nil, Int.natCast_zero, Int.sub_zero]
  exact (int32_cast hn.1 hn.2).symm

theorem int32_sub_one (x : Int) : int32 (int32 x - 1) = int32 (x - 1) := by
  unfold int32
  rw [Int.bmod_def, Int.bmod_def, Int.bmod_def]
  omega

variable {n : Count} {s s' : Monitor T Count LatchOperation}

omit [DecidableEq T] in
/-- Before the initial count was counted, the count has not wrapped. -/
theorem Counting.pos (h : Counting n s) (hlt : (countDowns s.log : Int) < n.1) :
    s.value.1 > 0 := by
  have hn := n.2
  rw [h.value, int32_cast (by omega) (by omega)]
  omega

theorem Counting.step (h : Counting n s) {a : Monitor.Action T LatchOperation}
    (hstep : step s a = .ok s') : Counting n s' := by
  have quiet (hvalue : s'.value = s.value) (hlog : s'.log = s.log) : Counting n s' :=
    ⟨by rw [hvalue, hlog]; exact h.value, by rw [hlog]; exact h.log⟩
  cases Monitor.step_ok_iff.mp hstep with
  | pass t at_ awaited =>
    refine ⟨?_, h.log.concat ⟨fun _ _ => ?_, fun _ _ _ he => (by cases he)⟩⟩
    · simpa [Monitor.setThread, countDowns] using h.value
    · by_contra hlt
      have hpos := h.pos (by omega)
      simp [latch] at awaited
      omega
  | change t o at_ =>
    have hvalue : (latch.change o s.value).1 =
        int32 (n.1 - countDowns (s.log ++ [.applied t o (latch.change o s.value)])) := by
      cases o with
      | countDown =>
        simp only [latch, h.value, countDowns, List.countP_append, List.countP_singleton,
          ↓reduceIte]
        rw [int32_sub_one]
        congr 1
        omega
      | getCount => simpa [latch, countDowns] using h.value
    refine ⟨hvalue, h.log.concat ⟨fun _ he => (by cases he), fun _ _ _ he => ?_⟩⟩
    obtain ⟨-, -, rfl⟩ := MonitorEvent.applied.inj he
    exact hvalue
  | _ => exact quiet rfl rfl

/-- In every run of any threads, with sleepers that wake on their own: a wait is passed only after
as many decrements as the initial count, and `getCount` and `countDown` see the count that is left.
The holder of the mutex can always let go of it. And once the initial count was counted, until the
`int` wraps, no thread sleeps while the mutex is free, and every waiting one can return. -/
theorem latch_opens_when_counted {as : List (Monitor.Action T LatchOperation)}
    (hrun : run step (init n) as = .ok s) :
    AllCounted n.1 s.log ∧
    (∀ u, s.owner = some u → ∃ own s', (∀ a ∈ own, a = .act u ∨ a = .broadcast u ∨ a = .unlock u) ∧
      run step s own = .ok s' ∧ s'.owner = none) ∧
    (s.owner = none → n.1 ≤ countDowns s.log → countDowns s.log ≤ n.1 + 2 ^ 31 →
      ∀ t, s.threads t ≠ .asleep ∧ (s.threads t = .entering .wait →
        ∃ s', run step s [.lock t, .act t, .unlock t] = .ok s' ∧ s'.threads t = .outside)) := by
  have hsound : Monitor.Sound latch s := Monitor.sound_run signals hrun
  have hcounting : Counting n s :=
    run_preserves (fun _ _ _ h hstep => h.step hstep) (counting_init n) hrun
  refine ⟨hcounting.log, fun u hu => hsound.owner_leaves hu, fun hfree hle hge t => ?_⟩
  have hv : latch.awaited s.value = true := by
    have hn := n.2
    have hvalue := hcounting.value
    rw [int32_cast (by omega) (by omega)] at hvalue
    simp only [latch, decide_eq_true_eq]
    omega
  refine ⟨hsound.awake hv hfree t, fun ht => ?_⟩
  exact ⟨_, Monitor.wait_returns hfree hv ht, Monitor.setThread_self _⟩

/-- Thread 1 falls asleep, thread 2 counts down and broadcasts, and thread 1 can return. -/
theorem latch_opens_when_counted_sample :
    ∃ s, run step (init ⟨1, by decide⟩ : Monitor Nat Count LatchOperation)
        [.call 1 .wait, .lock 1, .act 1, .call 2 (.operation .countDown), .lock 2, .act 2,
          .broadcast 2, .unlock 2] = .ok s ∧
      AllCounted 1 s.log ∧ s.threads 1 = .entering .wait ∧
      ∃ s', run step s [.lock 1, .act 1, .unlock 1] = .ok s' ∧ s'.threads 1 = .outside := by
  have hend : endsIn step (fun s => decide (s.owner = none ∧ countDowns s.log = 1 ∧
        s.threads 1 = .entering .wait))
      (init ⟨1, by decide⟩ : Monitor Nat Count LatchOperation)
      [.call 1 .wait, .lock 1, .act 1, .call 2 (.operation .countDown), .lock 2, .act 2,
        .broadcast 2, .unlock 2] = true := by decide +kernel
  obtain ⟨s, hrun, hs⟩ := endsIn_iff.mp hend
  obtain ⟨hfree, hcount, ht⟩ := of_decide_eq_true hs
  obtain ⟨hlog, -, hopen⟩ := latch_opens_when_counted hrun
  obtain ⟨-, hreturns⟩ := hopen hfree (by rw [hcount]; decide) (by rw [hcount]; decide) 1
  exact ⟨s, hrun, hlog, ht, hreturns ht⟩

end CountDownLatch

end Summer.Base
