import Mathlib.Logic.Function.Basic
import Mathlib.Tactic.TypeStar
import Summer.Lib.Run

/-!
# A monitor with one condition variable

Threads take a mutex, and under it they change a shared value, or wait until the value is as they
want it. A thread that finds it otherwise goes to sleep and lets go of the mutex in one step. A
broadcast wakes every sleeper, a sleeper may also wake on its own, and a woken thread takes the
mutex and tests again. If every operation that makes the value as wanted broadcasts, then no
thread sleeps while it is so.
-/
namespace Summer.Lib

/-- What is waited for, what an operation makes of the value, and whether it then broadcasts. -/
structure MonitorSpec (V O : Type*) where
  awaited : V → Bool
  change : O → V → V
  broadcasts : O → V → Bool

inductive MonitorCall (O : Type*) where
  | wait
  | operation (o : O)
  deriving DecidableEq

/-- Where a thread is. -/
inductive MonitorAt (O : Type*) where
  | outside
  /-- At the mutex. -/
  | entering (call : MonitorCall O)
  /-- Holds the mutex. -/
  | inside (call : MonitorCall O)
  /-- Holds the mutex and is about to broadcast. -/
  | notifying
  /-- Holds the mutex and is about to let go of it. -/
  | leaving
  /-- In the wait set of the condition variable. -/
  | asleep
  deriving DecidableEq

/-- The thread is between taking the mutex and letting go of it. -/
def MonitorAt.Holds {O : Type*} : MonitorAt O → Prop
  | .inside _ | .notifying | .leaving => True
  | .outside | .entering _ | .asleep => False

inductive MonitorEvent (T V O : Type*) where
  /-- The thread has made the value this. -/
  | applied (t : T) (o : O) (v : V)
  /-- The thread has found the value as it wants it. -/
  | passed (t : T)
  deriving DecidableEq

structure Monitor (T V O : Type*) where
  value : V
  owner : Option T := none
  threads : T → MonitorAt O := fun _ => .outside
  log : List (MonitorEvent T V O) := []

namespace Monitor

inductive Error where
  | notEnabled
  deriving DecidableEq

inductive Action (T O : Type*) where
  | call (t : T) (c : MonitorCall O)
  | lock (t : T)
  /-- The thread that holds the mutex tests the value, or changes it. -/
  | act (t : T)
  | broadcast (t : T)
  | unlock (t : T)
  /-- A sleeper wakes on its own. -/
  | wakeUp (t : T)
  deriving DecidableEq

variable {T V O : Type*} [DecidableEq T]

def setThread (s : Monitor T V O) (t : T) (a : MonitorAt O) : Monitor T V O :=
  { s with threads := Function.update s.threads t a }

/-- Every sleeper goes to the mutex. -/
def wakeAll (threads : T → MonitorAt O) (t : T) : MonitorAt O :=
  match threads t with
  | .asleep => .entering .wait
  | a => a

def step (m : MonitorSpec V O) (s : Monitor T V O) : Action T O → Except Error (Monitor T V O)
  | .call t c =>
    match s.threads t with
    | .outside => .ok (s.setThread t (.entering c))
    | _ => .error .notEnabled
  | .lock t =>
    match s.threads t, s.owner with
    | .entering c, none => .ok { s.setThread t (.inside c) with owner := some t }
    | _, _ => .error .notEnabled
  | .act t =>
    match s.threads t with
    | .inside .wait =>
      if m.awaited s.value = true then
        .ok { s.setThread t .leaving with log := s.log ++ [.passed t] }
      else .ok { s.setThread t .asleep with owner := none }
    | .inside (.operation o) =>
      let value := m.change o s.value
      let next := if m.broadcasts o value = true then .notifying else .leaving
      .ok { s.setThread t next with value := value, log := s.log ++ [.applied t o value] }
    | _ => .error .notEnabled
  | .broadcast t =>
    match s.threads t with
    | .notifying => .ok { s with threads := Function.update (wakeAll s.threads) t .leaving }
    | _ => .error .notEnabled
  | .unlock t =>
    match s.threads t with
    | .leaving => .ok { s.setThread t .outside with owner := none }
    | _ => .error .notEnabled
  | .wakeUp t =>
    match s.threads t with
    | .asleep => .ok (s.setThread t (.entering .wait))
    | _ => .error .notEnabled

inductive Moves (m : MonitorSpec V O) (s : Monitor T V O) : Action T O → Monitor T V O → Prop where
  | call (t c) (at_ : s.threads t = .outside) : Moves m s (.call t c) (s.setThread t (.entering c))
  | lock (t c) (at_ : s.threads t = .entering c) (free : s.owner = none) :
      Moves m s (.lock t) { s.setThread t (.inside c) with owner := some t }
  | pass (t) (at_ : s.threads t = .inside .wait) (awaited : m.awaited s.value = true) :
      Moves m s (.act t) { s.setThread t .leaving with log := s.log ++ [.passed t] }
  | sleep (t) (at_ : s.threads t = .inside .wait) (awaited : m.awaited s.value = false) :
      Moves m s (.act t) { s.setThread t .asleep with owner := none }
  | change (t o) (at_ : s.threads t = .inside (.operation o)) : Moves m s (.act t)
      { s.setThread t
          (if m.broadcasts o (m.change o s.value) = true then .notifying else .leaving) with
        value := m.change o s.value, log := s.log ++ [.applied t o (m.change o s.value)] }
  | broadcast (t) (at_ : s.threads t = .notifying) : Moves m s (.broadcast t)
      { s with threads := Function.update (wakeAll s.threads) t .leaving }
  | unlock (t) (at_ : s.threads t = .leaving) :
      Moves m s (.unlock t) { s.setThread t .outside with owner := none }
  | wakeUp (t) (at_ : s.threads t = .asleep) :
      Moves m s (.wakeUp t) (s.setThread t (.entering .wait))

variable {m : MonitorSpec V O} {s s' : Monitor T V O} {t u : T}

theorem step_ok_iff {a : Action T O} : step m s a = .ok s' ↔ Moves m s a s' := by
  constructor
  · intro h
    cases a with
    | call t c =>
      rw [step] at h
      split at h
      · cases h
        exact .call t c (by assumption)
      · cases h
    | lock t =>
      rw [step] at h
      split at h
      · cases h
        exact .lock t _ (by assumption) (by assumption)
      · cases h
    | act t =>
      rw [step] at h
      split at h
      · split at h
        · cases h
          exact .pass t (by assumption) (by assumption)
        · cases h
          exact .sleep t (by assumption) (eq_false_of_ne_true (by assumption))
      · cases h
        exact .change t _ (by assumption)
      · cases h
    | broadcast t =>
      rw [step] at h
      split at h
      · cases h
        exact .broadcast t (by assumption)
      · cases h
    | unlock t =>
      rw [step] at h
      split at h
      · cases h
        exact .unlock t (by assumption)
      · cases h
    | wakeUp t =>
      rw [step] at h
      split at h
      · cases h
        exact .wakeUp t (by assumption)
      · cases h
  · intro h
    cases h with
    | call t c at_ | broadcast t at_ | unlock t at_ | wakeUp t at_ => simp only [step, at_]
    | lock t c at_ free => simp only [step, at_, free]
    | pass t at_ awaited => simp only [step, at_, awaited, ↓reduceIte]
    | sleep t at_ awaited => simp only [step, at_, awaited, Bool.false_eq_true, ↓reduceIte]
    | change t o at_ => simp only [step, at_]

/-! ## No thread sleeps through a broadcast -/

/-- Every operation that makes the value as wanted broadcasts. -/
def Signals (m : MonitorSpec V O) : Prop :=
  ∀ o v, m.awaited v = false → m.awaited (m.change o v) = true →
    m.broadcasts o (m.change o v) = true

/-- The mutex has the owner that its holder says, and a sleeper whose value is there is about to
be woken. -/
structure Sound (m : MonitorSpec V O) (s : Monitor T V O) : Prop where
  owner : ∀ t, s.owner = some t ↔ (s.threads t).Holds
  woken : m.awaited s.value = true → ∀ t, s.threads t = .asleep → ∃ u, s.threads u = .notifying

omit [DecidableEq T] in
theorem sound_init (v : V) : Sound m ({ value := v } : Monitor T V O) :=
  ⟨fun _ => iff_of_false (fun h => by cases h) id, fun _ t h => by cases h⟩

theorem setThread_self (a : MonitorAt O) : (s.setThread t a).threads t = a :=
  Function.update_self ..

omit [DecidableEq T] in
theorem Sound.eq_of_holds (h : Sound m s) (ht : (s.threads t).Holds) (hu : (s.threads u).Holds) :
    u = t :=
  Option.some_inj.mp (((h.owner u).mpr hu).symm.trans ((h.owner t).mpr ht))

omit [DecidableEq T] in
theorem Sound.no_sleeper (h : Sound m s) (hv : m.awaited s.value = true)
    (hno : ∀ u, s.threads u ≠ .notifying) (t : T) : s.threads t ≠ .asleep := by
  intro ht
  obtain ⟨u, hu⟩ := h.woken hv t ht
  exact hno u hu

/-- One thread moves, which keeps or lets go of the mutex as its place says. -/
theorem sound_moved {a : MonitorAt O} (hthreads : s'.threads = Function.update s.threads t a)
    (howner : ∀ u, u ≠ t → (s'.owner = some u ↔ (s.threads u).Holds))
    (hself : s'.owner = some t ↔ a.Holds)
    (hwoken : m.awaited s'.value = true → (a = .asleep ∨ ∃ u, s.threads u = .asleep) →
      a = .notifying ∨ ∃ u, u ≠ t ∧ s.threads u = .notifying) : Sound m s' := by
  have hat (u : T) : u = t ∧ s'.threads u = a ∨ u ≠ t ∧ s'.threads u = s.threads u := by
    rw [hthreads]
    by_cases hut : u = t
    · subst hut
      exact .inl ⟨rfl, Function.update_self ..⟩
    · exact .inr ⟨hut, Function.update_of_ne hut ..⟩
  refine ⟨fun u => ?_, fun hv u hu => ?_⟩
  · rcases hat u with ⟨rfl, hu⟩ | ⟨hut, hu⟩
    · rw [hu, hself]
    · rw [hu, howner u hut]
  · have hasleep : a = .asleep ∨ ∃ u, s.threads u = .asleep := by
      rcases hat u with ⟨-, hu'⟩ | ⟨-, hu'⟩
      · exact .inl (hu'.symm.trans hu)
      · exact .inr ⟨u, hu'.symm.trans hu⟩
    rcases hwoken hv hasleep with rfl | ⟨w, hwt, hw⟩
    · exact ⟨t, by rw [hthreads, Function.update_self]⟩
    · exact ⟨w, by rw [hthreads, Function.update_of_ne hwt, hw]⟩

omit [DecidableEq T] in
/-- A thread that is not about to broadcast leaves the sleepers to another one. -/
theorem Sound.other_wakes (h : Sound m s) (ht : s.threads t ≠ .notifying)
    (hv : m.awaited s.value = true) (hu : s.threads u = .asleep) :
    ∃ w, w ≠ t ∧ s.threads w = .notifying := by
  obtain ⟨w, hw⟩ := h.woken hv u hu
  refine ⟨w, ?_, hw⟩
  rintro rfl
  exact ht hw

theorem Sound.step (hsig : Signals m) (h : Sound m s) {a : Action T O}
    (hstep : Monitor.step m s a = .ok s') : Sound m s' := by
  have holds_at {t : T} {a : MonitorAt O} (hat : s.threads t = a) :
      s.owner = some t ↔ a.Holds := by
    rw [h.owner t, hat]
  -- Of two threads that hold the mutex one is the other.
  have alone {t u : T} {a : MonitorAt O} (hat : s.threads t = a) (ha : a.Holds)
      (hut : u ≠ t) : ¬ (s.threads u).Holds := by
    intro hu
    exact hut (h.eq_of_holds (by rw [hat]; exact ha) hu)
  cases step_ok_iff.mp hstep with
  | call t c at_ =>
    refine sound_moved rfl (fun u _ => h.owner u) ((holds_at at_).trans Iff.rfl) fun hv hs => ?_
    obtain hs | ⟨u, hu⟩ := hs
    · cases hs
    · exact .inr (h.other_wakes (by simp [at_]) hv hu)
  | lock t c at_ free =>
    refine sound_moved rfl (fun u hut => ?_) (iff_of_true rfl trivial) fun hv hs => ?_
    · rw [← h.owner u, free]
      exact iff_of_false (fun heq => hut (Option.some_inj.mp heq).symm) (fun heq => by cases heq)
    · obtain hs | ⟨u, hu⟩ := hs
      · cases hs
      · exact .inr (h.other_wakes (by simp [at_]) hv hu)
  | pass t at_ awaited =>
    refine sound_moved rfl (fun u _ => h.owner u) ((holds_at at_).trans Iff.rfl) fun hv hs => ?_
    obtain hs | ⟨u, hu⟩ := hs
    · cases hs
    · exact .inr (h.other_wakes (by simp [at_]) hv hu)
  | sleep t at_ awaited =>
    refine sound_moved rfl (fun u hut => ?_) (iff_of_false (fun heq => by cases heq) id)
      fun hv _ => ?_
    · exact iff_of_false (fun heq => by cases heq) (alone at_ trivial hut)
    · exact absurd hv (by simp [setThread, awaited])
  | change t o at_ =>
    refine sound_moved rfl (fun u _ => h.owner u) ?_ fun hv hs => ?_
    · refine (holds_at at_).trans ?_
      split <;> exact Iff.rfl
    · left
      cases hold : m.awaited s.value with
      | false => rw [if_pos (hsig o s.value hold hv)]
      | true =>
        obtain hs | ⟨u, hu⟩ := hs
        · split at hs <;> cases hs
        · obtain ⟨w, hwt, hw⟩ := h.other_wakes (t := t) (by simp [at_]) hold hu
          exact absurd (by rw [hw]; trivial) (alone at_ trivial hwt)
  | broadcast t at_ =>
    refine ⟨fun u => ?_, fun _ u hu => ?_⟩
    · dsimp only
      by_cases hut : u = t
      · subst hut
        rw [Function.update_self]
        exact (holds_at at_).trans Iff.rfl
      · rw [Function.update_of_ne hut, wakeAll, h.owner u]
        cases hu : s.threads u <;> exact Iff.rfl
    · dsimp only at hu
      by_cases hut : u = t
      · subst hut
        rw [Function.update_self] at hu
        cases hu
      · rw [Function.update_of_ne hut, wakeAll] at hu
        split at hu
        · cases hu
        · rename_i hne
          exact absurd hu hne
  | unlock t at_ =>
    refine sound_moved rfl (fun u hut => ?_) (iff_of_false (fun heq => by cases heq) id)
      fun hv hs => ?_
    · exact iff_of_false (fun heq => by cases heq) (alone at_ trivial hut)
    · obtain hs | ⟨u, hu⟩ := hs
      · cases hs
      · exact .inr (h.other_wakes (by simp [at_]) hv hu)
  | wakeUp t at_ =>
    refine sound_moved rfl (fun u _ => h.owner u) ((holds_at at_).trans Iff.rfl) fun hv hs => ?_
    obtain hs | ⟨u, hu⟩ := hs
    · cases hs
    · exact .inr (h.other_wakes (by simp [at_]) hv hu)

theorem sound_run (hsig : Signals m) {v : V} {as : List (Action T O)}
    (h : run (Monitor.step m) { value := v } as = .ok s) : Sound m s :=
  run_preserves (fun _ _ _ hs hstep => hs.step hsig hstep) (sound_init v) h

omit [DecidableEq T] in
/-- While the value is as wanted and the mutex is free, no thread sleeps. -/
theorem Sound.awake (h : Sound m s) (hv : m.awaited s.value = true) (hfree : s.owner = none)
    (t : T) : s.threads t ≠ .asleep := by
  refine h.no_sleeper hv (fun u hu => ?_) t
  have howner := (h.owner u).mpr (by rw [hu]; trivial)
  rw [hfree] at howner
  cases howner

/-! ## No thread is stuck -/

/-- The steps in which a thread waits, alone, for the value. -/
def waitSteps (O : Type*) (t : T) : List (Action T O) := [.lock t, .act t, .unlock t]

/-- A thread at the mutex returns from its wait in three steps of its own. -/
theorem wait_returns (hfree : s.owner = none) (hv : m.awaited s.value = true)
    (ht : s.threads t = .entering .wait) :
    run (Monitor.step m) s (waitSteps O t) =
      .ok { s.setThread t .outside with log := s.log ++ [.passed t] } := by
  have hlock := step_ok_iff.mpr (Moves.lock (m := m) t .wait ht hfree)
  have hpass := step_ok_iff.mpr
    (Moves.pass (m := m) (s := { s.setThread t (.inside .wait) with owner := some t }) t
      (setThread_self _) hv)
  rw [waitSteps, run_cons, hlock, ok_bind, run_cons, hpass, ok_bind, run_singleton]
  simp [Monitor.step, setThread, ← hfree]

/-- The thread that holds the mutex lets go of it in some steps of its own. -/
theorem Sound.owner_leaves (h : Sound m s) (howner : s.owner = some u) :
    ∃ as s', (∀ a ∈ as, a = .act u ∨ a = .broadcast u ∨ a = .unlock u) ∧
      run (Monitor.step m) s as = .ok s' ∧ s'.owner = none := by
  have unlocks {s : Monitor T V O} (hat : s.threads u = .leaving) :
      ∃ s', run (Monitor.step m) s [.unlock u] = .ok s' ∧ s'.owner = none :=
    ⟨_, run_singleton.trans (step_ok_iff.mpr (Moves.unlock u hat)), rfl⟩
  have notifies {s : Monitor T V O} (hat : s.threads u = .notifying) :
      ∃ s', run (Monitor.step m) s [.broadcast u, .unlock u] = .ok s' ∧ s'.owner = none := by
    have hbroadcast := step_ok_iff.mpr (Moves.broadcast (m := m) u hat)
    rw [run_cons, hbroadcast, ok_bind]
    exact unlocks (Function.update_self ..)
  have hholds := (h.owner u).mp howner
  cases hat : s.threads u with
  | outside | entering _ | asleep =>
    rw [hat] at hholds
    cases hholds
  | leaving =>
    obtain ⟨s', hrun, hfree⟩ := unlocks hat
    exact ⟨_, s', by simp, hrun, hfree⟩
  | notifying =>
    obtain ⟨s', hrun, hfree⟩ := notifies hat
    exact ⟨_, s', by simp, hrun, hfree⟩
  | inside c =>
    cases c with
    | wait =>
      cases hv : m.awaited s.value with
      | true =>
        have hpass := step_ok_iff.mpr (Moves.pass (m := m) u hat hv)
        obtain ⟨s', hrun, hfree⟩ := unlocks (s := { s.setThread u .leaving with
          log := s.log ++ [.passed u] }) (setThread_self _)
        exact ⟨[.act u, .unlock u], s', by simp, by rw [run_cons, hpass, ok_bind, hrun], hfree⟩
      | false =>
        have hsleep := step_ok_iff.mpr (Moves.sleep (m := m) u hat hv)
        exact ⟨[.act u], _, by simp, run_singleton.trans hsleep, rfl⟩
    | operation o =>
      have hchange := step_ok_iff.mpr (Moves.change (m := m) u o hat)
      cases hb : m.broadcasts o (m.change o s.value) with
      | true =>
        rw [if_pos hb] at hchange
        obtain ⟨s', hrun, hfree⟩ := notifies (s := { s.setThread u .notifying with
          value := m.change o s.value
          log := s.log ++ [.applied u o (m.change o s.value)] }) (setThread_self _)
        exact ⟨[.act u, .broadcast u, .unlock u], s', by simp,
          by rw [run_cons, hchange, ok_bind, hrun], hfree⟩
      | false =>
        rw [if_neg (by rw [hb]; decide)] at hchange
        obtain ⟨s', hrun, hfree⟩ := unlocks (s := { s.setThread u .leaving with
          value := m.change o s.value
          log := s.log ++ [.applied u o (m.change o s.value)] }) (setThread_self _)
        exact ⟨[.act u, .unlock u], s', by simp, by rw [run_cons, hchange, ok_bind, hrun], hfree⟩

end Monitor

end Summer.Lib
