import Summer.Basic
import Summer.Lib.Run
import Mathlib.Data.Fintype.Basic
import Mathlib.Algebra.Group.Nat.Defs
import Mathlib.Logic.Function.Basic

/-!
# The event loop and its wake-ups

`pendingFunctors` is filled by every thread and swapped out by the loop thread.
`wakeupFd` is the counter of an eventfd: `poll` returns at once while it is not zero, and
otherwise no later than its timeout. The mutex makes a push and the swap one step each.
-/
namespace Summer.Net

open Summer.Lib

structure EventLoop (F : Type) where
  pendingFunctors : List F := []
  wakeupFd : Nat := 0
  callingPendingFunctor : Bool := false

namespace EventLoop

variable {F : Type}

/-- A write of 1 to the eventfd, refused when the counter is full. -/
def wakeup (l : EventLoop F) : EventLoop F :=
  { l with wakeupFd := if l.wakeupFd < 2 ^ 64 - 2 then l.wakeupFd + 1 else l.wakeupFd }

/-- The read handler of the wake-up channel. -/
def handleRead (l : EventLoop F) : EventLoop F := { l with wakeupFd := 0 }

def push (l : EventLoop F) (functor : F) : EventLoop F :=
  { l with pendingFunctors := l.pendingFunctors ++ [functor] }

def queueInLoop (l : EventLoop F) (isInLoopThread : Bool) (functor : F) : EventLoop F :=
  let l := l.push functor
  if isInLoopThread && l.callingPendingFunctor then l.wakeup else l

/-- `doPendingFunctor` up to its loop: the batch, and the loop without it. -/
def swap (l : EventLoop F) : List F × EventLoop F :=
  (l.pendingFunctors, { l with pendingFunctors := [] })

/-- `poll` returns at once. -/
def Readable (l : EventLoop F) : Prop := 0 < l.wakeupFd

instance (l : EventLoop F) : Decidable l.Readable := inferInstanceAs (Decidable (_ < _))

theorem readable_wakeup (l : EventLoop F) : l.wakeup.Readable := by
  rw [Readable, wakeup]
  dsimp only
  split
  · exact Nat.succ_pos _
  · omega

@[simp] theorem wakeup_pendingFunctors (l : EventLoop F) :
    l.wakeup.pendingFunctors = l.pendingFunctors := rfl

@[simp] theorem wakeup_calling (l : EventLoop F) :
    l.wakeup.callingPendingFunctor = l.callingPendingFunctor := rfl

@[simp] theorem queueInLoop_pendingFunctors (l : EventLoop F) (b : Bool) (f : F) :
    (l.queueInLoop b f).pendingFunctors = l.pendingFunctors ++ [f] := by
  rw [queueInLoop]
  split <;> rfl

@[simp] theorem queueInLoop_calling (l : EventLoop F) (b : Bool) (f : F) :
    (l.queueInLoop b f).callingPendingFunctor = l.callingPendingFunctor := by
  rw [queueInLoop]
  split <;> rfl

/-- A functor queued by another functor wakes the loop. -/
theorem readable_queueInLoop {l : EventLoop F} (h : l.callingPendingFunctor = true) (f : F) :
    (l.queueInLoop true f).Readable := by
  have hc : (true && (l.push f).callingPendingFunctor) = true := h
  rw [queueInLoop, if_pos hc]
  exact readable_wakeup _

/-- Queueing takes no wake-up back. -/
theorem Readable.queueInLoop {l : EventLoop F} (h : l.Readable) (b : Bool) (f : F) :
    (l.queueInLoop b f).Readable := by
  rw [EventLoop.queueInLoop]
  split
  · exact readable_wakeup _
  · exact h

end EventLoop

/-! ## The loop thread among the other threads -/

/-- Where the loop thread is in `loop()`. -/
inductive LoopPhase (F : Type) where
  /-- Not in `loop()`. -/
  | outside
  /-- About to block or blocked in `poll`. -/
  | polling
  /-- Handling the active channels, the wake-up channel among them or not. -/
  | handling (wakeupActive : Bool)
  /-- In `doPendingFunctor`, before the swap. -/
  | calling
  /-- In `doPendingFunctor`, with this much of the batch to run. -/
  | running (functors : List F)

/-- `woken t` is false while thread `t` is between the push and the `wakeup()` of a
`runInLoop`. `pushed` and `executed` record all pushes and all functors run, in order. -/
structure LoopSystem (T F : Type) where
  loop : EventLoop F
  phase : LoopPhase F
  woken : T → Bool
  pushed : List F
  executed : List F

namespace LoopSystem

variable {T F : Type} [DecidableEq T]

inductive Action (T F : Type) where
  /-- The loop thread enters `loop()`. -/
  | loop
  | pollReturn
  /-- The wake-up channel is handled. -/
  | handleRead
  | doPendingFunctor
  | swap
  | runFunctor
  /-- `doPendingFunctor` returns, and `quit_` is found set or not. -/
  | endPass (quit : Bool)
  /-- `queueInLoop` by the loop thread. -/
  | queueInLoop (functor : F)
  /-- `runInLoop` by the loop thread, which calls the functor at once. -/
  | runInLoop (functor : F)
  /-- `queueInLoop` by another thread. -/
  | otherQueueInLoop (thread : T) (functor : F)
  /-- `runInLoop` by another thread up to its `wakeup()`. -/
  | otherRunInLoop (thread : T) (functor : F)
  | otherWakeup (thread : T)
  deriving DecidableEq

def init : LoopSystem T F where
  loop := {}
  phase := .outside
  woken := fun _ => true
  pushed := []
  executed := []

/-- The loop thread is where user code runs in it. -/
def InUserCode (s : LoopSystem T F) : Prop :=
  match s.phase with
  | .outside | .handling _ | .running _ => True
  | .polling | .calling => False

instance (s : LoopSystem T F) : Decidable s.InUserCode := by
  unfold InUserCode
  cases s.phase <;> infer_instance

def step (s : LoopSystem T F) : Action T F → Except Fault (LoopSystem T F)
  | .loop =>
    match s.phase with
    | .outside => .ok { s with phase := .polling }
    | _ => .error .notEnabled
  | .pollReturn =>
    match s.phase with
    | .polling => .ok { s with phase := .handling (decide s.loop.Readable) }
    | _ => .error .notEnabled
  | .handleRead =>
    match s.phase with
    | .handling true => .ok { s with loop := s.loop.handleRead, phase := .handling false }
    | _ => .error .notEnabled
  | .doPendingFunctor =>
    match s.phase with
    | .handling false =>
      .ok { s with loop := { s.loop with callingPendingFunctor := true }, phase := .calling }
    | _ => .error .notEnabled
  | .swap =>
    match s.phase with
    | .calling => .ok { s with loop := s.loop.swap.2, phase := .running s.loop.swap.1 }
    | _ => .error .notEnabled
  | .runFunctor =>
    match s.phase with
    | .running (f :: functors) =>
      .ok { s with phase := .running functors, executed := s.executed ++ [f] }
    | _ => .error .notEnabled
  | .endPass quit =>
    match s.phase with
    | .running [] =>
      .ok { s with
        loop := { s.loop with callingPendingFunctor := false }
        phase := if quit = true then .outside else .polling }
    | _ => .error .notEnabled
  | .queueInLoop f => do
    ensure s.InUserCode .notEnabled
    .ok { s with loop := s.loop.queueInLoop true f, pushed := s.pushed ++ [f] }
  | .runInLoop _ => do
    ensure s.InUserCode .notEnabled
    .ok s
  | .otherQueueInLoop t f => do
    ensure (s.woken t = true) .notEnabled
    .ok { s with loop := s.loop.queueInLoop false f, pushed := s.pushed ++ [f] }
  | .otherRunInLoop t f => do
    ensure (s.woken t = true) .notEnabled
    .ok { s with
      loop := s.loop.queueInLoop false f
      woken := Function.update s.woken t false
      pushed := s.pushed ++ [f] }
  | .otherWakeup t => do
    ensure (s.woken t = false) .notEnabled
    .ok { s with loop := s.loop.wakeup, woken := Function.update s.woken t true }

/-! ## No wake-up is lost -/

/-- The next `poll` returns at once, or some thread is about to see to that. -/
def WakeupDue (s : LoopSystem T F) : Prop := s.loop.Readable ∨ ∃ t, s.woken t = false

/-- A loop blocked with work to do will be woken. -/
def NoLostWakeup (s : LoopSystem T F) : Prop :=
  match s.phase with
  | .polling => s.loop.pendingFunctors ≠ [] → s.WakeupDue
  | _ => True

/-- The loop thread will swap the pending functors out before it polls again. -/
def BeforeSwap (s : LoopSystem T F) : Prop :=
  match s.phase with
  | .handling _ | .calling => True
  | .outside | .polling | .running _ => False

/-- A push without a wake-up finds the swap still to come, or a wake-up due anyway. -/
def PushSeen (s : LoopSystem T F) : Action T F → Prop
  | .queueInLoop _ => s.phase = .outside → s.WakeupDue
  | .otherQueueInLoop _ _ => s.BeforeSwap ∨ s.WakeupDue
  | _ => True

/-- What holds of every state of such a run. -/
structure Awake (s : LoopSystem T F) : Prop where
  due : ¬ s.BeforeSwap → s.loop.pendingFunctors ≠ [] → s.WakeupDue
  calling : s.phase = .calling ∨ (∃ fs, s.phase = .running fs) →
    s.loop.callingPendingFunctor = true

variable {s s' : LoopSystem T F}

section

omit [DecidableEq T]

theorem init_awake : (init : LoopSystem T F).Awake := by
  refine ⟨fun _ h => absurd rfl h, ?_⟩
  intro h
  rcases h with h | ⟨fs, h⟩
  · cases h
  · cases h

theorem Awake.noLostWakeup (h : s.Awake) : s.NoLostWakeup := by
  rw [NoLostWakeup]
  split
  · rename_i hphase
    apply h.due
    rw [BeforeSwap, hphase]
    exact id
  · trivial

/-- A push keeps every wake-up that was due. -/
theorem WakeupDue.push (h : s.WakeupDue) (b : Bool) (f : F) {woken : T → Bool}
    (hw : ∀ t, s.woken t = false → woken t = false) (pushed : List F) :
    WakeupDue { s with loop := s.loop.queueInLoop b f, woken := woken, pushed := pushed } := by
  rcases h with hr | ⟨t, ht⟩
  · exact .inl (hr.queueInLoop b f)
  · exact .inr ⟨t, hw t ht⟩

/-- Before the swap no wake-up is needed. -/
theorem awake_handling {s : LoopSystem T F} (active : Bool) (h : s.phase = .handling active) :
    s.Awake := by
  refine ⟨fun hb => absurd ?_ hb, ?_⟩
  · rw [BeforeSwap, h]
    trivial
  · intro h
    rcases h with hp | ⟨fs, hp⟩
    · rw [h] at hp
      cases hp
    · rw [h] at hp
      cases hp

/-- Between two passes a wake-up is due for every pending functor. -/
theorem awake_between {s : LoopSystem T F} (h : s.phase = .outside ∨ s.phase = .polling)
    (hdue : s.loop.pendingFunctors ≠ [] → s.WakeupDue) : s.Awake := by
  refine ⟨fun _ => hdue, ?_⟩
  intro h
  rcases h with hp | ⟨fs, hp⟩
  · rcases h with h | h
    · rw [h] at hp
      cases hp
    · rw [h] at hp
      cases hp
  · rcases h with h | h
    · rw [h] at hp
      cases hp
    · rw [h] at hp
      cases hp

/-- Outside `handling` and `calling` the invariant provides for the pending functors. -/
theorem Awake.due_of (h : s.Awake)
    (hp : s.phase = .outside ∨ s.phase = .polling ∨ ∃ fs, s.phase = .running fs) :
    s.loop.pendingFunctors ≠ [] → s.WakeupDue := by
  apply h.due
  rcases hp with hp | hp | ⟨fs, hp⟩
  · rw [BeforeSwap, hp]
    exact id
  · rw [BeforeSwap, hp]
    exact id
  · rw [BeforeSwap, hp]
    exact id

end

/-- A push by the loop thread: it is seen by the swap, wakes the loop, or is provided for. -/
theorem awake_queueInLoop (h : s.Awake) {f : F} (hc : PushSeen s (.queueInLoop f : Action T F))
    (hs : step s (.queueInLoop f) = .ok s') : s'.Awake := by
  obtain ⟨_, hen, hs⟩ := bind_eq_ok.mp hs
  have huser : s.InUserCode := ensure_eq_ok.mp hen
  cases hs
  refine ⟨?_, fun hp => (EventLoop.queueInLoop_calling ..).trans (h.calling hp)⟩
  intro hb _
  cases hphase : s.phase with
  | outside => exact (hc hphase).push true f (fun _ ht => ht) (s.pushed ++ [f])
  | polling =>
    rw [InUserCode, hphase] at huser
    cases huser
  | handling active =>
    refine absurd ?_ hb
    rw [BeforeSwap, hphase]
    trivial
  | calling =>
    rw [InUserCode, hphase] at huser
    cases huser
  | running fs => exact .inl (EventLoop.readable_queueInLoop (h.calling (.inr ⟨fs, hphase⟩)) f)

theorem awake_step (h : s.Awake) {a : Action T F} (hc : PushSeen s a)
    (hs : step s a = .ok s') : s'.Awake := by
  cases a with
  | loop =>
    rw [step] at hs
    split at hs
    · rename_i hphase
      cases hs
      exact awake_between (.inr rfl) (h.due_of (.inl hphase))
    · cases hs
  | pollReturn =>
    rw [step] at hs
    split at hs
    · cases hs
      exact awake_handling _ rfl
    · cases hs
  | handleRead =>
    rw [step] at hs
    split at hs
    · cases hs
      exact awake_handling _ rfl
    · cases hs
  | doPendingFunctor =>
    rw [step] at hs
    split at hs
    · cases hs
      exact ⟨fun hb => absurd trivial hb, fun _ => rfl⟩
    · cases hs
  | swap =>
    rw [step] at hs
    split at hs
    · rename_i hphase
      cases hs
      exact ⟨fun _ hne => absurd rfl hne, fun _ => h.calling (.inl hphase)⟩
    · cases hs
  | runFunctor =>
    rw [step] at hs
    split at hs
    · rename_i hphase
      cases hs
      exact ⟨fun _ => h.due_of (.inr (.inr ⟨_, hphase⟩)), fun _ => h.calling (.inr ⟨_, hphase⟩)⟩
    · cases hs
  | endPass quit =>
    rw [step] at hs
    split at hs
    · rename_i hphase
      cases hs
      refine awake_between ?_ (h.due_of (.inr (.inr ⟨_, hphase⟩)))
      cases quit with
      | true => exact .inl rfl
      | false => exact .inr rfl
    · cases hs
  | queueInLoop f => exact awake_queueInLoop h hc hs
  | runInLoop f =>
    obtain ⟨_, -, hs⟩ := bind_eq_ok.mp hs
    cases hs
    exact h
  | otherQueueInLoop t f =>
    obtain ⟨_, -, hs⟩ := bind_eq_ok.mp hs
    cases hs
    refine ⟨fun hb _ => ?_, fun hp => (EventLoop.queueInLoop_calling ..).trans (h.calling hp)⟩
    rcases hc with hbefore | hdue
    · exact absurd hbefore hb
    · exact hdue.push false f (fun _ ht => ht) (s.pushed ++ [f])
  | otherRunInLoop t f =>
    obtain ⟨_, -, hs⟩ := bind_eq_ok.mp hs
    cases hs
    refine ⟨fun _ _ => ?_, fun hp => (EventLoop.queueInLoop_calling ..).trans (h.calling hp)⟩
    exact .inr ⟨t, Function.update_self ..⟩
  | otherWakeup t =>
    obtain ⟨_, -, hs⟩ := bind_eq_ok.mp hs
    cases hs
    exact ⟨fun _ _ => .inl (EventLoop.readable_wakeup _), fun hp => h.calling hp⟩

/-- In a run whose pushes are all seen, no wake-up is lost. -/
theorem no_lost_wakeup {as : List (Action T F)} (hrun : run step init as = .ok s)
    (hcond : Along step PushSeen init as) : s.NoLostWakeup :=
  (run_invariant (fun _ _ _ h hc hs => awake_step h hc hs) init_awake hcond hrun).noLostWakeup

instance [Fintype T] (s : LoopSystem T F) : Decidable s.WakeupDue :=
  inferInstanceAs (Decidable (_ ∨ ∃ _, _))

instance (s : LoopSystem T F) : Decidable s.BeforeSwap := by
  unfold BeforeSwap
  cases s.phase <;> infer_instance

/-- The loop thread is about to block or blocked in `poll`. -/
def isPolling (s : LoopSystem T F) : Bool :=
  match s.phase with
  | .polling => true
  | _ => false

instance (s : LoopSystem T F) : Decidable (s.phase = .outside) :=
  match s.phase with
  | .outside => .isTrue rfl
  | .polling | .handling _ | .calling | .running _ => .isFalse (by rintro ⟨⟩)

instance [Fintype T] (s : LoopSystem T F) (a : Action T F) : Decidable (PushSeen s a) := by
  cases a <;> unfold PushSeen <;> infer_instance

/-- A functor queued by another thread while the loop is between its poll and its swap, one
run by a `runInLoop` during a pass, and one queued by that functor. -/
theorem no_lost_wakeup_sample :
    ∃ s : LoopSystem Bool Nat, run step init
        [.loop, .otherRunInLoop true 1, .otherWakeup true, .pollReturn, .handleRead,
          .otherQueueInLoop false 2, .doPendingFunctor, .swap, .runFunctor, .queueInLoop 3,
          .runFunctor, .endPass false] = .ok s ∧ s.NoLostWakeup := by
  have hend : endsIn step (fun _ => true) (init : LoopSystem Bool Nat)
        [.loop, .otherRunInLoop true 1, .otherWakeup true, .pollReturn, .handleRead,
          .otherQueueInLoop false 2, .doPendingFunctor, .swap, .runFunctor, .queueInLoop 3,
          .runFunctor, .endPass false] = true := by decide
  obtain ⟨s, hrun, -⟩ := endsIn_iff.mp hend
  exact ⟨s, hrun, no_lost_wakeup hrun (by decide)⟩

/-- A run that ends blocked in `poll` with work to do and no wake-up due. -/
theorem lost_of_endsIn [Fintype T] {as : List (Action T F)}
    (h : endsIn step (fun s => s.isPolling && !s.loop.pendingFunctors.isEmpty &&
      decide (¬ s.WakeupDue)) init as = true) :
    ∃ s, run step init as = .ok s ∧ ¬ s.NoLostWakeup := by
  obtain ⟨s, hrun, hs⟩ := endsIn_iff.mp h
  rw [Bool.and_eq_true, Bool.and_eq_true, decide_eq_true_eq] at hs
  obtain ⟨⟨hpoll, hne⟩, hdue⟩ := hs
  refine ⟨s, hrun, fun hno => hdue ?_⟩
  rw [isPolling] at hpoll
  split at hpoll
  · rename_i hphase
    rw [NoLostWakeup, hphase] at hno
    refine hno fun hempty => ?_
    rw [hempty] at hne
    cases hne
  · cases hpoll

/-- Another thread queues a functor without waking the loop that is polling, as
`TcpServer::removeConnectionInLoop` does for an I/O loop; the loop thread queues one before it
enters the loop. -/
theorem silent_push_loses_wakeup :
    (∃ s : LoopSystem Bool Nat, run step init [.loop, .otherQueueInLoop true 1] = .ok s ∧
      ¬ s.NoLostWakeup) ∧
    ∃ s : LoopSystem Bool Nat, run step init [.queueInLoop 1, .loop] = .ok s ∧
      ¬ s.NoLostWakeup :=
  ⟨lost_of_endsIn (by decide), lost_of_endsIn (by decide)⟩

end LoopSystem

end Summer.Net
