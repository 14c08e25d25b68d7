import Summer.Net.EventLoop

/-!
# Queued functors run once and in order

The batch is swapped out of `pendingFunctors` and run from its front, while every thread
keeps pushing at the end of `pendingFunctors`.
-/
namespace Summer.Net.LoopSystem

open Summer.Lib

variable {T F : Type}

/-- The part of the current batch that has not been run yet. -/
def rest (s : LoopSystem T F) : List F :=
  match s.phase with
  | .running functors => functors
  | .outside | .polling | .handling _ | .calling => []

/-- What has run, what is left of the batch and what is pending are all pushes in order. -/
def InOrder (s : LoopSystem T F) : Prop :=
  s.executed ++ s.rest ++ s.loop.pendingFunctors = s.pushed

/-- A batch is being run. -/
def Running (s : LoopSystem T F) : Prop := ∃ functors, s.phase = .running functors

/-- Whether the step ends the batch. -/
def Action.endsBatch : Action T F → Bool
  | .endPass _ => true
  | _ => false

theorem rest_running {s : LoopSystem T F} {fs : List F} (h : s.phase = .running fs) :
    s.rest = fs := by
  rw [rest, h]

theorem rest_idle {s : LoopSystem T F} (h : ¬ s.Running) : s.rest = [] := by
  rw [rest]
  split
  · rename_i fs hphase
    exact absurd ⟨fs, hphase⟩ h
  · rfl
  · rfl
  · rfl
  · rfl

/-- What a step does to the queue: nothing, a push, the swap, or a functor run. -/
inductive Moves (s s' : LoopSystem T F) : Prop where
  | stay (rest : s'.rest = s.rest)
      (pending : s'.loop.pendingFunctors = s.loop.pendingFunctors)
      (executed : s'.executed = s.executed) (pushed : s'.pushed = s.pushed)
  | push (functor : F) (rest : s'.rest = s.rest)
      (pending : s'.loop.pendingFunctors = s.loop.pendingFunctors ++ [functor])
      (executed : s'.executed = s.executed) (pushed : s'.pushed = s.pushed ++ [functor])
  | swap (idle : ¬ s.Running) (rest : s'.rest = s.loop.pendingFunctors)
      (pending : s'.loop.pendingFunctors = [])
      (executed : s'.executed = s.executed) (pushed : s'.pushed = s.pushed)
  | runFunctor (functor : F) (rest : s.rest = functor :: s'.rest)
      (pending : s'.loop.pendingFunctors = s.loop.pendingFunctors)
      (executed : s'.executed = s.executed ++ [functor]) (pushed : s'.pushed = s.pushed)

theorem not_running_of {s : LoopSystem T F} {p : LoopPhase F} (h : s.phase = p)
    (hp : ∀ fs, p ≠ .running fs) : ¬ s.Running := by
  intro hr
  obtain ⟨fs, hfs⟩ := hr
  exact hp fs (h.symm.trans hfs)

/-- A step from one idle phase to another leaves the queue alone. -/
theorem Moves.idle {s s' : LoopSystem T F} (h : ¬ s.Running) (h' : ¬ s'.Running)
    (hpending : s'.loop.pendingFunctors = s.loop.pendingFunctors)
    (hexecuted : s'.executed = s.executed) (hpushed : s'.pushed = s.pushed) : Moves s s' :=
  .stay ((rest_idle h').trans (rest_idle h).symm) hpending hexecuted hpushed

variable [DecidableEq T] {s s' : LoopSystem T F}

theorem moves_of_step {a : Action T F} (h : step s a = .ok s') : Moves s s' := by
  cases a with
  | loop =>
    rw [step] at h
    split at h
    · rename_i hphase
      cases h
      exact .idle (not_running_of hphase (by simp)) (not_running_of rfl (by simp)) rfl rfl rfl
    · cases h
  | pollReturn =>
    rw [step] at h
    split at h
    · rename_i hphase
      cases h
      exact .idle (not_running_of hphase (by simp)) (not_running_of rfl (by simp)) rfl rfl rfl
    · cases h
  | handleRead =>
    rw [step] at h
    split at h
    · rename_i hphase
      cases h
      exact .idle (not_running_of hphase (by simp)) (not_running_of rfl (by simp)) rfl rfl rfl
    · cases h
  | doPendingFunctor =>
    rw [step] at h
    split at h
    · rename_i hphase
      cases h
      exact .idle (not_running_of hphase (by simp)) (not_running_of rfl (by simp)) rfl rfl rfl
    · cases h
  | swap =>
    rw [step] at h
    split at h
    · rename_i hphase
      cases h
      exact .swap (not_running_of hphase (by simp)) rfl rfl rfl rfl
    · cases h
  | runFunctor =>
    rw [step] at h
    split at h
    · rename_i f fs hphase
      cases h
      exact .runFunctor f (rest_running hphase) rfl rfl rfl
    · cases h
  | endPass quit =>
    rw [step] at h
    split at h
    · rename_i hphase
      cases h
      refine .stay ((rest_idle ?_).trans (rest_running hphase).symm) rfl rfl rfl
      cases quit with
      | true => exact not_running_of rfl (by simp)
      | false => exact not_running_of rfl (by simp)
    · cases h
  | queueInLoop f =>
    obtain ⟨_, -, h⟩ := bind_eq_ok.mp h
    cases h
    exact .push f rfl (EventLoop.queueInLoop_pendingFunctors ..) rfl rfl
  | runInLoop f =>
    obtain ⟨_, -, h⟩ := bind_eq_ok.mp h
    cases h
    exact .stay rfl rfl rfl rfl
  | otherQueueInLoop t f =>
    obtain ⟨_, -, h⟩ := bind_eq_ok.mp h
    cases h
    exact .push f rfl (EventLoop.queueInLoop_pendingFunctors ..) rfl rfl
  | otherRunInLoop t f =>
    obtain ⟨_, -, h⟩ := bind_eq_ok.mp h
    cases h
    exact .push f rfl (EventLoop.queueInLoop_pendingFunctors ..) rfl rfl
  | otherWakeup t =>
    obtain ⟨_, -, h⟩ := bind_eq_ok.mp h
    cases h
    exact .stay rfl rfl rfl rfl

/-- A batch runs until the step that ends it. -/
theorem running_step {a : Action T F} (hr : s.Running) (ha : a.endsBatch = false)
    (h : step s a = .ok s') : s'.Running := by
  obtain ⟨fs, hfs⟩ := hr
  cases a with
  | loop | pollReturn | handleRead | doPendingFunctor | swap =>
    rw [step, hfs] at h
    cases h
  | runFunctor =>
    rw [step, hfs] at h
    cases fs with
    | nil => cases h
    | cons f fs =>
      cases h
      exact ⟨fs, rfl⟩
  | endPass quit => cases ha
  | queueInLoop f | runInLoop f | otherQueueInLoop t f | otherRunInLoop t f | otherWakeup t =>
    obtain ⟨_, -, h⟩ := bind_eq_ok.mp h
    cases h
    exact ⟨fs, hfs⟩

theorem inOrder_step {a : Action T F} (hi : s.InOrder) (h : step s a = .ok s') :
    s'.InOrder := by
  rw [InOrder] at hi ⊢
  cases moves_of_step h with
  | stay hrest hpending hexecuted hpushed => rw [hrest, hpending, hexecuted, hpushed, hi]
  | push f hrest hpending hexecuted hpushed =>
    rw [hrest, hpending, hexecuted, hpushed, ← hi]
    simp
  | swap hidle hrest hpending hexecuted hpushed =>
    rw [hrest, hpending, hexecuted, hpushed, ← hi, rest_idle hidle]
    simp
  | runFunctor f hrest hpending hexecuted hpushed =>
    rw [hpending, hexecuted, hpushed, ← hi, hrest]
    simp

/-- While a batch runs, nothing joins what it has run and has yet to run. -/
theorem batch_step {a : Action T F} (hr : s.Running) (h : step s a = .ok s') :
    s'.executed ++ s'.rest = s.executed ++ s.rest := by
  cases moves_of_step h with
  | stay hrest _ hexecuted _ => rw [hrest, hexecuted]
  | push f hrest _ hexecuted _ => rw [hrest, hexecuted]
  | swap hidle _ _ _ _ => exact absurd hr hidle
  | runFunctor f hrest _ hexecuted _ =>
    rw [hexecuted, hrest]
    simp

theorem inOrder_run {as : List (Action T F)} (h : run step init as = .ok s) : s.InOrder := by
  have hinit : (init : LoopSystem T F).InOrder := rfl
  exact run_preserves (fun _ _ _ hi hs => inOrder_step hi hs) hinit h

theorem batch_run {as : List (Action T F)} (hr : s.Running)
    (has : ∀ a ∈ as, a.endsBatch = false) (h : run step s as = .ok s') :
    s'.executed ++ s'.rest = s.executed ++ s.rest := by
  have hinv := run_invariant (C := fun _ a => a.endsBatch = false)
    (I := fun v => v.Running ∧ v.executed ++ v.rest = s.executed ++ s.rest)
    (fun u a v hu ha hs => ⟨running_step hu.1 ha hs, (batch_step hu.1 hs).trans hu.2⟩)
    ⟨hr, rfl⟩ (along_of_forall_mem has) h
  exact hinv.2

/-- After the swap everything pushed so far has run or is in the batch. -/
theorem swap_spec (hi : s.InOrder) (h : step s .swap = .ok s') :
    s'.Running ∧ s'.executed ++ s'.rest = s.pushed ∧ s'.pushed = s.pushed := by
  have hi' := inOrder_step hi h
  rw [step] at h
  split at h
  · cases h
    rw [InOrder] at hi'
    refine ⟨⟨_, rfl⟩, ?_, rfl⟩
    simpa [EventLoop.swap] using hi'
  · cases h

/-- The law of the queue: no functor is lost, run twice or overtaken, and what is pushed while
a batch runs stays pending until the batch has ended. -/
theorem executed_once_in_order {as : List (Action T F)} (hrun : run step init as = .ok s) :
    s.InOrder ∧
    ∀ (before batch : List (Action T F)) (s₀ : LoopSystem T F),
      as = before ++ .swap :: batch → run step init before = .ok s₀ →
      (∀ a ∈ batch, a.endsBatch = false) →
      s.executed ++ s.rest = s₀.pushed ∧
        s.pushed = s₀.pushed ++ s.loop.pendingFunctors := by
  have hi := inOrder_run hrun
  refine ⟨hi, ?_⟩
  intro before batch s₀ has hbefore hbatch
  rw [has] at hrun
  obtain ⟨u, hu, hrun⟩ := run_append_ok.mp hrun
  rw [hbefore] at hu
  cases hu
  obtain ⟨s₁, hswap, hrun⟩ := run_cons_ok.mp hrun
  obtain ⟨hr, hall, -⟩ := swap_spec (inOrder_run hbefore) hswap
  have heq : s.executed ++ s.rest = s₀.pushed := (batch_run hr hbatch hrun).trans hall
  refine ⟨heq, ?_⟩
  rw [← heq]
  exact hi.symm

/-- A functor queues another one, a thread queues a third, and the batch is the first two. -/
theorem executed_once_in_order_sample :
    ∃ s : LoopSystem Bool Nat, run step init
        ([.otherQueueInLoop true 1, .otherQueueInLoop true 2, .loop, .pollReturn,
          .doPendingFunctor] ++ .swap ::
          [.runFunctor, .queueInLoop 3, .otherQueueInLoop false 4, .runFunctor]) = .ok s ∧
      s.InOrder ∧ s.executed ++ s.rest = [1, 2] ∧
      s.pushed = [1, 2] ++ s.loop.pendingFunctors := by
  have hend : endsIn step (fun _ => true) (init : LoopSystem Bool Nat)
        ([.otherQueueInLoop true 1, .otherQueueInLoop true 2, .loop, .pollReturn,
          .doPendingFunctor] ++ .swap ::
          [.runFunctor, .queueInLoop 3, .otherQueueInLoop false 4, .runFunctor]) = true := by
    decide
  obtain ⟨s, hrun, -⟩ := endsIn_iff.mp hend
  have hlaw := executed_once_in_order hrun
  exact ⟨s, hrun, hlaw.1, hlaw.2 _ _ _ rfl rfl (by decide)⟩

end Summer.Net.LoopSystem
