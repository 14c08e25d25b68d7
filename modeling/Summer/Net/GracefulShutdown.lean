import Summer.Net.OutboundStream

/-!
# The half-close after `shutdown()`

In the loop thread `shutdown()` half-closes at once or leaves it to `handleWrite`. What
`handleWrite` calls is `shutdown()` once more, which by then does nothing: the half-close
of a connection that was writing when `shutdown()` was called never happens.
-/
namespace Summer.Net.ConnectionSystem

open Summer.Lib TcpConnection

variable {T : Type} {s s' : ConnectionSystem T} {a : Action T}

/-- Not a step of `send()` or `shutdown()` in another thread. -/
def Action.byLoopThread : Action T → Bool
  | .otherSend .. => false
  | .otherSendPush .. => false
  | .otherShutdown .. => false
  | .otherShutdownSet .. => false
  | .otherShutdownPush .. => false
  | _ => true

/-- `shutdown()` on a connection that is connected finds nothing being written. -/
def ShutsDownIdle (s : ConnectionSystem T) (a : Action T) : Prop :=
  a = .shutdown → s.conn.state = .kConnected → s.conn.isWriting = false

instance [DecidableEq T] (s : ConnectionSystem T) (a : Action T) : Decidable (ShutsDownIdle s a) :=
  inferInstanceAs (Decidable (_ → _))

theorem shutsDownIdle_of_ne (h : a ≠ .shutdown) : s.ShutsDownIdle a :=
  fun ha => absurd ha h

/-- What a run of the loop thread alone keeps. -/
structure LoopThread (s : ConnectionSystem T) : Prop where
  threads : ∀ t, s.threads t = .idle
  functors : .shutdownInLoop ∉ s.functors

theorem LoopThread.keep (h : s.LoopThread) {l l' : List (Functor T)} (hturn : Turnover s s' l l')
    (hl : .shutdownInLoop ∉ l') (ht : s'.threads = s.threads) : s'.LoopThread := by
  obtain ⟨rest, hs, hs'⟩ := hturn
  refine ⟨fun t => by rw [ht, h.threads], fun hmem => ?_⟩
  rw [hs', List.mem_append] at hmem
  rcases hmem with hmem | hmem
  · refine h.functors ?_
    rw [hs]
    exact List.mem_append_right l hmem
  · exact hl hmem

/-- A quiet step of the loop thread. -/
theorem LoopThread.quiet (h : s.LoopThread) (hq : Quiet s.conn s'.conn) {l : List (Functor T)}
    (hb : s.batch = l ++ s'.batch) (ht : s'.threads = s.threads) : s'.LoopThread := by
  obtain ⟨l', hl', hw⟩ := hq.queue
  exact h.keep (turnover_of hb hl') (fun hmem => nomatch hw _ hmem) ht

/-- Only `shutdown()` on a connection that is connected can find something being written. -/
theorem Passes.shutsDownIdle (hp : Passes s a s') : s.ShutsDownIdle a := by
  intro ha hstate
  subst ha
  cases hp with
  | ignored hne _ => exact absurd hstate hne

variable [DecidableEq T]

theorem loopThread_step (hlive : s.Live) (h : s.LoopThread) (ha : a.byLoopThread = true)
    (hstep : step s a = .ok s') : s'.LoopThread := by
  cases moves_of_step hlive.state hstep with
  | passes hp =>
    obtain ⟨hturn, -⟩ := hp.turnover
    apply h.keep hturn List.not_mem_nil
    obtain ⟨loop, revents, phase, rfl⟩ := hp.frame
    rfl
  | notify => exact ⟨h.threads, h.functors⟩
  | close _ hphase _ hclose =>
    rcases (handleClose_spec hclose).removal with ⟨-, -, -, hq⟩ | ⟨-, -, hq⟩
    · exact h.keep (turnover_of (l := []) (batch_handling hphase) hq) (by simp) rfl
    · exact h.keep (turnover_same (batch_handling hphase) hq) List.not_mem_nil rfl
  | drain _ hphase hdrain =>
    exact h.quiet (l := []) (handleWrite_spec hdrain).quiet (batch_handling hphase) rfl
  | destroy _ hphase hdestroy =>
    obtain ⟨-, rfl⟩ := connectionDestroyed_ok hlive.state hdestroy
    exact h.keep (turnover_of (l := [_]) (batch_running hphase) (List.append_nil _).symm) (by simp)
      rfl
  | runSend _ hphase hsend =>
    exact h.quiet (l := [_]) (sendInLoop_spec hsend).quiet (batch_running hphase) rfl
  | runShutdown _ hphase =>
    exact h.quiet (l := [_]) (shutdownInLoop_spec s.conn).quiet (batch_running hphase) rfl
  | send _ _ hsend => exact h.quiet (l := []) (sendInLoop_spec hsend).quiet rfl rfl
  | shutdown _ _ => exact h.quiet (l := []) (shutdown_spec s.conn).quiet rfl rfl
  | otherSend _ _ => cases ha
  | otherSendPush _ => cases ha
  | otherShutdown _ _ _ => cases ha
  | otherShutdownSet _ => cases ha
  | otherShutdownPush _ => cases ha
  | otherFunctor => exact h.keep (turnover_push .other s.threads) (by simp) rfl
  | baseRemove _ _ =>
    exact h.keep (turnover_of (l := []) rfl (EventLoop.queueInLoop_pendingFunctors ..)) (by simp)
      rfl

/-! ## The half-close -/

/-- What a step of the loop thread does to the half-close. -/
inductive HalfCloseStep (s : ConnectionSystem T) (a : Action T) (s' : ConnectionSystem T) : Prop
  | kept (idle : s.ShutsDownIdle a) (called : s'.shutdownCalled = s.shutdownCalled)
      (writes : s'.conn.record.shutdownWrites = s.conn.record.shutdownWrites)
      (state : s'.conn.state = .kConnected → s.conn.state = .kConnected)
  | shutdown (action : a = .shutdown) (connected : s.conn.state = .kConnected)
      (called : s'.shutdownCalled = true) (state : s'.conn.state ≠ .kConnected)
      (writes : s'.conn.record.shutdownWrites = s.conn.record.shutdownWrites ++
        if s.conn.isWriting = true then [] else [s.conn.outputBuffer.length])

omit [DecidableEq T] in
/-- Writing and sending leave the half-close alone. -/
theorem HalfCloseStep.of_sent {message : Bytes} (ha : a ≠ .shutdown)
    (hcalled : s'.shutdownCalled = s.shutdownCalled) (h : Sent s.conn message s'.conn) :
    HalfCloseStep s a s' :=
  .kept (shutsDownIdle_of_ne ha) hcalled h.shutdownWrites fun heq => h.state ▸ heq

theorem halfClose_step (hlive : s.Live) (h : s.LoopThread) (ha : a.byLoopThread = true)
    (hstep : step s a = .ok s') : HalfCloseStep s a s' := by
  cases moves_of_step hlive.state hstep with
  | passes hp =>
    have hidle := hp.shutsDownIdle
    obtain ⟨loop, revents, phase, rfl⟩ := hp.frame
    exact .kept hidle rfl rfl id
  | notify => exact .kept (shutsDownIdle_of_ne (by simp)) rfl rfl id
  | close _ _ _ hclose =>
    have hc := handleClose_spec hclose
    refine .kept (shutsDownIdle_of_ne (by simp)) rfl (by rw [hc.record]) fun heq => ?_
    cases hc.state.symm.trans heq
  | drain _ _ hdrain => exact .of_sent (by simp) rfl (handleWrite_spec hdrain)
  | destroy _ _ hdestroy =>
    obtain ⟨-, rfl⟩ := connectionDestroyed_ok hlive.state hdestroy
    exact .kept (shutsDownIdle_of_ne (by simp)) rfl rfl id
  | runSend _ _ hsend => exact .of_sent (by simp) rfl (sendInLoop_spec hsend)
  | runShutdown _ hphase =>
    refine absurd ?_ h.functors
    rw [functors, batch_running hphase]
    exact List.mem_cons_self
  | send _ _ hsend => exact .of_sent (by simp) rfl (sendInLoop_spec hsend)
  | shutdown _ hstate =>
    refine .shutdown rfl hstate rfl ?_ (shutdown_shutdownWrites hstate)
    dsimp only
    rw [TcpConnection.shutdown, if_pos hstate, shutdownInLoop_state]
    simp
  | otherSend _ _ => cases ha
  | otherSendPush _ => cases ha
  | otherShutdown _ _ _ => cases ha
  | otherShutdownSet _ => cases ha
  | otherShutdownPush _ => cases ha
  | otherFunctor => exact .kept (shutsDownIdle_of_ne (by simp)) rfl rfl id
  | baseRemove _ _ => exact .kept (shutsDownIdle_of_ne (by simp)) rfl rfl id

/-- How far the half-close is; `idle` says that every `shutdown()` found nothing being
written. -/
inductive HalfClose (s : ConnectionSystem T) (idle : Prop) : Prop
  | notCalled (called : s.shutdownCalled = false) (writes : s.conn.record.shutdownWrites = [])
      (holds : idle)
  | done (called : s.shutdownCalled = true) (state : s.conn.state ≠ .kConnected)
      (writes : s.conn.record.shutdownWrites = [0]) (holds : idle)
  | missed (called : s.shutdownCalled = true) (state : s.conn.state ≠ .kConnected)
      (writes : s.conn.record.shutdownWrites = []) (fails : ¬ idle)

section Runs

variable {owner : Owner} {w : Bool} {as : List (Action T)}

theorem run_loopThread (hloop : ∀ a ∈ as, Action.byLoopThread a = true)
    (hrun : run step (init owner w) as = .ok s) :
    s = init owner w ∨ s.Live ∧ s.LoopThread ∧ s.Streaming :=
  run_established (I := fun s => s.LoopThread ∧ s.Streaming)
    (C := fun _ a => a.byLoopThread = true)
    ⟨⟨fun _ => rfl, List.not_mem_nil⟩, established_streaming owner w⟩
    (fun _ _ _ hlive hi ha hs =>
      ⟨loopThread_step hlive hi.1 ha hs, streaming_step hlive hi.2 hs⟩)
    (along_of_forall_mem hloop) hrun

theorem run_halfClose (hloop : ∀ a ∈ as, Action.byLoopThread a = true)
    (hrun : run step (init owner w) as = .ok s) :
    HalfClose s (Along step ShutsDownIdle (init owner w) as) := by
  refine run_history (J := fun as s => (∀ a ∈ as, Action.byLoopThread a = true) →
    HalfClose s (Along step ShutsDownIdle (init owner w) as)) (fun _ => .notCalled rfl rfl trivial)
    (fun as t a u ht hj hs hloop => ?_) hrun hloop
  have hloop' : ∀ b ∈ as, Action.byLoopThread b = true := fun b hb =>
    hloop b (List.mem_append_left _ hb)
  have ha : a.byLoopThread = true := hloop a (List.mem_append_right _ List.mem_cons_self)
  rw [along_concat ht]
  rcases run_loopThread hloop' ht with rfl | ⟨hlive, hthread, hstr⟩
  · -- Before the connection is established `shutdown()` is ignored.
    have hidle : ShutsDownIdle (init owner w) a := nofun
    cases hj hloop' with
    | notCalled _ _ hall =>
      rcases first_step hs with rfl | rfl
      · exact .notCalled rfl rfl ⟨hall, hidle⟩
      · exact .notCalled rfl rfl ⟨hall, hidle⟩
    | done hcalled => cases hcalled
    | missed hcalled => cases hcalled
  · cases halfClose_step hlive hthread ha hs with
    | kept hidle hcalled hwrites hstate =>
      cases hj hloop' with
      | notCalled h hw hall =>
        exact .notCalled (hcalled.trans h) (hwrites.trans hw) ⟨hall, hidle⟩
      | done h hst hw hall =>
        exact .done (hcalled.trans h) (mt hstate hst) (hwrites.trans hw) ⟨hall, hidle⟩
      | missed h hst hw hall =>
        exact .missed (hcalled.trans h) (mt hstate hst) (hwrites.trans hw) fun hn => hall hn.1
    | shutdown haction hconnected hcalled hstate hwrites =>
      subst haction
      cases hj hloop' with
      | notCalled _ hw hall =>
        rw [hw, List.nil_append] at hwrites
        cases hwriting : t.conn.isWriting with
        | false =>
          -- Nothing is being written, so nothing is queued.
          have hopen : ¬ t.Closed := fun hc => hlive.closed hc hconnected
          have hempty : t.conn.outputBuffer = [] := by
            by_contra hne
            rw [(hstr.writing hopen).mpr hne] at hwriting
            cases hwriting
          rw [hwriting, if_neg Bool.false_ne_true, hempty] at hwrites
          exact .done hcalled hstate hwrites ⟨hall, fun _ _ => hwriting⟩
        | true =>
          rw [hwriting, if_pos rfl] at hwrites
          refine .missed hcalled hstate hwrites fun hn => ?_
          cases hwriting.symm.trans (hn.2 rfl hconnected)
      | done _ hst => exact absurd hconnected hst
      | missed _ hst => exact absurd hconnected hst

/-- `shutdown()` was called, and its half-close has nothing left to wait for. -/
structure HalfCloseDue (s : ConnectionSystem T) : Prop where
  called : s.shutdownCalled = true
  drained : s.conn.outputBuffer = []
  notWriting : s.conn.isWriting = false
  opened : ¬ s.Closed

instance (s : ConnectionSystem T) : Decidable s.HalfCloseDue :=
  decidable_of_iff (s.shutdownCalled = true ∧ s.conn.outputBuffer = [] ∧
      s.conn.isWriting = false ∧ ¬ s.Closed)
    ⟨fun ⟨h₁, h₂, h₃, h₄⟩ => ⟨h₁, h₂, h₃, h₄⟩, fun h => ⟨h.1, h.2, h.3, h.4⟩⟩

/-- No half-close cuts off queued output, and one that is due has been carried out once. -/
structure GracefulShutdown (s : ConnectionSystem T) : Prop where
  nothingCut : ∀ queued ∈ s.conn.record.shutdownWrites, queued = 0
  once : s.HalfCloseDue → s.conn.record.shutdownWrites.length = 1

theorem graceful_shutdown_iff (hloop : ∀ a ∈ as, Action.byLoopThread a = true)
    (hrun : run step (init owner w) as = .ok s) :
    s.GracefulShutdown ↔ (s.HalfCloseDue → Along step ShutsDownIdle (init owner w) as) := by
  cases run_halfClose hloop hrun with
  | notCalled hcalled hwrites hidle =>
    refine iff_of_true ⟨fun n hn => ?_, fun hdue => ?_⟩ fun _ => hidle
    · rw [hwrites] at hn
      cases hn
    · cases hcalled.symm.trans hdue.called
  | done _ _ hwrites hidle =>
    refine iff_of_true ⟨fun n hn => ?_, fun _ => ?_⟩ fun _ => hidle
    · rw [hwrites] at hn
      exact List.mem_singleton.mp hn
    · rw [hwrites]
      rfl
  | missed _ _ hwrites hidle =>
    constructor
    · intro h hdue
      have hone := h.once hdue
      rw [hwrites] at hone
      cases hone
    · intro h
      refine ⟨fun n hn => ?_, fun hdue => absurd (h hdue) hidle⟩
      rw [hwrites] at hn
      cases hn

end Runs

/-- `shutdown()` after a partial write has been drained. -/
theorem graceful_shutdown_sample :
    ∃ s : ConnectionSystem Bool, run step (init .client false)
        [.connectionEstablished, .connectionCallback, .send (.string [1, 2]) 1,
          .poll POLLOUT .data, .handleEvent 1, .shutdown] = .ok s ∧
      s.HalfCloseDue ∧ s.GracefulShutdown := by
  have hend : endsIn step (fun s => decide s.HalfCloseDue)
        (init .client false : ConnectionSystem Bool)
        [.connectionEstablished, .connectionCallback, .send (.string [1, 2]) 1,
          .poll POLLOUT .data, .handleEvent 1, .shutdown] = true := by
    decide +kernel
  obtain ⟨s, hrun, hs⟩ := endsIn_iff.mp hend
  have hdue : s.HalfCloseDue := decide_eq_true_eq.mp hs
  exact ⟨s, hrun, hdue, (graceful_shutdown_iff (by decide) hrun).mpr fun _ => by decide +kernel⟩

/-- `shutdown()` while a message is being written: the last of it is drained, and the
half-close does not follow. -/
theorem deferred_half_close_lost :
    ∃ s : ConnectionSystem Bool, run step (init .client false)
        [.connectionEstablished, .connectionCallback, .send (.string [1, 2]) 1, .shutdown,
          .poll POLLOUT .data, .handleEvent 1] = .ok s ∧
      ¬ s.GracefulShutdown := by
  have hend : endsIn step
        (fun s => decide s.HalfCloseDue && decide (s.conn.record.shutdownWrites = []))
        (init .client false : ConnectionSystem Bool)
        [.connectionEstablished, .connectionCallback, .send (.string [1, 2]) 1, .shutdown,
          .poll POLLOUT .data, .handleEvent 1] = true := by
    decide +kernel
  obtain ⟨s, hrun, hs⟩ := endsIn_iff.mp hend
  rw [Bool.and_eq_true, decide_eq_true_eq, decide_eq_true_eq] at hs
  refine ⟨s, hrun, fun h => ?_⟩
  have hone := h.once hs.1
  rw [hs.2] at hone
  cases hone

end Summer.Net.ConnectionSystem
