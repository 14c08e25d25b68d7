import Summer.Net.ConnectionInvariant

/-!
# The user's connection callback

`connectionEstablished` calls it, and `connectionDestroyed` would call it in `kConnecting`
only, which no connection that was established is ever in again. The first call reports
`connected()` unless another thread calls `disconnect()` just before it.
-/
namespace Summer.Net.ConnectionSystem

open Summer.Lib TcpConnection

variable {T : Type} {s s' : ConnectionSystem T} {a : Action T}

/-- The assignment to `state_` that `shutdown()` makes in another thread. -/
def Action.isShutdownSet : Action T → Bool
  | .otherShutdownSet _ => true
  | _ => false

/-- No other thread assigns `state_` between `setState(kConnected)` and the callback. -/
def Undisturbed (s : ConnectionSystem T) (a : Action T) : Prop :=
  s.establishing = true → a.isShutdownSet = false

instance (s : ConnectionSystem T) (a : Action T) : Decidable (Undisturbed s a) :=
  inferInstanceAs (Decidable (_ → _))

/-- What a step does to the callback. -/
inductive CallbackStep (s : ConnectionSystem T) (a : Action T) (s' : ConnectionSystem T) : Prop
  | kept (establishing : s'.establishing = s.establishing) (notified : s'.notified = s.notified)
      (callbacks : s'.conn.record.connectionCallbacks = s.conn.record.connectionCallbacks)
      (undisturbed : a.isShutdownSet = false)
      (early : s.establishing = true →
        s'.conn.state = s.conn.state ∧ s'.destroyed = s.destroyed)
  | notify (action : a.isShutdownSet = false) (early : s.establishing = true)
      (establishing : s'.establishing = false) (notified : s'.notified = true)
      (callbacks : s'.conn.record.connectionCallbacks =
        s.conn.record.connectionCallbacks ++ [decide (s.conn.state = .kConnected)])
  | shutdownSet (action : a.isShutdownSet = true) (establishing : s'.establishing = s.establishing)
      (notified : s'.notified = s.notified) (destroyed : s'.destroyed = s.destroyed)
      (callbacks : s'.conn.record.connectionCallbacks = s.conn.record.connectionCallbacks)
      (state : s'.conn.state = .kDisconnecting)

/-- Inside `connectionEstablished` the loop thread does nothing else. -/
theorem Free.not_early {p : Prop} (hfree : s.Free) (hearly : s.establishing = true) : p := by
  cases hearly.symm.trans hfree.2

/-- A quiet step of the loop thread. -/
theorem CallbackStep.quiet (hfree : s.Free) (hq : Quiet s.conn s'.conn)
    (he : s'.establishing = s.establishing) (hn : s'.notified = s.notified)
    (ha : a.isShutdownSet = false) : CallbackStep s a s' :=
  .kept he hn hq.connectionCallbacks ha hfree.not_early

theorem Passes.not_shutdownSet (hp : Passes s a s') : a.isShutdownSet = false := by
  cases hp with
  | ignored _ ha => rcases ha with ⟨_, _, rfl⟩ | rfl | ⟨_, _, rfl⟩ | ⟨_, rfl⟩ <;> rfl
  | _ => rfl

variable [DecidableEq T]

theorem callback_step (hlive : s.Live) (hstep : step s a = .ok s') : CallbackStep s a s' := by
  cases moves_of_step hlive.state hstep with
  | passes hp =>
    have ha := hp.not_shutdownSet
    obtain ⟨loop, revents, phase, rfl⟩ := hp.frame
    exact .kept rfl rfl rfl ha fun _ => ⟨rfl, rfl⟩
  | notify hearly => exact .notify rfl hearly rfl rfl rfl
  | close hfree _ _ hclose =>
    refine .kept rfl rfl ?_ rfl hfree.not_early
    rw [(handleClose_spec hclose).record]
  | drain hfree _ hdrain => exact .quiet hfree (handleWrite_spec hdrain).quiet rfl rfl rfl
  | destroy hfree _ hdestroy =>
    -- The state is no longer `kConnecting`, so nobody is told.
    obtain ⟨-, rfl⟩ := connectionDestroyed_ok hlive.state hdestroy
    exact .kept rfl rfl rfl rfl hfree.not_early
  | runSend hfree _ hsend => exact .quiet hfree (sendInLoop_spec hsend).quiet rfl rfl rfl
  | runShutdown hfree _ => exact .quiet hfree (shutdownInLoop_spec s.conn).quiet rfl rfl rfl
  | send hfree _ hsend => exact .quiet hfree (sendInLoop_spec hsend).quiet rfl rfl rfl
  | shutdown hfree _ => exact .quiet hfree (shutdown_spec s.conn).quiet rfl rfl rfl
  | otherSend _ _ => exact .kept rfl rfl rfl rfl fun _ => ⟨rfl, rfl⟩
  | otherSendPush _ => exact .kept rfl rfl rfl rfl fun _ => ⟨rfl, rfl⟩
  | otherShutdown _ _ _ => exact .kept rfl rfl rfl rfl fun _ => ⟨rfl, rfl⟩
  | otherShutdownSet _ => exact .shutdownSet rfl rfl rfl rfl rfl rfl
  | otherShutdownPush _ => exact .kept rfl rfl rfl rfl fun _ => ⟨rfl, rfl⟩
  | otherFunctor => exact .kept rfl rfl rfl rfl fun _ => ⟨rfl, rfl⟩
  | baseRemove _ _ => exact .kept rfl rfl rfl rfl fun _ => ⟨rfl, rfl⟩

/-! ## Runs -/

/-- The calls so far; `undisturbed` says that no `disconnect()` came before the first. -/
inductive Callbacks (s : ConnectionSystem T) (undisturbed : Prop) : Prop
  | early (establishing : s.establishing = true) (notified : s.notified = false)
      (destroyed : s.destroyed = false) (callbacks : s.conn.record.connectionCallbacks = [])
      (state : s.conn.state = .kConnected ↔ undisturbed)
  | called (establishing : s.establishing = false) (notified : s.notified = true) (b : Bool)
      (callbacks : s.conn.record.connectionCallbacks = [b]) (up : b = true ↔ undisturbed)

section Runs

variable {owner : Owner} {w : Bool} {as : List (Action T)}

theorem run_callbacks (hrun : run step (init owner w) as = .ok s) :
    s = init owner w ∧ Along step Undisturbed (init owner w) as ∨
      Callbacks s (Along step Undisturbed (init owner w) as) := by
  refine run_history (J := fun as s => s = init owner w ∧ Along step Undisturbed (init owner w) as ∨
    Callbacks s (Along step Undisturbed (init owner w) as)) (.inl ⟨rfl, trivial⟩)
    (fun as t a u ht hj hs => ?_) hrun
  rw [along_concat ht]
  rcases hj with ⟨rfl, hall⟩ | hj
  · have hquiet : Undisturbed (init owner w) a := fun h => nomatch h
    rcases first_step hs with rfl | rfl
    · exact .inl ⟨rfl, hall, hquiet⟩
    · exact .inr (.early rfl rfl rfl rfl (iff_of_true rfl ⟨hall, hquiet⟩))
  · right
    have hlive : t.Live := by
      rcases run_live ht with rfl | hlive
      · cases hj with
        | early h => cases h
        | called _ h => cases h
      · exact hlive
    cases hj with
    | early he hn hd hcb hst =>
      cases callback_step hlive hs with
      | kept he' hn' hcb' ha hsame =>
        have hstate := (hsame he).1
        refine .early (he'.trans he) (hn'.trans hn) ((hsame he).2.trans hd) (hcb'.trans hcb) ?_
        rw [hstate, hst]
        exact ⟨fun h => ⟨h, fun _ => ha⟩, fun h => h.1⟩
      | notify ha _ he' hn' hcb' =>
        rw [hcb, List.nil_append] at hcb'
        refine .called he' hn' _ hcb' ?_
        rw [decide_eq_true_eq, hst]
        exact ⟨fun h => ⟨h, fun _ => ha⟩, fun h => h.1⟩
      | shutdownSet ha he' hn' hd' hcb' hst' =>
        refine .early (he'.trans he) (hn'.trans hn) (hd'.trans hd) (hcb'.trans hcb)
          (iff_of_false ?_ fun h => ?_)
        · rw [hst']
          exact nofun
        · cases ha.symm.trans (h.2 he)
    | called he hn b hcb hup =>
      have hquiet : Undisturbed t a := fun h => nomatch he.symm.trans h
      have hup' : b = true ↔ Along step Undisturbed (init owner w) as ∧ Undisturbed t a :=
        hup.trans ⟨fun h => ⟨h, hquiet⟩, fun h => h.1⟩
      cases callback_step hlive hs with
      | kept he' hn' hcb' _ _ => exact .called (he'.trans he) (hn'.trans hn) b (hcb'.trans hcb) hup'
      | notify _ hearly => cases hearly.symm.trans he
      | shutdownSet _ he' hn' _ hcb' _ =>
        exact .called (he'.trans he) (hn'.trans hn) b (hcb'.trans hcb) hup'

/-- The user is told once that the connection is up, and once that it is down. -/
structure Paired (s : ConnectionSystem T) : Prop where
  up : s.notified = true → s.conn.record.connectionCallbacks.count true = 1
  down : s.Closed → s.destroyed = true → s.conn.record.connectionCallbacks.count false = 1

theorem connection_callbacks_paired_iff (hrun : run step (init owner w) as = .ok s) :
    s.Paired ↔ (s.notified = true → Along step Undisturbed (init owner w) as) ∧
      s.destroyed = false := by
  rcases run_callbacks hrun with ⟨rfl, hall⟩ | hcb
  · exact iff_of_true ⟨nofun, nofun⟩ ⟨fun _ => hall, rfl⟩
  · cases hcb with
    | early _ hn hd hcb hst =>
      refine iff_of_true ⟨fun h => ?_, fun _ h => ?_⟩ ⟨fun h => ?_, hd⟩
      · cases hn.symm.trans h
      · cases hd.symm.trans h
      · cases hn.symm.trans h
    | called _ hn b hcb hup =>
      have hdown : s.destroyed = true → s.Closed := fun hd => by
        rcases run_live hrun with rfl | hlive
        · cases hd
        · exact hlive.closed_of_destroyed hd
      cases b with
      | false =>
        refine iff_of_false (fun h => ?_) fun h => Bool.false_ne_true (hup.mpr (h.1 hn))
        have hone := h.up hn
        rw [hcb] at hone
        cases hone
      | true =>
        constructor
        · intro h
          refine ⟨fun _ => hup.mp rfl, ?_⟩
          by_contra hd
          rw [Bool.not_eq_false] at hd
          have hone := h.down (hdown hd) hd
          rw [hcb] at hone
          cases hone
        · intro h
          refine ⟨fun _ => by rw [hcb]; rfl, fun _ hd => ?_⟩
          cases h.2.symm.trans hd

end Runs

/-- A connection that is up and has sent a message. -/
theorem connection_callbacks_paired_sample :
    ∃ s : ConnectionSystem Bool, run step (init .client false)
        [.connectionEstablished, .connectionCallback, .send (.string [1, 2]) 2] = .ok s ∧
      s.Paired := by
  have hend : endsIn step (fun s => s.destroyed == false)
        (init .client false : ConnectionSystem Bool)
        [.connectionEstablished, .connectionCallback, .send (.string [1, 2]) 2] = true := by
    decide +kernel
  obtain ⟨s, hrun, hs⟩ := endsIn_iff.mp hend
  exact ⟨s, hrun, (connection_callbacks_paired_iff hrun).mpr
    ⟨fun _ => by decide +kernel, beq_iff_eq.mp hs⟩⟩

/-- The peer closes, the connection is destroyed, and the user is never told. -/
theorem no_down_callback :
    ∃ s : ConnectionSystem Bool, run step (init (.server true) false)
        [.connectionEstablished, .connectionCallback, .poll POLLIN .eof, .handleEvent 0,
          .doPendingFunctor, .runFunctor 0] = .ok s ∧
      ¬ s.Paired := by
  have hend : endsIn step
        (fun s => decide s.Closed && s.destroyed &&
          decide (s.conn.record.connectionCallbacks = [true]))
        (init (.server true) false : ConnectionSystem Bool)
        [.connectionEstablished, .connectionCallback, .poll POLLIN .eof, .handleEvent 0,
          .doPendingFunctor, .runFunctor 0] = true := by
    decide +kernel
  obtain ⟨s, hrun, hs⟩ := endsIn_iff.mp hend
  rw [Bool.and_eq_true, Bool.and_eq_true, decide_eq_true_eq, decide_eq_true_eq] at hs
  refine ⟨s, hrun, fun h => ?_⟩
  have hone := h.down hs.1.1 hs.1.2
  rw [hs.2] at hone
  cases hone

end Summer.Net.ConnectionSystem
