import Summer.Net.ConnectionInvariant

/-!
# How often a connection is closed

A dispatch closes the connection for a hang-up and for an end of file, and nothing stops
it from doing both. Between the close and `connectionDestroyed` the channel is still
registered, and `epoll` reports a hang-up for an empty mask: with a base loop of its own
the connection can be closed again.
-/
namespace Summer.Net.ConnectionSystem

open Summer.Lib TcpConnection

variable {T : Type} {s s' : ConnectionSystem T} {a : Action T}

/-- Whether a callback closes the connection, in a dispatch whose read gives `read`. -/
def closesWith (read : ReadResult) : EventCallback → Bool
  | .closeCallback => true
  | .errorCallback => false
  | .readCallback => read == .eof
  | .writeCallback => false

/-- The closes left in the dispatch. -/
def closesLeft (s : ConnectionSystem T) : Nat :=
  match s.phase with
  | .handling callbacks read => callbacks.countP (closesWith read)
  | _ => 0

/-- `poll` reports a hang-up and nothing to read. -/
def Action.hangsUp : Action T → Bool
  | .poll revents _ => revents.has POLLHUP && !revents.has POLLIN
  | _ => false

/-- `poll` reports something to read, and it is the end of the file. -/
def Action.readsEof : Action T → Bool
  | .poll revents read => revents.has (POLLIN ||| POLLPRI ||| POLLRDHUP) && read == .eof
  | _ => false

/-- Not both in one dispatch, and neither once the connection is closed. -/
def ClosesOnce (s : ConnectionSystem T) (a : Action T) : Prop :=
  if s.Closed then a.hangsUp = false ∧ a.readsEof = false
  else a.hangsUp = false ∨ a.readsEof = false

instance (s : ConnectionSystem T) (a : Action T) : Decidable (ClosesOnce s a) :=
  inferInstanceAs (Decidable (if s.Closed then a.hangsUp = false ∧ a.readsEof = false
    else a.hangsUp = false ∨ a.readsEof = false))

/-- The closes of a dispatch, read off its mask. -/
theorem closes_handleEvent (c : Channel) (read : ReadResult) :
    c.handleEvent.countP (closesWith read) =
      (c.revents.has POLLHUP && !c.revents.has POLLIN).toNat +
        (c.revents.has (POLLIN ||| POLLPRI ||| POLLRDHUP) && read == .eof).toNat := by
  have hone : ∀ (b : Bool) (callback : EventCallback),
      (if b = true then [callback] else []).countP (closesWith read) =
        (b && closesWith read callback).toNat := by
    intro b callback
    cases b with
    | false => rfl
    | true =>
      rw [if_pos rfl, List.countP_singleton, Bool.true_and]
      cases closesWith read callback <;> rfl
  rw [Channel.handleEvent, List.countP_append, List.countP_append, List.countP_append, hone, hone,
    hone, hone]
  simp only [closesWith, Bool.and_true, Bool.and_false, Bool.toNat_false, Nat.add_zero]

/-- The connection is closed once at the most, with what is left of the dispatch. -/
def Budget (s : ConnectionSystem T) : Prop := s.conn.record.closeCallbacks + s.closesLeft ≤ 1

theorem Budget.congr (h : s.Budget)
    (hclose : s'.conn.record.closeCallbacks = s.conn.record.closeCallbacks)
    (hleft : s'.closesLeft = s.closesLeft) : s'.Budget := by
  rw [Budget, hclose, hleft]
  exact h

theorem budget_poll {revents : Events} {read : ReadResult} {conn : TcpConnection T}
    (h : s.Budget) (hc : s.ClosesOnce (.poll revents read))
    (hclose : conn.record.closeCallbacks = s.conn.record.closeCallbacks) :
    Budget { s with
      conn := conn
      phase := .handling { s.conn.channel with revents := revents }.handleEvent read } := by
  show conn.record.closeCallbacks +
    { s.conn.channel with revents := revents }.handleEvent.countP (closesWith read) ≤ 1
  rw [hclose, closes_handleEvent]
  show s.conn.record.closeCallbacks +
    ((Action.poll revents read : Action T).hangsUp.toNat +
      (Action.poll revents read : Action T).readsEof.toNat) ≤ 1
  have hone : s.conn.record.closeCallbacks ≤ 1 := Nat.le_trans (Nat.le_add_right _ _) h
  rw [ClosesOnce] at hc
  split at hc
  · rw [hc.1, hc.2, Bool.toNat_false]
    exact hone
  · rename_i hopen
    have hzero : s.conn.record.closeCallbacks = 0 := Nat.eq_zero_of_not_pos hopen
    rw [hzero]
    rcases hc with hup | heof
    · rw [hup, Bool.toNat_false, Nat.zero_add, Nat.zero_add]
      exact Bool.toNat_le _
    · rw [heof, Bool.toNat_false, Nat.add_zero, Nat.zero_add]
      exact Bool.toNat_le _

/-- The closes left when one more callback is to be called. -/
theorem closesLeft_cons {callback : EventCallback} {callbacks : List EventCallback}
    {read : ReadResult} (hphase : s.phase = .handling (callback :: callbacks) read) :
    s.closesLeft = callbacks.countP (closesWith read) + (closesWith read callback).toNat := by
  rw [closesLeft, hphase]
  dsimp only
  rw [List.countP_cons]
  cases closesWith read callback <;> rfl

theorem closesWith_close {read : ReadResult} {callback : EventCallback}
    (h : callback = .closeCallback ∨ callback = .readCallback ∧ read = .eof) :
    closesWith read callback = true := by
  rcases h with rfl | ⟨rfl, rfl⟩ <;> rfl

theorem closesWith_noClose {read : ReadResult} {callback : EventCallback}
    (h : callback = .errorCallback ∨ callback = .readCallback ∧ read ≠ .eof) :
    closesWith read callback = false := by
  rcases h with rfl | ⟨rfl, hne⟩
  · rfl
  · exact beq_eq_false_iff_ne.mpr hne

theorem closesLeft_between (hphase : s.phase = .between) : s.closesLeft = 0 := by
  rw [closesLeft, hphase]

theorem closesLeft_running {fs : List (Functor T)} (hphase : s.phase = .running fs) :
    s.closesLeft = 0 := by
  rw [closesLeft, hphase]

theorem Budget.passes (h : s.Budget) (hc : s.ClosesOnce a) (hp : Passes s a s') : s'.Budget := by
  cases hp with
  | poll _ _ _ => exact budget_poll h hc rfl
  | pollOther _ hphase => exact h.congr rfl (closesLeft_between hphase).symm
  | noClose _ hphase hcb =>
    refine h.congr rfl ?_
    rw [closesLeft_cons hphase, closesWith_noClose hcb]
    rfl
  | swap _ hphase =>
    refine h.congr rfl ?_
    rw [closesLeft, closesLeft, hphase]
    rfl
  | runOther _ hphase _ => exact h.congr rfl (closesLeft_running hphase).symm
  | endPass _ hphase => exact h.congr rfl (closesLeft_running hphase).symm
  | ignored => exact h

variable [DecidableEq T]

theorem budget_step (hlive : s.Live) (h : s.Budget) (hc : s.ClosesOnce a)
    (hstep : step s a = .ok s') : s'.Budget := by
  cases moves_of_step hlive.state hstep with
  | passes hp => exact h.passes hc hp
  | notify => exact h.congr rfl rfl
  | close _ hphase hcb hclose =>
    -- One close of the dispatch is done, so one less is left.
    rw [Budget, closesLeft_cons hphase, closesWith_close hcb, Bool.toNat_true] at h
    rw [Budget, closesLeft, (handleClose_spec hclose).record]
    dsimp only
    omega
  | drain _ hphase hdrain =>
    apply h.congr (handleWrite_spec hdrain).quiet.closeCallbacks
    rw [closesLeft_cons hphase]
    rfl
  | destroy _ hphase hdestroy =>
    obtain ⟨-, rfl⟩ := connectionDestroyed_ok hlive.state hdestroy
    exact h.congr rfl (closesLeft_running hphase).symm
  | runSend _ hphase hsend =>
    exact h.congr (sendInLoop_spec hsend).quiet.closeCallbacks (closesLeft_running hphase).symm
  | runShutdown _ hphase =>
    exact h.congr (shutdownInLoop_spec s.conn).quiet.closeCallbacks
      (closesLeft_running hphase).symm
  | send _ _ hsend => exact h.congr (sendInLoop_spec hsend).quiet.closeCallbacks rfl
  | shutdown _ _ => exact h.congr (shutdown_spec s.conn).quiet.closeCallbacks rfl
  | otherSend _ _ => exact h.congr rfl rfl
  | otherSendPush _ => exact h.congr rfl rfl
  | otherShutdown _ _ _ => exact h.congr rfl rfl
  | otherShutdownSet _ => exact h.congr rfl rfl
  | otherShutdownPush _ => exact h.congr rfl rfl
  | otherFunctor => exact h.congr rfl rfl
  | baseRemove _ _ => exact h.congr rfl rfl

/-- The assertion of the server or of the client that it holds the connection it removes. -/
def RemovalFault (f : Fault) : Prop :=
  f = .assertion .removeConnectionInLoop ∨ f = .assertion .removeConnection

instance (f : Fault) : Decidable (RemovalFault f) := inferInstanceAs (Decidable (_ ∨ _))

theorem Budget.no_removalFault {f : Fault} (hlive : s.Live) (h : s.Budget)
    (hf : Faults s a f) : ¬ RemovalFault f := by
  have hrem := hlive.removal
  rw [Budget] at h
  cases hf with
  | notEnabled => decide
  | close hphase hcb hclose =>
    rcases handleClose_error hclose with ⟨rfl, -⟩ | ⟨hheld, -⟩
    · decide
    · -- This close is the first, and until then the connection is held.
      rw [closesLeft_cons hphase, closesWith_close hcb, Bool.toNat_true] at h
      rw [hheld, Bool.toNat_false] at hrem
      omega
  | drain _ hdrain =>
    rcases handleWrite_error hdrain with rfl | ⟨rfl, -⟩ <;> decide
  | destroy _ hdestroy =>
    obtain ⟨rfl, -⟩ := connectionDestroyed_error hlive.state hdestroy
    decide
  | runSend _ hsend =>
    rcases sendInLoop_error hsend with rfl | ⟨rfl, -⟩ <;> decide
  | send _ hsend =>
    rcases sendInLoop_error hsend with rfl | ⟨rfl, -⟩ <;> decide
  | baseRemove hpos hheld =>
    -- A removal is left and another one was carried out.
    rw [hheld, Bool.toNat_false] at hrem
    omega

theorem closed_at_most_once {owner : Owner} {w : Bool} {as : List (Action T)}
    (hcond : Along step ClosesOnce (init owner w) as) :
    (∀ s, run step (init owner w) as = .ok s → s.conn.record.closeCallbacks ≤ 1) ∧
      ∀ f, run step (init owner w) as = .error f → ¬ RemovalFault f := by
  have hinit : (established owner w : ConnectionSystem T).Budget := Nat.zero_le 1
  have hstep : ∀ (s : ConnectionSystem T) a t, s.Live → s.Budget → s.ClosesOnce a →
      step s a = .ok t → t.Budget := fun _ _ _ hlive h hc hs => budget_step hlive h hc hs
  constructor
  · intro s hrun
    rcases run_established hinit hstep hcond hrun with rfl | ⟨-, h⟩
    · exact Nat.zero_le 1
    · exact Nat.le_trans (Nat.le_add_right _ _) h
  · intro f hrun
    exact run_fault hinit hstep (fun _ _ _ hlive h _ hf => h.no_removalFault hlive hf) (by decide)
      hcond hrun

/-- An end of file together with a hang-up, and the removal by the base loop. -/
theorem closed_at_most_once_sample :
    ∃ s : ConnectionSystem Bool, run step (init (.server false) false)
        [.connectionEstablished, .connectionCallback, .poll (POLLIN ||| POLLHUP) .eof,
          .handleEvent 0, .removeConnectionInLoop, .doPendingFunctor, .runFunctor 0] = .ok s ∧
      s.conn.record.closeCallbacks ≤ 1 := by
  have hend : endsIn step (fun _ => true) (init (.server false) false : ConnectionSystem Bool)
        [.connectionEstablished, .connectionCallback, .poll (POLLIN ||| POLLHUP) .eof,
          .handleEvent 0, .removeConnectionInLoop, .doPendingFunctor, .runFunctor 0] = true := by
    decide +kernel
  obtain ⟨s, hrun, -⟩ := endsIn_iff.mp hend
  exact ⟨s, hrun, (closed_at_most_once (by decide +kernel)).1 s hrun⟩

/-- Before the base loop has removed the connection that read the end of the file, its channel
is reported once more: it is closed twice, and the second removal finds nothing. -/
theorem closed_twice :
    (∃ s : ConnectionSystem Bool, run step (init (.server false) false)
        [.connectionEstablished, .connectionCallback, .poll POLLIN .eof, .handleEvent 0,
          .doPendingFunctor, .endPass, .poll POLLHUP .data, .handleEvent 0] = .ok s ∧
      s.conn.record.closeCallbacks = 2) ∧
    run step (init (.server false) false : ConnectionSystem Bool)
        [.connectionEstablished, .connectionCallback, .poll POLLIN .eof, .handleEvent 0,
          .doPendingFunctor, .endPass, .poll POLLHUP .data, .handleEvent 0,
          .removeConnectionInLoop, .removeConnectionInLoop] =
      .error (.assertion .removeConnectionInLoop) := by
  constructor
  · have hend : endsIn step (fun s => decide (s.conn.record.closeCallbacks = 2))
        (init (.server false) false : ConnectionSystem Bool)
        [.connectionEstablished, .connectionCallback, .poll POLLIN .eof, .handleEvent 0,
          .doPendingFunctor, .endPass, .poll POLLHUP .data, .handleEvent 0] = true := by
      decide +kernel
    obtain ⟨s, hrun, hs⟩ := endsIn_iff.mp hend
    exact ⟨s, hrun, decide_eq_true_eq.mp hs⟩
  · exact faultOf_eq_some.mp (by decide +kernel)

end Summer.Net.ConnectionSystem
