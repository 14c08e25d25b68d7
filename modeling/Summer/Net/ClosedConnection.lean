import Summer.Net.ConnectionInvariant

/-!
# What is done to a closed connection

`send()` tests `state_` in the thread that calls it, and the `sendInLoop` it queues tests
nothing. A closed connection is left alone as long as no such functor runs after the close;
one that does writes to the descriptor, and asks for write events of a channel that is about
to be removed or was removed already.
-/
namespace Summer.Net.ConnectionSystem

open Summer.Lib TcpConnection

variable {T : Type} {s s' : ConnectionSystem T} {a : Action T}

def Action.runsFunctor : Action T → Bool
  | .runFunctor _ => true
  | _ => false

/-- The message of the functor that is about to run, if that is a `sendInLoop`. -/
def nextMessage (s : ConnectionSystem T) : Option Bytes :=
  match s.batch with
  | .sendInLoop _ message :: _ => some message
  | _ => none

/-- A closed connection runs no `sendInLoop`, or only one that sends nothing behind output
which is still queued. -/
def SendsBeforeClose (s : ConnectionSystem T) (a : Action T) : Prop :=
  a.runsFunctor = true → s.Closed →
    ∀ message ∈ s.nextMessage, message = [] ∧ s.conn.outputBuffer ≠ []

instance (s : ConnectionSystem T) (a : Action T) : Decidable (SendsBeforeClose s a) :=
  inferInstanceAs (Decidable (_ → _ → _))

/-- The channel is registered until the connection is destroyed, with no events once it is
closed. -/
structure Watched (s : ConnectionSystem T) : Prop where
  registered : s.destroyed = false → s.conn.Registered
  removed : s.destroyed = true → s.conn.poller.registered = none
  events : s.Closed → s.conn.channel.events = kNoneEvent
  handling : ∀ callback callbacks read, s.phase = .handling (callback :: callbacks) read →
    s.destroyed = false

theorem Polled.watched (h : s.Polled) (hevents : s.Closed → s.conn.channel.events = kNoneEvent) :
    s.Watched :=
  ⟨h.registered, fun hd => (h.removed hd).2, hevents, h.handling⟩

/-- On a closed connection `handleWrite` finds no write events asked for. -/
theorem Watched.handleWrite_closed (h : s.Watched) (hc : s.Closed) (n : Int) :
    s.conn.handleWrite n = .ok s.conn := by
  apply handleWrite_idle
  rw [TcpConnection.isWriting, Channel.isWriting, h.events hc]
  exact has_none _

/-- The `sendInLoop` the condition allows on a closed connection does nothing. -/
theorem SendsBeforeClose.sendInLoop_closed {n k : Int} {u : T} {message : Bytes}
    {fs : List (Functor T)} (hcond : s.SendsBeforeClose (.runFunctor n)) (hc : s.Closed)
    (hphase : s.phase = .running (.sendInLoop u message :: fs)) :
    s.conn.sendInLoop message k = .ok s.conn := by
  have hnext : s.nextMessage = some message := by rw [nextMessage, batch, hphase]
  obtain ⟨rfl, hb⟩ := hcond rfl hc message hnext
  exact sendInLoop_empty hb

variable [DecidableEq T]

omit [DecidableEq T] in
theorem Watched.events_congr (h : s.Watched)
    (hevents : s'.conn.channel.events = s.conn.channel.events)
    (hclose : s'.conn.record.closeCallbacks = s.conn.record.closeCallbacks) (hc : s'.Closed) :
    s'.conn.channel.events = kNoneEvent := by
  rw [Closed, hclose] at hc
  exact hevents.trans (h.events hc)

/-- Only a `sendInLoop` and a drain could ask for events again. -/
theorem events_step (hlive : s.Live) (h : s.Watched) (hcond : s.SendsBeforeClose a)
    (hstep : step s a = .ok s') : s'.Closed → s'.conn.channel.events = kNoneEvent := by
  have hquiet : ∀ {conn : TcpConnection T}, ¬ s.Closed → Quiet s.conn conn →
      ¬ 0 < conn.record.closeCallbacks := by
    intro conn hopen hq
    rw [hq.closeCallbacks]
    exact hopen
  cases moves_of_step hlive.state hstep with
  | passes hp =>
    obtain ⟨loop, revents, phase, rfl⟩ := hp.frame
    exact h.events_congr rfl rfl
  | notify => exact h.events_congr rfl rfl
  | close _ _ _ hclose => exact fun _ => (handleClose_spec hclose).events
  | @drain n _ _ _ _ _ hdrain =>
    by_cases hc : s.Closed
    · cases (h.handleWrite_closed hc n).symm.trans hdrain
      exact h.events_congr rfl rfl
    · exact fun hc' => absurd hc' (hquiet hc (handleWrite_spec hdrain).quiet)
  | destroy _ _ hdestroy =>
    obtain ⟨-, rfl⟩ := connectionDestroyed_ok hlive.state hdestroy
    exact h.events_congr rfl rfl
  | runSend _ hphase hsend =>
    by_cases hc : s.Closed
    · cases (hcond.sendInLoop_closed hc hphase).symm.trans hsend
      exact h.events_congr rfl rfl
    · exact fun hc' => absurd hc' (hquiet hc (sendInLoop_spec hsend).quiet)
  | runShutdown _ _ =>
    have hs := shutdownInLoop_spec s.conn
    exact h.events_congr (congrArg _ hs.channel) hs.quiet.closeCallbacks
  | send _ hstate hsend =>
    have hopen : ¬ s.Closed := fun hc => hlive.closed hc hstate
    exact fun hc' => absurd hc' (hquiet hopen (sendInLoop_spec hsend).quiet)
  | shutdown _ hstate =>
    have hopen : ¬ s.Closed := fun hc => hlive.closed hc hstate
    exact fun hc' => absurd hc' (hquiet hopen (shutdown_spec s.conn).quiet)
  | otherSend _ _ => exact h.events_congr rfl rfl
  | otherSendPush _ => exact h.events_congr rfl rfl
  | otherShutdown _ _ _ => exact h.events_congr rfl rfl
  | otherShutdownSet _ => exact h.events_congr rfl rfl
  | otherShutdownPush _ => exact h.events_congr rfl rfl
  | otherFunctor => exact h.events_congr rfl rfl
  | baseRemove _ _ => exact h.events_congr rfl rfl

/-- A closed connection stays closed, and nothing is written to it. -/
theorem closed_step (hlive : s.Live) (h : s.Watched) (hcond : s.SendsBeforeClose a)
    (hc : s.Closed) (hstep : step s a = .ok s') :
    s'.Closed ∧ s'.conn.record.writeCalls = s.conn.record.writeCalls := by
  have hstate : s.conn.state ≠ .kConnected := hlive.closed hc
  cases moves_of_step hlive.state hstep with
  | passes hp =>
    obtain ⟨loop, revents, phase, rfl⟩ := hp.frame
    exact ⟨hc, rfl⟩
  | notify => exact ⟨hc, rfl⟩
  | close _ _ _ hclose =>
    have hspec := handleClose_spec hclose
    exact ⟨hspec.closed, by rw [hspec.record]⟩
  | @drain n _ _ _ _ _ hdrain =>
    cases (h.handleWrite_closed hc n).symm.trans hdrain
    exact ⟨hc, rfl⟩
  | destroy _ _ hdestroy =>
    obtain ⟨-, rfl⟩ := connectionDestroyed_ok hlive.state hdestroy
    exact ⟨hc, rfl⟩
  | runSend _ hphase hsend =>
    cases (hcond.sendInLoop_closed hc hphase).symm.trans hsend
    exact ⟨hc, rfl⟩
  | runShutdown _ _ =>
    have hs := shutdownInLoop_spec s.conn
    refine ⟨?_, hs.writeCalls⟩
    rw [Closed, hs.quiet.closeCallbacks]
    exact hc
  | send _ hconnected _ => exact absurd hconnected hstate
  | shutdown _ hconnected => exact absurd hconnected hstate
  | otherSend _ hconnected => exact absurd hconnected hstate
  | otherSendPush _ => exact ⟨hc, rfl⟩
  | otherShutdown _ _ hconnected => exact absurd hconnected hstate
  | otherShutdownSet _ => exact ⟨hc, rfl⟩
  | otherShutdownPush _ => exact ⟨hc, rfl⟩
  | otherFunctor => exact ⟨hc, rfl⟩
  | baseRemove _ _ => exact ⟨hc, rfl⟩

/-- The poller's assertions about the channel it updates or removes. -/
def PollerFault (f : Fault) : Prop :=
  f = .assertion .updateChannel ∨ f = .assertion .removeChannel

instance (f : Fault) : Decidable (PollerFault f) := inferInstanceAs (Decidable (_ ∨ _))

theorem Watched.no_pollerFault {f : Fault} (hlive : s.Live) (h : s.Watched)
    (hcond : s.SendsBeforeClose a) (hf : Faults s a f) : ¬ PollerFault f := by
  cases hf with
  | notEnabled => decide
  | close hphase _ hclose =>
    have hreg := h.registered (h.handling _ _ _ hphase)
    rcases handleClose_error hclose with ⟨-, hr⟩ | ⟨-, rfl | rfl⟩
    · exact absurd hreg hr
    · decide
    · decide
  | drain hphase hdrain =>
    have hreg := h.registered (h.handling _ _ _ hphase)
    rcases handleWrite_error hdrain with rfl | ⟨-, hr⟩
    · decide
    · exact absurd hreg hr
  | destroy hphase hdestroy =>
    obtain ⟨halive, hheld⟩ := hlive.last_destroy (batch_running hphase)
    obtain ⟨-, hr⟩ := connectionDestroyed_error hlive.state hdestroy
    exact absurd ⟨h.registered halive, h.events (hlive.closed_of_not_held hheld)⟩ hr
  | runSend hphase hsend =>
    by_cases hc : s.Closed
    · cases (hcond.sendInLoop_closed hc hphase).symm.trans hsend
    · rcases sendInLoop_error hsend with rfl | ⟨-, hr⟩
      · decide
      · exact absurd (hlive.opened hc) hr
  | send hstate hsend =>
    rcases sendInLoop_error hsend with rfl | ⟨-, hr⟩
    · decide
    · exact absurd (hlive.opened fun hc => hlive.closed hc hstate) hr
  | baseRemove _ _ => decide

/-- Between the two states nothing was written, and the channel still asks for no events. -/
structure Untouched (s t : ConnectionSystem T) : Prop where
  writeCalls : t.conn.record.writeCalls = s.conn.record.writeCalls
  events : t.conn.channel.events = kNoneEvent

theorem closed_connection_untouched {owner : Owner} {w : Bool} {as : List (Action T)}
    (hcond : Along step SendsBeforeClose (init owner w) as) :
    (∀ pre post s t, as = pre ++ post → run step (init owner w) pre = .ok s → s.Closed →
      run step s post = .ok t → Untouched s t) ∧
    ∀ f, run step (init owner w) as = .error f → ¬ PollerFault f := by
  have hinit := established_polled (T := T) owner w
  have hwatched := hinit.watched fun h => absurd h (Nat.lt_irrefl 0)
  have hstep : ∀ (s : ConnectionSystem T) a t, s.Live → s.Polled ∧ s.Watched →
      s.SendsBeforeClose a → step s a = .ok t → t.Polled ∧ t.Watched := by
    intro s a t hlive h hc hs
    obtain ⟨hp, hw⟩ := h
    have hp' := polled_step hlive hp hs
    exact ⟨hp', hp'.watched (events_step hlive hw hc hs)⟩
  constructor
  · rintro pre post s t rfl hpre hclosed hpost
    obtain ⟨hcpre, hcpost⟩ := along_append.mp hcond
    rcases run_established ⟨hinit, hwatched⟩ hstep hcpre hpre with rfl | ⟨hlive, hw⟩
    · exact absurd hclosed (Nat.lt_irrefl 0)
    obtain ⟨-, hw', hc', hsame⟩ := run_invariant
      (I := fun t => t.Live ∧ (t.Polled ∧ t.Watched) ∧ t.Closed ∧
        t.conn.record.writeCalls = s.conn.record.writeCalls)
      (fun u a v hi hc hs => by
        obtain ⟨hlive, hw, hclosed, hsame⟩ := hi
        obtain ⟨hclosed', hsame'⟩ := closed_step hlive hw.2 hc hclosed hs
        exact ⟨live_step hlive hs, hstep u a v hlive hw hc hs, hclosed', hsame'.trans hsame⟩)
      ⟨hlive, hw, hclosed, rfl⟩ (hcpost s hpre) hpost
    exact ⟨hsame, hw'.2.events hc'⟩
  · intro f hrun
    exact run_fault ⟨hinit, hwatched⟩ hstep
      (fun _ _ _ hlive h hc hf => h.2.no_pollerFault hlive hc hf) (by decide) hcond hrun

/-- A message of another thread is queued and sent before the end of the file is read. -/
theorem closed_connection_untouched_sample :
    ∃ s t : ConnectionSystem Bool, run step (init (.server true) false)
        [.connectionEstablished, .connectionCallback, .otherSend true (.string [1, 2]),
          .otherSendPush true, .pollOther, .doPendingFunctor, .runFunctor 1, .endPass,
          .poll POLLIN .eof, .handleEvent 0] = .ok s ∧
      run step s [.doPendingFunctor, .runFunctor 0, .endPass] = .ok t ∧ Untouched s t := by
  have hend : endsIn step
        (fun s => decide s.Closed &&
          endsIn step (fun _ => true) s [.doPendingFunctor, .runFunctor 0, .endPass])
        (init (.server true) false : ConnectionSystem Bool)
        [.connectionEstablished, .connectionCallback, .otherSend true (.string [1, 2]),
          .otherSendPush true, .pollOther, .doPendingFunctor, .runFunctor 1, .endPass,
          .poll POLLIN .eof, .handleEvent 0] = true := by
    decide +kernel
  obtain ⟨s, hrun, hs⟩ := endsIn_iff.mp hend
  rw [Bool.and_eq_true, decide_eq_true_eq] at hs
  obtain ⟨t, ht, -⟩ := endsIn_iff.mp hs.2
  refine ⟨s, t, hrun, ht, (@closed_connection_untouched Bool _ (.server true) false _ ?_).1 _ _ s t
    rfl hrun hs.1 ht⟩
  decide +kernel

/-- A message that passed the test of `send()` before the close is queued after it. Ahead of
`connectionDestroyed` it is written, and its rest keeps the channel from being removed; behind
it, its rest asks the poller to update a channel that was removed. -/
theorem queued_send_touches_closed :
    (∃ s t : ConnectionSystem Bool, run step (init (.server false) false)
        [.connectionEstablished, .connectionCallback, .otherSend true (.string [1, 2]),
          .poll POLLIN .eof, .handleEvent 0] = .ok s ∧ s.Closed ∧
      run step s [.otherSendPush true, .doPendingFunctor, .runFunctor 1] = .ok t ∧
      ¬ Untouched s t) ∧
    run step (init (.server false) false : ConnectionSystem Bool)
        [.connectionEstablished, .connectionCallback, .otherSend true (.string [1, 2]),
          .poll POLLIN .eof, .handleEvent 0, .otherSendPush true, .removeConnectionInLoop,
          .doPendingFunctor, .runFunctor 1, .runFunctor 0] =
      .error (.assertion .removeChannel) ∧
    run step (init (.server true) false : ConnectionSystem Bool)
        [.connectionEstablished, .connectionCallback, .otherSend true (.string [1, 2]),
          .poll POLLIN .eof, .handleEvent 0, .otherSendPush true, .doPendingFunctor,
          .runFunctor 0, .runFunctor 1] =
      .error (.assertion .updateChannel) := by
  refine ⟨?_, faultOf_eq_some.mp (by decide +kernel), faultOf_eq_some.mp (by decide +kernel)⟩
  have hend : endsIn step
        (fun s => decide s.Closed && (s.conn.record.writeCalls == 0 &&
          endsIn step (fun t => t.conn.record.writeCalls == 1) s
            [.otherSendPush true, .doPendingFunctor, .runFunctor 1]))
        (init (.server false) false : ConnectionSystem Bool)
        [.connectionEstablished, .connectionCallback, .otherSend true (.string [1, 2]),
          .poll POLLIN .eof, .handleEvent 0] = true := by
    decide +kernel
  obtain ⟨s, hrun, hs⟩ := endsIn_iff.mp hend
  rw [Bool.and_eq_true, Bool.and_eq_true, decide_eq_true_eq, beq_iff_eq] at hs
  obtain ⟨t, ht, hone⟩ := endsIn_iff.mp hs.2.2
  refine ⟨s, t, hrun, hs.1, ht, fun h => ?_⟩
  have hsame := h.writeCalls
  rw [hs.2.1, beq_iff_eq.mp hone] at hsame
  cases hsame

end Summer.Net.ConnectionSystem
