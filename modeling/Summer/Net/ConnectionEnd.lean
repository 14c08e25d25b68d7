import Summer.Net.ClosedConnection
import Summer.Net.ConnectionCallbacks

/-!
# One end of a connection

What the user's callbacks and the peer see of a connection with no thread but that of its loop: the
state that the callbacks know, and the bytes that are written or will be. A step of the loop leaves
both alone, or tells the user that the connection is up, or closes it and loses what is queued.
-/
namespace Summer.Net

open Summer.Lib

/-! ## What the kernel has accepted -/

namespace TcpConnection

variable {T : Type} {c c' : TcpConnection T} {message : Bytes} {nwrite : Int}

theorem accepted_handleWrite (h : c.handleWrite nwrite = .ok c') :
    c.record.accepted <+: c'.record.accepted := by
  cases handleWrite_cases h with
  | nothing hc => rw [hc]
  | some _ _ hc =>
    rw [hc]
    exact List.prefix_append _ _
  | last _ _ _ _ hc =>
    rw [hc, queueWriteComplete_frame]
    exact List.prefix_append _ _

theorem accepted_sendInLoop (h : c.sendInLoop message nwrite = .ok c') :
    c.record.accepted <+: c'.record.accepted := by
  cases sendInLoop_cases h with
  | whole _ _ hc =>
    rw [hc, queueWriteComplete_frame]
    exact List.prefix_append _ _
  | rest _ _ hc =>
    rw [update_ok hc]
    exact List.prefix_append _ _
  | failed _ _ _ hc =>
    rw [hc]
    exact List.prefix_append _ _
  | nothing _ _ hc => rw [hc]
  | watched _ _ hc =>
    rw [update_ok hc]
    exact List.prefix_refl _
  | appended _ _ _ hc =>
    rw [hc]
    exact List.prefix_refl _

end TcpConnection

namespace ConnectionSystem

open TcpConnection

section Views

variable {T : Type}

/-- `state_`, from the connection callback on. -/
def userState (s : ConnectionSystem T) : StateE :=
  if s.conn.record.connectionCallbacks = [] then .kConnecting else s.conn.state

/-- What was written, and what will be unless the connection is closed first. -/
def output (s : ConnectionSystem T) : Bytes :=
  s.conn.record.accepted ++ if s.Closed then [] else s.conn.outputBuffer

/-- The kernel reports POLLIN if there are bytes to read, and only if it is asked for. -/
def Delivers (s : ConnectionSystem T) : Action T → Prop
  | .poll revents .data =>
    revents.has POLLIN = true ∧ s.conn.poller.registered.all (·.has POLLIN) = true
  | _ => True

instance (s : ConnectionSystem T) : (a : Action T) → Decidable (s.Delivers a)
  | .poll _ .data => inferInstanceAs (Decidable (_ ∧ _))
  | .poll _ .eof | .poll _ .error => .isTrue trivial
  | .connectionEstablished | .connectionCallback | .pollOther | .handleEvent _ => .isTrue trivial
  | .doPendingFunctor | .runFunctor _ | .endPass | .send .. | .shutdown => .isTrue trivial
  | .otherSend .. | .otherSendPush _ | .otherShutdown _ => .isTrue trivial
  | .otherShutdownSet _ | .otherShutdownPush _ => .isTrue trivial
  | .otherFunctor | .removeConnectionInLoop => .isTrue trivial

theorem output_open {s : ConnectionSystem T} (h : ¬ s.Closed) :
    s.output = s.conn.record.accepted ++ s.conn.outputBuffer := by rw [output, if_neg h]

theorem output_closed {s : ConnectionSystem T} (h : s.Closed) :
    s.output = s.conn.record.accepted := by rw [output, if_pos h, List.append_nil]

theorem accepted_output (s : ConnectionSystem T) : s.conn.record.accepted <+: s.output :=
  List.prefix_append _ _

end Views

/-! ## The invariant -/

variable {s s' : ConnectionSystem Empty} {a : Action Empty}

/-- Inside `connectionEstablished`, in front of the callback. -/
structure Early (s : ConnectionSystem Empty) : Prop where
  establishing : s.establishing = true
  callbacks : s.conn.record.connectionCallbacks = []
  state : s.conn.state = .kConnected
  phase : s.phase = .between
  accepted : s.conn.record.accepted = []
  outputBuffer : s.conn.outputBuffer = []

structure Sound (s : ConnectionSystem Empty) : Prop where
  live : s.Live
  polled : s.Polled
  events : s.Closed → s.conn.channel.events = kNoneEvent
  closed : s.conn.state = .kDisconnected ↔ s.Closed
  /-- A dispatch that reads bytes does not close the connection. -/
  reading : ∀ callbacks, s.phase = .handling callbacks .data →
    ¬ s.Closed ∧ .closeCallback ∉ callbacks
  stage : s.Early ∨ s.establishing = false ∧ s.conn.record.connectionCallbacks = [true]

theorem established_sound (owner : Owner) (w : Bool) :
    (established owner w : ConnectionSystem Empty).Sound where
  live := established_live owner w
  polled := established_polled owner w
  events h := absurd h (Nat.lt_irrefl 0)
  closed := iff_of_false (fun h => by cases h) (Nat.lt_irrefl 0)
  reading _ h := by cases h
  stage := .inl ⟨rfl, rfl, rfl, rfl, rfl, rfl⟩

theorem Sound.watched (h : s.Sound) : s.Watched := h.polled.watched h.events

theorem sendsBeforeClose_empty (s : ConnectionSystem Empty) (a : Action Empty) :
    s.SendsBeforeClose a := by
  intro _ _ message hmessage
  rw [nextMessage] at hmessage
  split at hmessage
  · rename_i t _ _ _
    exact t.elim
  · cases hmessage

theorem closed_of_quiet {conn : TcpConnection Empty} (hq : Quiet s.conn conn) :
    0 < conn.record.closeCallbacks ↔ s.Closed := by rw [Closed, hq.closeCallbacks]

theorem Sound.closed_step (h : s.Sound) (hstep : step s a = .ok s') :
    s'.conn.state = .kDisconnected ↔ s'.Closed := by
  cases moves_of_step h.live.state hstep with
  | passes hp =>
    obtain ⟨loop, revents, phase, rfl⟩ := hp.frame
    exact h.closed
  | close _ _ _ hclose =>
    have hc := handleClose_spec hclose
    exact iff_of_true hc.state hc.closed
  | drain _ _ hdrain =>
    have hs := handleWrite_spec hdrain
    rw [Closed, closed_of_quiet hs.quiet, hs.state]
    exact h.closed
  | destroy _ _ hdestroy =>
    obtain ⟨-, rfl⟩ := connectionDestroyed_ok h.live.state hdestroy
    exact h.closed
  | runShutdown _ _ =>
    rw [Closed, closed_of_quiet (shutdownInLoop_spec s.conn).quiet, shutdownInLoop_state]
    exact h.closed
  | send _ _ hsend =>
    have hs := sendInLoop_spec hsend
    rw [Closed, closed_of_quiet hs.quiet, hs.state]
    exact h.closed
  | shutdown _ hstate =>
    rw [Closed, closed_of_quiet (shutdown_spec s.conn).quiet, ← h.closed, hstate, shutdown,
      if_pos hstate, shutdownInLoop_state]
    simp
  | @runSend _ _ t | @otherSend t | @otherSendPush t | @otherShutdown t | @otherShutdownSet t
  | @otherShutdownPush t => exact t.elim
  | notify | otherFunctor | baseRemove => exact h.closed

/-- With POLLIN there is no close callback, and a closed connection is not asked about it. -/
theorem Sound.reading_poll (h : s.Sound) {revents : Events} (hreg : s.conn.poller.registered ≠ none)
    (hdelivers : s.Delivers (.poll revents .data)) : ¬ s.Closed ∧
      .closeCallback ∉ Channel.handleEvent { s.conn.channel with revents := revents } := by
  obtain ⟨hin, hasked⟩ := hdelivers
  constructor
  · intro hc
    have hopen : s.destroyed = false := by
      by_contra hd
      exact hreg (h.polled.removed (by simpa using hd)).2
    rw [(h.polled.registered hopen).events, h.events hc, Option.all_some, has_none] at hasked
    cases hasked
  · simp [Channel.handleEvent, hin]

theorem Sound.reading_step (h : s.Sound) (hdelivers : s.Delivers a) (hstep : step s a = .ok s') :
    ∀ callbacks, s'.phase = .handling callbacks .data →
      ¬ s'.Closed ∧ .closeCallback ∉ callbacks := by
  intro callbacks hphase'
  -- The callbacks that are left are among those that were.
  have left (conn : TcpConnection Empty) {callback : EventCallback} {rest : List EventCallback}
      {read : ReadResult} (hphase : s.phase = .handling (callback :: rest) read)
      (hsame : Phase.handling (T := Empty) rest read = .handling callbacks .data)
      (hclosed : 0 < conn.record.closeCallbacks ↔ s.Closed) :
      ¬ 0 < conn.record.closeCallbacks ∧ .closeCallback ∉ callbacks := by
    cases hsame
    obtain ⟨hopen, hnone⟩ := h.reading _ hphase
    exact ⟨mt hclosed.mp hopen, fun hmem => hnone (List.mem_cons_of_mem _ hmem)⟩
  cases moves_of_step h.live.state hstep with
  | passes hp =>
    cases hp with
    | poll _ _ hreg =>
      cases hphase'
      exact h.reading_poll hreg hdelivers
    | pollOther | swap | runOther | endPass => cases hphase'
    | noClose _ hphase _ => exact left s.conn hphase hphase' Iff.rfl
    | ignored => exact h.reading _ hphase'
  | close _ hphase hcall _ =>
    cases hphase'
    obtain ⟨-, hnone⟩ := h.reading _ hphase
    rcases hcall with rfl | ⟨-, heof⟩
    · exact absurd List.mem_cons_self hnone
    · cases heof
  | drain _ hphase hdrain =>
    exact left _ hphase hphase' (closed_of_quiet (handleWrite_spec hdrain).quiet)
  | destroy | runShutdown => cases hphase'
  | send _ _ hsend =>
    obtain ⟨hopen, hnone⟩ := h.reading _ hphase'
    exact ⟨mt (closed_of_quiet (sendInLoop_spec hsend).quiet).mp hopen, hnone⟩
  | shutdown _ _ =>
    obtain ⟨hopen, hnone⟩ := h.reading _ hphase'
    exact ⟨mt (closed_of_quiet (shutdown_spec s.conn).quiet).mp hopen, hnone⟩
  | @runSend _ _ t | @otherSend t | @otherSendPush t | @otherShutdown t | @otherShutdownSet t
  | @otherShutdownPush t => exact t.elim
  | notify | otherFunctor | baseRemove => exact h.reading _ hphase'

theorem Early.not_free (h : s.Early) {p : Prop} (hfree : s.Free) : p :=
  hfree.not_early h.establishing

theorem Sound.stage_step (h : s.Sound) (hstep : step s a = .ok s') :
    s'.Early ∨ s'.establishing = false ∧ s'.conn.record.connectionCallbacks = [true] := by
  rcases h.stage with he | ⟨hest, hcb⟩
  · have hmoves := moves_of_step h.live.state hstep
    cases hmoves with
    | passes hp =>
      cases hp with
      | ignored hne _ => exact absurd he.state hne
      | poll hfree | pollOther hfree | noClose hfree | swap hfree | runOther hfree
      | endPass hfree => exact he.not_free hfree
    | notify _ =>
      refine .inr ⟨rfl, ?_⟩
      simp [connectionCallback, he.callbacks, he.state]
    | close hfree | drain hfree | destroy hfree | runShutdown hfree | send hfree
    | shutdown hfree => exact he.not_free hfree
    | @runSend _ _ t | @otherSend t | @otherSendPush t | @otherShutdown t | @otherShutdownSet t
    | @otherShutdownPush t => exact t.elim
    | otherFunctor | baseRemove =>
      exact .inl ⟨he.establishing, he.callbacks, he.state, he.phase, he.accepted, he.outputBuffer⟩
  · refine .inr ?_
    cases callback_step h.live hstep with
    | kept hest' _ hcb' => exact ⟨hest'.trans hest, hcb'.trans hcb⟩
    | notify _ hearly => cases hearly.symm.trans hest
    | shutdownSet _ hest' _ _ hcb' => exact ⟨hest'.trans hest, hcb'.trans hcb⟩

theorem Sound.step (h : s.Sound) (hdelivers : s.Delivers a)
    (hstep : ConnectionSystem.step s a = .ok s') : s'.Sound where
  live := live_step h.live hstep
  polled := polled_step h.live h.polled hstep
  events := events_step h.live h.watched (sendsBeforeClose_empty s a) hstep
  closed := h.closed_step hstep
  reading := h.reading_step hdelivers hstep
  stage := h.stage_step hstep

/-! ## What is seen of a step -/

/-- Past the callback of the connection. -/
theorem Sound.userState_of (h : s.Sound) (hearly : ¬ s.Early) : s.userState = s.conn.state := by
  rcases h.stage with he | ⟨-, hcb⟩
  · exact absurd he hearly
  · rw [userState, if_neg (by rw [hcb]; exact List.cons_ne_nil _ _)]

theorem Sound.userState_free (h : s.Sound) (hfree : s.Free) : s.userState = s.conn.state :=
  h.userState_of fun he => he.not_free hfree

/-- A dispatch that reads bytes finds the connection up. -/
theorem Sound.userState_reading (h : s.Sound) {callbacks : List EventCallback}
    (hphase : s.phase = .handling callbacks .data) :
    s.userState = .kConnected ∨ s.userState = .kDisconnecting := by
  have hopen := mt h.closed.mp (h.reading _ hphase).1
  rw [h.userState_of fun he => by cases he.phase.symm.trans hphase]
  cases hstate : s.conn.state with
  | kConnected => exact .inl rfl
  | kDisconnecting => exact .inr rfl
  | kConnecting => exact absurd hstate h.live.state
  | kDisconnected => exact absurd hstate hopen

/-- What a step of the loop does. -/
inductive Seen (s s' : ConnectionSystem Empty) : Prop
  | kept (callbacks : s'.conn.record.connectionCallbacks = s.conn.record.connectionCallbacks)
      (state : s'.userState = s.userState)
      (accepted : s.conn.record.accepted <+: s'.conn.record.accepted)
      (output : s'.output = s.output)
  | told (callbacks : s'.conn.record.connectionCallbacks ≠ s.conn.record.connectionCallbacks)
      (connecting : s.userState = .kConnecting) (connected : s'.conn.state = .kConnected)
      (state : s'.userState = .kConnected)
      (accepted : s'.conn.record.accepted = s.conn.record.accepted) (output : s'.output = s.output)
  | closed (callbacks : s'.conn.record.connectionCallbacks = s.conn.record.connectionCallbacks)
      (up : s.userState = .kConnected ∨ s.userState = .kDisconnecting)
      (down : s'.userState = .kDisconnected)
      (accepted : s'.conn.record.accepted = s.conn.record.accepted)
      (output : s'.output = s.conn.record.accepted)

theorem userState_congr
    (hcb : s'.conn.record.connectionCallbacks = s.conn.record.connectionCallbacks)
    (hstate : s'.conn.state = s.conn.state) : s'.userState = s.userState := by
  rw [userState, userState, hcb, hstate]

theorem output_congr (hclose : s'.conn.record.closeCallbacks = s.conn.record.closeCallbacks)
    (hacc : s'.conn.record.accepted = s.conn.record.accepted)
    (hbuffer : s'.conn.outputBuffer = s.conn.outputBuffer) : s'.output = s.output := by
  have hclosed : s'.Closed ↔ s.Closed := by rw [Closed, Closed, hclose]
  by_cases h : s.Closed
  · rw [output_closed h, output_closed (hclosed.mpr h), hacc]
  · rw [output_open h, output_open (mt hclosed.mp h), hacc, hbuffer]

/-- A step that adds `message` to the stream of an open connection. -/
theorem output_sent {message : Bytes} (hopen : ¬ s.Closed) (hs : Sent s.conn message s'.conn) :
    s'.output = s.output ++ message := by
  have hopen' : ¬ s'.Closed := mt (closed_of_quiet hs.quiet).mp hopen
  rw [output_open hopen, output_open hopen', hs.stream]

theorem Seen.same (hconn : s'.conn.record = s.conn.record) (hstate : s'.conn.state = s.conn.state)
    (hbuffer : s'.conn.outputBuffer = s.conn.outputBuffer) : Seen s s' := by
  refine .kept (by rw [hconn]) (userState_congr (by rw [hconn]) hstate) (by rw [hconn]) ?_
  exact output_congr (by rw [hconn]) (by rw [hconn]) hbuffer

/-- Only a close shows, or the callback; what the user does is described below. -/
theorem Sound.seen (h : s.Sound) (hsend : ∀ argument n, a ≠ .send argument n)
    (hshut : a ≠ .shutdown) (hstep : ConnectionSystem.step s a = .ok s') : Seen s s' := by
  have hmoves := moves_of_step h.live.state hstep
  cases hmoves with
  | passes hp =>
    obtain ⟨loop, revents, phase, rfl⟩ := hp.frame
    exact .same rfl rfl rfl
  | notify hearly =>
    rcases h.stage with he | ⟨hest, -⟩
    · have hopen : ¬ s.Closed := mt h.closed.mpr (by rw [he.state]; decide)
      refine .told ?_ (by rw [userState, if_pos he.callbacks]) he.state ?_ rfl rfl
      · simp [connectionCallback]
      · rw [userState, if_neg (by simp [connectionCallback])]
        exact he.state
    · cases hearly.symm.trans hest
  | @close _ _ callbacks read conn hfree _ _ hclose =>
    have hc := handleClose_spec hclose
    have hdown : Closed { s with conn := conn, phase := .handling callbacks read } := hc.closed
    by_cases hclosed : s.Closed
    · refine .kept (by rw [hc.record]) ?_ (by rw [hc.record]) ?_
      · exact userState_congr (by rw [hc.record]) (hc.state.trans (h.closed.mpr hclosed).symm)
      · rw [output_closed hclosed, output_closed hdown, hc.record]
    · have hcb : s.conn.record.connectionCallbacks ≠ [] := by
        rcases h.stage with he | ⟨-, hcb⟩
        · exact he.not_free hfree
        · rw [hcb]
          exact List.cons_ne_nil _ _
      refine .closed (by rw [hc.record]) ?_ ?_ (by rw [hc.record]) ?_
      · have hstate := h.userState_free hfree
        have hopen := mt h.closed.mp hclosed
        cases hs : s.conn.state with
        | kConnected => exact .inl (hstate.trans hs)
        | kDisconnecting => exact .inr (hstate.trans hs)
        | kConnecting => exact absurd hs h.live.state
        | kDisconnected => exact absurd hs hopen
      · rw [userState, if_neg (by rw [hc.record]; exact hcb)]
        exact hc.state
      · rw [output_closed hdown, hc.record]
  | @drain n _ _ conn hfree _ hdrain =>
    by_cases hclosed : s.Closed
    · cases (h.watched.handleWrite_closed hclosed n).symm.trans hdrain
      exact .same rfl rfl rfl
    · have hs := handleWrite_spec hdrain
      refine .kept hs.quiet.connectionCallbacks ?_ (accepted_handleWrite hdrain) ?_
      · exact userState_congr hs.quiet.connectionCallbacks hs.state
      · rw [output_sent hclosed hs, List.append_nil]
  | destroy _ _ hdestroy =>
    obtain ⟨-, rfl⟩ := connectionDestroyed_ok h.live.state hdestroy
    exact .same rfl rfl rfl
  | runShutdown _ _ =>
    have hs := shutdownInLoop_spec s.conn
    refine .kept hs.quiet.connectionCallbacks ?_ (by rw [hs.accepted]) ?_
    · exact userState_congr hs.quiet.connectionCallbacks (shutdownInLoop_state _)
    · exact output_congr hs.quiet.closeCallbacks hs.accepted hs.outputBuffer
  | send => exact absurd rfl (hsend _ _)
  | shutdown => exact absurd rfl hshut
  | @runSend _ _ t | @otherSend t | @otherSendPush t | @otherShutdown t | @otherShutdownSet t
  | @otherShutdownPush t => exact t.elim
  | otherFunctor | baseRemove => exact .same rfl rfl rfl

/-- What the user's `send()` and `shutdown()` do. -/
structure Used (s s' : ConnectionSystem Empty) (state : StateE) (message : Bytes) : Prop where
  callbacks : s'.conn.record.connectionCallbacks = s.conn.record.connectionCallbacks
  state : s'.userState = state
  accepted : s.conn.record.accepted <+: s'.conn.record.accepted
  output : s'.output = s.output ++ message

theorem Used.refl (s : ConnectionSystem Empty) : Used s s s.userState [] :=
  ⟨rfl, rfl, List.prefix_refl _, (List.append_nil _).symm⟩

theorem Sound.sends (h : s.Sound) {message : Bytes} {n : Int}
    (hstep : ConnectionSystem.step s (.send (.string message) n) = .ok s') :
    Used s s' s.userState (if s.userState = .kConnected then message else []) := by
  obtain ⟨_, hen, -⟩ := bind_eq_ok.mp hstep
  have hstate := h.userState_free (ensure_eq_ok.mp hen)
  have hmoves := moves_of_step h.live.state hstep
  rw [hstate]
  cases hmoves with
  | passes hp =>
    cases hp with
    | ignored hne _ =>
      rw [if_neg hne, ← hstate]
      exact .refl s
  | send _ hup hsend =>
    have hopen : ¬ s.Closed := fun hc => h.live.closed hc hup
    have hs := sendInLoop_spec hsend
    rw [if_pos hup, ← hstate]
    exact ⟨hs.quiet.connectionCallbacks,
      userState_congr hs.quiet.connectionCallbacks hs.state, accepted_sendInLoop hsend,
      output_sent hopen hs⟩

theorem Sound.shutsDown (h : s.Sound) (hstep : ConnectionSystem.step s .shutdown = .ok s') :
    Used s s' (if s.userState = .kConnected then .kDisconnecting else s.userState) [] := by
  obtain ⟨_, hen, -⟩ := bind_eq_ok.mp hstep
  have hfree := ensure_eq_ok.mp hen
  have hstate := h.userState_free hfree
  have hmoves := moves_of_step h.live.state hstep
  rw [hstate]
  cases hmoves with
  | passes hp =>
    cases hp with
    | ignored hne _ =>
      rw [if_neg hne, ← hstate]
      exact .refl s
  | shutdown _ hup =>
    have hs := shutdown_spec s.conn
    have hcb : s.conn.record.connectionCallbacks ≠ [] := by
      rcases h.stage with he | ⟨-, hcb⟩
      · exact he.not_free hfree
      · rw [hcb]
        exact List.cons_ne_nil _ _
    rw [if_pos hup]
    refine ⟨hs.quiet.connectionCallbacks, ?_, by rw [hs.accepted], ?_⟩
    · rw [userState, if_neg (by rw [hs.quiet.connectionCallbacks]; exact hcb), shutdown, if_pos hup,
        shutdownInLoop_state]
    · rw [List.append_nil]
      exact output_congr hs.quiet.closeCallbacks hs.accepted hs.outputBuffer

/-! ## From the start -/

/-- Not established yet, or sound. -/
def InOrder (owner : Owner) (s : ConnectionSystem Empty) : Prop := s = init owner false ∨ s.Sound

variable {owner : Owner}

theorem inOrder_init (owner : Owner) : InOrder owner (init owner false) := .inl rfl

theorem InOrder.sound (h : InOrder owner s) (hstate : s.conn.state ≠ .kConnecting) : s.Sound := by
  rcases h with rfl | h
  · exact absurd rfl hstate
  · exact h

theorem InOrder.step (h : InOrder owner s) (hdelivers : s.Delivers a)
    (hstep : ConnectionSystem.step s a = .ok s') : InOrder owner s' := by
  rcases h with rfl | h
  · rcases first_step hstep with rfl | rfl
    · exact .inl rfl
    · exact .inr (established_sound owner false)
  · exact .inr (h.step hdelivers hstep)

theorem InOrder.seen (h : InOrder owner s) (hsend : ∀ argument n, a ≠ .send argument n)
    (hshut : a ≠ .shutdown) (hstep : ConnectionSystem.step s a = .ok s') : Seen s s' := by
  rcases h with rfl | h
  · rcases first_step hstep with rfl | rfl
    · exact .same rfl rfl rfl
    · exact .kept rfl rfl (List.prefix_refl _) rfl
  · exact h.seen hsend hshut hstep

theorem InOrder.sends (h : InOrder owner s) {message : Bytes} {n : Int}
    (hstep : ConnectionSystem.step s (.send (.string message) n) = .ok s') :
    Used s s' s.userState (if s.userState = .kConnected then message else []) := by
  obtain ⟨_, hen, -⟩ := bind_eq_ok.mp hstep
  exact (h.sound (ensure_eq_ok.mp hen).1).sends hstep

theorem InOrder.shutsDown (h : InOrder owner s)
    (hstep : ConnectionSystem.step s .shutdown = .ok s') :
    Used s s' (if s.userState = .kConnected then .kDisconnecting else s.userState) [] := by
  obtain ⟨_, hen, -⟩ := bind_eq_ok.mp hstep
  exact (h.sound (ensure_eq_ok.mp hen).1).shutsDown hstep

end ConnectionSystem

end Summer.Net
