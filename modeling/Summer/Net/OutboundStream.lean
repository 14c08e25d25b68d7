import Summer.Net.ConnectionInvariant

/-!
# The outbound stream of a connection

Until the connection is closed, the bytes the kernel accepted followed by the queued output
are the messages whose `sendInLoop` has run, in the order in which it ran. A message that
passed the test of `send()` is in flight, queued, or run, in its thread's order.
-/
namespace Summer.Net.ConnectionSystem

open Summer.Lib TcpConnection

variable {T : Type} [DecidableEq T] {s s' : ConnectionSystem T} {a : Action T}

/-- The messages of one thread, in order. -/
def messagesOf (who : Option T) (l : List (Option T × Bytes)) : List Bytes :=
  l.filterMap fun e => if e.1 = who then some e.2 else none

/-- The messages of a thread that are queued in the loop. -/
def queuedBy (t : T) (fs : List (Functor T)) : List Bytes :=
  fs.filterMap fun
    | .sendInLoop sender message => if sender = t then some message else none
    | _ => none

/-- The message a thread is about to queue. -/
def inFlight : Pc → List Bytes
  | .sendChecked message => [message]
  | _ => []

theorem messagesOf_append (who : Option T) (l l' : List (Option T × Bytes)) :
    messagesOf who (l ++ l') = messagesOf who l ++ messagesOf who l' := List.filterMap_append

theorem messagesOf_self (who : Option T) (message : Bytes) :
    messagesOf who [(who, message)] = [message] := by
  rw [messagesOf, List.filterMap_cons, if_pos rfl]
  rfl

theorem messagesOf_ne {who who' : Option T} (h : who' ≠ who) (message : Bytes) :
    messagesOf who [(who', message)] = [] := by
  rw [messagesOf, List.filterMap_cons, if_neg h]
  rfl

theorem queuedBy_self (t : T) (message : Bytes) (fs : List (Functor T)) :
    queuedBy t (.sendInLoop t message :: fs) = message :: queuedBy t fs := by
  apply List.filterMap_cons_some
  exact if_pos rfl

theorem queuedBy_ne {t t' : T} (h : t' ≠ t) (message : Bytes) (fs : List (Functor T)) :
    queuedBy t (.sendInLoop t' message :: fs) = queuedBy t fs := by
  apply List.filterMap_cons_none
  exact if_neg h

theorem queuedBy_append (t : T) (fs fs' : List (Functor T)) :
    queuedBy t (fs ++ fs') = queuedBy t fs ++ queuedBy t fs' := List.filterMap_append

/-- Functors that send nothing. -/
def Silent (fs : List (Functor T)) : Prop := ∀ f ∈ fs, ∀ t message, f ≠ .sendInLoop t message

theorem queuedBy_silent {fs : List (Functor T)} (h : Silent fs) (t : T) : queuedBy t fs = [] := by
  refine List.filterMap_eq_nil_iff.mpr fun f hf => ?_
  cases f with
  | sendInLoop sender message => exact absurd rfl (h _ hf sender message)
  | connectionDestroyed => rfl
  | shutdownInLoop => rfl
  | writeCompleteCallback => rfl
  | other => rfl

omit [DecidableEq T] in
theorem silent_nil : Silent ([] : List (Functor T)) := nofun

omit [DecidableEq T] in
theorem silent_writeComplete {l : List (Functor T)} (h : ∀ f ∈ l, f = .writeCompleteCallback) :
    Silent l := by
  intro f hf t message heq
  rw [h f hf] at heq
  cases heq

omit [DecidableEq T] in
theorem silent_singleton {f : Functor T} (h : ∀ t message, f ≠ .sendInLoop t message) :
    Silent [f] := by
  intro g hg
  rw [List.mem_singleton.mp hg]
  exact h

/-- Silent functors may join and leave the queue. -/
theorem Turnover.queuedBy {l l' : List (Functor T)} (h : Turnover s s' l l') (hl : Silent l)
    (hl' : Silent l') (t : T) :
    ConnectionSystem.queuedBy t s'.functors = ConnectionSystem.queuedBy t s.functors := by
  obtain ⟨rest, hs, hs'⟩ := h
  rw [hs, hs', queuedBy_append, queuedBy_append, queuedBy_silent hl, queuedBy_silent hl',
    List.nil_append, List.append_nil]

/-- Each thread's messages, from the test of `send()` to the `sendInLoop`. -/
structure Ordered (s : ConnectionSystem T) : Prop where
  loop : messagesOf none s.executed = messagesOf none s.sent
  others : ∀ t, messagesOf (some t) s.executed ++ queuedBy t s.functors ++
    inFlight (s.threads t) = messagesOf (some t) s.sent

theorem established_ordered (owner : Owner) (w : Bool) :
    (established owner w : ConnectionSystem T).Ordered := ⟨rfl, fun _ => rfl⟩

/-- A step that sends nothing. -/
theorem Ordered.congr (h : s.Ordered) (hexec : s'.executed = s.executed) (hsent : s'.sent = s.sent)
    (hq : ∀ t, queuedBy t s'.functors = queuedBy t s.functors)
    (hin : ∀ t, inFlight (s'.threads t) = inFlight (s.threads t)) : s'.Ordered := by
  refine ⟨by rw [hexec, hsent, h.loop], fun t => ?_⟩
  rw [hexec, hsent, hq, hin, h.others]

/-- A step that sends nothing and leaves the threads where they are. -/
theorem Ordered.keep (h : s.Ordered) {l l' : List (Functor T)} (hturn : Turnover s s' l l')
    (hl : Silent l) (hl' : Silent l') (hexec : s'.executed = s.executed)
    (hsent : s'.sent = s.sent) (ht : s'.threads = s.threads) : s'.Ordered :=
  h.congr hexec hsent (hturn.queuedBy hl hl') fun t => by rw [ht]

/-- A step of the loop thread that is quiet and sends nothing. -/
theorem Ordered.quiet (h : s.Ordered) (hq : Quiet s.conn s'.conn) {l : List (Functor T)}
    (hb : s.batch = l ++ s'.batch) (hl : Silent l) (hexec : s'.executed = s.executed)
    (hsent : s'.sent = s.sent) (ht : s'.threads = s.threads) : s'.Ordered := by
  obtain ⟨l', hl', hw⟩ := hq.queue
  exact h.keep (turnover_of hb hl') hl (silent_writeComplete hw) hexec hsent ht

theorem Ordered.passes (h : s.Ordered) (hp : Passes s a s') : s'.Ordered := by
  obtain ⟨hturn, hpopped⟩ := hp.turnover
  have hl : Silent (s.popped a) := by
    intro f hf t message heq
    rcases hpopped f hf with hf | hf <;> cases heq.symm.trans hf
  have hqueue := hturn.queuedBy hl silent_nil
  obtain ⟨loop, revents, phase, rfl⟩ := hp.frame
  exact h.congr rfl rfl hqueue fun _ => rfl

/-- A thread that is not about to queue a message stays so. -/
theorem inFlight_update {threads : T → Pc} {t : T} {pc : Pc} (h : inFlight (threads t) = [])
    (h' : inFlight pc = []) (u : T) :
    inFlight (Function.update threads t pc u) = inFlight (threads u) := by
  by_cases hu : u = t
  · subst hu
    rw [Function.update_self, h, h']
  · rw [Function.update_of_ne hu]

theorem ordered_runSend (h : s.Ordered) {t : T} {message : Bytes} {fs : List (Functor T)}
    {conn : TcpConnection T} (hb : s.batch = .sendInLoop t message :: fs)
    (hq : Quiet s.conn conn) :
    Ordered { s with
      conn := conn, phase := .running fs, executed := s.executed ++ [(some t, message)] } := by
  obtain ⟨l, hl, hw⟩ := hq.queue
  refine ⟨?_, fun u => ?_⟩
  · show messagesOf none (s.executed ++ _) = _
    rw [messagesOf_append, messagesOf_ne (by nofun), List.append_nil, h.loop]
  · have ho := h.others u
    rw [functors, hb, List.cons_append] at ho
    show messagesOf (some u) (s.executed ++ _) ++ queuedBy u (fs ++ conn.loop.pendingFunctors) ++
      inFlight (s.threads u) = messagesOf (some u) s.sent
    rw [messagesOf_append, hl, ← List.append_assoc fs, queuedBy_append,
      queuedBy_silent (silent_writeComplete hw), List.append_nil, ← ho]
    by_cases hu : t = u
    · subst hu
      rw [messagesOf_self, queuedBy_self]
      simp only [List.append_assoc, List.cons_append, List.nil_append]
    · rw [messagesOf_ne (fun heq => hu (Option.some.inj heq)), List.append_nil, queuedBy_ne hu]

theorem ordered_send (h : s.Ordered) {message : Bytes} {conn : TcpConnection T}
    (hq : Quiet s.conn conn) :
    Ordered { s with
      conn := conn
      sent := s.sent ++ [(none, message)]
      executed := s.executed ++ [(none, message)] } := by
  obtain ⟨l, hl, hw⟩ := hq.queue
  refine ⟨?_, fun u => ?_⟩
  · show messagesOf none (s.executed ++ _) = messagesOf none (s.sent ++ _)
    rw [messagesOf_append, messagesOf_append, h.loop]
  · show messagesOf (some u) (s.executed ++ _) ++ queuedBy u (s.batch ++ conn.loop.pendingFunctors)
      ++ inFlight (s.threads u) = messagesOf (some u) (s.sent ++ _)
    rw [messagesOf_append, messagesOf_append, messagesOf_ne (by nofun), List.append_nil,
      List.append_nil, ← h.others u, hl, ← List.append_assoc, queuedBy_append,
      queuedBy_silent (silent_writeComplete hw), List.append_nil, functors]

theorem ordered_otherSend (h : s.Ordered) {t : T} {argument : SendArgument}
    (ht : s.threads t = .idle) :
    Ordered { s with
      threads := Function.update s.threads t (.sendChecked argument.message)
      sent := s.sent ++ [(some t, argument.message)] } := by
  refine ⟨?_, fun u => ?_⟩
  · show _ = messagesOf none (s.sent ++ _)
    rw [messagesOf_append, messagesOf_ne (by nofun), List.append_nil, h.loop]
  · have ho := h.others u
    show messagesOf (some u) s.executed ++ queuedBy u s.functors ++
      inFlight (Function.update s.threads t _ u) = messagesOf (some u) (s.sent ++ _)
    rw [messagesOf_append, ← ho]
    by_cases hu : u = t
    · subst hu
      rw [Function.update_self, messagesOf_self, ht]
      simp only [inFlight, List.append_nil]
    · rw [Function.update_of_ne hu, messagesOf_ne fun heq => hu (Option.some.inj heq).symm,
        List.append_nil]

theorem ordered_otherSendPush (h : s.Ordered) {t : T} {message : Bytes}
    (ht : s.threads t = .sendChecked message) :
    Ordered { s with
      conn := s.runInLoop (.sendInLoop t message)
      threads := Function.update s.threads t .idle } := by
  refine ⟨h.loop, fun u => ?_⟩
  have ho := h.others u
  show messagesOf (some u) s.executed ++ queuedBy u (s.batch ++
    (s.conn.loop.queueInLoop false (.sendInLoop t message)).pendingFunctors) ++
      inFlight (Function.update s.threads t .idle u) = messagesOf (some u) s.sent
  rw [EventLoop.queueInLoop_pendingFunctors, ← List.append_assoc, queuedBy_append, ← ho]
  by_cases hu : u = t
  · subst hu
    rw [Function.update_self, ht, queuedBy_self, functors]
    simp only [inFlight, queuedBy, List.filterMap_nil, List.append_nil, List.append_assoc]
  · rw [Function.update_of_ne hu, queuedBy_ne (Ne.symm hu), functors]
    simp only [queuedBy, List.filterMap_nil, List.append_nil]

/-- A functor other than `sendInLoop` queued by another thread. -/
theorem Ordered.push (h : s.Ordered) {f : Functor T} (hf : ∀ t message, f ≠ .sendInLoop t message)
    {threads : T → Pc} (ht : ∀ t, inFlight (threads t) = inFlight (s.threads t)) :
    Ordered { s with conn := s.runInLoop f, threads := threads } :=
  h.congr rfl rfl ((turnover_push f threads).queuedBy silent_nil (silent_singleton hf)) ht

theorem ordered_step (hlive : s.Live) (h : s.Ordered) (hstep : step s a = .ok s') :
    s'.Ordered := by
  cases moves_of_step hlive.state hstep with
  | passes hp => exact h.passes hp
  | notify => exact h.congr rfl rfl (fun _ => rfl) fun _ => rfl
  | close _ hphase _ hclose =>
    rcases (handleClose_spec hclose).removal with ⟨-, -, -, hq⟩ | ⟨-, -, hq⟩
    · exact h.keep (turnover_of (l := []) (batch_handling hphase) hq) silent_nil
        (silent_singleton nofun) rfl rfl rfl
    · exact h.keep (turnover_same (batch_handling hphase) hq) silent_nil silent_nil rfl rfl rfl
  | drain _ hphase hdrain =>
    exact h.quiet (l := []) (handleWrite_spec hdrain).quiet (batch_handling hphase) silent_nil
      rfl rfl rfl
  | destroy _ hphase hdestroy =>
    obtain ⟨-, rfl⟩ := connectionDestroyed_ok hlive.state hdestroy
    exact h.keep (turnover_of (l := [.connectionDestroyed]) (batch_running hphase)
      (List.append_nil _).symm) (silent_singleton nofun) silent_nil rfl rfl rfl
  | runSend _ hphase hsend =>
    exact ordered_runSend h (batch_running hphase) (sendInLoop_spec hsend).quiet
  | runShutdown _ hphase =>
    exact h.quiet (l := [.shutdownInLoop]) (shutdownInLoop_spec s.conn).quiet
      (batch_running hphase) (silent_singleton nofun) rfl rfl rfl
  | send _ _ hsend => exact ordered_send h (sendInLoop_spec hsend).quiet
  | shutdown _ _ => exact h.quiet (l := []) (shutdown_spec s.conn).quiet rfl silent_nil rfl rfl rfl
  | otherSend hidle _ => exact ordered_otherSend h hidle
  | otherSendPush hpc => exact ordered_otherSendPush h hpc
  | otherShutdown _ hidle _ =>
    exact h.congr rfl rfl (fun _ => rfl) (inFlight_update (by rw [hidle]; rfl) rfl)
  | otherShutdownSet hpc =>
    exact h.congr rfl rfl (fun _ => rfl) (inFlight_update (by rw [hpc]; rfl) rfl)
  | otherShutdownPush hpc => exact h.push (by nofun) (inFlight_update (by rw [hpc]; rfl) rfl)
  | otherFunctor => exact h.push (by nofun) fun _ => rfl
  | baseRemove _ _ =>
    exact h.keep (turnover_of (l := []) rfl (EventLoop.queueInLoop_pendingFunctors ..)) silent_nil
      (silent_singleton nofun) rfl rfl rfl

/-! ## The stream -/

/-- Until the connection is closed, its stream is the messages run, and it asks for write
events exactly while output is queued. -/
structure Streaming (s : ConnectionSystem T) : Prop where
  stream : ¬ s.Closed → s.conn.record.accepted ++ s.conn.outputBuffer =
    (s.executed.map Prod.snd).flatten
  writing : ¬ s.Closed → s.conn.WritingIff

omit [DecidableEq T] in
theorem established_streaming (owner : Owner) (w : Bool) :
    (established owner w : ConnectionSystem T).Streaming := by
  refine ⟨fun _ => rfl, fun _ => ?_⟩
  have hw : (kNoneEvent ||| kReadEvent : Events).has kWriteEvent = false := rfl
  rw [WritingIff, established, isWriting_watch, hw]
  exact iff_of_false Bool.false_ne_true fun h => h rfl

omit [DecidableEq T] in
/-- A step that leaves the stream, the executed messages and the events as they are. -/
theorem Streaming.congr (h : s.Streaming) (hexec : s'.executed = s.executed)
    (hout : s'.conn.outputBuffer = s.conn.outputBuffer)
    (hacc : s'.conn.record.accepted = s.conn.record.accepted)
    (hev : s'.conn.channel.events = s.conn.channel.events)
    (hclose : s'.conn.record.closeCallbacks = s.conn.record.closeCallbacks) : s'.Streaming := by
  have hclosed : s'.Closed ↔ s.Closed := by
    rw [Closed, Closed, hclose]
  refine ⟨fun hc => ?_, fun hc => ?_⟩
  · rw [hacc, hout, hexec]
    exact h.stream (mt hclosed.mpr hc)
  · have hw := h.writing (mt hclosed.mpr hc)
    rw [WritingIff, TcpConnection.isWriting, Channel.isWriting] at hw ⊢
    rw [hev, hout]
    exact hw

omit [DecidableEq T] in
/-- A step that sends a message. -/
theorem Streaming.sent (h : s.Streaming) {message : Bytes} (hs : Sent s.conn message s'.conn)
    (hexec : (s'.executed.map Prod.snd).flatten = (s.executed.map Prod.snd).flatten ++ message) :
    s'.Streaming := by
  have hclosed : s'.Closed ↔ s.Closed := by
    rw [Closed, Closed, hs.quiet.closeCallbacks]
  refine ⟨fun hc => ?_, fun hc => hs.writing (h.writing (mt hclosed.mpr hc))⟩
  rw [hs.stream, h.stream (mt hclosed.mpr hc), hexec]

omit [DecidableEq T] in
theorem flatten_concat (l : List (Option T × Bytes)) (who : Option T) (message : Bytes) :
    ((l ++ [(who, message)]).map Prod.snd).flatten = (l.map Prod.snd).flatten ++ message := by
  rw [List.map_append, List.flatten_append]
  simp

theorem streaming_step (hlive : s.Live) (h : s.Streaming) (hstep : step s a = .ok s') :
    s'.Streaming := by
  cases moves_of_step hlive.state hstep with
  | passes hp =>
    obtain ⟨loop, revents, phase, rfl⟩ := hp.frame
    exact h.congr rfl rfl rfl rfl rfl
  | notify => exact h.congr rfl rfl rfl rfl rfl
  | close _ _ _ hclose =>
    have hclosed := (handleClose_spec hclose).closed
    exact ⟨fun hn => absurd hclosed hn, fun hn => absurd hclosed hn⟩
  | drain _ _ hdrain => exact h.sent (handleWrite_spec hdrain) (List.append_nil _).symm
  | destroy _ _ hdestroy =>
    obtain ⟨-, rfl⟩ := connectionDestroyed_ok hlive.state hdestroy
    exact h.congr rfl rfl rfl rfl rfl
  | runSend _ _ hsend => exact h.sent (sendInLoop_spec hsend) (flatten_concat ..)
  | runShutdown _ _ =>
    have hs := shutdownInLoop_spec s.conn
    exact h.congr rfl hs.outputBuffer hs.accepted (congrArg _ hs.channel) hs.quiet.closeCallbacks
  | send _ _ hsend => exact h.sent (sendInLoop_spec hsend) (flatten_concat ..)
  | shutdown _ _ =>
    have hs := shutdown_spec s.conn
    exact h.congr rfl hs.outputBuffer hs.accepted (congrArg _ hs.channel) hs.quiet.closeCallbacks
  | otherSend _ _ => exact h.congr rfl rfl rfl rfl rfl
  | otherSendPush _ => exact h.congr rfl rfl rfl rfl rfl
  | otherShutdown _ _ _ => exact h.congr rfl rfl rfl rfl rfl
  | otherShutdownSet _ => exact h.congr rfl rfl rfl rfl rfl
  | otherShutdownPush _ => exact h.congr rfl rfl rfl rfl rfl
  | otherFunctor => exact h.congr rfl rfl rfl rfl rfl
  | baseRemove _ _ => exact h.congr rfl rfl rfl rfl rfl

/-! ## The law -/

/-- What has been accepted and what is queued are the messages run, whole and in order. -/
structure OutboundIntact (s : ConnectionSystem T) : Prop where
  whole : s.conn.record.accepted ++ s.conn.outputBuffer = (s.executed.map Prod.snd).flatten
  ordered : s.Ordered
  registered : ∃ events, s.conn.poller.registered = some events ∧
    (events.has kWriteEvent = true ↔ s.conn.outputBuffer ≠ [])

theorem outbound_stream_intact {owner : Owner} {w : Bool} {as : List (Action T)}
    (hrun : run step (init owner w) as = .ok s) (hconnected : s.conn.state ≠ .kConnecting)
    (hopen : ¬ s.Closed) : s.OutboundIntact := by
  rcases run_established (C := fun _ _ => True) (I := fun s => s.Ordered ∧ s.Streaming)
    ⟨established_ordered owner w, established_streaming owner w⟩
    (fun s a t hlive hi _ hs => ⟨ordered_step hlive hi.1 hs, streaming_step hlive hi.2 hs⟩)
    along_true hrun with rfl | ⟨hlive, hord, hstr⟩
  · exact absurd rfl hconnected
  · exact ⟨hstr.stream hopen, hord, _, (hlive.opened hopen).events, hstr.writing hopen⟩

/-- A partial write, a message of another thread behind it, and a partial drain. -/
theorem outbound_stream_intact_sample :
    ∃ s : ConnectionSystem Bool, run step (init (.server false) true)
        [.connectionEstablished, .connectionCallback, .otherSend true (.string [1, 2, 3]),
          .send (.pointer [4, 5]) 1, .otherSendPush true, .pollOther, .doPendingFunctor,
          .runFunctor 0, .endPass, .poll POLLOUT .data, .handleEvent 2] = .ok s ∧
      s.OutboundIntact := by
  have hend : endsIn step (fun s => decide (s.conn.state ≠ .kConnecting) && decide (¬ s.Closed))
        (init (.server false) true : ConnectionSystem Bool)
        [.connectionEstablished, .connectionCallback, .otherSend true (.string [1, 2, 3]),
          .send (.pointer [4, 5]) 1, .otherSendPush true, .pollOther, .doPendingFunctor,
          .runFunctor 0, .endPass, .poll POLLOUT .data, .handleEvent 2] = true := by
    decide +kernel
  obtain ⟨s, hrun, hs⟩ := endsIn_iff.mp hend
  rw [Bool.and_eq_true, decide_eq_true_eq, decide_eq_true_eq] at hs
  exact ⟨s, hrun, outbound_stream_intact hrun hs.1 hs.2⟩

end Summer.Net.ConnectionSystem
