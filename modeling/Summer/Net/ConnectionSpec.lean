import Summer.Net.TcpConnection

/-!
# What the functions of a connection do

Sending, draining and shutting down are `Quiet`: they leave alone who refers to the
connection, which callbacks it has called, and whether it is registered. Closing,
establishing and destroying are described in full.
-/
namespace Summer.Net.TcpConnection

open Summer.Lib

variable {T : Type} {c c' c'' : TcpConnection T} {message : Bytes} {nwrite : Int}

/-! ## The channel -/

/-- The channel is registered with the events it asks for. -/
structure Registered (c : TcpConnection T) : Prop where
  index : c.channel.index = 1
  events : c.poller.registered = some c.channel.events

/-- The connection with its channel registered for other events. -/
def watch (c : TcpConnection T) (events : Events) : TcpConnection T :=
  { c with
    channel := { c.channel with events := events, index := 1 }
    poller := ⟨some events⟩ }

theorem registered_watch (c : TcpConnection T) (events : Events) : (c.watch events).Registered :=
  ⟨rfl, rfl⟩

theorem update_ok {events : Events} (h : (c.setEvents events).update = .ok c') :
    c' = c.watch events := by
  obtain ⟨r, hr, h⟩ := bind_eq_ok.mp h
  have hr := EpollPoller.updateChannel_ok hr
  subst hr
  cases h
  rfl

theorem isWriting_watch (c : TcpConnection T) (events : Events) :
    (c.watch events).isWriting = events.has kWriteEvent := rfl

theorem update_error {events : Events} {f : Fault} (h : (c.setEvents events).update = .error f) :
    f = .assertion .updateChannel ∧ ¬ c.Registered := by
  rcases bind_eq_error.mp h with h | ⟨_, -, h⟩
  · obtain ⟨hf, hr⟩ := EpollPoller.updateChannel_error h
    refine ⟨hf, fun hreg => hr ⟨hreg.index, ?_⟩⟩
    show c.poller.registered ≠ none
    rw [hreg.events]
    exact Option.some_ne_none _
  · cases h

/-! ## Sending and draining -/

/-- Neither established, closed nor destroyed. -/
structure Quiet (c c' : TcpConnection T) : Prop where
  owner : c'.owner = c.owner
  held : c'.held = c.held
  removals : c'.removals = c.removals
  closeCallbacks : c'.record.closeCallbacks = c.record.closeCallbacks
  connectionCallbacks : c'.record.connectionCallbacks = c.record.connectionCallbacks
  queue : ∃ l, c'.loop.pendingFunctors = c.loop.pendingFunctors ++ l ∧
    ∀ f ∈ l, f = Functor.writeCompleteCallback
  registered : c.Registered → c'.Registered

theorem Quiet.refl (c : TcpConnection T) : Quiet c c :=
  ⟨rfl, rfl, rfl, rfl, rfl, ⟨[], (List.append_nil _).symm, fun _ h => nomatch h⟩, id⟩

theorem Quiet.trans (h : Quiet c c') (h' : Quiet c' c'') : Quiet c c'' := by
  obtain ⟨l, hl, hw⟩ := h.queue
  obtain ⟨l', hl', hw'⟩ := h'.queue
  refine ⟨h'.owner.trans h.owner, h'.held.trans h.held, h'.removals.trans h.removals,
    h'.closeCallbacks.trans h.closeCallbacks, h'.connectionCallbacks.trans h.connectionCallbacks,
    ⟨l ++ l', ?_, ?_⟩, fun hr => h'.registered (h.registered hr)⟩
  · rw [hl', hl, List.append_assoc]
  · intro f hf
    rcases List.mem_append.mp hf with hf | hf
    · exact hw f hf
    · exact hw' f hf

theorem quiet_watch (c : TcpConnection T) (events : Events) : Quiet c (c.watch events) :=
  ⟨rfl, rfl, rfl, rfl, rfl, ⟨[], (List.append_nil _).symm, fun _ h => nomatch h⟩,
    fun _ => registered_watch c events⟩

/-- Only the buffer and the record of the socket change. -/
theorem quiet_socket (c : TcpConnection T) (state : StateE) (buffer accepted : Bytes)
    (writeCalls : Nat) (shutdownWrites : List Nat) :
    Quiet c { c with
      state := state
      outputBuffer := buffer
      record := { c.record with
        accepted := accepted, writeCalls := writeCalls, shutdownWrites := shutdownWrites } } :=
  ⟨rfl, rfl, rfl, rfl, rfl, ⟨[], (List.append_nil _).symm, fun _ h => nomatch h⟩,
    fun hr => ⟨hr.index, hr.events⟩⟩

theorem quiet_queueWriteComplete (c : TcpConnection T) : Quiet c c.queueWriteComplete := by
  rw [queueWriteComplete]
  split
  · refine ⟨rfl, rfl, rfl, rfl, rfl, ⟨[.writeCompleteCallback], ?_, ?_⟩,
      fun hr => ⟨hr.index, hr.events⟩⟩
    · exact EventLoop.queueInLoop_pendingFunctors ..
    · exact fun f hf => List.mem_singleton.mp hf
  · exact Quiet.refl c

/-- The connection after a `::write`. -/
def wrote (c : TcpConnection T) (message : Bytes) (nwrite : Int) : TcpConnection T :=
  { c with record := { c.record with
    accepted := c.record.accepted ++ message.take nwrite.toNat
    writeCalls := c.record.writeCalls + 1 } }

theorem write_of (h : nwrite ≤ message.length) :
    c.write message nwrite = .ok (c.wrote message nwrite) := by
  rw [write, ensure_of h]
  rfl

/-- The channel asks for write events exactly while there is queued output. -/
def WritingIff (c : TcpConnection T) : Prop := c.isWriting = true ↔ c.outputBuffer ≠ []

/-- `message` was added to the stream of the connection. -/
structure Sent (c : TcpConnection T) (message : Bytes) (c' : TcpConnection T) : Prop where
  quiet : Quiet c c'
  state : c'.state = c.state
  shutdownWrites : c'.record.shutdownWrites = c.record.shutdownWrites
  stream : c'.record.accepted ++ c'.outputBuffer =
    c.record.accepted ++ c.outputBuffer ++ message
  writing : c.WritingIff → c'.WritingIff

theorem queueWriteComplete_frame (c : TcpConnection T) :
    c.queueWriteComplete = { c with loop := c.queueWriteComplete.loop } := by
  rw [queueWriteComplete]
  split <;> rfl

/-- Written whole at once. -/
theorem sent_whole (hb : c.outputBuffer = []) (hn : message.length ≤ nwrite.toNat) :
    Sent c message (c.wrote message nwrite).queueWriteComplete := by
  rw [queueWriteComplete_frame]
  refine ⟨?_, rfl, rfl, ?_, ?_⟩
  · rw [← queueWriteComplete_frame]
    exact (quiet_socket c c.state c.outputBuffer _ _ _).trans (quiet_queueWriteComplete _)
  · show c.record.accepted ++ message.take nwrite.toNat ++ c.outputBuffer = _
    rw [List.take_of_length_le hn, hb, List.append_nil, List.append_nil]
  · exact id

/-- The rest of a message goes into the buffer, and the channel asks for write events. -/
theorem sent_rest (hb : c.outputBuffer = []) (hn : nwrite.toNat < message.length) :
    Sent c message (((c.wrote message nwrite).appendOutput (message.drop nwrite.toNat)).watch
      (c.channel.events ||| kWriteEvent)) := by
  refine ⟨?_, rfl, rfl, ?_, ?_⟩
  · exact (quiet_socket c c.state (c.outputBuffer ++ message.drop nwrite.toNat) _ _ _).trans
      (quiet_watch _ _)
  · show c.record.accepted ++ message.take nwrite.toNat ++
      (c.outputBuffer ++ message.drop nwrite.toNat) = _
    rw [hb, List.nil_append, List.append_assoc, List.take_append_drop, List.append_nil]
  · intro _
    rw [WritingIff, isWriting_watch, has_write_enableWriting]
    apply iff_of_true rfl
    show c.outputBuffer ++ message.drop nwrite.toNat ≠ []
    rw [hb, List.nil_append, ne_eq, List.drop_eq_nil_iff]
    omega

/-- Behind queued output the whole message goes into the buffer. -/
theorem sent_appended (hw : c.isWriting = true) (hne : message ≠ []) :
    Sent c message (c.appendOutput message) := by
  refine ⟨quiet_socket c c.state _ _ _ _, rfl, rfl, (List.append_assoc ..).symm, fun _ => ?_⟩
  exact iff_of_true hw fun h => hne (List.append_eq_nil_iff.mp h).2

theorem sent_watched (hne : message ≠ []) :
    Sent c message ((c.appendOutput message).watch (c.channel.events ||| kWriteEvent)) := by
  refine ⟨?_, rfl, rfl, (List.append_assoc ..).symm, fun _ => ?_⟩
  · exact (quiet_socket c c.state (c.outputBuffer ++ message) _ _ _).trans (quiet_watch _ _)
  · rw [WritingIff, isWriting_watch, has_write_enableWriting]
    exact iff_of_true rfl fun h => hne (List.append_eq_nil_iff.mp h).2

/-- `sendInLoop` behind queued output. -/
theorem sendInLoop_behind (h : ¬ (c.isWriting = false ∧ c.outputBuffer = [])) :
    c.sendInLoop message nwrite =
      if message = [] then .ok c
      else if c.isWriting = false then (c.appendOutput message).enableWriting
      else .ok (c.appendOutput message) := by
  rw [sendInLoop, if_neg h, ok_bind]
  dsimp only
  rw [ensure_of le_rfl, ok_bind]
  by_cases hm : message = []
  · rw [if_pos hm, if_neg (by rw [hm]; exact lt_irrefl 0)]
  · rw [if_neg hm, if_pos (by have := List.length_pos_iff.mpr hm; omega)]
    rfl

/-- `sendInLoop` on an idle connection. -/
theorem sendInLoop_idle (hw : c.isWriting = false) (hb : c.outputBuffer = [])
    (hn : nwrite ≤ message.length) :
    c.sendInLoop message nwrite =
      if nwrite.toNat < message.length then
        ((c.wrote message nwrite).appendOutput (message.drop nwrite.toNat)).enableWriting
      else if 0 ≤ nwrite then .ok (c.wrote message nwrite).queueWriteComplete
      else .ok (c.wrote message nwrite) := by
  have hw' : ∀ data, ((c.wrote message nwrite).appendOutput data).isWriting = false := fun _ => hw
  rw [sendInLoop, if_pos ⟨hw, hb⟩, write_of hn, ok_bind]
  by_cases h0 : 0 ≤ nwrite
  · rw [if_pos h0]
    by_cases hlt : nwrite < message.length
    · rw [if_pos hlt, ok_bind]
      dsimp only
      rw [ensure_of h0, ok_bind, if_pos hlt, if_pos (hw' _), if_pos (by omega)]
    · rw [if_neg hlt, ok_bind]
      dsimp only
      rw [ensure_of h0, ok_bind, if_neg hlt, if_neg (by omega), if_pos h0]
  · have hz : nwrite.toNat = 0 := by omega
    rw [if_neg h0, ok_bind]
    dsimp only
    rw [ensure_of le_rfl, ok_bind, if_neg h0, hz]
    by_cases hlt : (0 : Int) < message.length
    · rw [if_pos hlt, if_pos (hw' _), if_pos (by omega)]
      rfl
    · rw [if_neg hlt, if_neg (by omega)]

/-- A result of `::write` that it cannot have. -/
theorem sendInLoop_impossible (hw : c.isWriting = false) (hb : c.outputBuffer = [])
    (hn : ¬ nwrite ≤ message.length) : c.sendInLoop message nwrite = .error .notEnabled := by
  rw [sendInLoop, if_pos ⟨hw, hb⟩, write, ensure_of_not hn]
  rfl

def Idle (c : TcpConnection T) : Prop := c.isWriting = false ∧ c.outputBuffer = []

instance (c : TcpConnection T) : Decidable c.Idle := inferInstanceAs (Decidable (_ ∧ _))

/-- What `sendInLoop` can do. -/
inductive Sends (c : TcpConnection T) (message : Bytes) (nwrite : Int) (c' : TcpConnection T) :
    Prop
  | whole (idle : c.Idle) (all : nwrite = message.length)
      (result : c' = (c.wrote message nwrite).queueWriteComplete)
  | rest (idle : c.Idle) (part : nwrite.toNat < message.length)
      (result : ((c.wrote message nwrite).appendOutput
        (message.drop nwrite.toNat)).enableWriting = .ok c')
  | failed (idle : c.Idle) (negative : nwrite < 0) (empty : message = [])
      (result : c' = c.wrote message nwrite)
  | nothing (busy : ¬ c.Idle) (empty : message = []) (result : c' = c)
  | watched (busy : ¬ c.Idle) (some : message ≠ [])
      (result : (c.appendOutput message).enableWriting = .ok c')
  | appended (busy : ¬ c.Idle) (some : message ≠ []) (writing : c.isWriting = true)
      (result : c' = c.appendOutput message)

theorem sendInLoop_cases (h : c.sendInLoop message nwrite = .ok c') :
    Sends c message nwrite c' := by
  by_cases hidle : c.Idle
  · by_cases hn : nwrite ≤ message.length
    · rw [sendInLoop_idle hidle.1 hidle.2 hn] at h
      split at h
      · rename_i hpart
        exact .rest hidle hpart h
      · rename_i hall
        split at h
        · cases h
          exact .whole hidle (by omega) rfl
        · cases h
          exact .failed hidle (by omega) (List.length_eq_zero_iff.mp (by omega)) rfl
    · cases h.symm.trans (sendInLoop_impossible hidle.1 hidle.2 hn)
  · rw [sendInLoop_behind hidle] at h
    split at h
    · rename_i hempty
      cases h
      exact .nothing hidle hempty rfl
    · rename_i hsome
      split at h
      · exact .watched hidle hsome h
      · rename_i hw
        cases h
        exact .appended hidle hsome (Bool.not_eq_false _ ▸ hw) rfl

theorem sendInLoop_spec (h : c.sendInLoop message nwrite = .ok c') : Sent c message c' := by
  cases sendInLoop_cases h with
  | whole hidle hall hc =>
    rw [hc]
    exact sent_whole hidle.2 (by omega)
  | rest hidle hpart hc =>
    rw [update_ok hc]
    exact sent_rest hidle.2 hpart
  | failed hidle _ hempty hc =>
    rw [hc, hempty]
    exact ⟨quiet_socket c c.state _ _ _ _, rfl, rfl, by simp [wrote], id⟩
  | nothing _ hempty hc =>
    rw [hc, hempty]
    exact ⟨Quiet.refl c, rfl, rfl, (List.append_nil _).symm, id⟩
  | watched _ hsome hc =>
    rw [update_ok hc]
    exact sent_watched hsome
  | appended _ hsome hw hc =>
    rw [hc]
    exact sent_appended hw hsome

/-- Sending is disabled by an impossible write result, and fails only on a channel that is not
registered. -/
theorem sendInLoop_error {f : Fault} (h : c.sendInLoop message nwrite = .error f) :
    f = .notEnabled ∨ (f = .assertion .updateChannel ∧ ¬ c.Registered) := by
  by_cases hidle : c.isWriting = false ∧ c.outputBuffer = []
  · obtain ⟨hw, hb⟩ := hidle
    by_cases hn : nwrite ≤ message.length
    · rw [sendInLoop_idle hw hb hn] at h
      split at h
      · obtain ⟨hf, hr⟩ := update_error h
        exact .inr ⟨hf, fun hreg => hr ⟨hreg.index, hreg.events⟩⟩
      · split at h <;> cases h
    · cases h.symm.trans (sendInLoop_impossible hw hb hn)
      exact .inl rfl
  · rw [sendInLoop_behind hidle] at h
    split at h
    · cases h
    · split at h
      · obtain ⟨hf, hr⟩ := update_error h
        exact .inr ⟨hf, fun hreg => hr ⟨hreg.index, hreg.events⟩⟩
      · cases h

/-- Nothing to send behind queued output. -/
theorem sendInLoop_empty (hb : c.outputBuffer ≠ []) : c.sendInLoop [] nwrite = .ok c := by
  rw [sendInLoop_behind (fun h => hb h.2), if_pos rfl]

/-- A channel that was removed from the poller cannot be updated. -/
theorem enableWriting_removed (hi : c.channel.index = 1) (hr : c.poller.registered = none) :
    c.enableWriting = .error (.assertion .updateChannel) := by
  have hneg : ¬ c.channel.index < 0 := by omega
  rw [enableWriting, update, EpollPoller.updateChannel]
  show ((if c.channel.index < 0 then _ else _) >>= _) = _
  rw [if_neg hneg]
  show ((ensure (c.poller.registered ≠ none) _ >>= _) >>= _) = _
  rw [ensure_of_not fun h => h hr]
  rfl

/-- On a removed channel `sendInLoop` fails, or asks for nothing. -/
theorem sendInLoop_removed (hi : c.channel.index = 1) (hr : c.poller.registered = none)
    (h : c.sendInLoop message nwrite = .ok c') :
    c'.channel = c.channel ∧ c'.poller = c.poller := by
  cases sendInLoop_cases h with
  | whole _ _ hc =>
    rw [hc, queueWriteComplete_frame]
    exact ⟨rfl, rfl⟩
  | rest _ _ hc => cases hc.symm.trans (enableWriting_removed hi hr)
  | failed _ _ _ hc =>
    rw [hc]
    exact ⟨rfl, rfl⟩
  | nothing _ _ hc =>
    rw [hc]
    exact ⟨rfl, rfl⟩
  | watched _ _ hc => cases hc.symm.trans (enableWriting_removed hi hr)
  | appended _ _ _ hc =>
    rw [hc]
    exact ⟨rfl, rfl⟩

/-! ## Draining -/

theorem shutdown_of_ne (h : c.state ≠ .kConnected) : c.shutdown = c := if_neg h

theorem handleWrite_idle (h : c.isWriting = false) : c.handleWrite nwrite = .ok c := by
  rw [handleWrite, if_neg (by rw [h]; exact Bool.false_ne_true)]

theorem handleWrite_impossible (hw : c.isWriting = true)
    (hn : ¬ nwrite ≤ c.outputBuffer.length) : c.handleWrite nwrite = .error .notEnabled := by
  rw [handleWrite, if_pos hw, write, ensure_of_not hn]
  rfl

/-- The connection after a `::write` of its queued output. -/
def drained (c : TcpConnection T) (nwrite : Int) : TcpConnection T :=
  (c.wrote c.outputBuffer nwrite).retrieveOutput nwrite.toNat

/-- `handleWrite` while the channel asks for write events. The call of `shutdown()` it makes
in `kDisconnecting` does nothing, since that tests for `kConnected`. -/
theorem handleWrite_writing (hw : c.isWriting = true) (hn : nwrite ≤ c.outputBuffer.length) :
    c.handleWrite nwrite =
      if 0 < nwrite ∧ (c.drained nwrite).outputBuffer = [] then
        (c.drained nwrite).disableWriting >>= fun c' => .ok c'.queueWriteComplete
      else .ok (c.drained nwrite) := by
  rw [handleWrite, if_pos hw, write_of hn, ok_bind]
  by_cases h0 : 0 < nwrite
  · rw [if_pos h0]
    show (if (c.drained nwrite).outputBuffer = [] then _ else _) = _
    by_cases hb : (c.drained nwrite).outputBuffer = []
    · rw [if_pos hb, if_pos ⟨h0, hb⟩]
      refine congrArg _ (funext fun c' => ?_)
      dsimp only
      split
      · rename_i hstate
        rw [shutdown_of_ne (by rw [hstate]; decide)]
      · rfl
    · rw [if_neg hb, if_neg fun h => hb h.2]
      rfl
  · have hz : nwrite.toNat = 0 := by omega
    rw [if_neg h0, if_neg fun h => h0 h.1, drained, retrieveOutput, hz]
    rfl

theorem drained_stream (c : TcpConnection T) (nwrite : Int) :
    (c.drained nwrite).record.accepted ++ (c.drained nwrite).outputBuffer =
      c.record.accepted ++ c.outputBuffer := by
  show c.record.accepted ++ c.outputBuffer.take nwrite.toNat ++
    c.outputBuffer.drop nwrite.toNat = _
  rw [List.append_assoc, List.take_append_drop]

theorem quiet_drained (c : TcpConnection T) (nwrite : Int) : Quiet c (c.drained nwrite) :=
  quiet_socket c c.state (c.outputBuffer.drop nwrite.toNat) _ _ _

/-- What `handleWrite` can do. -/
inductive Writes (c : TcpConnection T) (nwrite : Int) (c' : TcpConnection T) : Prop
  | nothing (result : c' = c)
  | some (writing : c.isWriting = true)
      (left : ¬ (0 < nwrite ∧ (c.drained nwrite).outputBuffer = []))
      (result : c' = c.drained nwrite)
  | last (writing : c.isWriting = true) (length : nwrite ≤ c.outputBuffer.length)
      (positive : 0 < nwrite) (empty : (c.drained nwrite).outputBuffer = [])
      (result : c' = ((c.drained nwrite).watch
        (c.channel.events &&& ~~~kWriteEvent)).queueWriteComplete)

theorem handleWrite_cases (h : c.handleWrite nwrite = .ok c') : Writes c nwrite c' := by
  by_cases hw : c.isWriting = true
  · by_cases hn : nwrite ≤ c.outputBuffer.length
    · rw [handleWrite_writing hw hn] at h
      split at h
      · rename_i hlast
        obtain ⟨c₁, hc₁, h⟩ := bind_eq_ok.mp h
        rw [update_ok hc₁] at h
        cases h
        exact .last hw hn hlast.1 hlast.2 rfl
      · rename_i hleft
        cases h
        exact .some hw hleft rfl
    · cases h.symm.trans (handleWrite_impossible hw hn)
  · rw [handleWrite_idle (Bool.not_eq_true _ ▸ hw)] at h
    cases h
    exact .nothing rfl

/-- `handleWrite` adds nothing to the stream. -/
theorem handleWrite_spec (h : c.handleWrite nwrite = .ok c') : Sent c [] c' := by
  cases handleWrite_cases h with
  | nothing hc =>
    rw [hc]
    exact ⟨Quiet.refl c, rfl, rfl, (List.append_nil _).symm, id⟩
  | some hw hleft hc =>
    rw [hc]
    refine ⟨quiet_drained c nwrite, rfl, rfl, ?_, fun hiff => ?_⟩
    · rw [List.append_nil]
      exact drained_stream c nwrite
    · refine iff_of_true hw fun hempty => hleft ⟨?_, hempty⟩
      have hne : 0 < c.outputBuffer.length := List.length_pos_iff.mpr (hiff.mp hw)
      have hle : c.outputBuffer.length ≤ nwrite.toNat := List.drop_eq_nil_iff.mp hempty
      omega
  | last _ _ _ hempty hc =>
    rw [hc, queueWriteComplete_frame]
    refine ⟨?_, rfl, rfl, ?_, fun _ => ?_⟩
    · rw [← queueWriteComplete_frame]
      exact ((quiet_drained c nwrite).trans (quiet_watch _ _)).trans
        (quiet_queueWriteComplete _)
    · rw [List.append_nil]
      exact drained_stream c nwrite
    · rw [WritingIff]
      show (c.channel.events &&& ~~~kWriteEvent).has kWriteEvent = true ↔
        (c.drained nwrite).outputBuffer ≠ []
      rw [has_write_disableWriting]
      exact iff_of_false Bool.false_ne_true fun hne => hne hempty

theorem handleWrite_error {f : Fault} (h : c.handleWrite nwrite = .error f) :
    f = .notEnabled ∨ (f = .assertion .updateChannel ∧ ¬ c.Registered) := by
  by_cases hw : c.isWriting = true
  · by_cases hn : nwrite ≤ c.outputBuffer.length
    · rw [handleWrite_writing hw hn] at h
      split at h
      · rcases bind_eq_error.mp h with h | ⟨_, -, h⟩
        · obtain ⟨hf, hr⟩ := update_error h
          exact .inr ⟨hf, fun hreg => hr ((quiet_drained c nwrite).registered hreg)⟩
        · cases h
      · cases h
    · cases h.symm.trans (handleWrite_impossible hw hn)
      exact .inl rfl
  · rw [handleWrite_idle (Bool.not_eq_true _ ▸ hw)] at h
    cases h

/-! ## Shutting down -/

/-- `shutdown()` by the loop thread, and the `shutdownInLoop` of another thread. -/
structure ShutDown (c c' : TcpConnection T) : Prop where
  quiet : Quiet c c'
  accepted : c'.record.accepted = c.record.accepted
  outputBuffer : c'.outputBuffer = c.outputBuffer
  channel : c'.channel = c.channel
  poller : c'.poller = c.poller
  writeCalls : c'.record.writeCalls = c.record.writeCalls

theorem shutdownInLoop_state (c : TcpConnection T) : c.shutdownInLoop.state = c.state := by
  rw [shutdownInLoop]
  split <;> rfl

theorem shutdownInLoop_spec (c : TcpConnection T) : ShutDown c c.shutdownInLoop := by
  rw [shutdownInLoop]
  split
  · exact ⟨quiet_socket c c.state _ _ _ _, rfl, rfl, rfl, rfl, rfl⟩
  · exact ⟨Quiet.refl c, rfl, rfl, rfl, rfl, rfl⟩

theorem shutdown_spec (c : TcpConnection T) : ShutDown c c.shutdown := by
  rw [shutdown]
  split
  · have h := shutdownInLoop_spec { c with state := .kDisconnecting }
    exact ⟨(quiet_socket c .kDisconnecting _ _ _ _).trans h.quiet, h.accepted, h.outputBuffer,
      h.channel, h.poller, h.writeCalls⟩
  · exact ⟨Quiet.refl c, rfl, rfl, rfl, rfl, rfl⟩

/-- The half-close of `shutdown()` by the loop thread is carried out unless output is queued. -/
theorem shutdown_shutdownWrites (h : c.state = .kConnected) :
    c.shutdown.record.shutdownWrites = c.record.shutdownWrites ++
      if c.isWriting = true then [] else [c.outputBuffer.length] := by
  have hw : isWriting { c with state := .kDisconnecting } = c.isWriting := rfl
  rw [shutdown, if_pos h, shutdownInLoop, hw]
  cases c.isWriting with
  | false => rfl
  | true => exact (List.append_nil _).symm

/-! ## Closing -/

/-- What `handleClose` does: the removal is carried out, or left to the base loop. -/
structure Closed (c c' : TcpConnection T) : Prop where
  state : c'.state = .kDisconnected
  events : c'.channel.events = kNoneEvent
  registered : c'.Registered
  owner : c'.owner = c.owner
  outputBuffer : c'.outputBuffer = c.outputBuffer
  record : c'.record = { c.record with closeCallbacks := c.record.closeCallbacks + 1 }
  removal : (c.held = true ∧ c'.held = false ∧ c'.removals = c.removals ∧
      c'.loop.pendingFunctors = c.loop.pendingFunctors ++ [.connectionDestroyed]) ∨
    (c'.held = c.held ∧ c'.removals = c.removals + 1 ∧ c'.loop = c.loop)

theorem Closed.closed (h : Closed c c') : 0 < c'.record.closeCallbacks := by
  rw [h.record]
  exact Nat.succ_pos _

theorem removeConnectionInLoop_ok {b : Bool} (h : c.removeConnectionInLoop b = .ok c') :
    c.held = true ∧ c' = { c with
      held := false, loop := c.loop.queueInLoop b .connectionDestroyed } := by
  obtain ⟨_, hen, h⟩ := bind_eq_ok.mp h
  cases h
  exact ⟨ensure_eq_ok.mp hen, rfl⟩

theorem removeConnection_ok (h : c.removeConnection = .ok c') :
    (c.held = true ∧ c' = { c with
      held := false, loop := c.loop.queueInLoop true .connectionDestroyed }) ∨
    c' = { c with removals := c.removals + 1 } := by
  rw [removeConnection] at h
  split at h
  · exact .inl (removeConnectionInLoop_ok h)
  · cases h
    exact .inr rfl
  · obtain ⟨_, hen, h⟩ := bind_eq_ok.mp h
    cases h
    exact .inl ⟨ensure_eq_ok.mp hen, rfl⟩

theorem handleClose_spec (h : c.handleClose = .ok c') : Closed c c' := by
  obtain ⟨c₁, hc₁, h⟩ := bind_eq_ok.mp h
  rw [update_ok hc₁] at h
  rcases removeConnection_ok h with ⟨hheld, rfl⟩ | rfl
  · exact ⟨rfl, rfl, ⟨rfl, rfl⟩, rfl, rfl, rfl,
      .inl ⟨hheld, rfl, rfl, EventLoop.queueInLoop_pendingFunctors ..⟩⟩
  · exact ⟨rfl, rfl, ⟨rfl, rfl⟩, rfl, rfl, rfl, .inr ⟨rfl, rfl, rfl⟩⟩

theorem removeConnection_error {f : Fault} (h : c.removeConnection = .error f) :
    c.held = false ∧
      (f = .assertion .removeConnectionInLoop ∨ f = .assertion .removeConnection) := by
  rw [removeConnection] at h
  split at h
  · rcases ensure_bind_eq_error.mp h with ⟨hheld, rfl⟩ | ⟨-, h⟩
    · exact ⟨Bool.not_eq_true _ ▸ hheld, .inl rfl⟩
    · cases h
  · cases h
  · rcases ensure_bind_eq_error.mp h with ⟨hheld, rfl⟩ | ⟨-, h⟩
    · exact ⟨Bool.not_eq_true _ ▸ hheld, .inr rfl⟩
    · cases h

/-- Closing fails on a channel that is not registered, and if the connection is not held. -/
theorem handleClose_error {f : Fault} (h : c.handleClose = .error f) :
    (f = .assertion .updateChannel ∧ ¬ c.Registered) ∨
      (c.held = false ∧
        (f = .assertion .removeConnectionInLoop ∨ f = .assertion .removeConnection)) := by
  rcases bind_eq_error.mp h with h | ⟨c₁, hc₁, h⟩
  · obtain ⟨hf, hr⟩ := update_error h
    exact .inl ⟨hf, fun hreg => hr ⟨hreg.index, hreg.events⟩⟩
  · rw [update_ok hc₁] at h
    obtain ⟨hheld, hf⟩ := removeConnection_error h
    exact .inr ⟨hheld, hf⟩

/-! ## Establishing and destroying -/

theorem removeChannel_ok {p p' : EpollPoller} {ch : Channel} (h : p.removeChannel ch = .ok p') :
    p.registered ≠ none ∧ ch.events = kNoneEvent ∧ p' = ⟨none⟩ := by
  obtain ⟨_, hreg, h⟩ := bind_eq_ok.mp h
  obtain ⟨_, hev, h⟩ := bind_eq_ok.mp h
  cases h
  exact ⟨ensure_eq_ok.mp hreg, ensure_eq_ok.mp hev, rfl⟩

/-- Past `kConnecting` the connection is removed from the poller, and that is all. -/
theorem connectionDestroyed_ok (hs : c.state ≠ .kConnecting) (h : c.connectionDestroyed = .ok c') :
    c.channel.events = kNoneEvent ∧ c' = { c with poller := ⟨none⟩ } := by
  rw [connectionDestroyed, if_neg hs, ok_bind] at h
  obtain ⟨p, hp, h⟩ := bind_eq_ok.mp h
  obtain ⟨-, hev, rfl⟩ := removeChannel_ok hp
  cases h
  exact ⟨hev, rfl⟩

theorem connectionDestroyed_error (hs : c.state ≠ .kConnecting) {f : Fault}
    (h : c.connectionDestroyed = .error f) :
    f = .assertion .removeChannel ∧ ¬ (c.Registered ∧ c.channel.events = kNoneEvent) := by
  rw [connectionDestroyed, if_neg hs, ok_bind] at h
  rcases bind_eq_error.mp h with h | ⟨_, -, h⟩
  · rcases ensure_bind_eq_error.mp h with ⟨hreg, rfl⟩ | ⟨-, h⟩
    · refine ⟨rfl, fun hr => hreg ?_⟩
      rw [hr.1.events]
      exact Option.some_ne_none _
    · rcases ensure_bind_eq_error.mp h with ⟨hev, rfl⟩ | ⟨-, h⟩
      · exact ⟨rfl, fun hr => hev hr.2⟩
      · cases h
  · cases h

end Summer.Net.TcpConnection
