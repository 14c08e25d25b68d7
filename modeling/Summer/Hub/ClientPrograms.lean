import Summer.Hub.MalformedLine
import Summer.Net.ConnectionCallbacks
import Summer.Net.GracefulShutdown

/-!
# The programs `pub` and `sub`

A `PubSubClient` with the connection callback of its program, in the one thread of the program.
`sub` subscribes to its topics. `pub` publishes one content and disconnects; it leaves the loop only
when it is told that the connection is down.
-/
namespace Summer.Hub

open Summer.Lib
open Summer.Net (ConnectionSystem StateE EventCallback ReadResult)

/-! ## A first part of a stream of frames -/

section Prefix

variable {κ : Type} {fresh : Bool} {handle : Strings → List κ} {onError : List κ}
  {calls : Frame → List κ}

theorem complete_all (fs : List Frame) : complete fs (Frame.encodeAll fs).length = fs := by
  induction fs with
  | nil => rfl
  | cons f fs ih =>
    rw [encodeAll_cons, List.length_append, complete, if_neg (by omega), Nat.add_sub_cancel_left,
      ih]

/-- The frames complete after some more bytes. -/
theorem complete_add (fs : List Frame) {n : Nat} (hn : n ≤ (Frame.encodeAll fs).length) (k : Nat) :
    complete fs (n + k) =
        complete fs n ++ complete (left fs n) ((unfinished fs n).length + k) ∧
      unfinished fs (n + k) = unfinished (left fs n) ((unfinished fs n).length + k) := by
  induction fs generalizing n with
  | nil => exact ⟨rfl, rfl⟩
  | cons f fs ih =>
    rw [encodeAll_cons, List.length_append] at hn
    by_cases h : n < f.encode.length
    · have hnone : complete (f :: fs) n = [] := if_pos h
      have hleft : left (f :: fs) n = f :: fs := if_pos h
      have hlen : (unfinished (f :: fs) n).length = n := by
        rw [unfinished, if_pos h, List.length_take_of_le (Nat.le_of_lt h)]
      rw [hnone, hleft, hlen]
      exact ⟨rfl, rfl⟩
    · have h' : ¬ n + k < f.encode.length := by omega
      have hs : n + k - f.encode.length = n - f.encode.length + k := by omega
      obtain ⟨hcomplete, hunfinished⟩ := ih (n := n - f.encode.length) (by omega)
      simp only [complete, left, unfinished, if_neg h, if_neg h', hs, List.cons_append]
      exact ⟨by rw [hcomplete], hunfinished⟩

/-- The calls made for a first part of a stream of frames, however it is cut. -/
theorem deliver_prefix (hcalls : ∀ f s, handle (f.strings s) = calls f) {fs : List Frame}
    (hfs : ∀ f ∈ fs, f.WellFormed) {chunks : List Bytes}
    (hs : chunks.flatten <+: Frame.encodeAll fs) {made : List κ} {rest : Bytes}
    (h : deliver (onMessage fresh handle onError) [] chunks = .ok (made, rest)) :
    made = (complete fs chunks.flatten.length).flatMap calls ∧
      rest = unfinished fs chunks.flatten.length := by
  induction chunks using List.reverseRecOn generalizing made rest with
  | nil =>
    cases h
    cases fs with
    | nil => exact ⟨rfl, rfl⟩
    | cons f fs => simp [complete, unfinished, Frame.encode_pos]
  | append_singleton chunks c ih =>
    obtain ⟨first, w, more, hfirst, hc, rfl⟩ := deliver_append_ok.mp h
    rw [deliver_singleton] at hc
    rw [List.flatten_append, List.flatten_singleton] at hs
    obtain ⟨rfl, rfl⟩ := ih ((List.prefix_append _ _).trans hs) hfirst
    set n := chunks.flatten.length with hn
    obtain ⟨tail, htail⟩ := hs
    have hle : n ≤ (Frame.encodeAll fs).length := by
      rw [← htail, List.length_append, List.length_append]
      omega
    have htake : (Frame.encodeAll fs).take n ++ (c ++ tail) = Frame.encodeAll fs := by
      rw [← htail, List.append_assoc, hn, List.take_left]
    have hleft := unfinished_append fs htake
    have hread : (Frame.encodeAll (left fs n)).take ((unfinished fs n).length + c.length) =
        unfinished fs n ++ c := by
      rw [← hleft, ← List.append_assoc, ← List.length_append, List.take_left]
    rw [← hread, onMessage_take hcalls fun f hf => hfs f (left_subset fs n f hf)] at hc
    obtain ⟨hcomplete, hunfinished⟩ := complete_add fs hle c.length
    rw [List.flatten_append, List.flatten_singleton, List.length_append, ← hn, hcomplete,
      hunfinished, List.flatMap_append]
    split at hc
    · cases hc
    · obtain ⟨rfl, rfl⟩ := Prod.mk.inj (Except.ok.inj hc)
      exact ⟨rfl, rfl⟩

/-- However the bytes of a first part of some messages are cut, the hub reads a first part of their
calls off them, and all of them off the whole. -/
theorem messages_heard {ms : List Message} (hsep : ∀ m ∈ ms, m.Separable) {chunks : List Bytes}
    (hchunks : chunks.flatten <+: Message.encodeAll ms) {made : List HubCall} {rest : Bytes}
    (hdeliver : deliver HubServer.onMessage [] chunks = .ok (made, rest)) :
    made <+: ms.flatMap (fun m => m.frame.hubCalls) ∧
      (chunks.flatten = Message.encodeAll ms → made = ms.flatMap fun m => m.frame.hubCalls) := by
  have hframes : Frame.encodeAll (ms.map Message.frame) = Message.encodeAll ms := by
    rw [Frame.encodeAll, Message.encodeAll, List.flatMap_map]
    exact congrArg (List.flatMap · ms) (funext Message.encode_frame)
  have hwf : ∀ f ∈ ms.map Message.frame, f.WellFormed := by
    intro f hf
    obtain ⟨m, hm, rfl⟩ := List.mem_map.mp hf
    exact Message.wellFormed_frame (hsep m hm)
  have hcalls : ms.flatMap (fun m => m.frame.hubCalls) =
      (ms.map Message.frame).flatMap Frame.hubCalls := by rw [List.flatMap_map]
  obtain ⟨rfl, -⟩ := deliver_prefix Frame.hub_dispatch hwf (by rwa [hframes]) hdeliver
  rw [hcalls]
  constructor
  · nth_rewrite 2 [← complete_append_left (ms.map Message.frame) chunks.flatten.length]
    rw [List.flatMap_append]
    exact List.prefix_append _ _
  · intro hall
    rw [hall, ← hframes, complete_all]

end Prefix

/-! ## The programs -/

/-- What the command line says. -/
inductive Program where
  | pub (topic content : Bytes)
  | sub (topics : List Bytes)
  deriving DecidableEq

/-- The messages that the program builds. -/
def Program.messages : Program → List Message
  | .pub topic content => [.publish topic content]
  | .sub topics => topics.map .subscribe

/-- The hub's call for each message of the program. -/
def Program.hubCalls (program : Program) : List HubCall :=
  program.messages.flatMap fun m => m.frame.hubCalls

/-- Whether the program sets a subscribe callback. -/
def Program.subscribeCallback : Program → Bool
  | .pub .. => false
  | .sub _ => true

/-- The client of a program: `conn` is whether `conn_` is set, `unread` the input buffer, `notices`
the calls of the subscribe callback, and `quit` whether `g_loop->quit()` was called. -/
structure ClientProcess (T : Type) where
  system : ConnectionSystem T := .init .client false
  conn : Bool := false
  unread : Bytes := []
  notices : List (Bytes × Bytes) := []
  quit : Bool := false

namespace ClientProcess

variable {T : Type} [DecidableEq T]

/-- A step of the loop, the bytes it reads for the message callback, and the results of the
`::write`s of the connection callback. -/
structure Action (T : Type) where
  step : ConnectionSystem.Action T
  chunk : Bytes := []
  nwrite : Nat → Int := fun _ => 0

/-- The loop takes it, not the user. -/
def Action.byLoop (a : Action T) : Bool :=
  match a.step with
  | .send .. | .shutdown | .removeConnectionInLoop => false
  | .otherSend .. | .otherSendPush _ => false
  | .otherShutdown _ | .otherShutdownSet _ | .otherShutdownPush _ => false
  | _ => true

def connected (p : ClientProcess T) : Bool :=
  p.conn && decide (p.system.conn.state = .kConnected)

def take (p : ClientProcess T) (a : ConnectionSystem.Action T) :
    Except Fault (ClientProcess T) := do
  let system ← p.system.step a
  .ok { p with system := system }

/-- `send` in the thread of the loop. -/
def send (p : ClientProcess T) (message : Bytes) (nwrite : Int) :
    Except Fault (ClientProcess T) :=
  if p.connected = true then p.take (.send (.string message) nwrite) else .ok p

def subscribe (p : ClientProcess T) (topic : Bytes) (nwrite : Int) :
    Except Fault (ClientProcess T) := p.send (PubSubClient.subscribe topic) nwrite

def publish (p : ClientProcess T) (topic content : Bytes) (nwrite : Int) :
    Except Fault (ClientProcess T) := p.send (PubSubClient.publish topic content) nwrite

/-- `TcpClient::disconnect`, which shuts down the connection that the client holds. -/
def disconnect (p : ClientProcess T) : Except Fault (ClientProcess T) :=
  if p.system.conn.held = true then p.take .shutdown else .ok p

/-- The loop over `g_topics`. -/
def subscribeAll (nwrite : Nat → Int) :
    List Bytes → ClientProcess T → Except Fault (ClientProcess T)
  | [], p => .ok p
  | topic :: topics, p => do
    let p ← p.subscribe topic (nwrite 0)
    subscribeAll (fun i => nwrite (i + 1)) topics p

/-- `connection` of the program. -/
def connection (program : Program) (nwrite : Nat → Int) (p : ClientProcess T) :
    Except Fault (ClientProcess T) :=
  match program with
  | .pub topic content =>
    if p.connected = true then do
      let p ← p.publish topic content (nwrite 0)
      p.disconnect
    else .ok { p with quit := true }
  | .sub topics => if p.connected = true then subscribeAll nwrite topics p else .ok p

/-- `connectionCallback` is what `connectionCallback_` does, if it is set. -/
def onConnection (connectionCallback : ClientProcess T → Except Fault (ClientProcess T))
    (p : ClientProcess T) : Except Fault (ClientProcess T) :=
  connectionCallback { p with conn := decide (p.system.conn.state = .kConnected) }

def noticeOf : ClientCall → Option (Bytes × Bytes)
  | .subscribeCallback topic content => some (topic, content)
  | .shutdown => none

def onMessage (subscribeCallback : Bool) (p : ClientProcess T) (chunk : Bytes) :
    Except Fault (ClientProcess T) := do
  let (calls, rest) ← PubSubClient.onMessage subscribeCallback (p.unread ++ chunk)
  let p := { p with unread := rest, notices := p.notices ++ calls.filterMap noticeOf }
  if .shutdown ∈ calls then p.take .shutdown else .ok p

/-- The step calls the message callback. -/
def readsData (s : ConnectionSystem T) : ConnectionSystem.Action T → Bool
  | .handleEvent _ =>
    match s.phase with
    | .handling (.readCallback :: _) .data => true
    | _ => false
  | _ => false

/-- `while(!quit_)` is tested before each poll. -/
def polls : ConnectionSystem.Action T → Bool
  | .poll .. | .pollOther => true
  | _ => false

/-- A step of the loop with the callback it makes. -/
def loopStep
    (connectionCallback : (Nat → Int) → ClientProcess T → Except Fault (ClientProcess T))
    (subscribeCallback : Bool) (p : ClientProcess T) (a : Action T) :
    Except Fault (ClientProcess T) := do
  ensure (a.byLoop = true ∧ (polls a.step = true → p.quit = false)) .notEnabled
  let told := p.system.conn.record.connectionCallbacks
  let reads := readsData p.system a.step
  let p ← p.take a.step
  if p.system.conn.record.connectionCallbacks ≠ told then
    p.onConnection (connectionCallback a.nwrite)
  else if reads = true then p.onMessage subscribeCallback a.chunk
  else .ok p

/-- A program has no thread but that of its loop. -/
def step (program : Program) : ClientProcess Empty → Action Empty →
    Except Fault (ClientProcess Empty) :=
  loopStep (connection program) program.subscribeCallback

/-! ## The loop's share -/

section LoopStep

variable {p p' : ClientProcess T} {a : Action T} {subscribeCallback : Bool}
  {connectionCallback : (Nat → Int) → ClientProcess T → Except Fault (ClientProcess T)}

theorem take_ok {b : ConnectionSystem.Action T} (h : p.take b = .ok p') :
    ∃ system, p.system.step b = .ok system ∧ p' = { p with system := system } := by
  obtain ⟨system, hstep, h⟩ := bind_eq_ok.mp h
  cases h
  exact ⟨system, hstep, rfl⟩

/-- What a message callback does to the connection is at most a `shutdown()`. -/
theorem onMessage_ok {chunk : Bytes} (h : p.onMessage subscribeCallback chunk = .ok p') :
    ∃ unread notices, p' = { p with unread := unread, notices := notices } ∨
      { p with unread := unread, notices := notices }.take .shutdown = .ok p' := by
  obtain ⟨⟨calls, rest⟩, -, h⟩ := bind_eq_ok.mp h
  dsimp only at h
  split at h
  · exact ⟨_, _, .inr h⟩
  · cases h
    exact ⟨_, _, .inl rfl⟩

/-- A step of the loop has led to `q`; the callback that it calls leads on. -/
inductive Calls
    (connectionCallback : (Nat → Int) → ClientProcess T → Except Fault (ClientProcess T))
    (subscribeCallback : Bool) (p : ClientProcess T) (a : Action T) (q p' : ClientProcess T) : Prop
  | connection
      (told : q.system.conn.record.connectionCallbacks ≠ p.system.conn.record.connectionCallbacks)
      (result : q.onConnection (connectionCallback a.nwrite) = .ok p')
  | message
      (told : q.system.conn.record.connectionCallbacks = p.system.conn.record.connectionCallbacks)
      (reads : readsData p.system a.step = true)
      (result : q.onMessage subscribeCallback a.chunk = .ok p')
  | nothing
      (told : q.system.conn.record.connectionCallbacks = p.system.conn.record.connectionCallbacks)
      (result : p' = q)

theorem loopStep_ok (h : loopStep connectionCallback subscribeCallback p a = .ok p') :
    a.byLoop = true ∧ ∃ q, p.take a.step = .ok q ∧
      Calls connectionCallback subscribeCallback p a q p' := by
  obtain ⟨_, hen, h⟩ := bind_eq_ok.mp h
  obtain ⟨hloop, -⟩ := ensure_eq_ok.mp hen
  obtain ⟨q, htake, h⟩ := bind_eq_ok.mp h
  refine ⟨hloop, q, htake, ?_⟩
  split at h
  · exact .connection ‹_› h
  · rename_i hsame
    split at h
    · exact .message (not_not.mp hsame) ‹_› h
    · cases h
      exact .nothing (not_not.mp hsame) rfl

omit [DecidableEq T] in
/-- The loop sends nothing outside of callbacks. -/
theorem Action.byLoop_not_send (h : a.byLoop = true) (argument : Net.SendArgument) (n : Int) :
    a.step ≠ .send argument n := by
  intro heq
  rw [Action.byLoop, heq] at h
  cases h

end LoopStep

/-! ## What one step of the connection keeps -/

open Net.ConnectionSystem (Live LoopThread Streaming established)
open Net.TcpConnection (handleClose_spec handleWrite_spec sendInLoop_spec shutdownInLoop_spec
  shutdown_spec)

section Steps

variable {s s' : ConnectionSystem Empty} {a : ConnectionSystem.Action Empty}

/-- There are no other threads. -/
theorem byLoopThread_empty (a : ConnectionSystem.Action Empty) : a.byLoopThread = true := by
  cases a with
  | otherSend t _ | otherSendPush t | otherShutdown t | otherShutdownSet t | otherShutdownPush t =>
    exact t.elim
  | _ => rfl

theorem isShutdownSet_empty (a : ConnectionSystem.Action Empty) : a.isShutdownSet = false := by
  cases a with
  | otherShutdownSet t => exact t.elim
  | _ => rfl

/-- What is queued stays empty unless something is sent. -/
theorem handleWrite_empty {c c' : Net.TcpConnection Empty} {n : Int} (hempty : c.outputBuffer = [])
    (h : c.handleWrite n = .ok c') : c'.outputBuffer = [] := by
  have hdrained : (c.drained n).outputBuffer = [] := by
    show c.outputBuffer.drop n.toNat = []
    rw [hempty, List.drop_nil]
  cases Net.TcpConnection.handleWrite_cases h with
  | nothing hc => rw [hc, hempty]
  | some _ _ hc => rw [hc, hdrained]
  | last _ _ _ _ hc =>
    rw [hc, Net.TcpConnection.queueWriteComplete_frame]
    exact hdrained

/-- What a step that sends nothing keeps of the stream. -/
structure Keeps (s s' : ConnectionSystem Empty) : Prop where
  executed : s'.executed = s.executed
  stream : s'.conn.record.accepted ++ s'.conn.outputBuffer =
    s.conn.record.accepted ++ s.conn.outputBuffer
  drained : s.conn.outputBuffer = [] → s'.conn.outputBuffer = []

/-- Only a send adds to the stream. -/
theorem keeps_of_step (hlive : s.Live) (ha : ∀ argument n, a ≠ .send argument n)
    (hstep : s.step a = .ok s') : Keeps s s' := by
  have same (hexec : s'.executed = s.executed)
      (hacc : s'.conn.record.accepted = s.conn.record.accepted)
      (hout : s'.conn.outputBuffer = s.conn.outputBuffer) : Keeps s s' :=
    ⟨hexec, by rw [hacc, hout], fun hempty => hout.trans hempty⟩
  cases ConnectionSystem.moves_of_step hlive.state hstep with
  | passes hp =>
    obtain ⟨loop, revents, phase, rfl⟩ := hp.frame
    exact same rfl rfl rfl
  | close _ _ _ hclose =>
    have hc := handleClose_spec hclose
    exact same rfl (by rw [hc.record]) hc.outputBuffer
  | drain _ _ hdrain =>
    exact ⟨rfl, by rw [(handleWrite_spec hdrain).stream, List.append_nil],
      fun hempty => handleWrite_empty hempty hdrain⟩
  | destroy _ _ hdestroy =>
    obtain ⟨-, rfl⟩ := Net.TcpConnection.connectionDestroyed_ok hlive.state hdestroy
    exact same rfl rfl rfl
  | runShutdown _ _ =>
    have hs := shutdownInLoop_spec s.conn
    exact same rfl hs.accepted hs.outputBuffer
  | send _ _ _ => exact absurd rfl (ha _ _)
  | shutdown _ _ =>
    have hs := shutdown_spec s.conn
    exact same rfl hs.accepted hs.outputBuffer
  | @runSend _ _ t | @otherSend t | @otherSendPush t | @otherShutdown t | @otherShutdownSet t
  | @otherShutdownPush t => exact t.elim
  | notify _ | otherFunctor | baseRemove _ _ => exact same rfl rfl rfl

/-- The connection is established and its callback is not called yet. -/
def early (loop : Net.EventLoop (Net.Functor Empty)) : ConnectionSystem Empty :=
  { established .client false with
    conn := { (established .client false : ConnectionSystem Empty).conn with loop := loop } }

/-- The callback was called, with the connection up. -/
def told (loop : Net.EventLoop (Net.Functor Empty)) : ConnectionSystem Empty :=
  { early loop with
    conn := (early loop).conn.connectionCallback
    establishing := false
    notified := true }

theorem early_step {loop : Net.EventLoop (Net.Functor Empty)} (h : (early loop).step a = .ok s') :
    (a ≠ .connectionCallback ∧ ∃ loop', s' = early loop') ∨
      a = .connectionCallback ∧ s' = told loop := by
  have hlocked {p : Prop} (hfree : (early loop).Free) : p := hfree.not_early rfl
  have hstate : (early loop).conn.state ≠ .kConnecting := fun heq => by cases heq
  cases ConnectionSystem.moves_of_step hstate h with
  | passes hp =>
    cases hp with
    | ignored hne _ => exact absurd rfl hne
    | poll hfree | pollOther hfree | noClose hfree | swap hfree | runOther hfree | endPass hfree =>
      exact hlocked hfree
  | notify _ => exact .inr ⟨rfl, rfl⟩
  | close hfree | drain hfree | destroy hfree | runSend hfree | runShutdown hfree | send hfree
  | shutdown hfree => exact hlocked hfree
  | @otherSend t | @otherSendPush t | @otherShutdown t | @otherShutdownSet t
  | @otherShutdownPush t => exact t.elim
  | otherFunctor => exact .inl ⟨by simp, _, rfl⟩
  | baseRemove hpos _ => exact absurd hpos (Nat.lt_irrefl 0)

end Steps

/-! ## What a program has sent -/

/-- The connection callback has run or is running, and has sent these bytes one after another. -/
structure Told (sent : List Bytes) (p : ClientProcess Empty) : Prop where
  live : p.system.Live
  thread : p.system.LoopThread
  streaming : p.system.Streaming
  establishing : p.system.establishing = false
  callbacks : p.system.conn.record.connectionCallbacks = [true]
  executed : p.system.executed = sent.map (Prod.mk none)
  stream : p.system.conn.record.accepted ++ p.system.conn.outputBuffer = sent.flatten
  quit : p.quit = false

/-- The client is connected, and knows it. -/
structure Up (p : ClientProcess Empty) : Prop where
  conn : p.conn = true
  state : p.system.conn.state = .kConnected

variable {p p' : ClientProcess Empty} {sent : List Bytes}

theorem Up.connected (h : Up p) : p.connected = true := by
  simp [ClientProcess.connected, h.conn, h.state]

/-- The part that does not depend on what is sent. -/
theorem Told.frame (h : Told sent p) {a : ConnectionSystem.Action Empty}
    {system : ConnectionSystem Empty} (hstep : p.system.step a = .ok system) :
    system.Live ∧ system.LoopThread ∧ system.Streaming ∧ system.establishing = false ∧
      system.conn.record.connectionCallbacks = [true] := by
  refine ⟨Net.ConnectionSystem.live_step h.live hstep,
    Net.ConnectionSystem.loopThread_step h.live h.thread (byLoopThread_empty a) hstep,
    Net.ConnectionSystem.streaming_step h.live h.streaming hstep, ?_⟩
  cases Net.ConnectionSystem.callback_step h.live hstep with
  | kept establishing _ callbacks =>
    exact ⟨establishing.trans h.establishing, callbacks.trans h.callbacks⟩
  | notify _ early => cases early.symm.trans h.establishing
  | shutdownSet action => cases action.symm.trans (isShutdownSet_empty a)

theorem Told.take (h : Told sent p) {a : ConnectionSystem.Action Empty}
    (ha : ∀ argument n, a ≠ .send argument n) (htake : p.take a = .ok p') : Told sent p' := by
  obtain ⟨system, hstep, rfl⟩ := take_ok htake
  obtain ⟨hlive, hthread, hstreaming, hest, hcb⟩ := h.frame hstep
  have hkeeps := keeps_of_step h.live ha hstep
  exact ⟨hlive, hthread, hstreaming, hest, hcb, hkeeps.executed.trans h.executed,
    hkeeps.stream.trans h.stream, h.quit⟩

/-- A send of a client that is connected. -/
theorem Told.send (h : Told sent p) (hup : Up p) {message : Bytes} {n : Int}
    (hsend : p.send message n = .ok p') :
    Told (sent ++ [message]) p' ∧ Up p' ∧
      ∃ conn, p.system.conn.sendInLoop message n = .ok conn ∧ p'.system.conn = conn := by
  rw [ClientProcess.send, if_pos hup.connected] at hsend
  obtain ⟨system, hstep, rfl⟩ := take_ok hsend
  obtain ⟨hlive, hthread, hstreaming, hest, hcb⟩ := h.frame hstep
  cases ConnectionSystem.moves_of_step h.live.state hstep with
  | passes hp =>
    cases hp with
    | ignored hne _ => exact absurd hup.state hne
  | @send _ _ conn _ _ hconn =>
    have hs := sendInLoop_spec hconn
    refine ⟨⟨hlive, hthread, hstreaming, hest, hcb, ?_, ?_, h.quit⟩,
      ⟨hup.conn, hs.state.trans hup.state⟩, conn, hconn, rfl⟩
    · dsimp only
      rw [h.executed, List.map_append]
      rfl
    · dsimp only
      rw [hs.stream, h.stream, List.flatten_append, List.flatten_singleton]
      rfl

theorem Told.subscribeAll (h : Told sent p) (hup : Up p) {topics : List Bytes}
    {nwrite : Nat → Int} (hrun : subscribeAll nwrite topics p = .ok p') :
    Told (sent ++ topics.map PubSubClient.subscribe) p' := by
  induction topics generalizing p sent nwrite with
  | nil =>
    cases hrun
    rw [List.map_nil, List.append_nil]
    exact h
  | cons topic topics ih =>
    obtain ⟨q, hsend, hrest⟩ := bind_eq_ok.mp hrun
    obtain ⟨hq, hup, -⟩ := h.send hup hsend
    have hall := ih hq hup hrest
    rwa [List.append_assoc] at hall

theorem Told.disconnect (h : Told sent p) (hrun : p.disconnect = .ok p') : Told sent p' := by
  rw [ClientProcess.disconnect] at hrun
  split at hrun
  · exact h.take (fun _ _ heq => by cases heq) hrun
  · cases hrun
    exact h

theorem Told.congr (h : Told sent p) (unread : Bytes) (notices : List (Bytes × Bytes)) :
    Told sent { p with unread := unread, notices := notices } :=
  ⟨h.live, h.thread, h.streaming, h.establishing, h.callbacks, h.executed, h.stream, h.quit⟩

theorem Told.onMessage (h : Told sent p) {subscribeCallback : Bool} {chunk : Bytes}
    (hrun : p.onMessage subscribeCallback chunk = .ok p') : Told sent p' := by
  obtain ⟨unread, notices, rfl | htake⟩ := onMessage_ok hrun
  · exact h.congr unread notices
  · exact (h.congr unread notices).take (fun _ _ heq => by cases heq) htake

/-! ## Runs of a program -/

variable {program : Program} {a : Action Empty} {as : List (Action Empty)}

theorem step_ok (h : step program p a = .ok p') :
    (∀ argument n, a.step ≠ .send argument n) ∧ ∃ q, p.take a.step = .ok q ∧
      Calls (connection program) program.subscribeCallback p a q p' := by
  obtain ⟨hloop, hcalls⟩ := loopStep_ok h
  exact ⟨Action.byLoop_not_send hloop, hcalls⟩

theorem Told.connection (h : Told [] p) (hup : Up p) {nwrite : Nat → Int}
    (hrun : connection program nwrite p = .ok p') :
    Told (program.messages.map Message.encode) p' := by
  cases program with
  | pub topic content =>
    rw [ClientProcess.connection, if_pos hup.connected] at hrun
    obtain ⟨q, hsend, hrun⟩ := bind_eq_ok.mp hrun
    exact (h.send hup hsend).1.disconnect hrun
  | sub topics =>
    rw [ClientProcess.connection, if_pos hup.connected] at hrun
    have hall := h.subscribeAll hup hrun
    rw [Program.messages, List.map_map]
    exact hall

/-- Before the connection, and before its callback. -/
inductive Waiting (p : ClientProcess Empty) : Prop
  | fresh (system : p.system = .init .client false)
  | early (loop : Net.EventLoop (Net.Functor Empty)) (system : p.system = early loop)
      (live : p.system.Live) (thread : p.system.LoopThread) (streaming : p.system.Streaming)

theorem Waiting.phase (h : Waiting p) : p.system.phase = .between := by
  cases h with
  | fresh system => rw [system]; rfl
  | early _ system => rw [system]; rfl

theorem Waiting.reads_nothing (h : Waiting p) (b : ConnectionSystem.Action Empty) :
    readsData p.system b = false := by
  cases b with
  | handleEvent n => rw [readsData, h.phase]
  | _ => rfl

theorem Waiting.callbacks (h : Waiting p) :
    p.system.conn.record.connectionCallbacks = [] ∧ p.system.conn.record.accepted = [] ∧
      p.system.conn.record.shutdownWrites = [] := by
  cases h with
  | fresh system => rw [system]; exact ⟨rfl, rfl, rfl⟩
  | early _ system => rw [system]; exact ⟨rfl, rfl, rfl⟩

/-- What one step does of what a program does. -/
inductive Advances (program : Program) (p : ClientProcess Empty) (a : Action Empty)
    (p' : ClientProcess Empty) : Prop
  | waits (step : a.step ≠ .connectionCallback) (waiting : Waiting p') (quit : p'.quit = p.quit)
  /-- The callback finds the connection up, with nothing sent. -/
  | calls (step : a.step = .connectionCallback) (q : ClientProcess Empty)
      (loop : Net.EventLoop (Net.Functor Empty)) (system : q.system = told loop)
      (told : p.quit = false → Told [] q) (up : Up q)
      (result : connection program a.nwrite q = .ok p')

theorem Waiting.step (h : Waiting p) (hstep : step program p a = .ok p') :
    Advances program p a p' := by
  obtain ⟨-, q, htake, hcalls⟩ := step_ok hstep
  obtain ⟨system, hsystem, rfl⟩ := take_ok htake
  -- The step waits unless it calls the connection callback.
  have waits (ha : a.step ≠ .connectionCallback)
      (hw : Waiting { p with system := system }) : Advances program p a p' := by
    cases hcalls with
    | connection told => exact absurd (hw.callbacks.1.trans h.callbacks.1.symm) told
    | message _ reads => cases reads.symm.trans (h.reads_nothing a.step)
    | nothing _ result =>
      subst result
      exact .waits ha hw rfl
  cases h with
  | fresh hinit =>
    rw [hinit] at hsystem
    have ha : a.step ≠ .connectionCallback := by
      intro heq
      rw [heq] at hsystem
      cases hsystem
    rcases ConnectionSystem.first_step hsystem with rfl | rfl
    · exact waits ha (.fresh rfl)
    · exact waits ha (.early {} rfl (ConnectionSystem.established_live .client false)
        ⟨fun _ => rfl, List.not_mem_nil⟩ (ConnectionSystem.established_streaming .client false))
  | early loop hearly hlive hthread hstreaming =>
    have hlive' := Net.ConnectionSystem.live_step hlive hsystem
    have hthread' :=
      Net.ConnectionSystem.loopThread_step hlive hthread (byLoopThread_empty _) hsystem
    have hstreaming' := Net.ConnectionSystem.streaming_step hlive hstreaming hsystem
    rw [hearly] at hsystem
    rcases early_step hsystem with ⟨ha, loop', rfl⟩ | ⟨ha, rfl⟩
    · exact waits ha (.early loop' rfl hlive' hthread' hstreaming')
    · cases hcalls with
      | connection _ result =>
        exact .calls ha { p with system := told loop, conn := true } loop rfl
          (fun hquit => ⟨hlive', hthread', hstreaming', rfl, rfl, rfl, rfl, hquit⟩) ⟨rfl, rfl⟩
          result
      | message told | nothing told =>
        rw [hearly] at told
        cases told

/-- After the callback a step leaves what the program has sent. -/
theorem Told.step (h : Told sent p) (hstep : step program p a = .ok p') :
    Told sent p' ∧ a.step ≠ .connectionCallback ∧ ∃ q, p.take a.step = .ok q ∧
      (p' = q ∨ q.onMessage program.subscribeCallback a.chunk = .ok p') := by
  obtain ⟨hsend, q, htake, hcalls⟩ := step_ok hstep
  have hq := h.take hsend htake
  have ha : a.step ≠ .connectionCallback := by
    intro heq
    obtain ⟨system, hsystem, -⟩ := take_ok htake
    rw [heq] at hsystem
    obtain ⟨_, hen, -⟩ := bind_eq_ok.mp hsystem
    cases h.establishing.symm.trans (ensure_eq_ok.mp hen)
  cases hcalls with
  | connection told => exact absurd (hq.callbacks.trans h.callbacks.symm) told
  | message _ _ result => exact ⟨hq.onMessage result, ha, q, htake, .inr result⟩
  | nothing _ result =>
    subst result
    exact ⟨hq, ha, p', htake, .inl rfl⟩

/-- Where a program is. -/
inductive Stage (program : Program) (p : ClientProcess Empty) : Prop
  | waiting (waiting : Waiting p) (quit : p.quit = false)
  | told (told : Told (program.messages.map Message.encode) p)

theorem Stage.step (h : Stage program p) (hstep : step program p a = .ok p') :
    Stage program p' := by
  cases h with
  | waiting hw hquit =>
    cases hw.step hstep with
    | waits _ hw' hquit' => exact .waiting hw' (hquit'.trans hquit)
    | calls _ q _ _ told up result => exact .told ((told hquit).connection up result)
  | told h => exact .told (h.step hstep).1

theorem run_stage (hrun : run (step program) {} as = .ok p) : Stage program p :=
  run_preserves (fun _ _ _ h hstep => h.step hstep) (.waiting (.fresh rfl) rfl) hrun

/-! ## The half-close of `pub` -/

/-- The first `::write` of the connection callback took all of these bytes. -/
def WholeAtOnce (message : Bytes) (as : List (Action Empty)) : Prop :=
  ∃ a ∈ as, a.step = .connectionCallback ∧ a.nwrite 0 = message.length

instance (message : Bytes) (as : List (Action Empty)) : Decidable (WholeAtOnce message as) :=
  inferInstanceAs (Decidable (∃ a ∈ as, _))

theorem wholeAtOnce_concat {message : Bytes} : WholeAtOnce message (as ++ [a]) ↔
    WholeAtOnce message as ∨ a.step = .connectionCallback ∧ a.nwrite 0 = message.length := by
  simp only [WholeAtOnce, List.mem_append, List.mem_singleton]
  constructor
  · rintro ⟨b, hb | rfl, h⟩
    · exact .inl ⟨b, hb, h⟩
    · exact .inr h
  · rintro (⟨b, hb, h⟩ | h)
    · exact ⟨b, .inl hb, h⟩
    · exact ⟨a, .inr rfl, h⟩

/-- The client has disconnected, with a half-close if everything was written. -/
structure Disconnected (whole : Prop) [Decidable whole] (p : ClientProcess Empty) : Prop where
  state : p.system.conn.state ≠ .kConnected
  writes : p.system.conn.record.shutdownWrites = if whole then [0] else []
  drained : whole → p.system.conn.outputBuffer = []

theorem Disconnected.take {whole : Prop} [Decidable whole] (hp : Told sent p)
    (h : Disconnected whole p) {b : ConnectionSystem.Action Empty}
    (hb : ∀ argument n, b ≠ .send argument n) (htake : p.take b = .ok p') :
    Disconnected whole p' := by
  obtain ⟨system, hstep, rfl⟩ := take_ok htake
  have hkeeps := keeps_of_step hp.live hb hstep
  cases ConnectionSystem.halfClose_step hp.live hp.thread (byLoopThread_empty b) hstep with
  | kept _ _ writes state =>
    exact ⟨mt state h.state, writes.trans h.writes, fun hw => hkeeps.drained (h.drained hw)⟩
  | shutdown _ connected => exact absurd connected h.state

/-- A message sent on an idle connection is written whole exactly when nothing is queued. -/
theorem sendInLoop_whole {c c' : Net.TcpConnection Empty} {message : Bytes} {n : Int}
    (hidle : c.Idle) (hne : message ≠ []) (h : c.sendInLoop message n = .ok c') :
    c'.outputBuffer = [] ↔ n = message.length := by
  have hpos := List.length_pos_iff.mpr hne
  cases Net.TcpConnection.sendInLoop_cases h with
  | whole _ all result =>
    rw [result, Net.TcpConnection.queueWriteComplete_frame]
    exact iff_of_true hidle.2 all
  | rest _ part result =>
    rw [Net.TcpConnection.update_ok result]
    refine iff_of_false (fun hempty => ?_) (by omega)
    have hempty : c.outputBuffer ++ message.drop n.toNat = [] := hempty
    have hdrop := (List.append_eq_nil_iff.mp hempty).2
    rw [List.drop_eq_nil_iff] at hdrop
    omega
  | failed _ _ empty => exact absurd empty hne
  | nothing busy | watched busy | appended busy => exact absurd hidle busy

variable {topic content : Bytes}

theorem publish_ne_nil : PubSubClient.publish topic content ≠ [] := by
  simp [PubSubClient.publish, pub]

theorem disconnected_connection {loop : Net.EventLoop (Net.Functor Empty)} (h : Told [] p)
    (hup : Up p) (hsystem : p.system = told loop) {nwrite : Nat → Int} {whole : Prop}
    [Decidable whole] (hwhole : whole ↔ nwrite 0 = (PubSubClient.publish topic content).length)
    (hrun : connection (.pub topic content) nwrite p = .ok p') : Disconnected whole p' := by
  rw [connection, if_pos hup.connected] at hrun
  obtain ⟨q, hsend, hrun⟩ := bind_eq_ok.mp hrun
  obtain ⟨hq, hqup, conn, hconn, rfl⟩ := h.send hup hsend
  have hsent := sendInLoop_spec hconn
  rw [hsystem] at hconn hsent
  have hnot : (told loop).conn.isWriting = false := by
    show (established .client false : ConnectionSystem Empty).conn.isWriting = false
    rw [established, Net.TcpConnection.isWriting_watch]
    rfl
  have hidle : (told loop).conn.Idle := ⟨hnot, rfl⟩
  have hempty := (sendInLoop_whole hidle publish_ne_nil hconn).trans hwhole.symm
  have hwriting : q.system.conn.WritingIff :=
    hsent.writing (iff_of_false (by rw [hnot]; exact Bool.false_ne_true) fun hne => hne rfl)
  have hheld : q.system.conn.held = true := hsent.quiet.held
  rw [disconnect, if_pos hheld] at hrun
  obtain ⟨system, hstep, rfl⟩ := take_ok hrun
  cases ConnectionSystem.moves_of_step hq.live.state hstep with
  | passes hp =>
    cases hp with
    | ignored hne _ => exact absurd hqup.state hne
  | shutdown _ hstate =>
    have hshut := shutdown_spec q.system.conn
    have hwrites := Net.TcpConnection.shutdown_shutdownWrites hstate
    refine ⟨?_, ?_, fun hw => hshut.outputBuffer.trans (hempty.mpr hw)⟩
    · dsimp only
      rw [Net.TcpConnection.shutdown, if_pos hstate, Net.TcpConnection.shutdownInLoop_state]
      simp
    · dsimp only
      rw [hwrites, hsent.shutdownWrites]
      by_cases hw : whole
      · have hout := hempty.mpr hw
        have hnot : ¬ q.system.conn.isWriting = true := fun hwr => hwriting.mp hwr hout
        rw [if_neg hnot, hout, if_pos hw]
        rfl
      · rw [if_pos (hwriting.mpr (mt hempty.mp hw)), if_neg hw]
        rfl

theorem run_disconnected (hrun : run (step (.pub topic content)) {} as = .ok p) :
    (Waiting p ∧ p.quit = false ∧ ∀ a ∈ as, a.step ≠ .connectionCallback) ∨
    Told [PubSubClient.publish topic content] p ∧
      Disconnected (WholeAtOnce (PubSubClient.publish topic content) as) p := by
  refine run_history (J := fun as p =>
    (Waiting p ∧ p.quit = false ∧ ∀ a ∈ as, a.step ≠ .connectionCallback) ∨
    Told [PubSubClient.publish topic content] p ∧
      Disconnected (WholeAtOnce (PubSubClient.publish topic content) as) p)
    (.inl ⟨.fresh rfl, rfl, List.forall_mem_nil _⟩) ?_ hrun
  rintro as p a p' - (⟨hw, hquit, hnone⟩ | ⟨hp, hd⟩) hstep
  · cases hw.step hstep with
    | waits ha hw' hquit' =>
      refine .inl ⟨hw', hquit'.trans hquit, fun b hb => ?_⟩
      rcases List.mem_append.mp hb with hb | hb
      · exact hnone b hb
      · exact List.mem_singleton.mp hb ▸ ha
    | calls ha q loop system told up result =>
      refine .inr ⟨(told hquit).connection up result,
        disconnected_connection (told hquit) up system ?_ result⟩
      rw [wholeAtOnce_concat]
      constructor
      · rintro (⟨b, hb, hcall, -⟩ | ⟨-, hn⟩)
        · exact absurd hcall (hnone b hb)
        · exact hn
      · exact fun hn => .inr ⟨ha, hn⟩
  · obtain ⟨hp', ha, q, htake, hq⟩ := hp.step hstep
    have hsend : ∀ argument n, a.step ≠ .send argument n := (step_ok hstep).1
    have hdq := hd.take hp hsend htake
    have htq := hp.take hsend htake
    have hd' : Disconnected (WholeAtOnce (PubSubClient.publish topic content) as) p' := by
      rcases hq with rfl | hmessage
      · exact hdq
      · obtain ⟨unread, notices, rfl | hshut⟩ := onMessage_ok hmessage
        · exact ⟨hdq.state, hdq.writes, hdq.drained⟩
        · exact Disconnected.take (htq.congr unread notices)
            ⟨hdq.state, hdq.writes, hdq.drained⟩ (fun _ _ heq => by cases heq) hshut
    have hsame : WholeAtOnce (PubSubClient.publish topic content) (as ++ [a]) ↔
        WholeAtOnce (PubSubClient.publish topic content) as := by
      rw [wholeAtOnce_concat]
      exact or_iff_left fun h => ha h.1
    refine .inr ⟨hp', hd'.state, ?_, fun hw => hd'.drained (hsame.mp hw)⟩
    rw [hd'.writes]
    exact if_congr hsame.symm rfl rfl

/-- In every run the bytes that the kernel has accepted are a first part of the program's messages,
the rest of which is queued once the callback has run. However they are cut, the hub reads the
program's calls off them, each once and in order, and all of them off the whole. -/
theorem program_heard (hsep : ∀ m ∈ program.messages, m.Separable)
    (hrun : run (step program) {} as = .ok p) :
    p.system.conn.record.accepted <+: Message.encodeAll program.messages ∧
    (p.system.conn.record.connectionCallbacks ≠ [] →
      p.system.conn.record.accepted ++ p.system.conn.outputBuffer =
        Message.encodeAll program.messages) ∧
    ∀ chunks made rest, chunks.flatten <+: p.system.conn.record.accepted →
      deliver HubServer.onMessage [] chunks = .ok (made, rest) →
        made <+: program.hubCalls ∧
        (chunks.flatten = Message.encodeAll program.messages →
          made = program.hubCalls) := by
  have hstream : p.system.conn.record.connectionCallbacks = [] ∧
      p.system.conn.record.accepted = [] ∨
      p.system.conn.record.accepted ++ p.system.conn.outputBuffer =
        Message.encodeAll program.messages := by
    cases run_stage hrun with
    | waiting hw _ => exact .inl ⟨hw.callbacks.1, hw.callbacks.2.1⟩
    | told hp => exact .inr (hp.stream.trans List.flatMap_def.symm)
  have hsome : p.system.conn.record.accepted <+: Message.encodeAll program.messages := by
    rcases hstream with ⟨-, hnone⟩ | hall
    · rw [hnone]
      exact List.nil_prefix
    · exact ⟨_, hall⟩
  exact ⟨hsome, fun hne => hstream.resolve_left fun h => hne h.1,
    fun chunks made rest hchunks hdeliver =>
      messages_heard hsep (hchunks.trans hsome) hdeliver⟩

/-- `sub` with two topics, of which the first message is written in two parts; the hub has read
all that was written. -/
theorem program_heard_sample :
    ∃ p, run (step (.sub [[97], [98]])) {} [⟨.connectionEstablished, [], fun _ => 0⟩,
        ⟨.connectionCallback, [], fun _ => 3⟩, ⟨.poll Net.POLLOUT .data, [], fun _ => 0⟩,
        ⟨.handleEvent 5, [], fun _ => 0⟩] = .ok p ∧
      p.system.conn.record.accepted <+: Message.encodeAll [.subscribe [97], .subscribe [98]] ∧
      [.doSubscribe [97]] <+: (Program.sub [[97], [98]]).hubCalls := by
  have hend : endsIn (step (.sub [[97], [98]]))
      (fun p => decide (p.system.conn.record.accepted =
        PubSubClient.subscribe [97] ++ [115])) {} [⟨.connectionEstablished, [], fun _ => 0⟩,
        ⟨.connectionCallback, [], fun _ => 3⟩, ⟨.poll Net.POLLOUT .data, [], fun _ => 0⟩,
        ⟨.handleEvent 5, [], fun _ => 0⟩] = true := by decide +kernel
  obtain ⟨p, hrun, hp⟩ := endsIn_iff.mp hend
  have haccepted := of_decide_eq_true hp
  obtain ⟨hsome, -, hheard⟩ := program_heard (by decide) hrun
  refine ⟨p, hrun, hsome, (hheard [PubSubClient.subscribe [97] ++ [115]] _ [115] ?_ ?_).1⟩
  · rw [haccepted]
    exact List.prefix_rfl
  · decide +kernel

end ClientProcess

end Summer.Hub
