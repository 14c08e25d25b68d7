import Summer.Net.ConnectionSpec

/-!
# Runs of a connection

A run interleaves the passes of the connection's loop with the steps of any other threads,
at the grain of single accesses to `state_` and to the queue. Nothing refers to a
connection before `connectionEstablished`, so that is the first step. User code runs in
the loop thread at any time but inside `connectionEstablished`; what it does are steps of
their own. `poll` returns at its timeout at the latest, so wake-ups restrict no run.
-/
namespace Summer.Net

open Summer.Lib

/-- Where a thread is in `send()` or `shutdown()`. -/
inductive Pc where
  | idle
  | sendChecked (message : Bytes)
  | shutdownChecked
  | shutdownSet
  deriving DecidableEq, Repr

inductive Phase (T : Type) where
  | between
  /-- The callbacks of the connection's channel still to be called, and what the read of this
  dispatch gives. -/
  | handling (callbacks : List EventCallback) (read : ReadResult)
  | running (functors : List (Functor T))

/-- `establishing` holds between `setState(kConnected)` and `connectionCallback_`, which sets
`notified`. `sent` and `executed` list the messages that passed the test of `send()` and
those whose `sendInLoop` has run, with their threads; the loop thread is `none`. -/
structure ConnectionSystem (T : Type) where
  conn : TcpConnection T
  phase : Phase T := .between
  establishing : Bool := false
  notified : Bool := false
  destroyed : Bool := false
  /-- `shutdown()` was called by the loop thread while connected. -/
  shutdownCalled : Bool := false
  threads : T → Pc := fun _ => .idle
  sent : List (Option T × Bytes) := []
  executed : List (Option T × Bytes) := []

namespace ConnectionSystem

variable {T : Type} [DecidableEq T]

inductive Action (T : Type) where
  /-- `connectionEstablished` up to the user's callback. -/
  | connectionEstablished
  | connectionCallback
  /-- `poll` reports the connection's channel. -/
  | poll (revents : Events) (read : ReadResult)
  /-- `poll` returns without it. -/
  | pollOther
  /-- The next callback of the dispatch. -/
  | handleEvent (nwrite : Int)
  | doPendingFunctor
  | runFunctor (nwrite : Int)
  | endPass
  /-- `send()` and `shutdown()` by the loop thread. -/
  | send (argument : SendArgument) (nwrite : Int)
  | shutdown
  /-- The test of `state_` in `send()`, and the push. -/
  | otherSend (thread : T) (argument : SendArgument)
  | otherSendPush (thread : T)
  /-- The test of `state_` in `shutdown()`, the assignment, and the push. -/
  | otherShutdown (thread : T)
  | otherShutdownSet (thread : T)
  | otherShutdownPush (thread : T)
  /-- Some other functor is queued. -/
  | otherFunctor
  /-- The base loop runs a `removeConnectionInLoop`. -/
  | removeConnectionInLoop
  deriving DecidableEq

def init (owner : Owner) (writeComplete : Bool) : ConnectionSystem T where
  conn := { writeComplete := writeComplete, owner := owner }

/-- The loop thread is not inside `connectionEstablished`. -/
def Free (s : ConnectionSystem T) : Prop := s.conn.state ≠ .kConnecting ∧ s.establishing = false

instance (s : ConnectionSystem T) : Decidable s.Free := inferInstanceAs (Decidable (_ ∧ _))

/-- The user's threads can refer to the connection; `disconnect()` can from the start. -/
def Published (s : ConnectionSystem T) : Prop := s.notified = true ∨ s.conn.owner = .client

instance (s : ConnectionSystem T) : Decidable s.Published := inferInstanceAs (Decidable (_ ∨ _))

/-- `runInLoop` by another thread. -/
def runInLoop (s : ConnectionSystem T) (f : Functor T) : TcpConnection T :=
  { s.conn with loop := (s.conn.loop.queueInLoop false f).wakeup }

/-- One functor of the batch. -/
def callFunctor (s : ConnectionSystem T) (nwrite : Int) :
    Functor T → Except Fault (ConnectionSystem T)
  | .connectionDestroyed => do
    let conn ← s.conn.connectionDestroyed
    .ok { s with conn := conn, destroyed := true }
  | .sendInLoop sender message => do
    let conn ← s.conn.sendInLoop message nwrite
    .ok { s with conn := conn, executed := s.executed ++ [(some sender, message)] }
  | .shutdownInLoop => .ok { s with conn := s.conn.shutdownInLoop }
  | .writeCompleteCallback => .ok s
  | .other => .ok s

def step (s : ConnectionSystem T) : Action T → Except Fault (ConnectionSystem T)
  | .connectionEstablished => do
    ensure (s.conn.state = .kConnecting) .notEnabled
    let conn ← s.conn.connectionEstablished
    .ok { s with conn := conn, establishing := true }
  | .connectionCallback => do
    ensure (s.establishing = true) .notEnabled
    .ok { s with conn := s.conn.connectionCallback, establishing := false, notified := true }
  | .poll revents read => do
    ensure (s.Free ∧ s.conn.poller.registered ≠ none) .notEnabled
    match s.phase with
    | .between =>
      let conn := { s.conn with
        channel := { s.conn.channel with revents := revents }
        loop := s.conn.loop.handleRead }
      .ok { s with conn := conn, phase := .handling conn.channel.handleEvent read }
    | _ => .error .notEnabled
  | .pollOther => do
    ensure s.Free .notEnabled
    match s.phase with
    | .between =>
      .ok { s with
        conn := { s.conn with loop := s.conn.loop.handleRead }
        phase := .handling [] .error }
    | _ => .error .notEnabled
  | .handleEvent nwrite => do
    ensure s.Free .notEnabled
    match s.phase with
    | .handling (callback :: callbacks) read => do
      let conn ← s.conn.handleCallback read nwrite callback
      .ok { s with conn := conn, phase := .handling callbacks read }
    | _ => .error .notEnabled
  | .doPendingFunctor => do
    ensure s.Free .notEnabled
    match s.phase with
    | .handling [] _ =>
      let loop := { s.conn.loop with callingPendingFunctor := true }
      .ok { s with conn := { s.conn with loop := loop.swap.2 }, phase := .running loop.swap.1 }
    | _ => .error .notEnabled
  | .runFunctor nwrite => do
    ensure s.Free .notEnabled
    match s.phase with
    | .running (f :: functors) => callFunctor { s with phase := .running functors } nwrite f
    | _ => .error .notEnabled
  | .endPass => do
    ensure s.Free .notEnabled
    match s.phase with
    | .running [] =>
      let loop := { s.conn.loop with callingPendingFunctor := false }
      .ok { s with conn := { s.conn with loop := loop }, phase := .between }
    | _ => .error .notEnabled
  | .send argument nwrite => do
    ensure s.Free .notEnabled
    if s.conn.state = .kConnected then do
      let conn ← s.conn.sendInLoop argument.message nwrite
      .ok { s with
        conn := conn
        sent := s.sent ++ [(none, argument.message)]
        executed := s.executed ++ [(none, argument.message)] }
    else .ok s
  | .shutdown => do
    ensure s.Free .notEnabled
    if s.conn.state = .kConnected then
      .ok { s with conn := s.conn.shutdown, shutdownCalled := true }
    else .ok s
  | .otherSend t argument => do
    ensure (s.notified = true ∧ s.threads t = .idle) .notEnabled
    if s.conn.state = .kConnected then
      .ok { s with
        threads := Function.update s.threads t (.sendChecked argument.message)
        sent := s.sent ++ [(some t, argument.message)] }
    else .ok s
  | .otherSendPush t =>
    match s.threads t with
    | .sendChecked message =>
      .ok { s with
        conn := s.runInLoop (.sendInLoop t message)
        threads := Function.update s.threads t .idle }
    | _ => .error .notEnabled
  | .otherShutdown t => do
    ensure (s.Published ∧ s.threads t = .idle) .notEnabled
    if s.conn.state = .kConnected then
      .ok { s with threads := Function.update s.threads t .shutdownChecked }
    else .ok s
  | .otherShutdownSet t => do
    ensure (s.threads t = .shutdownChecked) .notEnabled
    .ok { s with
      conn := { s.conn with state := .kDisconnecting }
      threads := Function.update s.threads t .shutdownSet }
  | .otherShutdownPush t => do
    ensure (s.threads t = .shutdownSet) .notEnabled
    .ok { s with
      conn := s.runInLoop .shutdownInLoop
      threads := Function.update s.threads t .idle }
  | .otherFunctor => do
    ensure (s.conn.state ≠ .kConnecting) .notEnabled
    .ok { s with conn := s.runInLoop .other }
  | .removeConnectionInLoop => do
    ensure (0 < s.conn.removals) .notEnabled
    let conn := { s.conn with removals := s.conn.removals - 1 }
    let conn ← conn.removeConnectionInLoop false
    .ok { s with conn := conn }

/-- The batch that is running. -/
def batch (s : ConnectionSystem T) : List (Functor T) :=
  match s.phase with
  | .running functors => functors
  | _ => []

/-- Everything queued in the loop, in the order in which it will run. -/
def functors (s : ConnectionSystem T) : List (Functor T) :=
  s.batch ++ s.conn.loop.pendingFunctors

/-- `handleClose` has run. -/
def Closed (s : ConnectionSystem T) : Prop := 0 < s.conn.record.closeCallbacks

instance (s : ConnectionSystem T) : Decidable s.Closed := inferInstanceAs (Decidable (_ < _))

/-! ## What each step does -/

/-- Steps around the connection: those of its loop, the callbacks and functors that do nothing
to it, and a `send()` or `shutdown()` that finds it not connected. -/
inductive Passes (s : ConnectionSystem T) : Action T → ConnectionSystem T → Prop where
  | poll {revents read} : s.Free → s.phase = .between → s.conn.poller.registered ≠ none →
      Passes s (.poll revents read) { s with
        conn := { s.conn with
          channel := { s.conn.channel with revents := revents }
          loop := s.conn.loop.handleRead }
        phase := .handling { s.conn.channel with revents := revents }.handleEvent read }
  | pollOther : s.Free → s.phase = .between → Passes s .pollOther { s with
      conn := { s.conn with loop := s.conn.loop.handleRead }
      phase := .handling [] .error }
  | noClose {n callback callbacks read} : s.Free →
      s.phase = .handling (callback :: callbacks) read →
      (callback = .errorCallback ∨ callback = .readCallback ∧ read ≠ .eof) →
      Passes s (.handleEvent n) { s with phase := .handling callbacks read }
  | swap {read} : s.Free → s.phase = .handling [] read → Passes s .doPendingFunctor { s with
      conn := { s.conn with loop := { s.conn.loop with
        callingPendingFunctor := true, pendingFunctors := [] } }
      phase := .running s.conn.loop.pendingFunctors }
  | runOther {n f fs} : s.Free → s.phase = .running (f :: fs) →
      (f = .writeCompleteCallback ∨ f = .other) →
      Passes s (.runFunctor n) { s with phase := .running fs }
  | endPass : s.Free → s.phase = .running [] → Passes s .endPass { s with
      conn := { s.conn with loop := { s.conn.loop with callingPendingFunctor := false } }
      phase := .between }
  | ignored {a} : s.conn.state ≠ .kConnected →
      ((∃ argument n, a = .send argument n) ∨ a = .shutdown ∨
        (∃ t argument, a = .otherSend t argument) ∨ ∃ t, a = .otherShutdown t) →
      Passes s a s

/-- What a step can do to a connection that is established. -/
inductive Moves (s : ConnectionSystem T) : Action T → ConnectionSystem T → Prop where
  | passes {a s'} : Passes s a s' → Moves s a s'
  | notify : s.establishing = true → Moves s .connectionCallback
      { s with conn := s.conn.connectionCallback, establishing := false, notified := true }
  | close {n callback callbacks read conn} : s.Free →
      s.phase = .handling (callback :: callbacks) read →
      (callback = .closeCallback ∨ callback = .readCallback ∧ read = .eof) →
      s.conn.handleClose = .ok conn →
      Moves s (.handleEvent n) { s with conn := conn, phase := .handling callbacks read }
  | drain {n callbacks read conn} : s.Free →
      s.phase = .handling (.writeCallback :: callbacks) read →
      s.conn.handleWrite n = .ok conn →
      Moves s (.handleEvent n) { s with conn := conn, phase := .handling callbacks read }
  | destroy {n fs conn} : s.Free → s.phase = .running (.connectionDestroyed :: fs) →
      s.conn.connectionDestroyed = .ok conn →
      Moves s (.runFunctor n) { s with conn := conn, phase := .running fs, destroyed := true }
  | runSend {n fs t message conn} : s.Free → s.phase = .running (.sendInLoop t message :: fs) →
      s.conn.sendInLoop message n = .ok conn →
      Moves s (.runFunctor n) { s with
        conn := conn, phase := .running fs, executed := s.executed ++ [(some t, message)] }
  | runShutdown {n fs} : s.Free → s.phase = .running (.shutdownInLoop :: fs) →
      Moves s (.runFunctor n) { s with conn := s.conn.shutdownInLoop, phase := .running fs }
  | send {argument n conn} : s.Free → s.conn.state = .kConnected →
      s.conn.sendInLoop argument.message n = .ok conn →
      Moves s (.send argument n) { s with
        conn := conn
        sent := s.sent ++ [(none, argument.message)]
        executed := s.executed ++ [(none, argument.message)] }
  | shutdown : s.Free → s.conn.state = .kConnected →
      Moves s .shutdown { s with conn := s.conn.shutdown, shutdownCalled := true }
  | otherSend {t argument} : s.threads t = .idle → s.conn.state = .kConnected →
      Moves s (.otherSend t argument) { s with
        threads := Function.update s.threads t (.sendChecked argument.message)
        sent := s.sent ++ [(some t, argument.message)] }
  | otherSendPush {t message} : s.threads t = .sendChecked message →
      Moves s (.otherSendPush t) { s with
        conn := s.runInLoop (.sendInLoop t message)
        threads := Function.update s.threads t .idle }
  | otherShutdown {t} : s.Published → s.threads t = .idle → s.conn.state = .kConnected →
      Moves s (.otherShutdown t) { s with
        threads := Function.update s.threads t .shutdownChecked }
  | otherShutdownSet {t} : s.threads t = .shutdownChecked →
      Moves s (.otherShutdownSet t) { s with
        conn := { s.conn with state := .kDisconnecting }
        threads := Function.update s.threads t .shutdownSet }
  | otherShutdownPush {t} : s.threads t = .shutdownSet →
      Moves s (.otherShutdownPush t) { s with
        conn := s.runInLoop .shutdownInLoop
        threads := Function.update s.threads t .idle }
  | otherFunctor : Moves s .otherFunctor { s with conn := s.runInLoop .other }
  | baseRemove : 0 < s.conn.removals → s.conn.held = true →
      Moves s .removeConnectionInLoop { s with conn := { s.conn with
        removals := s.conn.removals - 1
        held := false
        loop := s.conn.loop.queueInLoop false .connectionDestroyed } }

/-- How a step of an established connection fails, or why there is none. -/
inductive Faults (s : ConnectionSystem T) : Action T → Fault → Prop where
  | notEnabled {a} : Faults s a .notEnabled
  | close {n callback callbacks read f} : s.phase = .handling (callback :: callbacks) read →
      (callback = .closeCallback ∨ callback = .readCallback ∧ read = .eof) →
      s.conn.handleClose = .error f → Faults s (.handleEvent n) f
  | drain {n callback callbacks read f} : s.phase = .handling (callback :: callbacks) read →
      s.conn.handleWrite n = .error f → Faults s (.handleEvent n) f
  | destroy {n fs f} : s.phase = .running (.connectionDestroyed :: fs) →
      s.conn.connectionDestroyed = .error f → Faults s (.runFunctor n) f
  | runSend {n fs t message f} : s.phase = .running (.sendInLoop t message :: fs) →
      s.conn.sendInLoop message n = .error f → Faults s (.runFunctor n) f
  | send {argument n f} : s.conn.state = .kConnected →
      s.conn.sendInLoop argument.message n = .error f → Faults s (.send argument n) f
  | baseRemove : 0 < s.conn.removals → s.conn.held = false →
      Faults s .removeConnectionInLoop (.assertion .removeConnectionInLoop)

variable {s s' : ConnectionSystem T} {a : Action T} {f : Fault}

theorem moves_handleEvent {n : Int} (h : step s (.handleEvent n) = .ok s') :
    Moves s (.handleEvent n) s' := by
  obtain ⟨_, hen, h⟩ := bind_eq_ok.mp h
  have hfree := ensure_eq_ok.mp hen
  split at h
  · rename_i callback callbacks read hphase
    obtain ⟨conn, hconn, h⟩ := bind_eq_ok.mp h
    cases h
    cases callback with
    | closeCallback => exact .close hfree hphase (.inl rfl) hconn
    | errorCallback =>
      cases hconn
      exact .passes (.noClose hfree hphase (.inl rfl))
    | readCallback =>
      cases read with
      | data =>
        cases hconn
        exact .passes (.noClose hfree hphase (.inr ⟨rfl, by decide⟩))
      | eof => exact .close hfree hphase (.inr ⟨rfl, rfl⟩) hconn
      | error =>
        cases hconn
        exact .passes (.noClose hfree hphase (.inr ⟨rfl, by decide⟩))
    | writeCallback => exact .drain hfree hphase hconn
  · cases h

theorem moves_runFunctor {n : Int} (h : step s (.runFunctor n) = .ok s') :
    Moves s (.runFunctor n) s' := by
  obtain ⟨_, hen, h⟩ := bind_eq_ok.mp h
  have hfree := ensure_eq_ok.mp hen
  split at h
  · rename_i f functors hphase
    cases f with
    | connectionDestroyed =>
      obtain ⟨conn, hconn, h⟩ := bind_eq_ok.mp h
      cases h
      exact .destroy hfree hphase hconn
    | sendInLoop t message =>
      obtain ⟨conn, hconn, h⟩ := bind_eq_ok.mp h
      cases h
      exact .runSend hfree hphase hconn
    | shutdownInLoop =>
      cases h
      exact .runShutdown hfree hphase
    | writeCompleteCallback =>
      cases h
      exact .passes (.runOther hfree hphase (.inl rfl))
    | other =>
      cases h
      exact .passes (.runOther hfree hphase (.inr rfl))
  · cases h

/-- Every step of an established connection is one of the moves. -/
theorem moves_of_step (hs : s.conn.state ≠ .kConnecting) (h : step s a = .ok s') :
    Moves s a s' := by
  cases a with
  | connectionEstablished =>
    obtain ⟨_, hen, -⟩ := bind_eq_ok.mp h
    exact absurd (ensure_eq_ok.mp hen) hs
  | connectionCallback =>
    obtain ⟨_, hen, h⟩ := bind_eq_ok.mp h
    cases h
    exact .notify (ensure_eq_ok.mp hen)
  | poll revents read =>
    obtain ⟨_, hen, h⟩ := bind_eq_ok.mp h
    obtain ⟨hfree, hreg⟩ := ensure_eq_ok.mp hen
    split at h
    · rename_i hphase
      cases h
      exact .passes (.poll hfree hphase hreg)
    · cases h
  | pollOther =>
    obtain ⟨_, hen, h⟩ := bind_eq_ok.mp h
    split at h
    · rename_i hphase
      cases h
      exact .passes (.pollOther (ensure_eq_ok.mp hen) hphase)
    · cases h
  | handleEvent n => exact moves_handleEvent h
  | doPendingFunctor =>
    obtain ⟨_, hen, h⟩ := bind_eq_ok.mp h
    split at h
    · rename_i read hphase
      cases h
      exact .passes (.swap (ensure_eq_ok.mp hen) hphase)
    · cases h
  | runFunctor n => exact moves_runFunctor h
  | endPass =>
    obtain ⟨_, hen, h⟩ := bind_eq_ok.mp h
    split at h
    · rename_i hphase
      cases h
      exact .passes (.endPass (ensure_eq_ok.mp hen) hphase)
    · cases h
  | send argument n =>
    obtain ⟨_, hen, h⟩ := bind_eq_ok.mp h
    split at h
    · rename_i hstate
      obtain ⟨conn, hconn, h⟩ := bind_eq_ok.mp h
      cases h
      exact .send (ensure_eq_ok.mp hen) hstate hconn
    · rename_i hstate
      cases h
      exact .passes (.ignored hstate (.inl ⟨argument, n, rfl⟩))
  | shutdown =>
    obtain ⟨_, hen, h⟩ := bind_eq_ok.mp h
    split at h
    · rename_i hstate
      cases h
      exact .shutdown (ensure_eq_ok.mp hen) hstate
    · rename_i hstate
      cases h
      exact .passes (.ignored hstate (.inr (.inl rfl)))
  | otherSend t argument =>
    obtain ⟨_, hen, h⟩ := bind_eq_ok.mp h
    split at h
    · rename_i hstate
      cases h
      exact .otherSend (ensure_eq_ok.mp hen).2 hstate
    · rename_i hstate
      cases h
      exact .passes (.ignored hstate (.inr (.inr (.inl ⟨t, argument, rfl⟩))))
  | otherSendPush t =>
    rw [step] at h
    split at h
    · rename_i message hpc
      cases h
      exact .otherSendPush hpc
    · cases h
  | otherShutdown t =>
    obtain ⟨_, hen, h⟩ := bind_eq_ok.mp h
    obtain ⟨hpub, hidle⟩ := ensure_eq_ok.mp hen
    split at h
    · rename_i hstate
      cases h
      exact .otherShutdown hpub hidle hstate
    · rename_i hstate
      cases h
      exact .passes (.ignored hstate (.inr (.inr (.inr ⟨t, rfl⟩))))
  | otherShutdownSet t =>
    obtain ⟨_, hen, h⟩ := bind_eq_ok.mp h
    cases h
    exact .otherShutdownSet (ensure_eq_ok.mp hen)
  | otherShutdownPush t =>
    obtain ⟨_, hen, h⟩ := bind_eq_ok.mp h
    cases h
    exact .otherShutdownPush (ensure_eq_ok.mp hen)
  | otherFunctor =>
    obtain ⟨_, -, h⟩ := bind_eq_ok.mp h
    cases h
    exact .otherFunctor
  | removeConnectionInLoop =>
    obtain ⟨_, hen, h⟩ := bind_eq_ok.mp h
    obtain ⟨conn, hconn, h⟩ := bind_eq_ok.mp h
    obtain ⟨hheld, rfl⟩ := TcpConnection.removeConnectionInLoop_ok hconn
    cases h
    exact .baseRemove (ensure_eq_ok.mp hen) hheld

/-! ## The queue of the loop -/

section Queue

omit [DecidableEq T]

theorem batch_between (h : s.phase = .between) : s.batch = [] := by rw [batch, h]

theorem batch_handling {callbacks : List EventCallback} {read : ReadResult}
    (h : s.phase = .handling callbacks read) : s.batch = [] := by rw [batch, h]

theorem batch_running {fs : List (Functor T)} (h : s.phase = .running fs) : s.batch = fs := by
  rw [batch, h]

/-- `popped` was taken from the front of the queue, and `pushed` added to its end. -/
def Turnover (s s' : ConnectionSystem T) (popped pushed : List (Functor T)) : Prop :=
  ∃ rest, s.functors = popped ++ rest ∧ s'.functors = rest ++ pushed

theorem turnover_of {l l' : List (Functor T)} (hb : s.batch = l ++ s'.batch)
    (hq : s'.conn.loop.pendingFunctors = s.conn.loop.pendingFunctors ++ l') :
    Turnover s s' l l' := by
  refine ⟨s'.batch ++ s.conn.loop.pendingFunctors, ?_, ?_⟩
  · rw [functors, hb, List.append_assoc]
  · rw [functors, hq, List.append_assoc]

theorem turnover_same (hb : s.batch = s'.batch) (hloop : s'.conn.loop = s.conn.loop) :
    Turnover s s' [] [] := by
  apply turnover_of hb
  rw [hloop, List.append_nil]

/-- A functor queued by another thread. -/
theorem turnover_push (f : Functor T) (threads : T → Pc) :
    Turnover s { s with conn := s.runInLoop f, threads := threads } [] [f] :=
  turnover_of rfl (EventLoop.queueInLoop_pendingFunctors ..)

/-- The functor that the action takes from the queue. -/
def popped (s : ConnectionSystem T) : Action T → List (Functor T)
  | .runFunctor _ => s.batch.take 1
  | _ => []

theorem popped_of_running {n : Int} {f : Functor T} {fs : List (Functor T)}
    (h : s.phase = .running (f :: fs)) : s.popped (.runFunctor n) = [f] := by
  rw [popped, batch_running h]
  rfl

/-- Steps around the connection queue nothing. -/
theorem Passes.turnover (h : Passes s a s') : Turnover s s' (s.popped a) [] ∧
    ∀ f ∈ s.popped a, f = .writeCompleteCallback ∨ f = .other := by
  cases h with
  | poll _ hphase => exact ⟨turnover_of (batch_between hphase) (List.append_nil _).symm, nofun⟩
  | pollOther _ hphase =>
    exact ⟨turnover_of (batch_between hphase) (List.append_nil _).symm, nofun⟩
  | noClose _ hphase _ =>
    exact ⟨turnover_of (batch_handling hphase) (List.append_nil _).symm, nofun⟩
  | swap _ hphase =>
    refine ⟨⟨s.conn.loop.pendingFunctors, ?_, rfl⟩, nofun⟩
    rw [functors, batch_handling hphase]
    rfl
  | @runOther _ f _ _ hphase hf =>
    rw [popped_of_running hphase]
    refine ⟨turnover_of (batch_running hphase) (List.append_nil _).symm, fun g hg => ?_⟩
    rw [List.mem_singleton.mp hg]
    exact hf
  | endPass _ hphase =>
    exact ⟨turnover_of (batch_running hphase) (List.append_nil _).symm, nofun⟩
  | ignored _ ha =>
    have hnone : s.popped a = [] := by
      rcases ha with ⟨argument, n, rfl⟩ | rfl | ⟨t, argument, rfl⟩ | ⟨t, rfl⟩ <;> rfl
    rw [hnone]
    exact ⟨turnover_of rfl (List.append_nil _).symm, nofun⟩

/-- Only the loop, the phase and the mask last reported change. -/
theorem Passes.frame (h : Passes s a s') : ∃ loop revents phase, s' = { s with
    conn := { s.conn with loop := loop, channel := { s.conn.channel with revents := revents } }
    phase := phase } := by
  cases h with
  | poll => exact ⟨_, _, _, rfl⟩
  | pollOther => exact ⟨_, s.conn.channel.revents, _, rfl⟩
  | noClose => exact ⟨s.conn.loop, s.conn.channel.revents, _, rfl⟩
  | swap => exact ⟨_, s.conn.channel.revents, _, rfl⟩
  | runOther => exact ⟨s.conn.loop, s.conn.channel.revents, _, rfl⟩
  | endPass => exact ⟨_, s.conn.channel.revents, _, rfl⟩
  | ignored => exact ⟨s.conn.loop, s.conn.channel.revents, s.phase, rfl⟩

end Queue

/-! ## How a step can fail -/

theorem faults_handleEvent {n : Int} (h : step s (.handleEvent n) = .error f) :
    Faults s (.handleEvent n) f := by
  rcases ensure_bind_eq_error.mp h with ⟨-, rfl⟩ | ⟨-, h⟩
  · exact .notEnabled
  · split at h
    · rename_i callback callbacks read hphase
      rcases bind_eq_error.mp h with h | ⟨_, -, h⟩
      · cases callback with
        | closeCallback => exact .close hphase (.inl rfl) h
        | errorCallback => cases h
        | readCallback =>
          cases read with
          | data => cases h
          | eof => exact .close hphase (.inr ⟨rfl, rfl⟩) h
          | error => cases h
        | writeCallback => exact .drain hphase h
      · cases h
    · cases h
      exact .notEnabled

theorem faults_runFunctor {n : Int} (h : step s (.runFunctor n) = .error f) :
    Faults s (.runFunctor n) f := by
  rcases ensure_bind_eq_error.mp h with ⟨-, rfl⟩ | ⟨-, h⟩
  · exact .notEnabled
  · split at h
    · rename_i functor functors hphase
      cases functor with
      | connectionDestroyed =>
        rcases bind_eq_error.mp h with h | ⟨_, -, h⟩
        · exact .destroy hphase h
        · cases h
      | sendInLoop t message =>
        rcases bind_eq_error.mp h with h | ⟨_, -, h⟩
        · exact .runSend hphase h
        · cases h
      | shutdownInLoop => cases h
      | writeCompleteCallback => cases h
      | other => cases h
    · cases h
      exact .notEnabled

omit [DecidableEq T] in
/-- A step that is only possible in some phase, and then succeeds. -/
theorem faults_of_ensure {p : Prop} [Decidable p]
    {k : Unit → Except Fault (ConnectionSystem T)} (hk : k () = .error f → f = .notEnabled)
    (h : (ensure p .notEnabled >>= k) = .error f) : Faults s a f := by
  rcases ensure_bind_eq_error.mp h with ⟨-, rfl⟩ | ⟨-, h⟩
  · exact .notEnabled
  · rw [hk h]
    exact .notEnabled

/-- Every step of an established connection that fails does so in one of these ways. -/
theorem faults_of_step (hs : s.conn.state ≠ .kConnecting) (h : step s a = .error f) :
    Faults s a f := by
  cases a with
  | connectionEstablished =>
    rcases ensure_bind_eq_error.mp h with ⟨-, rfl⟩ | ⟨hst, -⟩
    · exact .notEnabled
    · exact absurd hst hs
  | connectionCallback => exact faults_of_ensure (fun h => by cases h) h
  | poll revents read =>
    refine faults_of_ensure (fun h => ?_) h
    split at h <;> cases h
    rfl
  | pollOther =>
    refine faults_of_ensure (fun h => ?_) h
    split at h <;> cases h
    rfl
  | handleEvent n => exact faults_handleEvent h
  | doPendingFunctor =>
    refine faults_of_ensure (fun h => ?_) h
    split at h <;> cases h
    rfl
  | runFunctor n => exact faults_runFunctor h
  | endPass =>
    refine faults_of_ensure (fun h => ?_) h
    split at h <;> cases h
    rfl
  | send argument n =>
    rcases ensure_bind_eq_error.mp h with ⟨-, rfl⟩ | ⟨-, h⟩
    · exact .notEnabled
    · split at h
      · rename_i hstate
        rcases bind_eq_error.mp h with h | ⟨_, -, h⟩
        · exact .send hstate h
        · cases h
      · cases h
  | shutdown =>
    refine faults_of_ensure (fun h => ?_) h
    split at h <;> cases h
  | otherSend t argument =>
    refine faults_of_ensure (fun h => ?_) h
    split at h <;> cases h
  | otherSendPush t =>
    rw [step] at h
    split at h
    · cases h
    · cases h
      exact .notEnabled
  | otherShutdown t =>
    refine faults_of_ensure (fun h => ?_) h
    split at h <;> cases h
  | otherShutdownSet t => exact faults_of_ensure (fun h => by cases h) h
  | otherShutdownPush t => exact faults_of_ensure (fun h => by cases h) h
  | otherFunctor => exact faults_of_ensure (fun h => by cases h) h
  | removeConnectionInLoop =>
    rcases ensure_bind_eq_error.mp h with ⟨-, rfl⟩ | ⟨hpos, h⟩
    · exact .notEnabled
    · rcases bind_eq_error.mp h with h | ⟨_, -, h⟩
      · rcases ensure_bind_eq_error.mp h with ⟨hheld, rfl⟩ | ⟨-, h⟩
        · exact .baseRemove hpos (Bool.not_eq_true _ ▸ hheld)
        · cases h
      · cases h

end ConnectionSystem

end Summer.Net
