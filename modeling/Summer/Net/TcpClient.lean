import Summer.Net.ConnectorSockets
import Summer.Net.EventLoop

/-!
# A client and its loop

The client's functions are split where another thread's `connect()` or `disconnect()` can come in
between: the loop thread is at most once inside `newConnection` or `removeConnection`. What a
`disconnect()` does to the connection itself is left to the connection. User code runs in the loop
thread at any time but inside one of the client's functions, and a pass may take any time.
-/
namespace Summer.Net

open Summer.Lib

/-- The functors in the loop's queue. -/
inductive ClientFunctor where
  | startInLoop
  | resetChannel
  | connectionDestroyed (conn : Nat)
  deriving DecidableEq

/-- Connections are numbered by `nextConnId_`. -/
structure TcpClient where
  connector : Connector := {}
  loop : EventLoop ClientFunctor := {}
  retry : Bool := false
  connect : Bool := true
  nextConnId : Nat := 1
  connection : Option Nat := none

namespace TcpClient

/-- The connector after one of its functions: what it has queued goes to the loop. -/
def setConnector (c : TcpClient) (connector : Connector) : TcpClient :=
  { c with
    connector := connector
    loop := (connector.resets.drop c.connector.resets.length).foldl
      (fun loop _ => loop.queueInLoop true .resetChannel) c.loop }

/-- `newConnection` up to `connectionEstablished`. -/
def newConnection (c : TcpClient) : TcpClient :=
  { c with nextConnId := c.nextConnId + 1, connection := some c.nextConnId }

/-- `removeConnection` up to its test of `retry_` and `connect_`. -/
def removeConnection (c : TcpClient) (conn : Nat) : Except Fault TcpClient := do
  ensure (c.connection = some conn) (.assertion .removeConnection)
  .ok { c with
    connection := none
    loop := c.loop.queueInLoop true (.connectionDestroyed conn) }

end TcpClient

/-- The function of the client that the loop thread is in. -/
inductive ClientAt where
  | outside
  /-- In `handleWrite`, about to call `newConnection`. -/
  | handingOver (sockfd : Nat)
  /-- In `newConnection`, about to call `connectionEstablished`. -/
  | establishing (conn : Nat)
  /-- In `removeConnection`, about to call `restart`. -/
  | restarting
  deriving DecidableEq

inductive ClientPhase where
  | between
  /-- The descriptor of the connecting channel if it was reported and not handled yet, and the
  connections that were reported. -/
  | handling (connecting : Option Nat) (conns : List Nat)
  | running (functors : List ClientFunctor)
  deriving DecidableEq

/-- `registered` has the connections whose channels are registered, and `established` counts the
calls of `connectionEstablished`. `pushing t` is whether thread `t` is in `connect()`, and
`disconnecting t` whether it is in `disconnect()`, behind the assignment of `connect_`. -/
structure ClientSystem (T : Type) where
  client : TcpClient := {}
  phase : ClientPhase := .between
  within : ClientAt := .outside
  registered : List Nat := []
  established : Nat := 0
  pushing : T → Bool := fun _ => false
  disconnecting : T → Bool := fun _ => false

namespace ClientSystem

variable {T : Type} [DecidableEq T]

inductive Action (T : Type) where
  | enableRetry
  /-- `connect()` and `disconnect()` by the loop thread. -/
  | connect (savedErrno : Nat)
  | disconnect
  /-- The assignment of `connect_` in another thread's `connect()`, and the push. -/
  | otherConnect (thread : T)
  | otherConnectPush (thread : T)
  /-- The assignment of `connect_` in another thread's `disconnect()`, and its return. -/
  | otherDisconnect (thread : T)
  | otherDisconnectReturn (thread : T)
  /-- `poll` reports the connecting channel or not, and some connections. -/
  | poll (connecting : Option Nat) (conns : List Nat)
  /-- The connecting channel is handled. -/
  | handleEvent (revents : Events) (isSelfConnect : Bool)
  | newConnection
  | connectionEstablished
  /-- A reported connection is closed. -/
  | removeConnection (conn : Nat)
  | restart (savedErrno : Nat)
  /-- The retry timer at a position fires. -/
  | timer (i : Nat) (savedErrno : Nat)
  | doPendingFunctor
  | runFunctor (savedErrno : Nat)
  | endPass
  deriving DecidableEq

def init : ClientSystem T := {}

/-- A function of the connector is carried out by the loop thread. -/
def runConnector (s : ClientSystem T) (r : Except Fault Connector) :
    Except Fault (ClientSystem T) := do
  let connector ← r
  .ok { s with client := s.client.setConnector connector }

/-- One functor of the batch. -/
def callFunctor (s : ClientSystem T) (savedErrno : Nat) :
    ClientFunctor → Except Fault (ClientSystem T)
  | .startInLoop => s.runConnector (s.client.connector.startInLoop savedErrno)
  | .resetChannel => s.runConnector (.ok s.client.connector.resetChannel)
  | .connectionDestroyed conn => .ok { s with registered := s.registered.erase conn }

def step (s : ClientSystem T) : Action T → Except Fault (ClientSystem T)
  | .enableRetry => .ok { s with client := { s.client with retry := true } }
  | .connect savedErrno => do
    ensure (s.within = .outside) .notEnabled
    let s := { s with client := { s.client with connect := true } }
    s.runConnector (s.client.connector.startInLoop savedErrno)
  | .disconnect => do
    ensure (s.within = .outside) .notEnabled
    .ok { s with client := { s.client with connect := false } }
  | .otherConnect t => do
    ensure (s.pushing t = false ∧ s.disconnecting t = false) .notEnabled
    .ok { s with
      client := { s.client with connect := true }
      pushing := Function.update s.pushing t true }
  | .otherConnectPush t => do
    ensure (s.pushing t = true) .notEnabled
    .ok { s with
      client := { s.client with loop := (s.client.loop.queueInLoop false .startInLoop).wakeup }
      pushing := Function.update s.pushing t false }
  | .otherDisconnect t => do
    ensure (s.pushing t = false ∧ s.disconnecting t = false) .notEnabled
    .ok { s with
      client := { s.client with connect := false }
      disconnecting := Function.update s.disconnecting t true }
  | .otherDisconnectReturn t => do
    ensure (s.disconnecting t = true) .notEnabled
    .ok { s with disconnecting := Function.update s.disconnecting t false }
  | .poll connecting conns => do
    ensure (s.within = .outside ∧ s.phase = .between) .notEnabled
    ensure (∀ fd ∈ connecting, (s.client.connector.poller fd).registered ≠ none) .notEnabled
    ensure (∀ conn ∈ conns, conn ∈ s.registered) .notEnabled
    .ok { s with
      client := { s.client with loop := s.client.loop.handleRead }
      phase := .handling connecting conns }
  | .handleEvent revents isSelfConnect => do
    ensure (s.within = .outside) .notEnabled
    match s.phase with
    | .handling (some fd) conns => do
      let connector ← s.client.connector.handleEvent fd revents isSelfConnect
      .ok { s with
        client := s.client.setConnector connector
        phase := .handling none conns
        within := if s.client.connector.handed.length < connector.handed.length
          then .handingOver fd else .outside }
    | _ => .error .notEnabled
  | .newConnection =>
    match s.within with
    | .handingOver _ => .ok { s with
      client := s.client.newConnection
      within := .establishing s.client.nextConnId }
    | _ => .error .notEnabled
  | .connectionEstablished =>
    match s.within with
    | .establishing conn => .ok { s with
      within := .outside
      registered := conn :: s.registered
      established := s.established + 1 }
    | _ => .error .notEnabled
  | .removeConnection conn => do
    ensure (s.within = .outside) .notEnabled
    match s.phase with
    | .handling _ conns => do
      ensure (conn ∈ conns) .notEnabled
      let client ← s.client.removeConnection conn
      .ok { s with
        client := client
        within := if client.retry = true ∧ client.connect = true then .restarting else .outside }
    | _ => .error .notEnabled
  | .restart savedErrno => do
    ensure (s.within = .restarting) .notEnabled
    { s with within := .outside }.runConnector (s.client.connector.restart savedErrno)
  | .timer i savedErrno => do
    ensure (s.within = .outside ∧ i < s.client.connector.timers.length) .notEnabled
    match s.phase with
    | .handling _ _ =>
      let connector := { s.client.connector with timers := s.client.connector.timers.eraseIdx i }
      s.runConnector (connector.startInLoop savedErrno)
    | _ => .error .notEnabled
  | .doPendingFunctor => do
    ensure (s.within = .outside) .notEnabled
    match s.phase with
    | .handling none _ =>
      let loop := { s.client.loop with callingPendingFunctor := true }
      .ok { s with client := { s.client with loop := loop.swap.2 }, phase := .running loop.swap.1 }
    | _ => .error .notEnabled
  | .runFunctor savedErrno => do
    ensure (s.within = .outside) .notEnabled
    match s.phase with
    | .running (f :: functors) => callFunctor { s with phase := .running functors } savedErrno f
    | _ => .error .notEnabled
  | .endPass => do
    ensure (s.within = .outside) .notEnabled
    match s.phase with
    | .running [] =>
      let loop := { s.client.loop with callingPendingFunctor := false }
      .ok { s with client := { s.client with loop := loop }, phase := .between }
    | _ => .error .notEnabled

end ClientSystem

end Summer.Net
