import Summer.Net.TcpClient
import Summer.Net.TcpConnection
import Summer.Net.TcpServer

/-!
# Servers and clients on several loops

Any number of servers and clients share any number of loops, each with one thread and one queue.
A connection is known by the server or client that created it and by its number there. The `loop`
of a `TcpConnection` or a `TcpClient` has what one of its functions queues, which `deliver` moves
to the queue of the loop it runs in; `owner`, `held` and `removals` of the model of one connection
are not used.

User code runs in the thread of a loop wherever no function of the library is being carried out,
and in other threads at any time. Other threads call `connect()` and `disconnect()` only.
A loop that has ended takes no more steps.
-/
namespace Summer.Net

open Summer.Lib

/-! ## Connections, channels and functors -/

inductive ConnId (S C : Type) where
  | server (server : S) (nextConnId : Nat)
  | client (client : C) (nextConnId : Nat)
  deriving DecidableEq

/-- A channel, by the object that owns it. -/
inductive ChannelId (S C : Type) where
  | acceptor (server : S)
  | connector (client : C) (sockfd : Nat)
  | connection (conn : ConnId S C)
  deriving DecidableEq

/-- The functors in the queues. All that name a connection but that of `startInLoop` and
`resetChannel` are bound with a `TcpConnectionPtr`. -/
inductive ReactorFunctor (S C : Type) where
  | connectionEstablished (conn : ConnId S C)
  | removeConnectionInLoop (server : S) (nextConnId : Nat)
  | connectionDestroyed (conn : ConnId S C)
  | writeCompleteCallback (conn : ConnId S C)
  | startInLoop (client : C)
  | resetChannel (client : C)
  deriving DecidableEq

/-- What a function of the connection has queued. -/
def Functor.ofConnection {S C : Type} (conn : ConnId S C) :
    Functor Empty → Option (ReactorFunctor S C)
  | .connectionDestroyed => some (.connectionDestroyed conn)
  | .writeCompleteCallback => some (.writeCompleteCallback conn)
  | .sendInLoop _ _ | .shutdownInLoop | .other => none

/-- What a function of the client has queued. -/
def ClientFunctor.ofClient {S C : Type} (client : C) : ClientFunctor → ReactorFunctor S C
  | .startInLoop => .startInLoop client
  | .resetChannel => .resetChannel client
  | .connectionDestroyed nextConnId => .connectionDestroyed (.client client nextConnId)

/-! ## The state -/

/-- `active` is the part of `activeChannels_` that was not handled yet. -/
inductive ReactorPhase (S C : Type) where
  | between
  /-- Inside the `handleEvent` of a channel, with these callbacks to call, or inside that of the
  timers. -/
  | handling (current : Option (ChannelId S C)) (callbacks : List EventCallback)
      (active : List (ChannelId S C × Events))
  /-- The functors of the batch that were called, and the others. -/
  | running (called functors : List (ReactorFunctor S C))

/-- The function of a server or client that the thread of a loop is in. -/
inductive ReactorAt (S C : Type) where
  | outside
  /-- In `TcpServer::newConnection`, before the assignment to `connections_`. -/
  | inserting (server : S) (nextConnId : Nat)
  | handingOver (client : C) (sockfd : Nat)
  | establishing (client : C) (nextConnId : Nat)
  | restarting (client : C)
  deriving DecidableEq

/-- Another thread inside `connect()` or `disconnect()`, behind the assignment of `connect_`. -/
inductive CallerAt (C : Type) where
  | idle
  | connecting (client : C)
  | disconnecting (client : C)
  deriving DecidableEq

structure ReactorLoop (S C : Type) where
  eventLoop : EventLoop (ReactorFunctor S C) := {}
  phase : ReactorPhase S C := .between
  within : ReactorAt S C := .outside

/-- The functors of the running batch that were called. -/
def ReactorLoop.called {S C : Type} (x : ReactorLoop S C) : List (ReactorFunctor S C) :=
  match x.phase with
  | .running called _ => called
  | _ => []

structure ReactorConn (L : Type) where
  loop : L
  conn : TcpConnection Empty

/-- What does not change: the loops of the servers and clients, and the names and addresses of the
servers. -/
structure Layout (L S C : Type) where
  serverLoop : S → L
  clientLoop : C → L
  name : S → Name
  listenAddr : S → InetAddress

/-- `conns` has every connection that was created, and `copies` each `TcpConnectionPtr` of the
user. -/
structure Reactor (L S C T : Type) where
  loops : L → ReactorLoop S C := fun _ => {}
  servers : S → TcpServer Nat
  clients : C → TcpClient := fun _ => {}
  conns : ConnId S C → Option (ReactorConn L) := fun _ => none
  copies : List (ConnId S C) := []
  threads : T → CallerAt C := fun _ => .idle

/-- The string that `newConnection` builds for a number. -/
def TcpServer.getName {C : Type} (s : TcpServer C) (nextConnId : Nat) : Name :=
  connNameOf s.name s.hostPort nextConnId

namespace Reactor

variable {L S C T : Type} [DecidableEq L] [DecidableEq S] [DecidableEq C] [DecidableEq T]

def init (g : Layout L S C) : Reactor L S C T where
  servers := fun server => .init (g.name server) (g.listenAddr server)

/-! ## Its parts -/

def setLoop (s : Reactor L S C T) (l : L) (loop : ReactorLoop S C) : Reactor L S C T :=
  { s with loops := Function.update s.loops l loop }

def setPhase (s : Reactor L S C T) (l : L) (phase : ReactorPhase S C) : Reactor L S C T :=
  s.setLoop l { s.loops l with phase := phase }

def setWithin (s : Reactor L S C T) (l : L) (within : ReactorAt S C) : Reactor L S C T :=
  s.setLoop l { s.loops l with within := within }

def queueInLoop (s : Reactor L S C T) (l : L) (isInLoopThread : Bool)
    (functor : ReactorFunctor S C) : Reactor L S C T :=
  s.setLoop l { s.loops l with
    eventLoop := (s.loops l).eventLoop.queueInLoop isInLoopThread functor }

/-- `queueInLoop` and `wakeup()` by another thread than that of the loop. -/
def otherRunInLoop (s : Reactor L S C T) (l : L) (functor : ReactorFunctor S C) :
    Reactor L S C T :=
  s.setLoop l { s.loops l with
    eventLoop := ((s.loops l).eventLoop.queueInLoop false functor).wakeup }

/-- What a function that runs in the loop has queued. -/
def deliver (s : Reactor L S C T) (l : L) (functors : List (ReactorFunctor S C)) :
    Reactor L S C T :=
  functors.foldl (fun s functor => s.queueInLoop l true functor) s

def putServer (s : Reactor L S C T) (server : S) (value : TcpServer Nat) : Reactor L S C T :=
  { s with servers := Function.update s.servers server value }

def putClient (s : Reactor L S C T) (client : C) (value : TcpClient) : Reactor L S C T :=
  { s with clients := Function.update s.clients client { value with loop := {} } }

def putConn (s : Reactor L S C T) (conn : ConnId S C) (l : L) (value : TcpConnection Empty) :
    Reactor L S C T :=
  { s with conns := Function.update s.conns conn (some ⟨l, { value with loop := {} }⟩) }

/-- The client after one of its functions. -/
def setClient (s : Reactor L S C T) (g : Layout L S C) (client : C) (value : TcpClient) :
    Reactor L S C T :=
  (s.putClient client value).deliver (g.clientLoop client)
    (value.loop.pendingFunctors.map (ClientFunctor.ofClient client))

/-- The connection after one of its functions. -/
def setConn (s : Reactor L S C T) (conn : ConnId S C) (l : L) (value : TcpConnection Empty) :
    Reactor L S C T :=
  (s.putConn conn l value).deliver l
    (value.loop.pendingFunctors.filterMap (Functor.ofConnection conn))

/-- A function of the connection is carried out in the thread of a loop. -/
def runConn (s : Reactor L S C T) (l : L) (conn : ConnId S C)
    (f : TcpConnection Empty → Except Fault (TcpConnection Empty)) :
    Except Fault (Reactor L S C T) :=
  match s.conns conn with
  | none => .error .dangling
  | some c => do
    ensure (c.loop = l) (.assertion .assertInLoopThread)
    let value ← f c.conn
    .ok (s.setConn conn l value)

/-- A function of the connector is carried out. -/
def runConnector (s : Reactor L S C T) (g : Layout L S C) (client : C)
    (r : Except Fault Connector) : Except Fault (Reactor L S C T) := do
  let connector ← r
  .ok (s.setClient g client ((s.clients client).setConnector connector))

/-- `startInLoop` in the thread of a loop. -/
def startInLoop (s : Reactor L S C T) (g : Layout L S C) (l : L) (client : C) (savedErrno : Nat) :
    Except Fault (Reactor L S C T) := do
  ensure (g.clientLoop client = l) (.assertion .assertInLoopThread)
  s.runConnector g client ((s.clients client).connector.startInLoop savedErrno)

/-! ## Closing -/

/-- `TcpServer::removeConnectionInLoop`. -/
def removeConnectionInLoop (s : Reactor L S C T) (g : Layout L S C) (l : L) (server : S)
    (nextConnId : Nat) : Except Fault (Reactor L S C T) := do
  ensure (g.serverLoop server = l) (.assertion .assertInLoopThread)
  let value ← (s.servers server).removeConnectionInLoop ((s.servers server).getName nextConnId)
  match s.conns (.server server nextConnId) with
  | none => .error .dangling
  | some c => .ok ((s.putServer server value).queueInLoop c.loop (decide (c.loop = l))
      (.connectionDestroyed (.server server nextConnId)))

/-- `removeConnection` of a server or of a client, up to `restart`. -/
def removeConnection (s : Reactor L S C T) (g : Layout L S C) (l : L) :
    ConnId S C → Except Fault (Reactor L S C T)
  | .server server nextConnId =>
    if g.serverLoop server = l then s.removeConnectionInLoop g l server nextConnId
    else .ok (s.otherRunInLoop (g.serverLoop server) (.removeConnectionInLoop server nextConnId))
  | .client client nextConnId => do
    ensure (g.clientLoop client = l) (.assertion .assertInLoopThread)
    let value ← (s.clients client).removeConnection nextConnId
    .ok ((s.setClient g client value).setWithin l
      (if value.retry = true ∧ value.connect = true then .restarting client else .outside))

def handleClose (s : Reactor L S C T) (g : Layout L S C) (l : L) (conn : ConnId S C) :
    Except Fault (Reactor L S C T) := do
  let s ← s.runConn l conn fun c => { c with state := .kDisconnected }.disableAll
  s.removeConnection g l conn

/-- One callback of the channel of a connection. What the message callback does are steps of
their own. -/
def handleCallback (s : Reactor L S C T) (g : Layout L S C) (l : L) (conn : ConnId S C)
    (read : ReadResult) (nwrite : Int) : EventCallback → Except Fault (Reactor L S C T)
  | .closeCallback => s.handleClose g l conn
  | .errorCallback => .ok s
  | .readCallback =>
    match read with
    | .eof => s.handleClose g l conn
    | .data | .error => .ok s
  | .writeCallback => s.runConn l conn fun c => c.handleWrite nwrite

/-! ## The functors -/

def callFunctor (s : Reactor L S C T) (g : Layout L S C) (l : L) (savedErrno : Nat) :
    ReactorFunctor S C → Except Fault (Reactor L S C T)
  | .connectionEstablished conn => s.runConn l conn fun c => c.connectionEstablished
  | .removeConnectionInLoop server nextConnId => s.removeConnectionInLoop g l server nextConnId
  | .connectionDestroyed conn => s.runConn l conn fun c => c.connectionDestroyed
  | .writeCompleteCallback _ => .ok s
  | .startInLoop client => s.startInLoop g l client savedErrno
  | .resetChannel client =>
    s.runConnector g client (.ok (s.clients client).connector.resetChannel)

/-! ## The steps -/

inductive Action (L S C T : Type) where
  /-- `poll` reports some channels. -/
  | poll (l : L) (active : List (ChannelId S C × Events))
  /-- The loop calls `handleEvent` of the next channel. -/
  | handleEvent (l : L) (isSelfConnect : Bool)
  /-- The next callback of a connection, or of an acceptor that accepts nothing. -/
  | callback (l : L) (read : ReadResult) (nwrite : Int)
  /-- `handleEvent` returns. -/
  | endEvent (l : L)
  | doPendingFunctor (l : L)
  | runFunctor (l : L) (savedErrno : Nat)
  | endPass (l : L)
  /-- The read callback of an acceptor: a connection is accepted for a loop. -/
  | newConnection (server : S) (ioLoop : L) (writeComplete : Bool)
  /-- The assignment to `connections_`. -/
  | insert (server : S)
  /-- `TcpClient::newConnection`, up to `connectionEstablished`. -/
  | clientNewConnection (client : C) (writeComplete : Bool)
  | connectionEstablished (client : C)
  | restart (client : C) (savedErrno : Nat)
  /-- The retry timer at a position fires. -/
  | timer (client : C) (i : Nat) (savedErrno : Nat)
  | enableRetry (client : C)
  /-- `connect()` and `disconnect()` by the thread of the client's loop. -/
  | connect (client : C) (savedErrno : Nat)
  | disconnect (client : C)
  /-- The assignment of `connect_` in another thread's `connect()`, and the push. -/
  | otherConnect (thread : T) (client : C)
  | otherConnectPush (thread : T)
  /-- The assignment of `connect_` in another thread's `disconnect()`, and its return. -/
  | otherDisconnect (thread : T) (client : C)
  | otherDisconnectReturn (thread : T)
  /-- The user copies a `TcpConnectionPtr`, or lets go of one. -/
  | copy (conn : ConnId S C)
  | drop (conn : ConnId S C)
  /-- `send()` and `shutdown()` by the thread of the connection's loop. -/
  | send (conn : ConnId S C) (argument : SendArgument) (nwrite : Int)
  | shutdown (conn : ConnId S C)
  deriving DecidableEq

/-- The channel is registered with the poller of the loop. An acceptor may be, from `listen()`
on. -/
def Registered (s : Reactor L S C T) (g : Layout L S C) (l : L) : ChannelId S C → Prop
  | .acceptor server => g.serverLoop server = l
  | .connector client sockfd => g.clientLoop client = l ∧
      ((s.clients client).connector.poller sockfd).registered ≠ none
  | .connection conn => ∃ c ∈ s.conns conn, c.loop = l ∧ c.conn.poller.registered ≠ none

/-- User code may be running in the thread of the loop. A `newConnection` that has not come to the
assignment may be in the connection callback. -/
def UserCode (s : Reactor L S C T) (l : L) : Prop :=
  match (s.loops l).within with
  | .outside | .inserting _ _ => True
  | .handingOver _ _ | .establishing _ _ | .restarting _ => False

/-- The user has a `TcpConnectionPtr`, or is given one by a callback. -/
def Offered (s : Reactor L S C T) (conn : ConnId S C) : Prop :=
  conn ∈ s.copies ∨ ∃ c ∈ s.conns conn, c.conn.poller.registered ≠ none ∨
    .writeCompleteCallback conn ∈ (s.loops c.loop).called

instance (s : Reactor L S C T) (g : Layout L S C) (l : L) (channel : ChannelId S C) :
    Decidable (s.Registered g l channel) := by
  unfold Registered
  cases channel <;> infer_instance

instance (s : Reactor L S C T) (l : L) : Decidable (s.UserCode l) := by
  unfold UserCode
  split <;> infer_instance

instance (s : Reactor L S C T) (conn : ConnId S C) : Decidable (s.Offered conn) :=
  inferInstanceAs (Decidable (_ ∨ _))

/-- The loop takes the next channel of `activeChannels_`. -/
def handleEvent (s : Reactor L S C T) (g : Layout L S C) (l : L) (isSelfConnect : Bool) :
    Except Fault (Reactor L S C T) :=
  match (s.loops l).phase with
  | .handling none [] ((.connector client sockfd, revents) :: active) => do
    let connector ← (s.clients client).connector.handleEvent sockfd revents isSelfConnect
    let within := if (s.clients client).connector.handed.length < connector.handed.length
      then .handingOver client sockfd else .outside
    let s := s.setPhase l (.handling (some (.connector client sockfd)) [] active)
    .ok ((s.setClient g client ((s.clients client).setConnector connector)).setWithin l within)
  | .handling none [] ((channel, revents) :: active) =>
    .ok (s.setPhase l
      (.handling (some channel) { revents := revents : Channel }.handleEvent active))
  | _ => .error .notEnabled

/-- The loop calls the next callback of the channel. -/
def callback (s : Reactor L S C T) (g : Layout L S C) (l : L) (read : ReadResult) (nwrite : Int) :
    Except Fault (Reactor L S C T) :=
  match (s.loops l).phase with
  | .handling (some (.connection conn)) (callback :: callbacks) active =>
    (s.setPhase l (.handling (some (.connection conn)) callbacks active)).handleCallback g l conn
      read nwrite callback
  | .handling (some (.acceptor server)) (_ :: callbacks) active =>
    .ok (s.setPhase l (.handling (some (.acceptor server)) callbacks active))
  | _ => .error .notEnabled

/-- `TcpServer::newConnection` up to the assignment to `connections_`. -/
def newConnection (s : Reactor L S C T) (g : Layout L S C) (server : S) (ioLoop : L)
    (writeComplete : Bool) : Except Fault (Reactor L S C T) :=
  match (s.loops (g.serverLoop server)).phase with
  | .handling (some (.acceptor acceptor)) (.readCallback :: callbacks) active => do
    ensure (acceptor = server) .notEnabled
    ensure ((s.servers server).nextConnId < 2 ^ 31) .notEnabled
    let value := s.servers server
    let conn : TcpConnection Empty := {
      writeComplete := writeComplete
      owner := .server (decide (ioLoop = g.serverLoop server)) }
    let s := s.setLoop (g.serverLoop server) { s.loops (g.serverLoop server) with
      phase := .handling (some (.acceptor server)) callbacks active
      within := .inserting server value.nextConnId }
    let s := s.putServer server { value with nextConnId := value.nextConnId + 1 }
    let s := s.putConn (.server server value.nextConnId) ioLoop conn
    if ioLoop = g.serverLoop server then
      s.runConn ioLoop (.server server value.nextConnId) fun c => c.connectionEstablished
    else
      .ok (s.otherRunInLoop ioLoop (.connectionEstablished (.server server value.nextConnId)))
  | _ => .error .notEnabled

def step (g : Layout L S C) (s : Reactor L S C T) :
    Action L S C T → Except Fault (Reactor L S C T)
  | .poll l active => do
    ensure ((s.loops l).within = .outside) .notEnabled
    ensure (∀ channel ∈ active.map Prod.fst, s.Registered g l channel) .notEnabled
    ensure (active.map Prod.fst).Nodup .notEnabled
    match (s.loops l).phase with
    | .between => .ok (s.setLoop l { s.loops l with
      eventLoop := (s.loops l).eventLoop.handleRead
      phase := .handling none [] active })
    | _ => .error .notEnabled
  | .handleEvent l isSelfConnect => do
    ensure ((s.loops l).within = .outside) .notEnabled
    s.handleEvent g l isSelfConnect
  | .callback l read nwrite => do
    ensure ((s.loops l).within = .outside) .notEnabled
    s.callback g l read nwrite
  | .endEvent l => do
    ensure ((s.loops l).within = .outside) .notEnabled
    match (s.loops l).phase with
    | .handling (some _) [] active => .ok (s.setPhase l (.handling none [] active))
    | _ => .error .notEnabled
  | .doPendingFunctor l => do
    ensure ((s.loops l).within = .outside) .notEnabled
    match (s.loops l).phase with
    | .handling none _ [] =>
      let loop := { (s.loops l).eventLoop with callingPendingFunctor := true }
      .ok (s.setLoop l { s.loops l with
        eventLoop := loop.swap.2
        phase := .running [] loop.swap.1 })
    | _ => .error .notEnabled
  | .runFunctor l savedErrno => do
    ensure ((s.loops l).within = .outside) .notEnabled
    match (s.loops l).phase with
    | .running called (f :: functors) =>
      (s.setPhase l (.running (called ++ [f]) functors)).callFunctor g l savedErrno f
    | _ => .error .notEnabled
  | .endPass l => do
    ensure ((s.loops l).within = .outside) .notEnabled
    match (s.loops l).phase with
    | .running _ [] =>
      let loop := { (s.loops l).eventLoop with callingPendingFunctor := false }
      .ok (s.setLoop l { s.loops l with eventLoop := loop, phase := .between })
    | _ => .error .notEnabled
  | .newConnection server ioLoop writeComplete => do
    ensure ((s.loops (g.serverLoop server)).within = .outside) .notEnabled
    s.newConnection g server ioLoop writeComplete
  | .insert server =>
    match (s.loops (g.serverLoop server)).within with
    | .inserting server' nextConnId => do
      ensure (server' = server) .notEnabled
      let value := s.servers server
      let connections :=
        Function.update value.connections (value.getName nextConnId) (some nextConnId)
      .ok ((s.putServer server { value with connections := connections }).setWithin
        (g.serverLoop server) .outside)
    | _ => .error .notEnabled
  | .clientNewConnection client writeComplete =>
    match (s.loops (g.clientLoop client)).within with
    | .handingOver client' _ => do
      ensure (client' = client) .notEnabled
      let value := s.clients client
      let conn : TcpConnection Empty := { writeComplete := writeComplete, owner := .client }
      .ok (((s.putClient client value.newConnection).putConn (.client client value.nextConnId)
        (g.clientLoop client) conn).setWithin (g.clientLoop client)
          (.establishing client value.nextConnId))
    | _ => .error .notEnabled
  | .connectionEstablished client =>
    match (s.loops (g.clientLoop client)).within with
    | .establishing client' nextConnId => do
      ensure (client' = client) .notEnabled
      (s.setWithin (g.clientLoop client) .outside).runConn (g.clientLoop client)
        (.client client nextConnId) fun c => c.connectionEstablished
    | _ => .error .notEnabled
  | .restart client savedErrno => do
    ensure ((s.loops (g.clientLoop client)).within = .restarting client) .notEnabled
    (s.setWithin (g.clientLoop client) .outside).runConnector g client
      ((s.clients client).connector.restart savedErrno)
  | .timer client i savedErrno => do
    ensure ((s.loops (g.clientLoop client)).within = .outside) .notEnabled
    ensure (i < (s.clients client).connector.timers.length) .notEnabled
    match (s.loops (g.clientLoop client)).phase with
    | .handling none _ _ =>
      let value := s.clients client
      let connector := { value.connector with timers := value.connector.timers.eraseIdx i }
      s.runConnector g client (connector.startInLoop savedErrno)
    | _ => .error .notEnabled
  | .enableRetry client =>
    .ok (s.putClient client { s.clients client with retry := true })
  | .connect client savedErrno => do
    ensure (s.UserCode (g.clientLoop client)) .notEnabled
    (s.putClient client { s.clients client with connect := true }).startInLoop g
      (g.clientLoop client) client savedErrno
  | .disconnect client => do
    ensure (s.UserCode (g.clientLoop client)) .notEnabled
    let s := s.putClient client { s.clients client with connect := false }
    match (s.clients client).connection with
    | none => .ok s
    | some nextConnId =>
      s.runConn (g.clientLoop client) (.client client nextConnId) fun c => .ok c.shutdown
  | .otherConnect t client => do
    ensure (s.threads t = .idle) .notEnabled
    .ok { (s.putClient client { s.clients client with connect := true }) with
      threads := Function.update s.threads t (.connecting client) }
  | .otherConnectPush t =>
    match s.threads t with
    | .connecting client =>
      .ok { (s.otherRunInLoop (g.clientLoop client) (.startInLoop client)) with
        threads := Function.update s.threads t .idle }
    | _ => .error .notEnabled
  | .otherDisconnect t client => do
    ensure (s.threads t = .idle) .notEnabled
    .ok { (s.putClient client { s.clients client with connect := false }) with
      threads := Function.update s.threads t (.disconnecting client) }
  | .otherDisconnectReturn t =>
    match s.threads t with
    | .disconnecting client => do
      -- with a connection this would be a `shutdown()` by another thread
      ensure ((s.clients client).connection = none) .notEnabled
      .ok { s with threads := Function.update s.threads t .idle }
    | _ => .error .notEnabled
  | .copy conn => do
    ensure (s.Offered conn) .notEnabled
    .ok { s with copies := conn :: s.copies }
  | .drop conn => do
    ensure (conn ∈ s.copies) .notEnabled
    .ok { s with copies := s.copies.erase conn }
  | .send conn argument nwrite =>
    match s.conns conn with
    | none => .error .notEnabled
    | some c => do
      ensure (s.Offered conn ∧ s.UserCode c.loop) .notEnabled
      s.runConn c.loop conn fun c =>
        if c.state = .kConnected then c.sendInLoop argument.message nwrite else .ok c
  | .shutdown conn =>
    match s.conns conn with
    | none => .error .notEnabled
    | some c => do
      ensure (s.Offered conn ∧ s.UserCode c.loop) .notEnabled
      s.runConn c.loop conn fun c => .ok c.shutdown

end Reactor

end Summer.Net
