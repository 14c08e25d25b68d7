import Summer.Net.Channel
import Summer.Net.EventLoop

/-!
# A connection

The model follows one connection: its object, its entry in the poller, the queue of its
loop, and the reference its server or client keeps. `Record` keeps what was done to the
socket and which callbacks were called. A result of `::write` is a parameter; the kernel
never accepts more bytes than it was given.
-/
namespace Summer.Net

open Summer.Lib

inductive StateE where
  | kConnected
  | kConnecting
  | kDisconnected
  | kDisconnecting
  deriving DecidableEq, Repr

/-- The functors in the loop's queue. A `sendInLoop` is marked with the thread that queued
it; `other` is whatever else runs in the loop. -/
inductive Functor (T : Type) where
  | connectionDestroyed
  | sendInLoop (sender : T) (message : Bytes)
  | shutdownInLoop
  | writeCompleteCallback
  | other
  deriving DecidableEq

/-- Who created the connection, and whether the server's loop is the connection's own. -/
inductive Owner where
  | server (ownLoop : Bool)
  | client
  deriving DecidableEq, Repr

structure Record where
  /-- The bytes `::write` accepted. -/
  accepted : Bytes := []
  writeCalls : Nat := 0
  /-- The length of the queued output at each `shutdownWrite()`. -/
  shutdownWrites : List Nat := []
  /-- The value of `connected()` at each `connectionCallback_`. -/
  connectionCallbacks : List Bool := []
  closeCallbacks : Nat := 0
  deriving DecidableEq

/-- `held` is the entry in `connections_`, or `connection_ == conn`; `removals` counts the
`removeConnectionInLoop` functors in the queue of a base loop of its own. -/
structure TcpConnection (T : Type) where
  state : StateE := .kConnecting
  channel : Channel := {}
  outputBuffer : Bytes := []
  /-- Whether `writeCompleteCallback_` is set. -/
  writeComplete : Bool
  poller : EpollPoller := {}
  loop : EventLoop (Functor T) := {}
  owner : Owner
  held : Bool := true
  removals : Nat := 0
  record : Record := {}

/-- The argument of the three overloads of `send`. -/
inductive SendArgument where
  | pointer (message : Bytes)
  | string (message : Bytes)
  | buffer (unread : Bytes)
  deriving DecidableEq, Repr

/-- Every overload hands the whole of its argument to `sendInLoop`. -/
def SendArgument.message : SendArgument → Bytes
  | .pointer message => message
  | .string message => message
  | .buffer unread => unread

/-- The outcome of `readFd`. -/
inductive ReadResult where
  | data
  | eof
  | error
  deriving DecidableEq, Repr

namespace TcpConnection

variable {T : Type}

/-! ## The channel -/

def isWriting (c : TcpConnection T) : Bool := c.channel.isWriting

def update (c : TcpConnection T) : Except Fault (TcpConnection T) := do
  let (poller, channel) ← c.poller.updateChannel c.channel
  .ok { c with poller := poller, channel := channel }

def setEvents (c : TcpConnection T) (events : Events) : TcpConnection T :=
  { c with channel := { c.channel with events := events } }

def enableReading (c : TcpConnection T) : Except Fault (TcpConnection T) :=
  (c.setEvents (c.channel.events ||| kReadEvent)).update

def enableWriting (c : TcpConnection T) : Except Fault (TcpConnection T) :=
  (c.setEvents (c.channel.events ||| kWriteEvent)).update

def disableWriting (c : TcpConnection T) : Except Fault (TcpConnection T) :=
  (c.setEvents (c.channel.events &&& ~~~kWriteEvent)).update

def disableAll (c : TcpConnection T) : Except Fault (TcpConnection T) :=
  (c.setEvents kNoneEvent).update

/-! ## Sending -/

/-- `::write`, with the result it returns. -/
def write (c : TcpConnection T) (message : Bytes) (nwrite : Int) :
    Except Fault (TcpConnection T) := do
  ensure (nwrite ≤ message.length) .notEnabled
  .ok { c with record := { c.record with
    accepted := c.record.accepted ++ message.take nwrite.toNat
    writeCalls := c.record.writeCalls + 1 } }

/-- `outputBuffer_.append(..)`; the buffer is a correct byte queue. -/
def appendOutput (c : TcpConnection T) (data : Bytes) : TcpConnection T :=
  { c with outputBuffer := c.outputBuffer ++ data }

/-- `outputBuffer_.retrieve(n)`. -/
def retrieveOutput (c : TcpConnection T) (n : Nat) : TcpConnection T :=
  { c with outputBuffer := c.outputBuffer.drop n }

def queueInLoop (c : TcpConnection T) (f : Functor T) : TcpConnection T :=
  { c with loop := c.loop.queueInLoop true f }

/-- The callback is queued if it is set. -/
def queueWriteComplete (c : TcpConnection T) : TcpConnection T :=
  if c.writeComplete = true then c.queueInLoop .writeCompleteCallback else c

/-- `nwrite` is the result of the `::write` there may be. -/
def sendInLoop (c : TcpConnection T) (message : Bytes) (nwrite : Int) :
    Except Fault (TcpConnection T) := do
  let (nwrite, c) ← (if c.isWriting = false ∧ c.outputBuffer = [] then do
      let c ← c.write message nwrite
      if 0 ≤ nwrite then
        if nwrite < message.length then .ok (nwrite, c) else .ok (nwrite, c.queueWriteComplete)
      else .ok (0, c)
    else .ok (0, c))
  ensure (0 ≤ nwrite) (.assertion .sendInLoop)
  if nwrite < message.length then
    let c := c.appendOutput (message.drop nwrite.toNat)
    if c.isWriting = false then c.enableWriting else .ok c
  else .ok c

/-! ## Shutting down -/

def shutdownInLoop (c : TcpConnection T) : TcpConnection T :=
  if c.isWriting = false then
    { c with record := { c.record with
      shutdownWrites := c.record.shutdownWrites ++ [c.outputBuffer.length] } }
  else c

/-- `shutdown()` by the loop thread, in which `runInLoop` calls the functor at once. -/
def shutdown (c : TcpConnection T) : TcpConnection T :=
  if c.state = .kConnected then { c with state := .kDisconnecting }.shutdownInLoop else c

/-! ## Closing -/

/-- `TcpServer::removeConnectionInLoop`. -/
def removeConnectionInLoop (c : TcpConnection T) (isInLoopThread : Bool) :
    Except Fault (TcpConnection T) := do
  ensure (c.held = true) (.assertion .removeConnectionInLoop)
  .ok { c with held := false, loop := c.loop.queueInLoop isInLoopThread .connectionDestroyed }

/-- `removeConnection` of the server or of the client. -/
def removeConnection (c : TcpConnection T) : Except Fault (TcpConnection T) :=
  match c.owner with
  | .server true => c.removeConnectionInLoop true
  | .server false => .ok { c with removals := c.removals + 1 }
  | .client => do
    ensure (c.held = true) (.assertion .removeConnection)
    .ok { c with held := false, loop := c.loop.queueInLoop true .connectionDestroyed }

def closeCallback (c : TcpConnection T) : Except Fault (TcpConnection T) :=
  { c with record := { c.record with
    closeCallbacks := c.record.closeCallbacks + 1 } }.removeConnection

def handleClose (c : TcpConnection T) : Except Fault (TcpConnection T) := do
  let c ← { c with state := .kDisconnected }.disableAll
  c.closeCallback

/-! ## The event handlers -/

def handleRead (c : TcpConnection T) : ReadResult → Except Fault (TcpConnection T)
  -- What the message callback does are steps of their own.
  | .data => .ok c
  | .eof => c.handleClose
  | .error => .ok c

def handleWrite (c : TcpConnection T) (nwrite : Int) : Except Fault (TcpConnection T) :=
  if c.isWriting = true then do
    let c ← c.write c.outputBuffer nwrite
    if 0 < nwrite then
      let c := c.retrieveOutput nwrite.toNat
      if c.outputBuffer = [] then do
        let c ← c.disableWriting
        let c := c.queueWriteComplete
        .ok (if c.state = .kDisconnecting then c.shutdown else c)
      else .ok c
    else .ok c
  else .ok c

def handleError (c : TcpConnection T) : TcpConnection T := c

/-- One callback of a dispatch. -/
def handleCallback (c : TcpConnection T) (read : ReadResult) (nwrite : Int) :
    EventCallback → Except Fault (TcpConnection T)
  | .closeCallback => c.handleClose
  | .errorCallback => .ok c.handleError
  | .readCallback => c.handleRead read
  | .writeCallback => c.handleWrite nwrite

/-! ## Establishing and destroying -/

def connectionCallback (c : TcpConnection T) : TcpConnection T :=
  { c with record := { c.record with
    connectionCallbacks := c.record.connectionCallbacks ++ [decide (c.state = .kConnected)] } }

/-- `connectionEstablished` up to the user's callback. -/
def connectionEstablished (c : TcpConnection T) : Except Fault (TcpConnection T) := do
  ensure (c.state = .kConnecting) (.assertion .connectionEstablished)
  { c with state := .kConnected }.enableReading

def connectionDestroyed (c : TcpConnection T) : Except Fault (TcpConnection T) := do
  -- The source tests kConnecting, not kConnected.
  let c ← (if c.state = .kConnecting then do
      let c ← { c with state := .kDisconnected }.disableAll
      .ok c.connectionCallback
    else .ok c)
  let poller ← c.poller.removeChannel c.channel
  .ok { c with poller := poller }

end TcpConnection

end Summer.Net
