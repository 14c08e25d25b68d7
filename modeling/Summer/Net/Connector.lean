import Summer.Net.Channel
import Mathlib.Logic.Function.Basic

/-!
# The connector

Each attempt of `startInLoop` gets a descriptor of its own, numbered in the order of the
attempts; `closed` and `handed` list the descriptors that were closed and those that were given to
`newConnectionCallback_`. The errno of `connect` and the answer of `isSelfConnect` are parameters.
`socket` and `close` do not fail, or the process is aborted.
-/
namespace Summer.Net

open Summer.Lib

/-! ## Error numbers -/

def EINTR : Nat := 4
def EAGAIN : Nat := 11
def EADDRINUSE : Nat := 98
def EADDRNOTAVAIL : Nat := 99
def ENETUNREACH : Nat := 101
def EISCONN : Nat := 106
def ECONNREFUSED : Nat := 111
def EINPROGRESS : Nat := 115

/-! ## The object -/

inductive ConnectorState where
  | kDisConnected
  | kConnected
  | kConnecting
  deriving DecidableEq, Repr

/-- A channel on the socket of one attempt. -/
structure ConnectChannel where
  fd : Nat
  channel : Channel := {}
  deriving DecidableEq

def kMaxRetryDelayMs : Nat := 30 * 1000
def kInitRetryDelayMs : Nat := 500

/-- `channel` is `channel_`, and `poller` the entry of each descriptor. `resets` has the channels
that were current when `resetChannel` was queued, for each one still queued, and `timers` the
delays of the retry timers that have not fired. -/
structure Connector where
  state : ConnectorState := .kDisConnected
  channel : Option ConnectChannel := none
  retryDelayMs : Nat := kInitRetryDelayMs
  poller : Nat → EpollPoller := fun _ => {}
  sockets : Nat := 0
  closed : List Nat := []
  handed : List Nat := []
  resets : List Nat := []
  timers : List Nat := []

namespace Connector

/-! ## Its functions -/

/-- `update()` of a channel of the connector. -/
def update (c : Connector) (ch : ConnectChannel) : Except Fault Connector := do
  let (poller, channel) ← (c.poller ch.fd).updateChannel ch.channel
  .ok { c with
    poller := Function.update c.poller ch.fd poller
    channel := some { ch with channel := channel } }

def close (c : Connector) (sockfd : Nat) : Connector :=
  { c with closed := c.closed ++ [sockfd] }

def retry (c : Connector) (sockfd : Nat) : Connector :=
  { c.close sockfd with
    state := .kDisConnected
    timers := c.timers ++ [c.retryDelayMs]
    retryDelayMs := min (c.retryDelayMs * 2) kMaxRetryDelayMs }

def connecting (c : Connector) (sockfd : Nat) : Except Fault Connector := do
  let c := { c with state := .kConnecting }
  ensure (c.channel = none) (.assertion .connecting)
  let ch : ConnectChannel := { fd := sockfd }
  c.update { ch with channel := { ch.channel with events := ch.channel.events ||| kWriteEvent } }

/-- The errnos with which the attempt goes on. -/
def proceeds (savedErrno : Nat) : Prop :=
  savedErrno = 0 ∨ savedErrno = EINPROGRESS ∨ savedErrno = EINTR ∨ savedErrno = EISCONN

/-- The errnos after which it is made again later. -/
def retries (savedErrno : Nat) : Prop :=
  savedErrno = EAGAIN ∨ savedErrno = EADDRINUSE ∨ savedErrno = EADDRNOTAVAIL ∨
    savedErrno = ECONNREFUSED ∨ savedErrno = ENETUNREACH

instance (savedErrno : Nat) : Decidable (proceeds savedErrno) :=
  inferInstanceAs (Decidable (_ ∨ _))

instance (savedErrno : Nat) : Decidable (retries savedErrno) :=
  inferInstanceAs (Decidable (_ ∨ _))

/-- Every other errno closes the socket and gives the attempt up. -/
def startInLoop (c : Connector) (savedErrno : Nat) : Except Fault Connector := do
  ensure (c.state = .kDisConnected) (.assertion .startInLoop)
  let sockfd := c.sockets
  let c := { c with sockets := c.sockets + 1 }
  if proceeds savedErrno then c.connecting sockfd
  else if retries savedErrno then .ok (c.retry sockfd)
  else .ok (c.close sockfd)

def restart (c : Connector) (savedErrno : Nat) : Except Fault Connector :=
  { c with state := .kDisConnected, retryDelayMs := kInitRetryDelayMs }.startInLoop savedErrno

/-- `disableAll()`, `removeChannel` and the queueing of `resetChannel`. -/
def removeAndResetChannel (c : Connector) : Except Fault (Nat × Connector) :=
  match c.channel with
  | none => .error .nullPointer
  | some ch => do
    let (poller, channel) ← (c.poller ch.fd).updateChannel
      { ch.channel with events := kNoneEvent }
    let poller ← poller.removeChannel channel
    .ok (ch.fd, { c with
      poller := Function.update c.poller ch.fd poller
      channel := some { ch with channel := channel }
      resets := c.resets ++ [ch.fd] })

/-- The first `resetChannel` that is queued. -/
def resetChannel (c : Connector) : Connector :=
  { c with channel := none, resets := c.resets.tail }

/-- Up to the call of `newConnectionCallback_`, for which the descriptor is added to `handed`. -/
def handleWrite (c : Connector) (isSelfConnect : Bool) : Except Fault Connector :=
  if c.state = .kConnecting then do
    let (sockfd, c) ← c.removeAndResetChannel
    if isSelfConnect = true then .ok (c.retry sockfd)
    else .ok { c with state := .kConnected, handed := c.handed ++ [sockfd] }
  else do
    ensure (c.state = .kDisConnected) (.assertion .handleWrite)
    .ok c

def handleError (c : Connector) : Except Fault Connector := do
  ensure (c.state = .kConnecting) (.assertion .handleError)
  let (sockfd, c) ← c.removeAndResetChannel
  .ok (c.retry sockfd)

/-- One callback of a dispatch; only two are set. -/
def handleCallback (c : Connector) (isSelfConnect : Bool) :
    EventCallback → Except Fault Connector
  | .errorCallback => c.handleError
  | .writeCallback => c.handleWrite isSelfConnect
  | .closeCallback | .readCallback => .ok c

/-- The callbacks of a dispatch, one after the other. -/
def handleCallbacks (isSelfConnect : Bool) : Connector → List EventCallback →
    Except Fault Connector :=
  run fun c callback => c.handleCallback isSelfConnect callback

/-- A dispatch of the channel on `fd`, which is registered with the poller. -/
def handleEvent (c : Connector) (fd : Nat) (revents : Events) (isSelfConnect : Bool) :
    Except Fault Connector :=
  match c.channel with
  | none => .error .dangling
  | some ch => do
    ensure (ch.fd = fd) .dangling
    c.handleCallbacks isSelfConnect { ch.channel with revents := revents }.handleEvent

end Connector

end Summer.Net
