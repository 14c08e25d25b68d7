import Summer.Hub.Protocol
import Summer.Lib.BrokerRuns
import Summer.Net.TcpConnection

/-!
# The hub and its clients

One hub and any number of clients, each over a connection of its own. The two ends of a connection
change their states on their own, and the bytes between them arrive in order, in pieces of any
size. The buffers of both ends are ideal queues, in which every byte finds room. Every client has
set a subscribe callback. What is seen of the system are the calls that a client makes while it is
connected, and the calls of the subscribe callbacks.
-/
namespace Summer.Hub

open Summer.Lib
open Summer.Net (Timestamp StateE)

/-- A connection between a client and the hub: the `state_` of either end, the bytes on their
way, and what each end has read and not parsed. -/
structure Link where
  client : StateE := .kConnecting
  server : StateE := .kConnecting
  toHub : Bytes := []
  toClient : Bytes := []
  hubUnread : Bytes := []
  clientUnread : Bytes := []

/-- The message that a call of the client builds. -/
def requestMessage : Request Bytes Bytes → Message
  | .subscribe topic => .subscribe topic
  | .unSubscribe topic => .unSubscribe topic
  | .publish topic content => .publish topic content

namespace Link

/-- `PubSubClient::send`, which answers whether the client is connected. -/
def clientSend (l : Link) (message : Bytes) : Link × Bool :=
  if l.client = .kConnected then ({ l with toHub := l.toHub ++ message }, true) else (l, false)

/-- `conn->send` in the hub, which sends nothing unless the connection is up. -/
def hubSend (l : Link) (message : Bytes) : Link :=
  if l.server = .kConnected then { l with toClient := l.toClient ++ message } else l

end Link

structure Network (C : Type) [LinearOrder C] where
  hub : HubServer C := {}
  links : C → Link := fun _ => {}
  trace : List (Observation C Bytes Bytes) := []

namespace Network

variable {C : Type} [LinearOrder C]

inductive Action (C : Type) where
  /-- The connection is established at the client, and `conn_` is set. -/
  | clientEstablished (c : C)
  /-- The connection is established at the hub. -/
  | hubEstablished (c : C)
  /-- The client calls `subscribe`, `unSubscribe` or `publish`. -/
  | call (c : C) (r : Request Bytes Bytes)
  /-- The hub reads `n` bytes of the connection, and handles the `k`-th message in them at the
  time `now k`. -/
  | hubRead (c : C) (n : Nat) (now : Nat → Timestamp)
  | clientRead (c : C) (n : Nat)
  /-- `PubSubClient::disconnect`. -/
  | disconnect (c : C)
  /-- The hub's end is closed, and what it has not written yet is lost. -/
  | hubClosed (c : C) (written : Nat)
  | clientClosed (c : C) (written : Nat)

def setLink (s : Network C) (c : C) (l : Link) : Network C :=
  { s with links := Function.update s.links c l }

/-- The calls of `conn->send` that the hub makes, in order. -/
def sendAll (links : C → Link) (sent : List (C × Bytes)) : C → Link :=
  sent.foldl (fun links p => Function.update links p.1 ((links p.1).hubSend p.2)) links

/-- The calls of the hub's message loop, in order. -/
def handleAll (c : C) : (Nat → Timestamp) → List HubCall → Network C → Except Fault (Network C)
  | _, [], s => .ok s
  | now, call :: calls, s => do
    let (hub, sent) ← s.hub.handle c (now 0) call
    handleAll c (fun k => now (k + 1)) calls
      { s with hub := hub, links := sendAll s.links sent }

def callbackOf (c : C) : ClientCall → Option (Observation C Bytes Bytes)
  | .subscribeCallback topic content => some (.notice c (topic, content))
  | .shutdown => none

/-- `TcpConnection::shutdown`. -/
def shutdown (state : StateE) : StateE :=
  if state = .kConnected then .kDisconnecting else state

def step (s : Network C) : Action C → Except Fault (Network C)
  | .clientEstablished c => do
    ensure ((s.links c).client = .kConnecting) .notEnabled
    .ok (s.setLink c { s.links c with client := .kConnected })
  | .hubEstablished c => do
    ensure ((s.links c).server = .kConnecting) .notEnabled
    let hub ← s.hub.onConnection c true
    .ok { s.setLink c { s.links c with server := .kConnected } with hub := hub }
  | .call c r =>
    let (l, sent) := (s.links c).clientSend (requestMessage r).encode
    .ok { s.setLink c l with trace := s.trace ++ if sent = true then [.request c r] else [] }
  | .hubRead c n now => do
    let l := s.links c
    ensure (l.server = .kConnected ∧ 0 < n ∧ n ≤ l.toHub.length) .notEnabled
    let (calls, rest) ← HubServer.onMessage (l.hubUnread ++ l.toHub.take n)
    handleAll c now calls (s.setLink c { l with toHub := l.toHub.drop n, hubUnread := rest })
  | .clientRead c n => do
    let l := s.links c
    ensure ((l.client = .kConnected ∨ l.client = .kDisconnecting) ∧
      0 < n ∧ n ≤ l.toClient.length) .notEnabled
    let (calls, rest) ← PubSubClient.onMessage true (l.clientUnread ++ l.toClient.take n)
    let client := if .shutdown ∈ calls then shutdown l.client else l.client
    let l := { l with client := client, toClient := l.toClient.drop n, clientUnread := rest }
    .ok { s.setLink c l with trace := s.trace ++ calls.filterMap (callbackOf c) }
  | .disconnect c => .ok (s.setLink c { s.links c with client := shutdown (s.links c).client })
  | .hubClosed c written => do
    let l := s.links c
    ensure (l.server = .kConnected) .notEnabled
    -- The user's callback is not called here: the state is not `kConnected` any more.
    .ok (s.setLink c { l with server := .kDisconnected, toClient := l.toClient.take written })
  | .clientClosed c written => do
    let l := s.links c
    ensure (l.client = .kConnected ∨ l.client = .kDisconnecting) .notEnabled
    .ok (s.setLink c { l with client := .kDisconnected, toHub := l.toHub.take written })

def init : Network C := {}

/-- The strings of a call have no terminator inside, and the clock reads times after the epoch. -/
def Action.Proper : Action C → Prop
  | .call _ r => (requestMessage r).Separable
  | .hubRead _ _ now => ∀ k, (now k).valid = true
  | _ => True

end Network

end Summer.Hub
