import Summer.Hub.Network
import Summer.Hub.ClientPrograms
import Summer.Net.ConnectionEnd

/-!
# The hub and its clients over their connections

The hub and its clients once more, now with a `TcpConnection` at either end of each link: its loop,
its channel and its output queue, and the bytes that the kernel has accepted. The steps of the ends
interleave freely. The hub's loop is that of the server, and every client has one of its own. What
is unread and what is queued for writing are ideal queues still, in which every byte finds room.
-/
namespace Summer.Hub

open Summer.Lib
open Summer.Net (ConnectionSystem Timestamp)

/-- A client, the hub's end of its connection, what the hub has read and not parsed, and how many
of the bytes accepted from the other end each of them has read. -/
structure Wire where
  client : ClientProcess Empty := {}
  server : ConnectionSystem Empty := .init (.server true) false
  hubUnread : Bytes := []
  hubRead : Nat := 0
  clientRead : Nat := 0

namespace Wire

/-- The bytes that the hub can read. -/
def toHub (w : Wire) : Bytes := w.client.system.conn.record.accepted.drop w.hubRead

def toClient (w : Wire) : Bytes := w.server.conn.record.accepted.drop w.clientRead

def setClient (w : Wire) (client : ClientProcess Empty) : Wire := { w with client := client }

def setServer (w : Wire) (server : ConnectionSystem Empty) : Wire := { w with server := server }

/-- A step of the client's loop. It reads `n` bytes if it calls the message callback. -/
def clientStep (w : Wire) (a : ConnectionSystem.Action Empty) (n : Nat) : Except Fault Wire := do
  ensure (w.client.system.Delivers a ∧ (ClientProcess.readsData w.client.system a = true ↔ 0 < n) ∧
    n ≤ w.toClient.length) .notEnabled
  let client ← w.client.loopStep (fun _ => .ok) true { step := a, chunk := w.toClient.take n }
  .ok { w with client := client, clientRead := w.clientRead + n }

/-- `PubSubClient::disconnect`. Before the connection `TcpClient` has none to shut down. -/
def disconnect (w : Wire) : Except Fault Wire :=
  if w.client.system.conn.state = .kConnecting then .ok w
  else do
    let client ← w.client.disconnect
    .ok (w.setClient client)

end Wire

structure WiredNetwork (C : Type) [LinearOrder C] where
  hub : HubServer C := {}
  wires : C → Wire := fun _ => {}
  trace : List (Observation C Bytes Bytes) := []

namespace WiredNetwork

variable {C : Type} [LinearOrder C]

inductive Action (C : Type) where
  /-- A step of the client's loop, with `n` bytes read. -/
  | client (c : C) (step : ConnectionSystem.Action Empty) (n : Nat)
  /-- A step of the hub's loop at the connection of `c`, with `n` bytes read. The `k`-th message in
  them is handled at the time `now k`, and `nwrite k d` is the result of the `::write` to `d`. -/
  | server (c : C) (step : ConnectionSystem.Action Empty) (n : Nat) (now : Nat → Timestamp)
      (nwrite : Nat → C → Int)
  /-- The client calls `subscribe`, `unSubscribe` or `publish`. -/
  | call (c : C) (r : Request Bytes Bytes) (nwrite : Int)
  | disconnect (c : C)

def setWire (s : WiredNetwork C) (c : C) (w : Wire) : WiredNetwork C :=
  { s with wires := Function.update s.wires c w }

/-- The calls of `conn->send` that the hub makes, in order. -/
def sendAll (nwrite : C → Int) : List (C × Bytes) → (C → Wire) → Except Fault (C → Wire)
  | [], wires => .ok wires
  | (d, message) :: sent, wires => do
    let server ← (wires d).server.step (.send (.string message) (nwrite d))
    sendAll nwrite sent (Function.update wires d ((wires d).setServer server))

/-- The calls of the hub's message loop, in order. -/
def handleAll (c : C) : (Nat → Timestamp) → (Nat → C → Int) → List HubCall → WiredNetwork C →
    Except Fault (WiredNetwork C)
  | _, _, [], s => .ok s
  | now, nwrite, call :: calls, s => do
    let (hub, sent) ← s.hub.handle c (now 0) call
    let wires ← sendAll (nwrite 0) sent s.wires
    handleAll c (fun k => now (k + 1)) (fun k => nwrite (k + 1)) calls
      { s with hub := hub, wires := wires }

/-- The callback of the hub in a step that has led the connection of `c` to `server`. -/
def serverCallback (s : WiredNetwork C) (c : C) (w : Wire) (server : ConnectionSystem Empty)
    (n : Nat) (now : Nat → Timestamp) (nwrite : Nat → C → Int) :
    Except Fault (WiredNetwork C) :=
  if server.conn.record.connectionCallbacks ≠ w.server.conn.record.connectionCallbacks then do
    let hub ← s.hub.onConnection c (decide (server.conn.state = .kConnected))
    .ok { s.setWire c (w.setServer server) with hub := hub }
  else if 0 < n then do
    let (calls, rest) ← HubServer.onMessage (w.hubUnread ++ w.toHub.take n)
    handleAll c now nwrite calls
      (s.setWire c { w.setServer server with hubUnread := rest, hubRead := w.hubRead + n })
  else .ok (s.setWire c (w.setServer server))

/-- Neither end has a thread but that of its loop, and the hub never calls `shutdown()`. -/
def step (s : WiredNetwork C) : Action C → Except Fault (WiredNetwork C)
  | .client c a n => do
    let w ← (s.wires c).clientStep a n
    .ok { s.setWire c w with
      trace := s.trace ++
        (w.client.notices.drop (s.wires c).client.notices.length).map (.notice c) }
  | .server c a n now nwrite => do
    ensure (ClientProcess.Action.byLoop { step := a } = true ∧ (s.wires c).server.Delivers a ∧
      (ClientProcess.readsData (s.wires c).server a = true ↔ 0 < n) ∧
      n ≤ (s.wires c).toHub.length) .notEnabled
    let server ← (s.wires c).server.step a
    s.serverCallback c (s.wires c) server n now nwrite
  | .call c r nwrite => do
    let client ← (s.wires c).client.send (requestMessage r).encode nwrite
    .ok { s.setWire c ((s.wires c).setClient client) with
      trace := s.trace ++ if (s.wires c).client.connected = true then [.request c r] else [] }
  | .disconnect c => do
    let w ← (s.wires c).disconnect
    .ok (s.setWire c w)

def init : WiredNetwork C := {}

/-- The strings of a call have no terminator inside, and the clock reads times after the epoch. -/
def Action.Proper : Action C → Prop
  | .call _ r _ => (requestMessage r).Separable
  | .server _ _ _ now _ => ∀ k, (now k).valid = true
  | _ => True

end WiredNetwork

end Summer.Hub
