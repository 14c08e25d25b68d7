import Summer.Hub.WiredNetwork
import Summer.Hub.Delivery

/-!
# The connections refine the links

A link is what is seen of the two connections at its ends: the state that the callbacks know, and
the bytes that are written or will be and that the other end has not read. Every step of a
connection leaves that alone or is one step of the network, so what holds of the network in every
run, its refinement of the broker above all, holds of the connections.
-/
namespace Summer.Hub

open Summer.Lib
open Summer.Net (ConnectionSystem StateE Timestamp)
open Summer.Net.ConnectionSystem (InOrder Seen Used)

/-! ## What is seen of a wire -/

namespace Wire

def link (w : Wire) : Link where
  client := w.client.system.userState
  server := w.server.userState
  toHub := w.client.system.output.drop w.hubRead
  toClient := w.server.output.drop w.clientRead
  hubUnread := w.hubUnread
  clientUnread := w.client.unread

structure Sound (w : Wire) : Prop where
  client : InOrder .client w.client.system
  server : InOrder (.server true) w.server
  /-- `conn_` is set by the connection callback. -/
  conn : w.client.conn = true ↔ w.client.system.userState ≠ .kConnecting
  noShutdown : w.server.userState ≠ .kDisconnecting
  hubRead : w.hubRead ≤ w.client.system.conn.record.accepted.length
  clientRead : w.clientRead ≤ w.server.conn.record.accepted.length

theorem sound_init : ({} : Wire).Sound where
  client := Net.ConnectionSystem.inOrder_init .client
  server := Net.ConnectionSystem.inOrder_init (.server true)
  conn := by decide
  noShutdown := by decide
  hubRead := Nat.le_refl 0
  clientRead := Nat.le_refl 0

end Wire

/-! ## One end -/

section End

variable {s s' : ConnectionSystem Empty} {a : ConnectionSystem.Action Empty}

theorem userState_eq_kConnected : s.userState = .kConnected ↔
    s.userState ≠ .kConnecting ∧ s.conn.state = .kConnected := by
  rw [ConnectionSystem.userState]
  split
  · simp
  · constructor
    · intro h
      simp [h]
    · exact And.right

/-- A step of the loop is none of the user's. -/
theorem byLoop_not_shutdown (h : ClientProcess.Action.byLoop { step := a } = true) :
    a ≠ .shutdown := by
  rintro rfl
  cases h

/-- A step that calls the message callback leaves the connection as it is. -/
theorem reads_step (hreads : ClientProcess.readsData s a = true) (hstep : s.step a = .ok s') :
    ∃ callbacks phase, s.phase = .handling callbacks .data ∧ s' = { s with phase := phase } := by
  cases a with
  | handleEvent n =>
    rw [ClientProcess.readsData] at hreads
    split at hreads
    · rename_i callbacks hphase
      refine ⟨_, .handling callbacks .data, hphase, ?_⟩
      obtain ⟨_, -, hstep⟩ := bind_eq_ok.mp hstep
      rw [hphase] at hstep
      cases hstep
      rfl
    · cases hreads
  | _ => cases hreads

/-- The bytes that can be read are the first of those that are seen. -/
theorem take_output {r n : Nat} (hr : r ≤ s.conn.record.accepted.length)
    (hn : n ≤ (s.conn.record.accepted.drop r).length) :
    (s.output.drop r).take n = (s.conn.record.accepted.drop r).take n ∧
      n ≤ (s.output.drop r).length := by
  obtain ⟨rest, hrest⟩ := s.accepted_output
  rw [← hrest, List.drop_append_of_le_length hr, List.take_append_of_le_length hn]
  refine ⟨rfl, ?_⟩
  rw [List.length_append]
  omega

/-- Of a connection that is closed only what was written is seen. -/
theorem drop_output_closed {r : Nat} (hr : r ≤ s.conn.record.accepted.length)
    (houtput : s'.output = s.conn.record.accepted) :
    s'.output.drop r = (s.output.drop r).take (s.conn.record.accepted.length - r) := by
  obtain ⟨rest, hrest⟩ := s.accepted_output
  rw [houtput, ← hrest, List.drop_append_of_le_length hr, List.take_left']
  rw [List.length_drop]

theorem drop_output_used {r : Nat} {state : StateE} {message : Bytes}
    (hr : r ≤ s.conn.record.accepted.length) (h : Used s s' state message) :
    s'.output.drop r = s.output.drop r ++ message := by
  rw [h.output, List.drop_append_of_le_length (hr.trans s.accepted_output.length_le)]

end End

/-! ## The invariant -/

namespace Wire

variable {w : Wire}

/-- The client's end after a call of its user. -/
theorem Sound.used (h : w.Sound) {client : ClientProcess Empty} {state : StateE} {message : Bytes}
    (horder : InOrder .client client.system) (hconn : client.conn = w.client.conn)
    (hstate : state = .kConnecting ↔ w.client.system.userState = .kConnecting)
    (hused : Used w.client.system client.system state message) : (w.setClient client).Sound where
  client := horder
  server := h.server
  conn := by
    show client.conn = true ↔ client.system.userState ≠ .kConnecting
    rw [hconn, hused.state, h.conn, not_iff_not, hstate]
  noShutdown := h.noShutdown
  hubRead := h.hubRead.trans hused.accepted.length_le
  clientRead := h.clientRead

theorem Sound.connected (h : w.Sound) :
    w.client.connected = true ↔ w.client.system.userState = .kConnected := by
  rw [userState_eq_kConnected, ← h.conn, ClientProcess.connected, Bool.and_eq_true,
    decide_eq_true_eq]

/-- A send of the hub on this wire. -/
theorem Sound.hubSend (h : w.Sound) {message : Bytes} {n : Int} {server : ConnectionSystem Empty}
    (hstep : w.server.step (.send (.string message) n) = .ok server) :
    (w.setServer server).Sound ∧ (w.setServer server).link = w.link.hubSend message := by
  have hused := h.server.sends hstep
  have hdelivers : w.server.Delivers (.send (.string message) n) := trivial
  refine ⟨⟨h.client, h.server.step hdelivers hstep, h.conn, ?_, h.hubRead, ?_⟩, ?_⟩
  · show server.userState ≠ .kDisconnecting
    rw [hused.state]
    exact h.noShutdown
  · exact h.clientRead.trans hused.accepted.length_le
  · have hout := drop_output_used h.clientRead hused
    rw [Link.hubSend]
    have hserver : w.link.server = w.server.userState := rfl
    by_cases hup : w.server.userState = .kConnected
    · rw [if_pos hup] at hout
      rw [hserver, if_pos hup]
      simp only [link, setServer, hused.state, hout]
    · rw [if_neg hup, List.append_nil] at hout
      rw [hserver, if_neg hup]
      simp only [link, setServer, hused.state, hout]

/-! ## A step of the client's loop -/

/-- What a step of the client's loop makes of its wire. -/
inductive ClientSeen (w w' : Wire) (n : Nat) (notices : List (Bytes × Bytes)) : Prop
  | kept (quiet : notices = []) (link : w'.link = w.link)
  | told (quiet : notices = []) (connecting : w.link.client = .kConnecting)
      (link : w'.link = { w.link with client := .kConnected })
  | closed (quiet : notices = [])
      (up : w.link.client = .kConnected ∨ w.link.client = .kDisconnecting) (written : Nat)
      (link : w'.link =
        { w.link with client := .kDisconnected, toHub := w.link.toHub.take written })
  | read (up : w.link.client = .kConnected ∨ w.link.client = .kDisconnecting) (some : 0 < n)
      (bytes : n ≤ w.link.toClient.length) (calls : List ClientCall) (rest : Bytes)
      (parsed : PubSubClient.onMessage true (w.link.clientUnread ++ w.link.toClient.take n) =
        .ok (calls, rest))
      (told : notices = calls.filterMap ClientProcess.noticeOf)
      (link : w'.link = { w.link with
        client := if .shutdown ∈ calls then Network.shutdown w.link.client else w.link.client
        toClient := w.link.toClient.drop n
        clientUnread := rest })

/-- A step of the client's loop that reads nothing. -/
theorem Sound.clientQuiet (h : w.Sound) {a : ConnectionSystem.Action Empty}
    {system : ConnectionSystem Empty} (hloop : ClientProcess.Action.byLoop { step := a } = true)
    (hdelivers : w.client.system.Delivers a) (hstep : w.client.system.step a = .ok system)
    {client : ClientProcess Empty}
    (hclient : client = if system.conn.record.connectionCallbacks ≠
        w.client.system.conn.record.connectionCallbacks then
      { w.client with system := system, conn := decide (system.conn.state = .kConnected) }
      else { w.client with system := system }) :
    (w.setClient client).Sound ∧ ClientSeen w (w.setClient client) 0 [] := by
  have horder := h.client.step hdelivers hstep
  have hseen := h.client.seen (fun _ _ => ClientProcess.Action.byLoop_not_send hloop _ _)
    (byLoop_not_shutdown hloop) hstep
  cases hseen with
  | kept hcb hstate hacc hout =>
    rw [if_neg (not_not.mpr hcb)] at hclient
    subst hclient
    refine ⟨⟨horder, h.server, ?_, h.noShutdown, h.hubRead.trans hacc.length_le, h.clientRead⟩,
      .kept rfl ?_⟩
    · rw [setClient, hstate]
      exact h.conn
    · simp only [link, setClient, hstate, hout]
  | told hcb hconnecting hconnected hstate hacc hout =>
    rw [if_pos hcb] at hclient
    subst hclient
    refine ⟨⟨horder, h.server, ?_, h.noShutdown, h.hubRead.trans_eq (by rw [← hacc]; rfl),
      h.clientRead⟩, .told rfl hconnecting ?_⟩
    · simp [setClient, hconnected, hstate]
    · simp only [link, setClient, hstate, hout]
  | closed hcb hup hdown hacc hout =>
    rw [if_neg (not_not.mpr hcb)] at hclient
    subst hclient
    refine ⟨⟨horder, h.server, ?_, h.noShutdown, h.hubRead.trans_eq (by rw [← hacc]; rfl),
      h.clientRead⟩,
      .closed rfl hup (w.client.system.conn.record.accepted.length - w.hubRead) ?_⟩
    · have hset : w.client.conn = true := h.conn.mpr (by rcases hup with hup | hup <;> simp [hup])
      simp [setClient, hdown, hset]
    · simp only [link, setClient, hdown, drop_output_closed h.hubRead hout]

/-- A step of the client's loop that calls the message callback. -/
theorem Sound.clientReads (h : w.Sound) {a : ConnectionSystem.Action Empty} {n : Nat}
    {system : ConnectionSystem Empty} {client : ClientProcess Empty} (hpos : 0 < n)
    (hn : n ≤ w.toClient.length) (hdelivers : w.client.system.Delivers a)
    (hreads : ClientProcess.readsData w.client.system a = true)
    (hstep : w.client.system.step a = .ok system)
    (hmessage : { w.client with system := system }.onMessage true (w.toClient.take n) =
      .ok client) :
    Sound { w with client := client, clientRead := w.clientRead + n } ∧
      ∃ notices, client.notices = w.client.notices ++ notices ∧
        ClientSeen w { w with client := client, clientRead := w.clientRead + n } n notices := by
  have horder := h.client.step hdelivers hstep
  obtain ⟨callbacks, phase, hphase, rfl⟩ := reads_step hreads hstep
  have hup : w.client.system.userState = .kConnected ∨
      w.client.system.userState = .kDisconnecting := by
    rcases h.client with hinit | hsound
    · rw [hinit] at hphase
      cases hphase
    · exact hsound.userState_reading hphase
  have hconn : w.client.conn = true := h.conn.mpr (by rcases hup with hup | hup <;> simp [hup])
  obtain ⟨htake, hlen⟩ := take_output h.clientRead hn
  have hread : w.clientRead + n ≤ w.server.conn.record.accepted.length := by
    have hbytes := hn
    rw [toClient, List.length_drop] at hbytes
    have hr := h.clientRead
    omega
  obtain ⟨⟨calls, rest⟩, hparse, hmessage⟩ := bind_eq_ok.mp hmessage
  have hparse' : PubSubClient.onMessage true (w.link.clientUnread ++ w.link.toClient.take n) =
      .ok (calls, rest) := by
    rw [← hparse]
    exact congrArg (fun bytes => PubSubClient.onMessage true (w.client.unread ++ bytes)) htake
  have hdrop : w.server.output.drop (w.clientRead + n) = w.link.toClient.drop n :=
    List.drop_drop.symm
  dsimp only at hmessage
  split at hmessage
  · rename_i hshutdown
    obtain ⟨system, hshut, rfl⟩ := ClientProcess.take_ok hmessage
    have hused := horder.shutsDown hshut
    refine ⟨⟨horder.step (a := .shutdown) trivial hshut, h.server, iff_of_true hconn ?_,
      h.noShutdown, h.hubRead.trans hused.accepted.length_le, hread⟩, _, rfl,
      .read hup hpos hlen calls rest hparse' rfl ?_⟩
    · rw [hused.state]
      rcases hup with hup | hup <;> simp [ConnectionSystem.userState] at hup ⊢ <;> simp [hup]
    · have hout : system.output = w.client.system.output :=
        hused.output.trans (List.append_nil _)
      have hstate : system.userState = Network.shutdown w.client.system.userState := hused.state
      simp only [link, hout, hstate, hdrop, if_pos hshutdown]
  · rename_i hquiet
    cases hmessage
    refine ⟨⟨horder, h.server, h.conn, h.noShutdown, h.hubRead, hread⟩, _, rfl,
      .read hup hpos hlen calls rest hparse' rfl ?_⟩
    simp only [link, hdrop, if_neg hquiet]
    rfl

theorem Sound.clientStep {w' : Wire} (h : w.Sound) {a : ConnectionSystem.Action Empty} {n : Nat}
    (hstep : w.clientStep a n = .ok w') :
    w'.Sound ∧ ∃ notices, w'.client.notices = w.client.notices ++ notices ∧
      ClientSeen w w' n notices := by
  obtain ⟨_, hen, hstep⟩ := bind_eq_ok.mp hstep
  obtain ⟨hdelivers, hreads, hn⟩ := ensure_eq_ok.mp hen
  obtain ⟨client, hclient, hstep⟩ := bind_eq_ok.mp hstep
  cases hstep
  obtain ⟨_, hen, hclient⟩ := bind_eq_ok.mp hclient
  have hloop : ClientProcess.Action.byLoop { step := a } = true := (ensure_eq_ok.mp hen).1
  obtain ⟨q, htake, hclient⟩ := bind_eq_ok.mp hclient
  obtain ⟨system, hsystem, rfl⟩ := ClientProcess.take_ok htake
  split at hclient
  · rename_i htold
    cases hclient
    have hzero : n = 0 := by
      by_contra hne
      obtain ⟨_, _, -, rfl⟩ := reads_step (hreads.mpr (Nat.pos_of_ne_zero hne)) hsystem
      exact htold rfl
    subst hzero
    obtain ⟨hsound, hseen⟩ := h.clientQuiet hloop hdelivers hsystem (if_pos htold).symm
    exact ⟨hsound, [], (List.append_nil _).symm, hseen⟩
  · rename_i hsame
    split at hclient
    · rename_i hdata
      exact h.clientReads (hreads.mp hdata) hn hdelivers hdata hsystem hclient
    · rename_i hquiet
      cases hclient
      have hzero : n = 0 := Nat.eq_zero_of_not_pos (mt hreads.mpr hquiet)
      subst hzero
      obtain ⟨hsound, hseen⟩ := h.clientQuiet hloop hdelivers hsystem (if_neg hsame).symm
      exact ⟨hsound, [], (List.append_nil _).symm, hseen⟩

end Wire

/-! ## The network that is seen -/

namespace WiredNetwork

variable {C : Type} [LinearOrder C] {s s' : WiredNetwork C} {c d : C} {w : Wire}

def view (s : WiredNetwork C) : Network C where
  hub := s.hub
  links c := (s.wires c).link
  trace := s.trace

def Sound (s : WiredNetwork C) : Prop := ∀ c, (s.wires c).Sound

/-- Steps of the network lead from what is seen of one state to what is seen of the other. -/
def Answered (s s' : WiredNetwork C) : Prop :=
  ∃ bs : List (Network.Action C), (∀ b ∈ bs, b.Proper) ∧ run Network.step s.view bs = .ok s'.view

theorem Answered.silent (h : s'.view = s.view) : Answered s s' :=
  ⟨[], List.forall_mem_nil _, by rw [h]; rfl⟩

theorem Answered.single {b : Network.Action C} (hb : b.Proper)
    (h : Network.step s.view b = .ok s'.view) : Answered s s' :=
  ⟨[b], fun _ hmem => List.mem_singleton.mp hmem ▸ hb, run_singleton.trans h⟩

theorem links_update (wires : C → Wire) (c : C) (w : Wire) :
    (fun d => (Function.update wires c w d).link) =
      Function.update (fun d => (wires d).link) c w.link :=
  Function.comp_update Wire.link wires c w

theorem view_setWire (s : WiredNetwork C) (c : C) (w : Wire) :
    (s.setWire c w).view = s.view.setLink c w.link := by
  rw [view, setWire, links_update]
  rfl

theorem view_setWire_same (h : w.link = (s.wires c).link) : (s.setWire c w).view = s.view := by
  rw [view_setWire, h, Network.setLink]
  show { s.view with links := Function.update s.view.links c (s.view.links c) } = s.view
  rw [Function.update_eq_self]

theorem sound_update {wires : C → Wire} (h : ∀ d, (wires d).Sound) (hw : w.Sound) :
    ∀ d, (Function.update wires c w d).Sound := by
  intro d
  by_cases hd : d = c
  · subst hd
    rw [Function.update_self]
    exact hw
  · rw [Function.update_of_ne hd]
    exact h d

theorem Sound.setWire (h : s.Sound) (hw : w.Sound) : (s.setWire c w).Sound := sound_update h hw

theorem view_trace (s : WiredNetwork C) (trace : List (Observation C Bytes Bytes)) :
    ({ s with trace := trace } : WiredNetwork C).view = { s.view with trace := trace } := rfl

theorem view_setWire_trace (s : WiredNetwork C) (c : C) (w : Wire)
    (trace : List (Observation C Bytes Bytes)) :
    ({ s.setWire c w with trace := trace } : WiredNetwork C).view =
      { s.view.setLink c w.link with trace := trace } := by
  rw [view_trace, view_setWire]

/-! ## The clients -/

omit [LinearOrder C] in
theorem callbackOf_map (calls : List ClientCall) :
    (calls.filterMap ClientProcess.noticeOf).map (Observation.notice c) =
      calls.filterMap (Network.callbackOf c) := by
  rw [List.map_filterMap]
  congr 1
  funext call
  cases call <;> rfl

theorem answered_client {n : Nat} {notices : List (Bytes × Bytes)}
    (hseen : Wire.ClientSeen (s.wires c) w n notices) :
    Answered s { s.setWire c w with trace := s.trace ++ notices.map (.notice c) } := by
  have hview := view_setWire_trace s c w (s.trace ++ notices.map (.notice c))
  cases hseen with
  | kept hquiet hlink =>
    apply Answered.silent
    rw [view_trace, view_setWire_same hlink, hquiet, List.map_nil, List.append_nil]
    rfl
  | told hquiet hconnecting hlink =>
    apply Answered.single (b := .clientEstablished c) trivial
    rw [hview, hlink, hquiet, List.map_nil, List.append_nil, Network.step,
      ensure_of (p := (s.view.links c).client = .kConnecting) hconnecting]
    rfl
  | closed hquiet hup written hlink =>
    apply Answered.single (b := .clientClosed c written) trivial
    rw [hview, hlink, hquiet, List.map_nil, List.append_nil, Network.step,
      ensure_of (p := (s.view.links c).client = .kConnected ∨
        (s.view.links c).client = .kDisconnecting) hup]
    rfl
  | read hup hpos hbytes calls rest hparse hnotices hlink =>
    apply Answered.single (b := .clientRead c n) trivial
    have hparse' : PubSubClient.onMessage true
        ((s.view.links c).clientUnread ++ (s.view.links c).toClient.take n) =
          .ok (calls, rest) := hparse
    rw [hview, hlink, hnotices, callbackOf_map, Network.step,
      ensure_of (p := ((s.view.links c).client = .kConnected ∨
        (s.view.links c).client = .kDisconnecting) ∧ 0 < n ∧ n ≤ (s.view.links c).toClient.length)
        ⟨hup, hpos, hbytes⟩, ok_bind, hparse', ok_bind]
    rfl

/-! ## The hub -/

theorem sendAll_view {nwrite : C → Int} {sent : List (C × Bytes)} {wires wires' : C → Wire}
    (h : ∀ d, (wires d).Sound) (hsend : sendAll nwrite sent wires = .ok wires') :
    (∀ d, (wires' d).Sound) ∧
      (fun d => (wires' d).link) = Network.sendAll (fun d => (wires d).link) sent := by
  induction sent generalizing wires with
  | nil =>
    cases hsend
    exact ⟨h, rfl⟩
  | cons p sent ih =>
    obtain ⟨server, hstep, hsend⟩ := bind_eq_ok.mp hsend
    obtain ⟨hsound, hlink⟩ := (h p.1).hubSend hstep
    obtain ⟨hall, hlinks⟩ := ih (sound_update h hsound) hsend
    refine ⟨hall, ?_⟩
    rw [hlinks, links_update, hlink]
    rfl

theorem handleAll_view {now : Nat → Timestamp} {nwrite : Nat → C → Int} {calls : List HubCall}
    (h : s.Sound) (hrun : handleAll c now nwrite calls s = .ok s') :
    s'.Sound ∧ Network.handleAll c now calls s.view = .ok s'.view := by
  induction calls generalizing s now nwrite with
  | nil =>
    cases hrun
    exact ⟨h, rfl⟩
  | cons call calls ih =>
    obtain ⟨⟨hub, sent⟩, hhandle, hrun⟩ := bind_eq_ok.mp hrun
    obtain ⟨wires, hsend, hrun⟩ := bind_eq_ok.mp hrun
    obtain ⟨hsound, hlinks⟩ := sendAll_view h hsend
    obtain ⟨hall, hview⟩ := ih (s := { s with hub := hub, wires := wires }) hsound hrun
    refine ⟨hall, ?_⟩
    rw [Network.handleAll, show s.view.hub = s.hub from rfl, hhandle, ok_bind, ← hview]
    simp only [view, hlinks]

/-- A step of the hub's loop that calls the message callback. -/
theorem answered_serverReads (h : s.Sound) {a : ConnectionSystem.Action Empty} {n : Nat}
    {server : ConnectionSystem Empty} {now : Nat → Timestamp} {nwrite : Nat → C → Int}
    (hnow : ∀ k, (now k).valid = true) (hdelivers : (s.wires c).server.Delivers a)
    (hpos : 0 < n) (hn : n ≤ (s.wires c).toHub.length)
    (hreads : ClientProcess.readsData (s.wires c).server a = true)
    (hserver : (s.wires c).server.step a = .ok server)
    (hcallback : s.serverCallback c (s.wires c) server n now nwrite = .ok s') :
    s'.Sound ∧ Answered s s' := by
  have hw := h c
  have horder := hw.server.step hdelivers hserver
  obtain ⟨callbacks, phase, hphase, rfl⟩ := reads_step hreads hserver
  rw [serverCallback, if_neg (by simp), if_pos hpos] at hcallback
  obtain ⟨⟨calls, rest⟩, hparse, hcallback⟩ := bind_eq_ok.mp hcallback
  have hup : (s.wires c).server.userState = .kConnected := by
    rcases hw.server with hinit | hsound
    · rw [hinit] at hphase
      cases hphase
    · exact (hsound.userState_reading hphase).resolve_right hw.noShutdown
  obtain ⟨htake, hlen⟩ := take_output hw.hubRead hn
  have hread : (s.wires c).hubRead + n ≤
      (s.wires c).client.system.conn.record.accepted.length := by
    have hbytes := hn
    rw [Wire.toHub, List.length_drop] at hbytes
    have hr := hw.hubRead
    omega
  have hwire : Wire.Sound { (s.wires c).setServer { (s.wires c).server with phase := phase } with
      hubUnread := rest, hubRead := (s.wires c).hubRead + n } :=
    ⟨hw.client, horder, hw.conn, hw.noShutdown, hread, hw.clientRead⟩
  obtain ⟨hall, hview⟩ := handleAll_view (h.setWire hwire) hcallback
  refine ⟨hall, .single (b := .hubRead c n now) hnow ?_⟩
  have hparse' : HubServer.onMessage
      ((s.view.links c).hubUnread ++ (s.view.links c).toHub.take n) = .ok (calls, rest) := by
    rw [← hparse]
    exact congrArg (fun bytes => HubServer.onMessage ((s.wires c).hubUnread ++ bytes)) htake
  rw [Network.step, ensure_of (p := (s.view.links c).server = .kConnected ∧ 0 < n ∧
    n ≤ (s.view.links c).toHub.length) ⟨hup, hpos, hlen⟩, ok_bind, hparse', ok_bind, ← hview,
    view_setWire]
  simp only [Wire.link, Wire.setServer, view, List.drop_drop]
  rfl

/-- A step of the hub's loop that reads nothing. -/
theorem answered_serverQuiet (h : s.Sound) {server : ConnectionSystem Empty}
    {now : Nat → Timestamp} {nwrite : Nat → C → Int} (horder : InOrder (.server true) server)
    (hseen : Seen (s.wires c).server server)
    (hcallback : s.serverCallback c (s.wires c) server 0 now nwrite = .ok s') :
    s'.Sound ∧ Answered s s' := by
  have hw := h c
  rw [serverCallback, if_neg (Nat.lt_irrefl 0)] at hcallback
  cases hseen with
  | kept hcb hstate hacc hout =>
    rw [if_neg (not_not.mpr hcb)] at hcallback
    cases hcallback
    refine ⟨h.setWire ⟨hw.client, horder, hw.conn, ?_, hw.hubRead,
      hw.clientRead.trans hacc.length_le⟩, .silent (view_setWire_same ?_)⟩
    · rw [Wire.setServer, hstate]
      exact hw.noShutdown
    · simp only [Wire.link, Wire.setServer, hstate, hout]
  | told hcb hconnecting hconnected hstate hacc hout =>
    rw [if_pos hcb] at hcallback
    obtain ⟨hub, hhub, hcallback⟩ := bind_eq_ok.mp hcallback
    cases hcallback
    rw [decide_eq_true hconnected] at hhub
    refine ⟨h.setWire ⟨hw.client, horder, hw.conn, ?_, hw.hubRead,
      hw.clientRead.trans_eq (by rw [← hacc]; rfl)⟩, .single (b := .hubEstablished c) trivial ?_⟩
    · simp [Wire.setServer, hstate]
    · have hlink : ((s.wires c).setServer server).link =
          { (s.wires c).link with server := .kConnected } := by
        simp only [Wire.link, Wire.setServer, hstate, hout]
      have hview : ({ s.setWire c ((s.wires c).setServer server) with hub := hub } :
          WiredNetwork C).view =
            { s.view.setLink c ((s.wires c).setServer server).link with hub := hub } := by
        rw [← view_setWire]
        rfl
      rw [hview, hlink, Network.step,
        ensure_of (p := (s.view.links c).server = .kConnecting) hconnecting, ok_bind,
        show s.view.hub = s.hub from rfl, hhub]
      rfl
  | closed hcb hup hdown hacc hout =>
    rw [if_neg (not_not.mpr hcb)] at hcallback
    cases hcallback
    have hconnected : (s.wires c).server.userState = .kConnected :=
      hup.resolve_right hw.noShutdown
    refine ⟨h.setWire ⟨hw.client, horder, hw.conn, ?_, hw.hubRead,
      hw.clientRead.trans_eq (by rw [← hacc]; rfl)⟩,
      .single (b := .hubClosed c ((s.wires c).server.conn.record.accepted.length -
        (s.wires c).clientRead)) trivial ?_⟩
    · simp [Wire.setServer, hdown]
    · rw [view_setWire, Network.step,
        ensure_of (p := (s.view.links c).server = .kConnected) hconnected, ok_bind]
      congr 2
      simp only [Wire.link, Wire.setServer, hdown, view, drop_output_closed hw.clientRead hout]

/-- A step of the hub's loop at one connection. -/
theorem answered_server (h : s.Sound) {a : ConnectionSystem.Action Empty} {n : Nat}
    {now : Nat → Timestamp} {nwrite : Nat → C → Int} (hnow : ∀ k, (now k).valid = true)
    (hstep : step s (.server c a n now nwrite) = .ok s') : s'.Sound ∧ Answered s s' := by
  obtain ⟨_, hen, hstep⟩ := bind_eq_ok.mp hstep
  obtain ⟨hloop, hdelivers, hreads, hn⟩ := ensure_eq_ok.mp hen
  obtain ⟨server, hserver, hstep⟩ := bind_eq_ok.mp hstep
  rcases Nat.eq_zero_or_pos n with hzero | hpos
  · subst hzero
    apply answered_serverQuiet h ((h c).server.step hdelivers hserver) _ hstep
    exact (h c).server.seen (fun _ _ => ClientProcess.Action.byLoop_not_send hloop _ _)
      (byLoop_not_shutdown hloop) hserver
  · exact answered_serverReads h hnow hdelivers hpos hn (hreads.mpr hpos) hserver hstep

/-! ## The calls of the users -/

theorem answered_call (h : s.Sound) {r : Request Bytes Bytes} {nwrite : Int}
    (hr : (requestMessage r).Separable) (hstep : step s (.call c r nwrite) = .ok s') :
    s'.Sound ∧ Answered s s' := by
  obtain ⟨client, hsend, hstep⟩ := bind_eq_ok.mp hstep
  cases hstep
  have hw := h c
  rw [ClientProcess.send] at hsend
  by_cases hup : (s.wires c).client.connected = true
  · rw [if_pos hup] at hsend
    obtain ⟨system, hsystem, rfl⟩ := ClientProcess.take_ok hsend
    have hstate := hw.connected.mp hup
    have hused := hw.client.sends hsystem
    rw [if_pos hstate] at hused
    have horder := hw.client.step (a := .send (.string _) nwrite) trivial hsystem
    have hlink : ((s.wires c).setClient { (s.wires c).client with system := system }).link =
        { (s.wires c).link with
          toHub := (s.wires c).link.toHub ++ (requestMessage r).encode } := by
      simp only [Wire.link, Wire.setClient, hused.state, drop_output_used hw.hubRead hused]
    have hsent : (s.view.links c).clientSend (requestMessage r).encode =
        ({ (s.wires c).link with
          toHub := (s.wires c).link.toHub ++ (requestMessage r).encode }, true) :=
      if_pos hstate
    refine ⟨h.setWire (hw.used horder rfl Iff.rfl hused), .single (b := .call c r) hr ?_⟩
    rw [view_setWire_trace, hlink, if_pos hup, Network.step, hsent]
    rfl
  · rw [if_neg hup] at hsend
    cases hsend
    have hsame : (s.setWire c ((s.wires c).setClient (s.wires c).client)).view = s.view :=
      view_setWire_same rfl
    refine ⟨h.setWire hw, .silent ?_⟩
    rw [view_trace, hsame, if_neg hup, List.append_nil]
    rfl

theorem answered_disconnect (h : s.Sound) (hstep : step s (.disconnect c) = .ok s') :
    s'.Sound ∧ Answered s s' := by
  obtain ⟨w, hw', hstep⟩ := bind_eq_ok.mp hstep
  cases hstep
  have hw := h c
  rw [Wire.disconnect] at hw'
  split at hw'
  · cases hw'
    exact ⟨h.setWire hw, .silent (view_setWire_same rfl)⟩
  · obtain ⟨client, hclient, hw'⟩ := bind_eq_ok.mp hw'
    cases hw'
    rw [ClientProcess.disconnect] at hclient
    split at hclient
    · obtain ⟨system, hsystem, rfl⟩ := ClientProcess.take_ok hclient
      have hused := hw.client.shutsDown hsystem
      have horder := hw.client.step (a := .shutdown) trivial hsystem
      have hout : system.output = (s.wires c).client.system.output :=
        hused.output.trans (List.append_nil _)
      have hstate : system.userState = Network.shutdown (s.wires c).client.system.userState :=
        hused.state
      refine ⟨h.setWire (hw.used horder rfl ?_ hused), .single (b := .disconnect c) trivial ?_⟩
      · split <;> simp [*]
      · rw [view_setWire, Network.step]
        simp only [Wire.link, Wire.setClient, hout, hstate]
        rfl
    · cases hclient
      exact ⟨h.setWire hw, .silent (view_setWire_same rfl)⟩

/-! ## Runs -/

theorem step_answered {a : Action C} (h : s.Sound) (ha : a.Proper) (hstep : step s a = .ok s') :
    s'.Sound ∧ Answered s s' := by
  cases a with
  | client c a n =>
    obtain ⟨w, hw, hstep⟩ := bind_eq_ok.mp hstep
    cases hstep
    obtain ⟨hsound, notices, hnotices, hseen⟩ := (h c).clientStep hw
    rw [hnotices, List.drop_left]
    exact ⟨h.setWire hsound, answered_client hseen⟩
  | server c a n now nwrite => exact answered_server h ha hstep
  | call c r nwrite => exact answered_call h ha hstep
  | disconnect c => exact answered_disconnect h hstep

theorem Answered.trans {s'' : WiredNetwork C} (h : Answered s s') (h' : Answered s' s'') :
    Answered s s'' := by
  obtain ⟨bs, hbs, hrun⟩ := h
  obtain ⟨cs, hcs, hrun'⟩ := h'
  refine ⟨bs ++ cs, ?_, run_append_ok.mpr ⟨_, hrun, hrun'⟩⟩
  intro b hb
  rcases List.mem_append.mp hb with hb | hb
  · exact hbs b hb
  · exact hcs b hb

theorem run_answered {as : List (Action C)} (hC : ∀ a ∈ as, a.Proper)
    (hrun : run step init as = .ok s) : s.Sound ∧ Answered init s := by
  refine run_invariant (I := fun s => s.Sound ∧ Answered init s) (fun s a s' h ha hstep => ?_)
    ⟨fun _ => Wire.sound_init, .silent rfl⟩ (along_of_forall_mem hC) hrun
  obtain ⟨hsound, hanswered⟩ := step_answered h.1 ha hstep
  exact ⟨hsound, h.2.trans hanswered⟩

/-- What is written to an open connection and not read yet, and what is queued. -/
theorem drop_output_open {owner : Net.Owner} {t : ConnectionSystem Empty} (h : InOrder owner t)
    (hstate : t.conn.state ≠ .kDisconnected) {r : Nat}
    (hr : r ≤ t.conn.record.accepted.length) :
    t.userState ≠ .kDisconnected ∧
      t.output.drop r = t.conn.record.accepted.drop r ++ t.conn.outputBuffer := by
  have hopen : ¬ t.Closed := by
    rcases h with rfl | h
    · exact Nat.lt_irrefl 0
    · exact mt h.closed.mpr hstate
  rw [ConnectionSystem.output_open hopen, List.drop_append_of_le_length hr]
  refine ⟨?_, rfl⟩
  rw [ConnectionSystem.userState]
  split
  · decide
  · exact hstate

/-- A step of the hub at the first client's connection, whose `::write`s take ten bytes. -/
def hubStep (a : ConnectionSystem.Action Empty) (n : Nat) : Action Nat :=
  .server 1 a n (fun _ => Network.afterEpoch) fun _ _ => 10

/-- A client subscribes and publishes, and the kernel takes its first message in two pieces. -/
def exchange : List (Action Nat) :=
  [.client 1 .connectionEstablished 0, .client 1 .connectionCallback 0,
    hubStep .connectionEstablished 0, hubStep .connectionCallback 0, .call 1 (.subscribe [97]) 4,
    hubStep (.poll Net.POLLIN .data) 0, hubStep (.handleEvent 0) 4, hubStep .doPendingFunctor 0,
    hubStep .endPass 0, .client 1 (.poll Net.POLLOUT .error) 0, .client 1 (.handleEvent 3) 0,
    hubStep (.poll Net.POLLIN .data) 0, hubStep (.handleEvent 0) 3,
    .call 1 (.publish [97] [98]) 10, hubStep .doPendingFunctor 0, hubStep .endPass 0,
    hubStep (.poll Net.POLLIN .data) 0, hubStep (.handleEvent 0) 10,
    .client 1 .doPendingFunctor 0, .client 1 .endPass 0, .client 1 (.poll Net.POLLIN .data) 0,
    .client 1 (.handleEvent 0) 10]

theorem exchange_proper : ∀ a ∈ exchange, a.Proper := by
  have hvalid : Network.afterEpoch.valid = true := by decide
  have hcalls : (requestMessage (.subscribe [97])).Separable ∧
      (requestMessage (.publish [97] [98])).Separable := by decide
  simp [exchange, hubStep, Action.Proper, hcalls, hvalid]

end WiredNetwork

end Summer.Hub
