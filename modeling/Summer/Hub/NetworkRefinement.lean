import Summer.Hub.Network
import Summer.Hub.PublishSubscribe
import Summer.Lib.Simulation

/-!
# The network refines a broker

What the hub keeps stands for the board of a broker, and the bytes of each connection stand for
the queues of its client. A read of the hub serves the requests that it completes, and a read of a
client delivers the notices that it completes.
-/
namespace Summer.Hub

open Summer.Lib
open Summer.Net (Timestamp StateE)

/-! ## Bytes that carry frames -/

/-- What was read and not parsed, what is on its way and what is lost are the frames, and no frame
is waiting to be parsed. -/
structure Carries (unread arriving lost : Bytes) (fs : List Frame) : Prop where
  wellFormed : ∀ f ∈ fs, f.WellFormed
  stream : unread ++ arriving ++ lost = Frame.encodeAll fs
  unparsed : complete fs unread.length = []

namespace Carries

variable {unread arriving lost : Bytes} {fs : List Frame}

theorem nil : Carries [] [] [] [] := ⟨List.forall_mem_nil _, rfl, rfl⟩

theorem send (h : Carries unread arriving [] fs) {f : Frame} (hf : f.WellFormed) :
    Carries unread (arriving ++ f.encode) [] (fs ++ [f]) := by
  have hstream : unread ++ arriving = Frame.encodeAll fs := by simpa using h.stream
  refine ⟨?_, ?_, ?_⟩
  · intro g hg
    rcases List.mem_append.mp hg with hg | hg
    · exact h.wellFormed g hg
    · rw [List.mem_singleton.mp hg]
      exact hf
  · rw [List.append_nil, ← List.append_assoc, hstream]
    simp [Frame.encodeAll]
  · cases fs with
    | nil =>
      obtain ⟨rfl, -⟩ := List.append_eq_nil_iff.mp hstream
      exact if_pos f.encode_pos
    | cons g fs =>
      have hu := h.unparsed
      rw [complete] at hu
      rw [List.cons_append, complete]
      split at hu
      · exact if_pos (by assumption)
      · cases hu

theorem lose (h : Carries unread arriving lost fs) (k : Nat) :
    Carries unread (arriving.take k) (arriving.drop k ++ lost) fs := by
  refine ⟨h.wellFormed, ?_, h.unparsed⟩
  rw [← h.stream, ← List.append_assoc, List.append_assoc unread, List.take_append_drop]

/-- The unread bytes with what arrives, up to the cut that the read makes. -/
theorem take_stream (h : Carries unread arriving lost fs) {n : Nat} (hn : n ≤ arriving.length) :
    (Frame.encodeAll fs).take (unread.length + n) = unread ++ arriving.take n := by
  have hlen : (unread ++ arriving.take n).length = unread.length + n := by
    rw [List.length_append, List.length_take_of_le hn]
  have hsplit : unread ++ arriving ++ lost =
      (unread ++ arriving.take n) ++ (arriving.drop n ++ lost) := by
    rw [List.append_assoc, List.append_assoc, ← List.append_assoc (arriving.take n),
      List.take_append_drop]
  rw [← h.stream, hsplit, ← hlen, List.take_left]

theorem read (h : Carries unread arriving lost fs) {n : Nat} (hn : n ≤ arriving.length) :
    Carries (unfinished fs (unread.length + n)) (arriving.drop n) lost
      (left fs (unread.length + n)) := by
  refine ⟨fun f hf => h.wellFormed f (left_subset fs _ f hf), ?_, complete_left fs _⟩
  rw [List.append_assoc]
  refine unfinished_append fs ?_
  rw [h.take_stream hn, ← h.stream, List.append_assoc, List.append_assoc,
    ← List.append_assoc (arriving.take n), List.take_append_drop]

/-- When nothing is lost and nothing is on its way, nothing is left to parse. -/
theorem eq_nil (h : Carries unread [] [] fs) : fs = [] := by
  have hstream : unread = Frame.encodeAll fs := by simpa using h.stream
  cases fs with
  | nil => rfl
  | cons f fs =>
    have hu := h.unparsed
    rw [hstream, encodeAll_cons, complete, if_neg (by simp)] at hu
    cases hu

end Carries

/-! ## The frames of requests and notices -/

def requestFrame (r : Request Bytes Bytes) : Frame := (requestMessage r).frame

def noticeFrame (n : Bytes × Bytes) : Frame := .pub n.1 n.2

/-- The call that a request leads the hub to. -/
def hubCall : Request Bytes Bytes → HubCall
  | .subscribe topic => .doSubscribe topic
  | .unSubscribe topic => .doUnSubscribe topic
  | .publish topic content => .doPublish topic content

theorem hubCalls_requestFrame (rs : List (Request Bytes Bytes)) :
    (rs.map requestFrame).flatMap Frame.hubCalls = rs.map hubCall := by
  induction rs with
  | nil => rfl
  | cons r rs ih =>
    rw [List.map_cons, List.flatMap_cons, ih]
    cases r <;> rfl

theorem clientCalls_noticeFrame (ns : List (Bytes × Bytes)) :
    (ns.map noticeFrame).flatMap (Frame.clientCalls true) =
      ns.map fun n => .subscribeCallback n.1 n.2 := by
  induction ns with
  | nil => rfl
  | cons n ns ih =>
    rw [List.map_cons, List.flatMap_cons, ih]
    rfl

/-! ## What the hub keeps -/

variable {C : Type} [LinearOrder C]

/-- The content that a new audience is sent. -/
def Topic.retained (t : Topic C) : Option Bytes :=
  if t.lastPubTime.valid = true then some t.content else none

namespace HubServer

variable {h : HubServer C} {b b' : Board C Bytes Bytes} {c d : C} {topic : Bytes}

structure Shows (h : HubServer C) (b : Board C Bytes Bytes) : Prop where
  audiences : ∀ topic c, c ∈ (h.getTopic topic).audiences ↔ c ∈ b.subscribers topic
  names : ∀ topic, (h.getTopic topic).topic = topic
  retained : ∀ topic, (h.getTopic topic).retained = b.retained topic

theorem shows_init : ({} : HubServer C).Shows {} :=
  ⟨fun _ c => iff_of_false (OrderedSet.notMem_empty c) (Finset.notMem_empty c), fun _ => rfl,
    fun _ => rfl⟩

theorem Shows.setTopic (hs : h.Shows b) {t : Topic C} (hname : t.topic = topic)
    (haud : ∀ c, c ∈ t.audiences ↔ c ∈ b'.subscribers topic)
    (hret : t.retained = b'.retained topic)
    (hother : ∀ topic', topic' ≠ topic → b'.subscribers topic' = b.subscribers topic' ∧
      b'.retained topic' = b.retained topic') : (h.setTopic topic t).Shows b' := by
  refine ⟨fun topic' c => ?_, fun topic' => ?_, fun topic' => ?_⟩
  · by_cases ht : topic' = topic
    · subst ht
      rw [getTopic_setTopic_self]
      exact haud c
    · rw [getTopic_setTopic_ne ht, (hother topic' ht).1]
      exact hs.audiences topic' c
  · by_cases ht : topic' = topic
    · subst ht
      rw [getTopic_setTopic_self]
      exact hname
    · rw [getTopic_setTopic_ne ht]
      exact hs.names topic'
  · by_cases ht : topic' = topic
    · subst ht
      rw [getTopic_setTopic_self]
      exact hret
    · rw [getTopic_setTopic_ne ht, (hother topic' ht).2]
      exact hs.retained topic'

/-- What the sends put on the connection of `d`. -/
def sentTo (d : C) (sent : List (C × Bytes)) : List Bytes :=
  sent.filterMap fun p => if p.1 = d then some p.2 else none

theorem sentTo_map {l : List C} (hl : l.Nodup) (m : Bytes) :
    sentTo d (l.map fun conn => (conn, m)) = if d ∈ l then [m] else [] := by
  induction l with
  | nil => rfl
  | cons c l ih =>
    obtain ⟨hnot, hl⟩ := List.nodup_cons.mp hl
    rw [List.map_cons, sentTo, List.filterMap_cons, ← sentTo, ih hl]
    by_cases hcd : c = d
    · subst hcd
      simp [hnot]
    · simp [hcd, Ne.symm hcd]

/-- A request is carried out as the board serves it, and the sends are what the board tells. -/
theorem Shows.handle (hs : h.Shows b) (r : Request Bytes Bytes)
    (hctx : ∃ topics, h.contexts c = some topics) {now : Timestamp} (hnow : now.valid = true) :
    ∃ h' sent, h.handle c now (hubCall r) = .ok (h', sent) ∧ h'.Shows (b.serve c r) ∧
      h'.contexts = h.contexts ∧
      ∀ d, sentTo d sent = (b.tells c r d).map fun n => (noticeFrame n).encode := by
  obtain ⟨topics, hctx⟩ := hctx
  have hcast : h.anyCast c = .ok topics := by rw [anyCast, hctx]
  cases r with
  | subscribe topic =>
    refine ⟨_, _, by simp only [hubCall, HubServer.handle, doSubscribe, hcast, ok_bind]; rfl,
      hs.setTopic ?_ ?_ ?_ ?_, rfl, fun d => ?_⟩
    · exact hs.names topic
    · intro d
      simp [Topic.add, Board.serve, hs.audiences]
    · exact hs.retained topic
    · intro topic' ht
      simp [Board.serve, ht]
    · have hret := hs.retained topic
      rw [Topic.retained] at hret
      simp only [Topic.add, Board.tells, ← hret, makeMessage_encode, hs.names]
      by_cases hv : (h.getTopic topic).lastPubTime.valid = true
      · by_cases hcd : c = d
        · simp [hv, hcd, sentTo, noticeFrame]
        · simp [hv, hcd, sentTo]
      · simp [hv, sentTo]
  | unSubscribe topic =>
    refine ⟨_, _, by simp only [hubCall, HubServer.handle, doUnSubscribe, hcast, ok_bind]; rfl,
      hs.setTopic ?_ ?_ ?_ ?_, rfl, fun d => rfl⟩
    · exact hs.names topic
    · intro d
      simp [Topic.remove, Board.serve, hs.audiences]
    · exact hs.retained topic
    · intro topic' ht
      simp [Board.serve, ht]
  | publish topic content =>
    refine ⟨_, _, rfl, hs.setTopic ?_ ?_ ?_ ?_, rfl, fun d => ?_⟩
    · exact hs.names topic
    · exact hs.audiences topic
    · simp [Topic.retained, Board.serve, hnow]
    · intro topic' ht
      simp [Board.serve, ht]
    · have hmem : d ∈ (h.getTopic topic).audiences.toList ↔ d ∈ b.subscribers topic :=
        hs.audiences topic d
      simp only [makeMessage_encode, hs.names, Board.tells]
      rw [sentTo_map (OrderedSet.nodup _)]
      by_cases hd : d ∈ b.subscribers topic
      · rw [if_pos (hmem.mpr hd), if_pos hd]
        rfl
      · rw [if_neg (fun h => hd (hmem.mp h)), if_neg hd]
        rfl

end HubServer

/-! ## What the hub sends -/

namespace Network

open HubServer (sentTo)

variable {s s' : Network C} {t : Broker C Bytes Bytes} {c d : C} {sent : List (C × Bytes)}

/-- Several messages sent on one connection. -/
theorem foldl_hubSend (l : Link) (messages : List Bytes) :
    messages.foldl Link.hubSend l =
      if l.server = .kConnected then { l with toClient := l.toClient ++ messages.flatten }
      else l := by
  induction messages generalizing l with
  | nil => simp
  | cons m messages ih =>
    rw [List.foldl_cons, ih]
    by_cases hup : l.server = .kConnected
    · simp [Link.hubSend, hup]
    · simp [Link.hubSend, hup]

theorem sendAll_apply (links : C → Link) (sent : List (C × Bytes)) (d : C) :
    sendAll links sent d =
      if (links d).server = .kConnected then
        { links d with toClient := (links d).toClient ++ (sentTo d sent).flatten }
      else links d := by
  rw [← foldl_hubSend]
  induction sent generalizing links with
  | nil => rfl
  | cons p sent ih =>
    have htail := ih (Function.update links p.1 ((links p.1).hubSend p.2))
    rw [sendAll, List.foldl_cons, ← sendAll, htail]
    by_cases hd : p.1 = d
    · subst hd
      simp [sentTo]
    · simp [sentTo, hd, Ne.symm hd]

/-! ## The relation -/

/-- Everything but the requests on their way. -/
structure Agrees (s : Network C) (t : Broker C Bytes Bytes) : Prop where
  shows : s.hub.Shows t.board
  plain : ∀ topic content, t.board.retained topic = some content → Frame.Plain content
  contexts : ∀ c, (s.links c).server = .kConnected → ∃ topics, s.hub.contexts c = some topics
  trace : s.trace = t.trace
  notices : ∀ c, ∃ lost, Carries (s.links c).clientUnread (s.links c).toClient lost
    ((t.notices c).map noticeFrame) ∧ ((s.links c).server ≠ .kDisconnected → lost = [])
  cut : ∀ c, t.cut c = true ↔ (s.links c).server = .kDisconnected
  noShutdown : ∀ c, (s.links c).server ≠ .kDisconnecting
  waiting : ∀ c, (s.links c).server = .kConnecting → ∀ topic, c ∉ t.board.subscribers topic

structure Refines (s : Network C) (t : Broker C Bytes Bytes) : Prop extends Agrees s t where
  requests : ∀ c, ∃ lost, Carries (s.links c).hubUnread (s.links c).toHub lost
    ((t.requests c).map requestFrame) ∧ ((s.links c).client ≠ .kDisconnected → lost = [])

theorem refines_init : Refines (init : Network C) {} where
  shows := HubServer.shows_init
  plain _ _ h := by cases h
  contexts _ h := by cases h
  trace := rfl
  notices _ := ⟨[], Carries.nil, fun _ => rfl⟩
  cut _ := by simp [init]
  noShutdown _ h := by cases h
  waiting c _ _ := Finset.notMem_empty c
  requests _ := ⟨[], Carries.nil, fun _ => rfl⟩

/-- The fields that a send leaves alone. -/
structure SameInput (l l' : Link) : Prop where
  client : l'.client = l.client
  server : l'.server = l.server
  toHub : l'.toHub = l.toHub
  hubUnread : l'.hubUnread = l.hubUnread

theorem sendAll_sameInput (links : C → Link) (sent : List (C × Bytes)) (d : C) :
    SameInput (links d) (sendAll links sent d) := by
  rw [sendAll_apply]
  split <;> exact ⟨rfl, rfl, rfl, rfl⟩

theorem sendAll_clientUnread (links : C → Link) (sent : List (C × Bytes)) (d : C) :
    (sendAll links sent d).clientUnread = (links d).clientUnread := by
  rw [sendAll_apply]
  split <;> rfl

/-- Only what is retained or published is told. -/
theorem wellFormed_tells {b : Board C Bytes Bytes} {r : Request Bytes Bytes}
    (hplain : ∀ topic content, b.retained topic = some content → Frame.Plain content)
    (hr : (requestFrame r).WellFormed) {n : Bytes × Bytes} (hn : n ∈ b.tells c r d) :
    (noticeFrame n).WellFormed := by
  cases r with
  | subscribe topic =>
    rw [Board.tells] at hn
    split at hn
    · obtain ⟨content, hret, rfl⟩ := Option.map_eq_some_iff.mp (Option.mem_toList.mp hn)
      exact ⟨hr, hplain topic content hret⟩
    · cases hn
  | unSubscribe _ => cases hn
  | publish topic content =>
    rw [Board.tells] at hn
    split at hn
    · rw [List.mem_singleton.mp hn]
      exact hr
    · cases hn

/-- Only connected clients are told something. -/
theorem Agrees.connected_of_tells (h : Agrees s t) (hup : (s.links c).server = .kConnected)
    {r : Request Bytes Bytes} (hcut : t.cut d = false) (htold : t.board.tells c r d ≠ []) :
    (s.links d).server = .kConnected := by
  have hopen : (s.links d).server ≠ .kDisconnected := by
    intro hdown
    rw [(h.cut d).mpr hdown] at hcut
    cases hcut
  have hsub : d = c ∨ ∃ topic, d ∈ t.board.subscribers topic := by
    cases r with
    | subscribe topic =>
      rw [Board.tells] at htold
      split at htold
      · exact .inl (by simp [*])
      · exact absurd rfl htold
    | unSubscribe _ => exact absurd rfl htold
    | publish topic content =>
      rw [Board.tells] at htold
      split at htold
      · exact .inr ⟨topic, by assumption⟩
      · exact absurd rfl htold
  rcases hsub with rfl | ⟨topic, hmem⟩
  · exact hup
  · cases hst : (s.links d).server with
    | kConnected => rfl
    | kConnecting => exact absurd hmem (h.waiting d hst topic)
    | kDisconnecting => exact absurd hst (h.noShutdown d)
    | kDisconnected => exact absurd hst hopen

/-- The hub handles one request as the broker serves it. -/
theorem Agrees.serve (h : Agrees s t) (hup : (s.links c).server = .kConnected)
    {r : Request Bytes Bytes} (rs : List (Request Bytes Bytes)) (hr : (requestFrame r).WellFormed)
    {now : Timestamp} (hnow : now.valid = true) :
    ∃ hub sent, s.hub.handle c now (hubCall r) = .ok (hub, sent) ∧
      Agrees { s with hub := hub, links := sendAll s.links sent } (t.served c r rs) := by
  obtain ⟨hub, sent, hok, hshows, hctx, hsent⟩ := h.shows.handle r (h.contexts c hup) hnow
  have hboard : (t.served c r rs).board = t.board.serve c r := Broker.board_served
  refine ⟨hub, sent, hok, ?_⟩
  have hserver : ∀ d, (sendAll s.links sent d).server = (s.links d).server :=
    fun d => (sendAll_sameInput s.links sent d).server
  constructor
  · rw [hboard]
    exact hshows
  · intro topic content hret
    rw [hboard] at hret
    cases r with
    | subscribe _ | unSubscribe _ => exact h.plain topic content hret
    | publish topic' content' =>
      by_cases ht : topic = topic'
      · subst ht
        simp only [Board.serve, Function.update_self, Option.some_inj] at hret
        exact hret ▸ hr.2
      · simp only [Board.serve, Function.update_of_ne ht] at hret
        exact h.plain topic content hret
  · intro d hd
    rw [hctx]
    exact h.contexts d ((hserver d).symm.trans hd)
  · exact h.trace
  · intro d
    obtain ⟨lost, hcarries, hlost⟩ := h.notices d
    by_cases hd : (s.links d).server = .kConnected
    · have hcut : t.cut d = false := by
        rw [← Bool.not_eq_true, h.cut d, hd]
        decide
      have hnone := hlost (by rw [hd]; decide)
      subst hnone
      refine ⟨[], ?_, fun _ => rfl⟩
      simp only [sendAll_clientUnread, Broker.served, hcut, Bool.false_eq_true, ↓reduceIte]
      rw [sendAll_apply, if_pos hd, hsent d, List.map_append]
      have hall : ∀ n ∈ t.board.tells c r d, (noticeFrame n).WellFormed :=
        fun n hn => wellFormed_tells h.plain hr hn
      rcases Board.tells_cases (b := t.board) (c := c) (r := r) (d := d) with hn | ⟨n, hn⟩
      · simpa [hn] using hcarries
      · rw [hn] at hall ⊢
        simpa using hcarries.send (hall n (List.mem_singleton_self n))
    · have htold : (if t.cut d = true then [] else t.board.tells c r d) = [] := by
        split
        · rfl
        · by_contra hne
          exact hd (h.connected_of_tells hup (Bool.eq_false_of_not_eq_true (by assumption)) hne)
      refine ⟨lost, ?_, fun hne => hlost (by rwa [hserver] at hne)⟩
      simp only [Broker.served, htold, List.append_nil]
      rw [sendAll_apply, if_neg hd]
      exact hcarries
  · intro d
    exact (h.cut d).trans (by rw [hserver])
  · intro d
    rw [hserver]
    exact h.noShutdown d
  · intro d hd topic hmem
    rw [hserver] at hd
    rw [hboard] at hmem
    have hne : d ≠ c := by
      rintro rfl
      rw [hup] at hd
      cases hd
    refine h.waiting d hd topic ((Board.mem_serve_of_none ?_).mp hmem)
    cases r <;> simp [Board.interest, Ne.symm hne]

/-- The handlers of the hub only send. -/
theorem handleAll_frame {now : Nat → Timestamp} {calls : List HubCall}
    (h : handleAll c now calls s = .ok s') :
    s'.trace = s.trace ∧ ∀ d, SameInput (s.links d) (s'.links d) := by
  induction calls generalizing s now with
  | nil =>
    cases h
    exact ⟨rfl, fun _ => ⟨rfl, rfl, rfl, rfl⟩⟩
  | cons call calls ih =>
    obtain ⟨⟨hub, sent⟩, -, h⟩ := bind_eq_ok.mp h
    obtain ⟨htrace, hinput⟩ := ih h
    refine ⟨htrace, fun d => ?_⟩
    have h₁ := sendAll_sameInput s.links sent d
    have h₂ := hinput d
    exact ⟨h₂.client.trans h₁.client, h₂.server.trans h₁.server, h₂.toHub.trans h₁.toHub,
      h₂.hubUnread.trans h₁.hubUnread⟩

/-- A read of the hub serves as many requests as it has parsed calls. -/
theorem Agrees.serveAll (h : Agrees s t) (hup : (s.links c).server = .kConnected)
    {rs rest : List (Request Bytes Bytes)} (hreq : t.requests c = rs ++ rest)
    (hrs : ∀ r ∈ rs, (requestFrame r).WellFormed) {now : Nat → Timestamp}
    (hnow : ∀ k, (now k).valid = true) :
    ∃ s' t', handleAll c now (rs.map hubCall) s = .ok s' ∧
      run Broker.step t (List.replicate rs.length (.serve c)) = .ok t' ∧ Agrees s' t' ∧
      t'.requests = Function.update t.requests c rest := by
  induction rs generalizing s t now with
  | nil =>
    have hsame : Function.update t.requests c rest = t.requests := by
      rw [← hreq.trans (List.nil_append rest), Function.update_eq_self]
    exact ⟨s, t, rfl, rfl, h, hsame.symm⟩
  | cons r rs ih =>
    obtain ⟨hub, sent, hok, hagrees⟩ :=
      h.serve hup (rs ++ rest) (hrs r List.mem_cons_self) (hnow 0)
    have hsame := sendAll_sameInput s.links sent
    have hreq' : (t.served c r (rs ++ rest)).requests c = rs ++ rest := Function.update_self ..
    obtain ⟨s', t', hs', ht', hagrees', hrequests⟩ :=
      ih hagrees ((hsame c).server.trans hup) hreq'
        (fun r hr => hrs r (List.mem_cons_of_mem _ hr)) (fun k => hnow (k + 1))
    refine ⟨s', t', ?_, ?_, hagrees', ?_⟩
    · rw [List.map_cons, handleAll, hok]
      exact hs'
    · rw [List.length_cons, Broker.run_serve_cons hreq]
      exact ht'
    · rw [hrequests]
      exact Function.update_idem ..

/-! ## One step -/

theorem links_setLink_self (l : Link) : (s.setLink c l).links c = l := Function.update_self ..

theorem links_setLink_ne (hne : d ≠ c) (l : Link) : (s.setLink c l).links d = s.links d :=
  Function.update_of_ne hne ..

theorem server_setLink {l : Link} (h : l.server = (s.links c).server) (d : C) :
    ((s.setLink c l).links d).server = (s.links d).server := by
  by_cases hd : d = c
  · subst hd
    rw [links_setLink_self, h]
  · rw [links_setLink_ne hd]

/-- A new link of one connection, which agrees with what waits for its client. -/
theorem Agrees.setLink (h : Agrees s t) {l : Link}
    (hserver : l.server = (s.links c).server)
    (hunread : l.clientUnread = (s.links c).clientUnread)
    (htoClient : l.toClient = (s.links c).toClient) : Agrees (s.setLink c l) t := by
  have hserver := server_setLink hserver
  refine ⟨h.shows, h.plain, fun d hd => ?_, h.trace, fun d => ?_, fun d => ?_, fun d => ?_,
    fun d hd => ?_⟩
  · exact h.contexts d ((hserver d).symm.trans hd)
  · rw [hserver d]
    by_cases hd : d = c
    · subst hd
      rw [links_setLink_self, hunread, htoClient]
      exact h.notices d
    · rw [links_setLink_ne hd]
      exact h.notices d
  · rw [hserver d]
    exact h.cut d
  · rw [hserver d]
    exact h.noShutdown d
  · exact h.waiting d ((hserver d).symm.trans hd)

theorem Refines.setLink (h : Refines s t) {l : Link}
    (hserver : l.server = (s.links c).server)
    (hunread : l.clientUnread = (s.links c).clientUnread)
    (htoClient : l.toClient = (s.links c).toClient)
    (hrequests : ∃ lost, Carries l.hubUnread l.toHub lost ((t.requests c).map requestFrame) ∧
      (l.client ≠ .kDisconnected → lost = [])) : Refines (s.setLink c l) t := by
  refine ⟨h.toAgrees.setLink hserver hunread htoClient, fun d => ?_⟩
  by_cases hd : d = c
  · subst hd
    rw [links_setLink_self]
    exact hrequests
  · rw [links_setLink_ne hd]
    exact h.requests d

theorem Refines.clientEstablished (h : Refines s t)
    (hstep : step s (.clientEstablished c) = .ok s') : Refines s' t := by
  obtain ⟨_, hen, hstep⟩ := bind_eq_ok.mp hstep
  cases hstep
  have hstate : (s.links c).client = .kConnecting := ensure_eq_ok.mp hen
  obtain ⟨lost, hcarries, hlost⟩ := h.requests c
  have hnone := hlost (by rw [hstate]; decide)
  exact h.setLink rfl rfl rfl ⟨lost, hcarries, fun _ => hnone⟩

theorem Refines.hubEstablished (h : Refines s t)
    (hstep : step s (.hubEstablished c) = .ok s') : Refines s' t := by
  obtain ⟨_, hen, hstep⟩ := bind_eq_ok.mp hstep
  cases hstep
  have hstate : (s.links c).server = .kConnecting := ensure_eq_ok.mp hen
  set l : Link := { s.links c with server := .kConnected } with hl
  have hlink : ∀ d, d = c ∧ (s.setLink c l).links d = l ∨
      d ≠ c ∧ (s.setLink c l).links d = s.links d := by
    intro d
    by_cases hd : d = c
    · subst hd
      exact .inl ⟨rfl, links_setLink_self l⟩
    · exact .inr ⟨hd, links_setLink_ne hd l⟩
  refine ⟨⟨⟨h.shows.audiences, h.shows.names, h.shows.retained⟩, h.plain, fun d hd => ?_,
    h.trace, fun d => ?_, fun d => ?_, fun d => ?_, fun d hd => ?_⟩, fun d => ?_⟩
  all_goals
    rcases hlink d with ⟨rfl, hlink⟩ | ⟨hne, hlink⟩
  · exact ⟨∅, by simp [HubServer.setContext]⟩
  · rw [hlink] at hd
    obtain ⟨topics, hctx⟩ := h.contexts d hd
    exact ⟨topics, by simp [HubServer.setContext, hne, hctx]⟩
  · obtain ⟨lost, hcarries, hlost⟩ := h.notices d
    have hnone := hlost (by rw [hstate]; decide)
    rw [hlink]
    exact ⟨lost, hcarries, fun _ => hnone⟩
  · rw [hlink]
    exact h.notices d
  · have hcut := h.cut d
    rw [hlink]
    simpa [hstate, hl] using hcut
  · rw [hlink]
    exact h.cut d
  · rw [hlink]
    exact fun hdown => by cases hdown
  · rw [hlink]
    exact h.noShutdown d
  · rw [hlink] at hd
    cases hd
  · rw [hlink] at hd
    exact h.waiting d hd
  · rw [hlink]
    exact h.requests d
  · rw [hlink]
    exact h.requests d

/-- A call of a client that is connected is a request. -/
theorem Refines.call (h : Refines s t) {r : Request Bytes Bytes}
    (hr : (requestMessage r).Separable) (hstep : step s (.call c r) = .ok s') :
    ∃ bs t', run Broker.step t bs = .ok t' ∧ Refines s' t' := by
  by_cases hup : (s.links c).client = .kConnected
  · have hsend : (s.links c).clientSend (requestMessage r).encode =
        ({ s.links c with toHub := (s.links c).toHub ++ (requestMessage r).encode }, true) :=
      if_pos hup
    simp only [step, hsend] at hstep
    cases hstep
    refine ⟨[.request c r], _, run_singleton, ?_⟩
    obtain ⟨lost, hcarries, hlost⟩ := h.requests c
    have hnone := hlost (by rw [hup]; decide)
    subst hnone
    have hagrees := h.toAgrees.setLink (c := c)
      (l := { s.links c with toHub := (s.links c).toHub ++ (requestMessage r).encode }) rfl rfl rfl
    refine ⟨⟨hagrees.shows, hagrees.plain, hagrees.contexts, ?_, hagrees.notices, hagrees.cut,
      hagrees.noShutdown, hagrees.waiting⟩, fun d => ?_⟩
    · exact congrArg (· ++ [.request c r]) h.trace
    · by_cases hd : d = c
      · subst hd
        refine ⟨[], ?_, fun _ => rfl⟩
        have hsent := hcarries.send (Message.wellFormed_frame hr)
        rw [Message.encode_frame] at hsent
        simpa [Network.setLink, requestFrame] using hsent
      · obtain ⟨lost, hd'⟩ := h.requests d
        exact ⟨lost, by simpa [Network.setLink, hd] using hd'⟩
  · have hsend : (s.links c).clientSend (requestMessage r).encode = (s.links c, false) :=
      if_neg hup
    simp only [step, hsend] at hstep
    cases hstep
    have hagrees := h.setLink (c := c) (l := s.links c) rfl rfl rfl (h.requests c)
    refine ⟨[], t, rfl, ⟨⟨hagrees.shows, hagrees.plain, hagrees.contexts, ?_, hagrees.notices,
      hagrees.cut, hagrees.noShutdown, hagrees.waiting⟩, hagrees.requests⟩⟩
    simpa using h.trace

/-- The requests that are complete in what a read of the hub leads to. -/
theorem Refines.hubRead_cases (h : Refines s t) {n : Nat} (hn : n ≤ (s.links c).toHub.length) :
    let l := s.links c
    let m := l.hubUnread.length + n
    ∃ rs rest, t.requests c = rs ++ rest ∧ (∀ r ∈ rs, (requestFrame r).WellFormed) ∧
      (∃ lost, Carries (unfinished ((t.requests c).map requestFrame) m) (l.toHub.drop n) lost
        (rest.map requestFrame) ∧ (l.client ≠ .kDisconnected → lost = [])) ∧
      HubServer.onMessage (l.hubUnread ++ l.toHub.take n) =
        if cutInside ((t.requests c).map requestFrame) m = true then .error .nullPointer
        else .ok (rs.map hubCall, unfinished ((t.requests c).map requestFrame) m) := by
  intro l m
  obtain ⟨lost, hcarries, hlost⟩ := h.requests c
  have hsplit := complete_append_left ((t.requests c).map requestFrame) m
  obtain ⟨rs, rest, hreq, hrs, hrest⟩ := List.map_eq_append_iff.mp hsplit.symm
  refine ⟨rs, rest, hreq, fun r hr => ?_, ⟨lost, ?_, hlost⟩, ?_⟩
  · refine hcarries.wellFormed _ (List.mem_map_of_mem ?_)
    rw [hreq]
    exact List.mem_append_left _ hr
  · rw [hrest]
    exact hcarries.read hn
  · rw [← hcarries.take_stream hn, HubServer.onMessage,
      onMessage_take Frame.hub_dispatch hcarries.wellFormed, ← hrs, hubCalls_requestFrame]

/-- A read of the hub serves the requests that it completes. -/
theorem Refines.hubRead (h : Refines s t) {n : Nat} {now : Nat → Timestamp}
    (hnow : ∀ k, (now k).valid = true) (hstep : step s (.hubRead c n now) = .ok s') :
    ∃ bs t', run Broker.step t bs = .ok t' ∧ Refines s' t' := by
  obtain ⟨_, hen, hstep⟩ := bind_eq_ok.mp hstep
  obtain ⟨hup, -, hn⟩ := ensure_eq_ok.mp hen
  obtain ⟨⟨calls, rest'⟩, hparse, hstep⟩ := bind_eq_ok.mp hstep
  obtain ⟨rs, rest, hreq, hrs, hleft, hmessage⟩ := h.hubRead_cases hn
  rw [hmessage] at hparse
  split at hparse
  · cases hparse
  · cases hparse
    set l : Link := { s.links c with
      toHub := (s.links c).toHub.drop n,
      hubUnread := unfinished ((t.requests c).map requestFrame)
        ((s.links c).hubUnread.length + n) } with hl
    have hagrees := h.toAgrees.setLink (c := c) (l := l) rfl rfl rfl
    obtain ⟨s₁, t₁, hs₁, ht₁, hagrees₁, hrequests⟩ :=
      hagrees.serveAll ((congrArg Link.server (links_setLink_self l)).trans hup) hreq hrs hnow
    cases hstep.symm.trans hs₁
    refine ⟨_, t₁, ht₁, hagrees₁, fun d => ?_⟩
    have hd := (handleAll_frame hs₁).2 d
    rw [hd.hubUnread, hd.toHub, hd.client, hrequests]
    by_cases hdc : d = c
    · subst hdc
      rw [links_setLink_self, Function.update_self]
      exact hleft
    · rw [links_setLink_ne hdc, Function.update_of_ne hdc]
      exact h.requests d

/-- The notices that are complete in what a read of a client leads to. -/
theorem Refines.clientRead_cases (h : Refines s t) {n : Nat}
    (hn : n ≤ (s.links c).toClient.length) :
    let l := s.links c
    let m := l.clientUnread.length + n
    ∃ ns rest, t.notices c = ns ++ rest ∧
      (∃ lost, Carries (unfinished ((t.notices c).map noticeFrame) m) (l.toClient.drop n) lost
        (rest.map noticeFrame) ∧ (l.server ≠ .kDisconnected → lost = [])) ∧
      PubSubClient.onMessage true (l.clientUnread ++ l.toClient.take n) =
        if cutInside ((t.notices c).map noticeFrame) m = true then .error .nullPointer
        else .ok (ns.map fun n => .subscribeCallback n.1 n.2,
          unfinished ((t.notices c).map noticeFrame) m) := by
  intro l m
  obtain ⟨lost, hcarries, hlost⟩ := h.notices c
  have hsplit := complete_append_left ((t.notices c).map noticeFrame) m
  obtain ⟨ns, rest, hnot, hns, hrest⟩ := List.map_eq_append_iff.mp hsplit.symm
  refine ⟨ns, rest, hnot, ⟨lost, ?_, hlost⟩, ?_⟩
  · rw [hrest]
    exact hcarries.read hn
  · rw [← hcarries.take_stream hn, PubSubClient.onMessage,
      onMessage_take (Frame.client_dispatch true) hcarries.wellFormed, ← hns,
      clientCalls_noticeFrame]

/-- A read of a client delivers the notices that it completes. -/
theorem Refines.clientRead (h : Refines s t) {n : Nat}
    (hstep : step s (.clientRead c n) = .ok s') :
    ∃ bs t', run Broker.step t bs = .ok t' ∧ Refines s' t' := by
  obtain ⟨_, hen, hstep⟩ := bind_eq_ok.mp hstep
  obtain ⟨-, -, hn⟩ := ensure_eq_ok.mp hen
  obtain ⟨⟨calls, rest'⟩, hparse, hstep⟩ := bind_eq_ok.mp hstep
  obtain ⟨ns, rest, hnot, hleft, hmessage⟩ := h.clientRead_cases hn
  rw [hmessage] at hparse
  split at hparse
  · cases hparse
  · cases hparse
    cases hstep
    have hcalls : (ns.map fun n => ClientCall.subscribeCallback n.1 n.2).filterMap
        (callbackOf c) = ns.map (.notice c) := by
      have hsome : callbackOf c ∘ (fun n : Bytes × Bytes => .subscribeCallback n.1 n.2) =
          some ∘ Observation.notice c := rfl
      rw [List.filterMap_map, hsome, List.filterMap_eq_map]
    have hquiet : ClientCall.shutdown ∉ ns.map fun n => ClientCall.subscribeCallback n.1 n.2 := by
      simp
    refine ⟨_, _, Broker.run_deliver hnot, ?_⟩
    simp only [hcalls, if_neg hquiet]
    set l : Link := { s.links c with
      client := (s.links c).client,
      toClient := (s.links c).toClient.drop n,
      clientUnread := unfinished ((t.notices c).map noticeFrame)
        ((s.links c).clientUnread.length + n) } with hl
    have hserver := server_setLink (s := s) (c := c) (l := l) rfl
    refine ⟨⟨h.shows, h.plain, fun d hd => ?_, congrArg (· ++ ns.map (.notice c)) h.trace,
      fun d => ?_, fun d => ?_, fun d => ?_, fun d hd => ?_⟩, fun d => ?_⟩
    · exact h.contexts d ((hserver d).symm.trans hd)
    · by_cases hdc : d = c
      · subst hdc
        simpa [Network.setLink] using hleft
      · simpa [Network.setLink, hdc] using h.notices d
    · exact (h.cut d).trans (by rw [← hserver d])
    · exact fun hdown => h.noShutdown d ((hserver d).symm.trans hdown)
    · exact h.waiting d ((hserver d).symm.trans hd)
    · by_cases hdc : d = c
      · subst hdc
        simpa [Network.setLink] using h.requests d
      · simpa [Network.setLink, hdc] using h.requests d

/-- A client that shuts down is not disconnected by that. -/
theorem shutdown_ne_kDisconnected {state : StateE} (h : shutdown state ≠ .kDisconnected) :
    state ≠ .kDisconnected := by
  rintro rfl
  exact h rfl

theorem Refines.disconnect (h : Refines s t) (hstep : step s (.disconnect c) = .ok s') :
    Refines s' t := by
  cases hstep
  obtain ⟨lost, hcarries, hlost⟩ := h.requests c
  exact h.setLink rfl rfl rfl
    ⟨lost, hcarries, fun hne => hlost (shutdown_ne_kDisconnected hne)⟩

/-- A client whose connection is closed at the hub is cut off. -/
theorem Refines.hubClosed (h : Refines s t) {written : Nat}
    (hstep : step s (.hubClosed c written) = .ok s') :
    ∃ bs t', run Broker.step t bs = .ok t' ∧ Refines s' t' := by
  obtain ⟨_, -, hstep⟩ := bind_eq_ok.mp hstep
  cases hstep
  refine ⟨[.cut c], _, run_singleton, ⟨⟨h.shows, h.plain, fun d hd => ?_, h.trace, fun d => ?_,
    fun d => ?_, fun d => ?_, fun d hd => ?_⟩, fun d => ?_⟩⟩
  all_goals
    by_cases hdc : d = c
  · subst hdc
    simp [Network.setLink] at hd
  · exact h.contexts d (by simpa [Network.setLink, hdc] using hd)
  · subst hdc
    obtain ⟨lost, hcarries, -⟩ := h.notices d
    exact ⟨_, by simpa [Network.setLink] using hcarries.lose written,
      fun hne => absurd (by simp [Network.setLink]) hne⟩
  · simpa [Network.setLink, hdc] using h.notices d
  · subst hdc
    simp [Network.setLink]
  · simpa [Network.setLink, hdc] using h.cut d
  · subst hdc
    simp [Network.setLink]
  · simpa [Network.setLink, hdc] using h.noShutdown d
  · subst hdc
    simp [Network.setLink] at hd
  · exact h.waiting d (by simpa [Network.setLink, hdc] using hd)
  · subst hdc
    simpa [Network.setLink] using h.requests d
  · simpa [Network.setLink, hdc] using h.requests d

theorem Refines.clientClosed (h : Refines s t) {written : Nat}
    (hstep : step s (.clientClosed c written) = .ok s') : Refines s' t := by
  obtain ⟨_, -, hstep⟩ := bind_eq_ok.mp hstep
  cases hstep
  obtain ⟨lost, hcarries, -⟩ := h.requests c
  exact h.setLink rfl rfl rfl ⟨_, hcarries.lose written, fun hne => absurd rfl hne⟩

/-- Each step of the network is some steps of the broker. -/
theorem simulates : Simulates (step (C := C)) Broker.step Action.Proper Refines := by
  intro s t a s' h hC hstep
  have hsilent {s' : Network C} (h : Refines s' t) :
      ∃ bs t', run Broker.step t bs = .ok t' ∧ Refines s' t' := ⟨[], t, rfl, h⟩
  cases a with
  | clientEstablished c => exact hsilent (h.clientEstablished hstep)
  | hubEstablished c => exact hsilent (h.hubEstablished hstep)
  | call c r => exact h.call hC hstep
  | hubRead c n now => exact h.hubRead hC hstep
  | clientRead c n => exact h.clientRead hstep
  | disconnect c => exact hsilent (h.disconnect hstep)
  | hubClosed c written => exact h.hubClosed hstep
  | clientClosed c written => exact hsilent (h.clientClosed hstep)

end Network

end Summer.Hub
