import Summer.Hub.NetworkRefinement

/-!
# What the network delivers

The callbacks of the clients are explained by one order of all their calls. A read fails on one
kind of cut alone, which no read of everything that has arrived makes, so what is on its way can
always be delivered, and then all subscribers of a topic were told the same last.
-/
namespace Summer.Hub

open Summer.Lib
open Summer.Net (Timestamp StateE)

variable {C : Type} [LinearOrder C]

/-! ## Where a read fails -/

/-- Whole frames, and then a `pub` frame that has its first terminator and not its second. -/
def EndsInside (m : Bytes) : Prop :=
  ∃ fs topic rest, (∀ f ∈ fs, f.WellFormed) ∧ Frame.Plain topic ∧ Frame.Plain rest ∧
    m = Frame.encodeAll fs ++ (Frame.pub topic rest).line ++ rest

theorem cutInside_append (fs gs : List Frame) (k : Nat) :
    cutInside (fs ++ gs) ((Frame.encodeAll fs).length + k) = cutInside gs k := by
  induction fs with
  | nil => simp [Frame.encodeAll]
  | cons f fs ih =>
    rw [List.cons_append, encodeAll_cons, List.length_append, cutInside, if_neg (by omega)]
    rw [show f.encode.length + (Frame.encodeAll fs).length + k - f.encode.length =
      (Frame.encodeAll fs).length + k by omega, ih]

/-- The callback fails on such bytes. -/
theorem EndsInside.onMessage {m : Bytes} (h : EndsInside m) :
    HubServer.onMessage m = .error .nullPointer := by
  obtain ⟨fs, topic, rest, hfs, htopic, hrest, rfl⟩ := h
  have hwf : ∀ f ∈ fs ++ [Frame.pub topic rest], f.WellFormed := by
    intro f hf
    rcases List.mem_append.mp hf with hf | hf
    · exact hfs f hf
    · rw [List.mem_singleton.mp hf]
      exact ⟨htopic, hrest⟩
  set p := Frame.encodeAll fs ++ (Frame.pub topic rest).line ++ rest with hp
  have hall : Frame.encodeAll (fs ++ [Frame.pub topic rest]) = p ++ Frame.crlf := by
    simp [hp, Frame.encodeAll, Frame.encode, Frame.body]
  have hcut : cutInside (fs ++ [Frame.pub topic rest]) p.length = true := by
    have hlen : p.length = (Frame.encodeAll fs).length +
        ((Frame.pub topic rest).line.length + rest.length) := by
      rw [hp, List.length_append, List.length_append, Nat.add_assoc]
    have hframe : (Frame.pub topic rest).encode.length =
        (Frame.pub topic rest).line.length + rest.length + 2 := by
      simp [Frame.encode, Frame.body, Frame.crlf]
      omega
    rw [hlen, cutInside_append, cutInside, if_pos (by omega)]
    exact decide_eq_true (by omega)
  have hloop : HubServer.onMessage
      ((Frame.encodeAll (fs ++ [Frame.pub topic rest])).take p.length) =
      _ := onMessage_take Frame.hub_dispatch hwf p.length
  rw [hall, List.take_left, if_pos hcut] at hloop
  exact hloop

/-- A position cuts a `pub` frame between its terminators when the bytes before it end there. -/
theorem cutInside_iff {fs : List Frame} (hfs : ∀ f ∈ fs, f.WellFormed) (n : Nat) :
    cutInside fs n = true ↔ EndsInside ((Frame.encodeAll fs).take n) := by
  constructor
  · intro h
    induction fs generalizing n with
    | nil => cases h
    | cons f fs ih =>
      rw [cutInside] at h
      rw [encodeAll_cons]
      by_cases hn : n < f.encode.length
      · rw [if_pos hn, decide_eq_true_eq] at h
        rw [List.take_append_of_le_length (Nat.le_of_lt hn)]
        have hlen : f.encode.length = f.line.length + f.body.length := List.length_append
        have hf := hfs f List.mem_cons_self
        cases f with
        | pub topic content =>
          refine ⟨[], topic,
            (content ++ Frame.crlf).take (n - (Frame.pub topic content).line.length),
            List.forall_mem_nil _, hf.1, ?_, ?_⟩
          · refine searchMark_none_of_lt cr_ne_lf hf.2 (List.take_prefix _ _) ?_
            have hbody : (Frame.pub topic content).body.length = content.length + 2 := by
              simp [Frame.body, Frame.crlf]
            rw [List.length_take]
            omega
          · rw [Frame.encode, List.take_append, List.take_of_length_le h]
            rfl
        | sub _ | unsub _ =>
          rw [show (Frame.body _).length = 0 from rfl] at hlen
          omega
      · rw [if_neg hn] at h
        obtain ⟨gs, topic, rest, hgs, htopic, hrest, heq⟩ :=
          ih (fun g hg => hfs g (List.mem_cons_of_mem f hg)) _ h
        refine ⟨f :: gs, topic, rest, ?_, htopic, hrest, ?_⟩
        · intro g hg
          rcases List.mem_cons.mp hg with rfl | hg
          · exact hfs g List.mem_cons_self
          · exact hgs g hg
        · rw [List.take_append, List.take_of_length_le (Nat.le_of_not_lt hn), heq, encodeAll_cons]
          simp only [List.append_assoc]
  · intro h
    have hfail := h.onMessage
    rw [HubServer.onMessage, onMessage_take Frame.hub_dispatch hfs] at hfail
    split at hfail
    · assumption
    · cases hfail

/-! ## Which steps can be taken -/

namespace Network

variable {s s' : Network C} {t : Broker C Bytes Bytes} {c d : C} {as : List (Action C)}

/-- The action is possible in this state. -/
def Enabled (s : Network C) : Action C → Prop
  | .clientEstablished c => (s.links c).client = .kConnecting
  | .hubEstablished c => (s.links c).server = .kConnecting
  | .call _ _ | .disconnect _ => True
  | .hubRead c n _ => (s.links c).server = .kConnected ∧ 0 < n ∧ n ≤ (s.links c).toHub.length
  | .clientRead c n => ((s.links c).client = .kConnected ∨ (s.links c).client = .kDisconnecting) ∧
      0 < n ∧ n ≤ (s.links c).toClient.length
  | .hubClosed c _ => (s.links c).server = .kConnected
  | .clientClosed c _ => (s.links c).client = .kConnected ∨ (s.links c).client = .kDisconnecting

/-- The read ends between the two terminators of a `pub` frame. -/
def CutsFrame (s : Network C) : Action C → Prop
  | .hubRead c n _ => EndsInside ((s.links c).hubUnread ++ (s.links c).toHub.take n)
  | .clientRead c n => EndsInside ((s.links c).clientUnread ++ (s.links c).toClient.take n)
  | _ => False

theorem refines_run (hC : ∀ a ∈ as, a.Proper) (hrun : run step init as = .ok s) :
    ∃ bs t, run Broker.step {} bs = .ok t ∧ Refines s t :=
  simulates.run refines_init hC hrun

/-- A time after the epoch. -/
def afterEpoch : Timestamp := ⟨1, by decide⟩

/-- Two clients subscribe to a topic, and the first of them publishes on it. The hub reads the
second subscription in two pieces, and the last two calls in one. -/
def conversation : List (Action Nat) :=
  [.clientEstablished 1, .hubEstablished 1, .clientEstablished 2, .call 2 (.subscribe [97]),
    .hubEstablished 2, .hubRead 2 3 fun _ => afterEpoch, .call 1 (.subscribe [97]),
    .hubRead 2 4 fun _ => afterEpoch, .call 1 (.publish [97] [98]),
    .hubRead 1 17 fun _ => afterEpoch, .clientRead 2 10, .clientRead 1 10]

theorem conversation_proper : ∀ a ∈ conversation, a.Proper := by
  have hvalid : ∀ _k : Nat, afterEpoch.valid = true := fun _ => by decide
  have hcalls : (requestMessage (.subscribe [97])).Separable ∧
      (requestMessage (.publish [97] [98])).Separable := by decide
  simpa [conversation, Action.Proper, hcalls] using hvalid 0

/-- What is seen of the conversation. -/
theorem conversation_trace : ∃ s, run step init conversation = .ok s ∧
    s.trace = [.request 2 (.subscribe [97]), .request 1 (.subscribe [97]),
      .request 1 (.publish [97] [98]), .notice 2 ([97], [98]), .notice 1 ([97], [98])] ∧
    ((s.links 1).toHub = [] ∧ (s.links 1).toClient = []) ∧
    ((s.links 2).toHub = [] ∧ (s.links 2).toClient = []) ∧
    ((s.links 1).client = .kConnected ∧ (s.links 1).server = .kConnected) ∧
    ((s.links 2).client = .kConnected ∧ (s.links 2).server = .kConnected) := by
  have hend : endsIn step (fun s => decide
      (s.trace = [.request 2 (.subscribe [97]), .request 1 (.subscribe [97]),
        .request 1 (.publish [97] [98]), .notice 2 ([97], [98]), .notice 1 ([97], [98])] ∧
      ((s.links 1).toHub = [] ∧ (s.links 1).toClient = []) ∧
      ((s.links 2).toHub = [] ∧ (s.links 2).toClient = []) ∧
      ((s.links 1).client = .kConnected ∧ (s.links 1).server = .kConnected) ∧
      ((s.links 2).client = .kConnected ∧ (s.links 2).server = .kConnected)))
      init conversation = true := by decide +kernel
  obtain ⟨s, hrun, h⟩ := endsIn_iff.mp hend
  exact ⟨s, hrun, of_decide_eq_true h⟩

theorem cutInside_hubRead (h : Refines s t) {n : Nat} (hn : n ≤ (s.links c).toHub.length) :
    cutInside ((t.requests c).map requestFrame) ((s.links c).hubUnread.length + n) = true ↔
      EndsInside ((s.links c).hubUnread ++ (s.links c).toHub.take n) := by
  obtain ⟨lost, hcarries, -⟩ := h.requests c
  rw [cutInside_iff hcarries.wellFormed, hcarries.take_stream hn]

theorem cutInside_clientRead (h : Refines s t) {n : Nat}
    (hn : n ≤ (s.links c).toClient.length) :
    cutInside ((t.notices c).map noticeFrame) ((s.links c).clientUnread.length + n) = true ↔
      EndsInside ((s.links c).clientUnread ++ (s.links c).toClient.take n) := by
  obtain ⟨lost, hcarries, -⟩ := h.notices c
  rw [cutInside_iff hcarries.wellFormed, hcarries.take_stream hn]

/-- A step that is possible is taken, unless a read cuts a frame. -/
theorem Refines.step_enabled (h : Refines s t) {a : Action C} (ha : a.Proper)
    (hen : s.Enabled a) :
    (¬ s.CutsFrame a ∧ ∃ s', step s a = .ok s') ∨
      (s.CutsFrame a ∧ step s a = .error .nullPointer) := by
  cases a with
  | clientEstablished c =>
    have hstate : (s.links c).client = .kConnecting := hen
    exact .inl ⟨id, _, by rw [step, ensure_of hstate]; rfl⟩
  | hubEstablished c =>
    have hstate : (s.links c).server = .kConnecting := hen
    exact .inl ⟨id, _, by rw [step, ensure_of hstate]; rfl⟩
  | call c r => exact .inl ⟨id, _, rfl⟩
  | disconnect c => exact .inl ⟨id, _, rfl⟩
  | hubClosed c written =>
    have hstate : (s.links c).server = .kConnected := hen
    exact .inl ⟨id, _, by rw [step, ensure_of hstate]; rfl⟩
  | clientClosed c written =>
    have hstate : (s.links c).client = .kConnected ∨ (s.links c).client = .kDisconnecting := hen
    exact .inl ⟨id, _, by rw [step, ensure_of hstate]; rfl⟩
  | hubRead c n now =>
    have hread : (s.links c).server = .kConnected ∧ 0 < n ∧ n ≤ (s.links c).toHub.length := hen
    obtain ⟨hup, -, hn⟩ := hen
    have hcut := cutInside_hubRead h hn
    obtain ⟨rs, rest, hreq, hrs, -, hmessage⟩ := h.hubRead_cases hn
    by_cases hin : s.CutsFrame (.hubRead c n now)
    · refine .inr ⟨hin, ?_⟩
      rw [if_pos (hcut.mpr hin)] at hmessage
      simp only [step, ensure_of hread, ok_bind, hmessage, error_bind]
    · refine .inl ⟨hin, ?_⟩
      rw [if_neg fun hc => hin (hcut.mp hc)] at hmessage
      set l : Link := { s.links c with
        toHub := (s.links c).toHub.drop n,
        hubUnread := unfinished ((t.requests c).map requestFrame)
          ((s.links c).hubUnread.length + n) } with hl
      have hagrees := h.toAgrees.setLink (c := c) (l := l) rfl rfl rfl
      obtain ⟨s', -, hs', -⟩ :=
        hagrees.serveAll ((congrArg Link.server (links_setLink_self l)).trans hup) hreq hrs ha
      refine ⟨s', ?_⟩
      simp only [step, ensure_of hread, ok_bind, hmessage]
      exact hs'
  | clientRead c n =>
    have hread : ((s.links c).client = .kConnected ∨ (s.links c).client = .kDisconnecting) ∧
      0 < n ∧ n ≤ (s.links c).toClient.length := hen
    obtain ⟨-, -, hn⟩ := hen
    have hcut := cutInside_clientRead h hn
    obtain ⟨ns, rest, hnot, -, hmessage⟩ := h.clientRead_cases hn
    by_cases hin : s.CutsFrame (.clientRead c n)
    · refine .inr ⟨hin, ?_⟩
      rw [if_pos (hcut.mpr hin)] at hmessage
      simp only [step, ensure_of hread, ok_bind, hmessage, error_bind]
    · refine .inl ⟨hin, ?_⟩
      rw [if_neg fun hc => hin (hcut.mp hc)] at hmessage
      exact ⟨_, by simp only [step, ensure_of hread, ok_bind, hmessage]; rfl⟩

theorem step_not_enabled {a : Action C} (hen : ¬ s.Enabled a) :
    step s a = .error .notEnabled := by
  cases a with
  | call _ _ | disconnect _ => exact absurd trivial hen
  | _ =>
    simp only [Enabled] at hen
    simp only [step, ensure_of_not hen, error_bind]

/-- Every callback repeats what some client published before it, to a client that had subscribed
to the topic before it. -/
theorem callbacks_justified (hC : ∀ a ∈ as, a.Proper) (hrun : run step init as = .ok s) :
    Justified s.trace := by
  obtain ⟨bs, t, ht, h⟩ := refines_run hC hrun
  rw [h.trace]
  exact Broker.justified_run ht

theorem callbacks_justified_sample : ∃ s, run step init conversation = .ok s ∧
    .notice 1 ([97], [98]) ∈ s.trace ∧ Justified s.trace := by
  obtain ⟨s, hrun, htrace, -⟩ := conversation_trace
  exact ⟨s, hrun, by rw [htrace]; decide, callbacks_justified conversation_proper hrun⟩

/-! ## Subscribers that nothing is on its way to -/

/-- The client's last call about the topic, among those it made while connected, was `subscribe`. -/
def LastSubscribed (trace : List (Observation C Bytes Bytes)) (c : C) (topic : Bytes) : Prop :=
  latest (Board.interest c topic) ((requestsOf c trace).map fun r => (c, r)) = some true

/-- Nothing is on its way between the client and the hub, and neither end is closed. -/
structure Drained (l : Link) : Prop where
  client : l.client ≠ .kDisconnected
  server : l.server = .kConnected
  toHub : l.toHub = []
  toClient : l.toClient = []

theorem Refines.up_to_date (hserial : t.Serial) (h : Refines s t) {topic : Bytes}
    (hdrained : Drained (s.links c)) (hsub : LastSubscribed s.trace c topic) :
    latest (Board.about topic) (noticesOf c s.trace) = (s.hub.getTopic topic).retained := by
  have hserver : (s.links c).server ≠ .kDisconnected := by
    rw [hdrained.server]
    decide
  have hcut : t.cut c = false := by
    rw [← Bool.not_eq_true, h.cut c]
    exact hserver
  have hrequests : t.requests c = [] := by
    obtain ⟨lost, hcarries, hlost⟩ := h.requests c
    rw [hlost hdrained.client, hdrained.toHub] at hcarries
    exact List.map_eq_nil_iff.mp hcarries.eq_nil
  have hnotices : t.notices c = [] := by
    obtain ⟨lost, hcarries, hlost⟩ := h.notices c
    rw [hlost hserver, hdrained.toClient] at hcarries
    exact List.map_eq_nil_iff.mp hcarries.eq_nil
  rw [h.shows.retained topic, h.trace]
  rw [LastSubscribed, h.trace] at hsub
  exact hserial.latest_notice hcut hrequests hnotices hsub

/-- Both ends can read. -/
def Open (l : Link) : Prop :=
  (l.client = .kConnected ∨ l.client = .kDisconnecting) ∧ l.server = .kConnected

def Action.IsRead : Action C → Prop
  | .hubRead _ _ _ | .clientRead _ _ => True
  | _ => False

/-- What a read of the hub leaves alone. -/
theorem hubRead_frame {n : Nat} {now : Nat → Timestamp}
    (h : step s (.hubRead c n now) = .ok s') :
    s'.trace = s.trace ∧ (∀ d, Open (s.links d) → Open (s'.links d)) ∧
      (s'.links c).toHub = (s.links c).toHub.drop n ∧
      ∀ d, d ≠ c → (s'.links d).toHub = (s.links d).toHub := by
  obtain ⟨_, -, h⟩ := bind_eq_ok.mp h
  obtain ⟨⟨calls, rest⟩, -, h⟩ := bind_eq_ok.mp h
  obtain ⟨htrace, hinput⟩ := handleAll_frame h
  refine ⟨htrace, fun d hd => ?_, ?_, fun d hd => ?_⟩
  · rw [Open, (hinput d).client, (hinput d).server]
    by_cases hdc : d = c
    · subst hdc
      rwa [links_setLink_self]
    · rwa [links_setLink_ne hdc]
  · rw [(hinput c).toHub, links_setLink_self]
  · rw [(hinput d).toHub, links_setLink_ne hd]

theorem shutdown_reads {state : StateE} (h : state = .kConnected ∨ state = .kDisconnecting) :
    shutdown state = .kConnected ∨ shutdown state = .kDisconnecting := by
  rcases h with rfl | rfl
  · exact .inr rfl
  · exact .inr rfl

omit [LinearOrder C] in
theorem requestsOf_callbacks [DecidableEq C] (trace : List (Observation C Bytes Bytes))
    (calls : List ClientCall) :
    requestsOf d (trace ++ calls.filterMap (callbackOf c)) = requestsOf d trace := by
  have hnone : (calls.filterMap (callbackOf c)).filterMap (Observation.requestOf d) = [] := by
    rw [List.filterMap_eq_nil_iff]
    intro o ho
    obtain ⟨call, -, hcall⟩ := List.mem_filterMap.mp ho
    cases call with
    | subscribeCallback topic content =>
      cases hcall
      rfl
    | shutdown => cases hcall
  rw [requestsOf, List.filterMap_append, hnone, List.append_nil, requestsOf]

/-- What a read of a client leaves alone. -/
theorem clientRead_frame {n : Nat} (h : step s (.clientRead c n) = .ok s') :
    (∀ d, requestsOf d s'.trace = requestsOf d s.trace) ∧
      (∀ d, Open (s.links d) → Open (s'.links d)) ∧
      (∀ d, (s'.links d).toHub = (s.links d).toHub) ∧
      (s'.links c).toClient = (s.links c).toClient.drop n ∧
      ∀ d, d ≠ c → (s'.links d).toClient = (s.links d).toClient := by
  obtain ⟨_, -, h⟩ := bind_eq_ok.mp h
  obtain ⟨⟨calls, rest⟩, -, h⟩ := bind_eq_ok.mp h
  cases h
  refine ⟨fun d => requestsOf_callbacks s.trace calls, fun d hd => ?_, fun d => ?_, ?_,
    fun d hd => ?_⟩
  · by_cases hdc : d = c
    · subst hdc
      simp only [Network.setLink, Function.update_self]
      refine ⟨?_, hd.2⟩
      dsimp only
      split
      · exact shutdown_reads hd.1
      · exact hd.1
    · simpa [Network.setLink, hdc] using hd
  · by_cases hdc : d = c
    · subst hdc
      simp [Network.setLink]
    · simp [Network.setLink, hdc]
  · simp [Network.setLink]
  · simp [Network.setLink, hd]

/-- The hub can read everything that is on its way to it on one connection. -/
theorem Refines.hub_drains (h : Refines s t) (hopen : Open (s.links c)) (now : Timestamp)
    (hnow : now.valid = true) :
    ∃ reads s', (∀ a ∈ reads, a.IsRead ∧ a.Proper) ∧ run step s reads = .ok s' ∧
      s'.trace = s.trace ∧ (∀ d, Open (s.links d) → Open (s'.links d)) ∧
      (s'.links c).toHub = [] ∧ ∀ d, (s.links d).toHub = [] → (s'.links d).toHub = [] := by
  by_cases hnil : (s.links c).toHub = []
  · exact ⟨[], s, List.forall_mem_nil _, rfl, rfl, fun _ => id, hnil, fun _ => id⟩
  set a : Action C := .hubRead c (s.links c).toHub.length fun _ => now with ha
  have hproper : a.Proper := fun _ => hnow
  have hnotcut : ¬ s.CutsFrame a := by
    obtain ⟨lost, hcarries, hlost⟩ := h.requests c
    have hnone := hlost (by rcases hopen.1 with hst | hst <;> rw [hst] <;> decide)
    have hstream := hcarries.stream
    rw [hnone, List.append_nil] at hstream
    rw [ha, CutsFrame, ← cutInside_hubRead h (Nat.le_refl _), ← List.length_append, hstream,
      cutInside_all]
    exact Bool.false_ne_true
  have henabled : s.Enabled a :=
    ⟨hopen.2, List.length_pos_iff.mpr hnil, Nat.le_refl _⟩
  rcases h.step_enabled hproper henabled with ⟨-, s', hstep⟩ | ⟨hcut, -⟩
  · obtain ⟨htrace, hopens, hself, hother⟩ := hubRead_frame hstep
    have hdrop : (s'.links c).toHub = [] := by
      rw [hself, List.drop_length]
    refine ⟨[a], s', ?_, by rw [run_singleton, hstep], htrace, hopens, hdrop, fun d hd => ?_⟩
    · intro b hb
      rw [List.mem_singleton.mp hb]
      exact ⟨trivial, hproper⟩
    · by_cases hdc : d = c
      · rw [hdc, hdrop]
      · rw [hother d hdc, hd]
  · exact absurd hcut hnotcut

/-- A client can read everything that is on its way to it. -/
theorem Refines.client_drains (h : Refines s t) (hopen : Open (s.links c)) :
    ∃ reads s', (∀ a ∈ reads, a.IsRead ∧ a.Proper) ∧ run step s reads = .ok s' ∧
      (∀ d, requestsOf d s'.trace = requestsOf d s.trace) ∧
      (∀ d, Open (s.links d) → Open (s'.links d)) ∧
      (∀ d, (s'.links d).toHub = (s.links d).toHub) ∧
      (s'.links c).toClient = [] ∧ ∀ d, (s.links d).toClient = [] → (s'.links d).toClient = [] := by
  by_cases hnil : (s.links c).toClient = []
  · exact ⟨[], s, List.forall_mem_nil _, rfl, fun _ => rfl, fun _ => id, fun _ => rfl, hnil,
      fun _ => id⟩
  set a : Action C := .clientRead c (s.links c).toClient.length with ha
  have hnotcut : ¬ s.CutsFrame a := by
    obtain ⟨lost, hcarries, hlost⟩ := h.notices c
    have hnone := hlost (by rw [hopen.2]; decide)
    have hstream := hcarries.stream
    rw [hnone, List.append_nil] at hstream
    rw [ha, CutsFrame, ← cutInside_clientRead h (Nat.le_refl _), ← List.length_append, hstream,
      cutInside_all]
    exact Bool.false_ne_true
  have henabled : s.Enabled a :=
    ⟨hopen.1, List.length_pos_iff.mpr hnil, Nat.le_refl _⟩
  have hproper : a.Proper := trivial
  rcases h.step_enabled hproper henabled with ⟨-, s', hstep⟩ | ⟨hcut, -⟩
  · obtain ⟨hrequests, hopens, htoHub, hself, hother⟩ := clientRead_frame hstep
    have hdrop : (s'.links c).toClient = [] := by
      rw [hself, List.drop_length]
    refine ⟨[a], s', ?_, by rw [run_singleton, hstep], hrequests, hopens, htoHub, hdrop,
      fun d hd => ?_⟩
    · intro b hb
      rw [List.mem_singleton.mp hb]
      exact ⟨trivial, trivial⟩
    · by_cases hdc : d = c
      · rw [hdc, hdrop]
      · rw [hother d hdc, hd]
  · exact absurd hcut hnotcut

/-- What can be done for one open connection after another can be done for all of a list. `P` is
what is reached for a connection, and `Q` is kept up from the first state to the last. -/
theorem drain_each {P : Network C → C → Prop} {Q : Network C → Network C → Prop}
    (hrefl : ∀ s, Q s s) (htrans : ∀ s₁ s₂ s₃, Q s₁ s₂ → Q s₂ s₃ → Q s₁ s₃)
    (hone : ∀ s t c, Refines s t → Open (s.links c) → ∃ reads s',
      (∀ a ∈ reads, a.IsRead ∧ a.Proper) ∧ run step s reads = .ok s' ∧ Q s s' ∧
        (∀ d, Open (s.links d) → Open (s'.links d)) ∧ P s' c ∧ ∀ d, P s d → P s' d)
    (h : Refines s t) (cs : List C) (hopen : ∀ c ∈ cs, Open (s.links c)) :
    ∃ reads s' t', (∀ a ∈ reads, a.IsRead ∧ a.Proper) ∧ run step s reads = .ok s' ∧
      Refines s' t' ∧ Q s s' ∧ (∀ d, Open (s.links d) → Open (s'.links d)) ∧
      (∀ c ∈ cs, P s' c) ∧ ∀ d, P s d → P s' d := by
  induction cs generalizing s t with
  | nil =>
    exact ⟨[], s, t, List.forall_mem_nil _, rfl, h, hrefl s, fun _ => id, List.forall_mem_nil _,
      fun _ => id⟩
  | cons c cs ih =>
    obtain ⟨reads₁, s₁, hreads₁, hrun₁, hQ₁, hopens₁, hc, hkeep₁⟩ :=
      hone s t c h (hopen c List.mem_cons_self)
    obtain ⟨_, t₁, -, h₁⟩ := simulates.run h (fun a ha => (hreads₁ a ha).2) hrun₁
    obtain ⟨reads₂, s₂, t₂, hreads₂, hrun₂, h₂, hQ₂, hopens₂, hcs, hkeep₂⟩ :=
      ih h₁ fun d hd => hopens₁ d (hopen d (List.mem_cons_of_mem c hd))
    refine ⟨reads₁ ++ reads₂, s₂, t₂, ?_, run_append_ok.mpr ⟨s₁, hrun₁, hrun₂⟩, h₂,
      htrans s s₁ s₂ hQ₁ hQ₂, fun d hd => hopens₂ d (hopens₁ d hd), ?_,
      fun d hd => hkeep₂ d (hkeep₁ d hd)⟩
    · intro a ha
      rcases List.mem_append.mp ha with ha | ha
      · exact hreads₁ a ha
      · exact hreads₂ a ha
    · intro d hd
      rcases List.mem_cons.mp hd with rfl | hd
      · exact hkeep₂ d hc
      · exact hcs d hd

end Network

end Summer.Hub
