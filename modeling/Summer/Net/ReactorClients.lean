import Summer.Net.ClientInvariant
import Summer.Net.ReactorOwners

/-!
# What the loops dispatch, and their clients

A channel that a loop is to handle or is handling belongs to it: that of a connection is
registered, and that of a connector is the one of its present attempt.
-/
namespace Summer.Net

open Summer.Lib

variable {L S C T : Type}

namespace ReactorLoop

/-- The channels that were reported and not handled yet. -/
def active (x : ReactorLoop S C) : List (ChannelId S C) :=
  match x.phase with
  | .handling _ _ active => active.map Prod.fst
  | _ => []

/-- The channel whose `handleEvent` is being executed. -/
def current (x : ReactorLoop S C) : Option (ChannelId S C) :=
  match x.phase with
  | .handling current _ _ => current
  | _ => none

end ReactorLoop

namespace Reactor

/-- The channel was reported, and its `handleEvent` has not returned. -/
def Dispatching (s : Reactor L S C T) (l : L) (channel : ChannelId S C) : Prop :=
  channel ∈ (s.loops l).active ∨ (s.loops l).current = some channel

/-- The channels that are dispatched belong to the loop and are registered, but for that of an
attempt that has ended in its own `handleEvent`. -/
structure Dispatches (s : Reactor L S C T) : Prop where
  nodup : ∀ l, (s.loops l).active.Nodup
  connection : ∀ l conn, s.Dispatching l (.connection conn) →
    ∃ c ∈ s.conns conn, c.loop = l ∧ c.conn.Registered

/-- What the function that the thread of the client's loop is in has found or done. -/
def WithinClient (c : TcpClient) (client : C) : ReactorAt S C → Prop
  | .handingOver client' _ => client' = client →
      c.connector.state = .kConnected ∧ c.connection = none
  | .establishing client' n => client' = client →
      c.connector.state = .kConnected ∧ c.connection = some n
  | .restarting client' => client' = client →
      c.connector.state = .kConnected ∧ c.connection = none
  | .outside | .inserting _ _ => True

variable [DecidableEq S] [DecidableEq C]

structure ClientSound (s : Reactor L S C T) (g : Layout L S C) (client : C) : Prop where
  loop : (s.clients client).loop = {}
  connector : (s.clients client).connector.Sound
  queue : (s.loops (g.clientLoop client)).queue.count (.resetChannel client) =
    (s.clients client).connector.resets.length
  elsewhere : ∀ l, l ≠ g.clientLoop client → .resetChannel client ∉ (s.loops l).queue
  connection : (s.clients client).connection ≠ none →
    (s.clients client).connector.state = .kConnected
  within : WithinClient (s.clients client) client (s.loops (g.clientLoop client)).within
  active : ∀ l fd, .connector client fd ∈ (s.loops l).active → l = g.clientLoop client ∧
    (s.clients client).connector.Trying fd ∧ (s.clients client).connector.state = .kConnecting
  current : ∀ l fd, (s.loops l).current = some (.connector client fd) → l = g.clientLoop client ∧
    ∃ ch ∈ (s.clients client).connector.channel, ch.fd = fd

variable {s s' : Reactor L S C T} {g : Layout L S C} {client : C} {l : L} {x : ReactorLoop S C}

/-! ## What is delivered -/

section

omit [DecidableEq S] [DecidableEq C]

variable [DecidableEq L] {l' : L} {fs : List (ReactorFunctor S C)}

theorem deliver_of_ne (h : l' ≠ l) : (s.deliver l fs).loops l' = s.loops l' := by
  induction fs generalizing s with
  | nil => rfl
  | cons f fs ih => exact (ih (s := s.queueInLoop l true f)).trans (setLoop_of_ne h)

/-- A loop after functors were queued in it. -/
structure Queues (x y : ReactorLoop S C) (fs : List (ReactorFunctor S C)) : Prop where
  phase : y.phase = x.phase
  within : y.within = x.within
  queue : y.queue = x.queue ++ fs

theorem queues_deliver : Queues (s.loops l) ((s.deliver l fs).loops l) fs := by
  induction fs generalizing s with
  | nil => exact ⟨rfl, rfl, (List.append_nil _).symm⟩
  | cons f fs ih =>
    have hpush : (s.queueInLoop l true f).loops l = { s.loops l with
        eventLoop := (s.loops l).eventLoop.queueInLoop true f } := setLoop_self
    have hrest := ih (s := s.queueInLoop l true f)
    refine ⟨hrest.phase.trans ?_, hrest.within.trans ?_, hrest.queue.trans ?_⟩
    · rw [hpush]
    · rw [hpush]
    · rw [hpush, queue_push (EventLoop.queueInLoop_pendingFunctors ..), List.append_assoc]
      rfl

theorem deliver_phase (l' : L) : ((s.deliver l fs).loops l').phase = (s.loops l').phase := by
  by_cases h : l' = l
  · rw [h]
    exact queues_deliver.phase
  · rw [deliver_of_ne h]

theorem deliver_within (l' : L) : ((s.deliver l fs).loops l').within = (s.loops l').within := by
  by_cases h : l' = l
  · rw [h]
    exact queues_deliver.within
  · rw [deliver_of_ne h]

theorem deliver_active (l' : L) : ((s.deliver l fs).loops l').active = (s.loops l').active := by
  rw [ReactorLoop.active, deliver_phase]
  rfl

theorem deliver_current (l' : L) :
    ((s.deliver l fs).loops l').current = (s.loops l').current := by
  rw [ReactorLoop.current, deliver_phase]
  rfl

theorem deliver_clients : (s.deliver l fs).clients = s.clients := by
  induction fs generalizing s with
  | nil => rfl
  | cons f fs ih => exact ih (s := s.queueInLoop l true f)

theorem deliver_servers : (s.deliver l fs).servers = s.servers := by
  induction fs generalizing s with
  | nil => rfl
  | cons f fs ih => exact ih (s := s.queueInLoop l true f)

theorem deliver_conns : (s.deliver l fs).conns = s.conns := by
  induction fs generalizing s with
  | nil => rfl
  | cons f fs ih => exact ih (s := s.queueInLoop l true f)

end

/-! ## Steps of someone else -/

omit [DecidableEq S] [DecidableEq C]

/-- The loop `x` is replaced by `y`, which dispatches nothing new. -/
structure Narrows (x y : ReactorLoop S C) : Prop where
  active : y.active.Sublist x.active
  current : ∀ channel, y.current = some channel → x.current = some channel

theorem Narrows.of_phase {y : ReactorLoop S C} (h : y.phase = x.phase) : Narrows x y := by
  rcases x with ⟨e, p, w⟩
  rcases y with ⟨e', p', w'⟩
  cases h
  exact ⟨List.Sublist.refl _, fun _ => id⟩

variable [DecidableEq L]

theorem Dispatches.setLoop (h : s.Dispatches) (hnodup : x.active.Nodup)
    (hx : ∀ conn, .connection conn ∈ x.active ∨ x.current = some (.connection conn) →
      ∃ c ∈ s.conns conn, c.loop = l ∧ c.conn.Registered) : (s.setLoop l x).Dispatches := by
  refine ⟨fun l' => ?_, fun l' conn hl' => ?_⟩
  · by_cases he : l' = l
    · rw [he, setLoop_self]
      exact hnodup
    · rw [setLoop_of_ne he]
      exact h.nodup l'
  · by_cases he : l' = l
    · subst he
      rw [Dispatching, setLoop_self] at hl'
      exact hx conn hl'
    · rw [Dispatching, setLoop_of_ne he] at hl'
      exact h.connection l' conn hl'

theorem Dispatches.narrow (h : s.Dispatches) (hx : Narrows (s.loops l) x) :
    (s.setLoop l x).Dispatches := by
  refine h.setLoop (hx.active.nodup (h.nodup l)) fun conn hconn => h.connection l conn ?_
  exact hconn.imp (fun hactive => hx.active.subset hactive) (hx.current _)

theorem Dispatches.deliver (h : s.Dispatches) {fs : List (ReactorFunctor S C)} :
    (s.deliver l fs).Dispatches := by
  refine ⟨fun l' => ?_, fun l' conn hl' => ?_⟩
  · rw [deliver_active]
    exact h.nodup l'
  · rw [Dispatching, deliver_active, deliver_current] at hl'
    rw [deliver_conns]
    exact h.connection l' conn hl'

omit [DecidableEq L] in
/-- The connection is in the poller as before, or no loop dispatches it. -/
theorem Dispatches.putConn [DecidableEq S] [DecidableEq C] (h : s.Dispatches) {conn : ConnId S C}
    {value : TcpConnection Empty} (hvalue : ∀ l', s.Dispatching l' (.connection conn) →
      l' = l ∧ value.Registered) : (s.putConn conn l value).Dispatches := by
  refine ⟨h.nodup, fun l' conn' hl' => ?_⟩
  by_cases he : conn' = conn
  · subst he
    obtain ⟨hloop, hreg⟩ := hvalue l' hl'
    exact ⟨_, putConn_self, hloop.symm, hreg.index, hreg.events⟩
  · obtain ⟨c, hc, hrest⟩ := h.connection l' conn' hl'
    exact ⟨c, (putConn_of_ne he).trans hc, hrest⟩

variable [DecidableEq S] [DecidableEq C]

/-- A loop changes; what it dispatches of the client is its present attempt. -/
theorem ClientSound.setLoop (h : s.ClientSound g client)
    (hqueue : x.queue.count (.resetChannel client) =
      (s.loops l).queue.count (.resetChannel client))
    (hwithin : WithinClient (s.clients client) client (s.loops l).within →
      WithinClient (s.clients client) client x.within)
    (hactive : ∀ fd, .connector client fd ∈ x.active → l = g.clientLoop client ∧
      (s.clients client).connector.Trying fd ∧ (s.clients client).connector.state = .kConnecting)
    (hcurrent : ∀ fd, x.current = some (.connector client fd) → l = g.clientLoop client ∧
      ∃ ch ∈ (s.clients client).connector.channel, ch.fd = fd) :
    (s.setLoop l x).ClientSound g client := by
  refine ⟨h.loop, h.connector, ?_, fun l' hl' => ?_, h.connection, ?_, fun l' fd hl' => ?_,
    fun l' fd hl' => ?_⟩
  · by_cases he : g.clientLoop client = l
    · rw [he, setLoop_self, hqueue, ← he]
      exact h.queue
    · rw [setLoop_of_ne he]
      exact h.queue
  · by_cases he : l' = l
    · subst he
      rw [setLoop_self, ← List.count_eq_zero, hqueue, List.count_eq_zero]
      exact h.elsewhere l' hl'
    · rw [setLoop_of_ne he]
      exact h.elsewhere l' hl'
  · by_cases he : g.clientLoop client = l
    · rw [he, setLoop_self]
      exact hwithin (he ▸ h.within)
    · rw [setLoop_of_ne he]
      exact h.within
  · by_cases he : l' = l
    · subst he
      rw [setLoop_self] at hl'
      exact hactive fd hl'
    · rw [setLoop_of_ne he] at hl'
      exact h.active l' fd hl'
  · by_cases he : l' = l
    · subst he
      rw [setLoop_self] at hl'
      exact hcurrent fd hl'
    · rw [setLoop_of_ne he] at hl'
      exact h.current l' fd hl'

/-- A loop changes, but not in what concerns the client. -/
theorem ClientSound.narrow (h : s.ClientSound g client)
    (hqueue : x.queue.count (.resetChannel client) =
      (s.loops l).queue.count (.resetChannel client))
    (hwithin : WithinClient (s.clients client) client (s.loops l).within →
      WithinClient (s.clients client) client x.within) (hx : Narrows (s.loops l) x) :
    (s.setLoop l x).ClientSound g client :=
  h.setLoop hqueue hwithin (fun fd hmem => h.active l fd (hx.active.subset hmem)) fun fd hc =>
    h.current l fd (hx.current _ hc)

theorem ClientSound.push (h : s.ClientSound g client)
    {e : EventLoop (ReactorFunctor S C)} {f : ReactorFunctor S C}
    (he : e.pendingFunctors = (s.loops l).eventLoop.pendingFunctors ++ [f])
    (hf : f ≠ .resetChannel client) :
    (s.setLoop l { s.loops l with eventLoop := e }).ClientSound g client := by
  refine h.narrow ?_ id (.of_phase rfl)
  rw [queue_push he, List.count_append, List.count_singleton, if_neg (by simpa using hf)]
  rfl

theorem ClientSound.deliver (h : s.ClientSound g client) {fs : List (ReactorFunctor S C)}
    (hfs : .resetChannel client ∉ fs) : (s.deliver l fs).ClientSound g client := by
  induction fs generalizing s with
  | nil => exact h
  | cons f fs ih =>
    refine ih (h.push (EventLoop.queueInLoop_pendingFunctors ..) fun he => ?_) fun hmem => ?_
    · exact hfs (he ▸ List.mem_cons_self)
    · exact hfs (List.mem_cons_of_mem _ hmem)

omit [DecidableEq L] in
/-- Only the loops and the clients matter. -/
theorem ClientSound.frame (h : s.ClientSound g client) (hloops : s'.loops = s.loops)
    (hclients : s'.clients = s.clients) : s'.ClientSound g client := by
  obtain ⟨loops, servers, clients, conns, copies, threads⟩ := s
  obtain ⟨loops', servers', clients', conns', copies', threads'⟩ := s'
  cases hloops
  cases hclients
  exact ⟨h.loop, h.connector, h.queue, h.elsewhere, h.connection, h.within, h.active, h.current⟩

omit [DecidableEq L] in
theorem ClientSound.putConn (h : s.ClientSound g client) {conn : ConnId S C}
    {value : TcpConnection Empty} : (s.putConn conn l value).ClientSound g client :=
  h.frame rfl rfl

omit [DecidableEq L] in
theorem ClientSound.putServer (h : s.ClientSound g client) {server : S} {value : TcpServer Nat} :
    (s.putServer server value).ClientSound g client :=
  h.frame rfl rfl

omit [DecidableEq L] [DecidableEq S] [DecidableEq C] in
theorem ofClient_injective (client : C) :
    Function.Injective (ClientFunctor.ofClient (S := S) client) := by
  rintro (_ | _ | n) (_ | _ | m) h <;> cases h <;> rfl

/-- The client after one of its functions. -/
theorem clientSound_setClient {value : TcpClient} (hconnector : value.connector.Sound)
    (hqueue : (s.loops (g.clientLoop client)).queue.count (.resetChannel client) +
      value.loop.pendingFunctors.count .resetChannel = value.connector.resets.length)
    (helsewhere : ∀ l, l ≠ g.clientLoop client → .resetChannel client ∉ (s.loops l).queue)
    (hconnection : value.connection ≠ none → value.connector.state = .kConnected)
    (hwithin : WithinClient value client (s.loops (g.clientLoop client)).within)
    (hactive : ∀ l fd, .connector client fd ∈ (s.loops l).active → l = g.clientLoop client ∧
      value.connector.Trying fd ∧ value.connector.state = .kConnecting)
    (hcurrent : ∀ l fd, (s.loops l).current = some (.connector client fd) →
      l = g.clientLoop client ∧ ∃ ch ∈ value.connector.channel, ch.fd = fd) :
    (s.setClient g client value).ClientSound g client := by
  have hcount : (value.loop.pendingFunctors.map (ClientFunctor.ofClient (S := S) client)).count
      (.resetChannel client) = value.loop.pendingFunctors.count .resetChannel := by
    exact List.count_map_of_injective _ _ (ofClient_injective client) .resetChannel
  have hclients : (s.setClient g client value).clients client = { value with loop := {} } := by
    rw [setClient, deliver_clients, putClient_self]
  refine ⟨?_, ?_, ?_, fun l' hl' => ?_, ?_, ?_, fun l' fd hl' => ?_, fun l' fd hl' => ?_⟩
  · rw [hclients]
  · rw [hclients]
    exact hconnector
  · rw [hclients, setClient, queues_deliver.queue, List.count_append, hcount]
    exact hqueue
  · rw [setClient, deliver_of_ne hl']
    exact helsewhere l' hl'
  · rw [hclients]
    exact hconnection
  · rw [hclients, setClient, deliver_within]
    exact hwithin
  · rw [setClient, deliver_active] at hl'
    rw [hclients]
    exact hactive l' fd hl'
  · rw [setClient, deliver_current] at hl'
    rw [hclients]
    exact hcurrent l' fd hl'

omit [DecidableEq L] in
/-- Another client changes. -/
theorem ClientSound.putClient_of_ne (h : s.ClientSound g client) {client' : C} {value : TcpClient}
    (hne : client ≠ client') : (s.putClient client' value).ClientSound g client := by
  have hclients : (s.putClient client' value).clients client = s.clients client :=
    Reactor.putClient_of_ne hne
  refine ⟨?_, ?_, ?_, h.elsewhere, ?_, ?_, ?_, ?_⟩ <;> rw [hclients]
  · exact h.loop
  · exact h.connector
  · exact h.queue
  · exact h.connection
  · exact h.within
  · exact h.active
  · exact h.current

/-- Another client after one of its functions. -/
theorem ClientSound.setClient_of_ne (h : s.ClientSound g client) {client' : C} {value : TcpClient}
    (hne : client ≠ client') : (s.setClient g client' value).ClientSound g client := by
  refine (h.putClient_of_ne hne).deliver fun hmem => ?_
  obtain ⟨f, -, hf⟩ := List.mem_map.mp hmem
  cases f <;> cases hf
  exact hne rfl

/-! ## The functions of a client -/

section

omit [DecidableEq L]

theorem ClientSound.no_connection (h : s.ClientSound g client)
    (hne : (s.clients client).connector.state ≠ .kConnected) :
    (s.clients client).connection = none := by
  by_contra hconn
  exact hne (h.connection hconn)

/-- Outside an attempt none is to be handled. -/
theorem ClientSound.not_active (h : s.ClientSound g client)
    (hne : (s.clients client).connector.state ≠ .kConnecting) {fd : Nat} :
    .connector client fd ∉ (s.loops l).active :=
  fun hmem => hne (h.active l fd hmem).2.2

theorem ClientSound.resting (h : s.ClientSound g client)
    (hne : (s.clients client).connector.state ≠ .kConnecting) :
    (s.clients client).connector.Resting := by
  rcases h.connector with hrest | ⟨fd, -, hstate⟩
  · exact hrest
  · exact absurd hstate hne

/-- The flags of the client change. -/
theorem ClientSound.putClient (h : s.ClientSound g client) {value : TcpClient}
    (hconnector : value.connector = (s.clients client).connector)
    (hconnection : value.connection ≠ none → value.connector.state = .kConnected)
    (hwithin : WithinClient value client (s.loops (g.clientLoop client)).within) :
    (s.putClient client value).ClientSound g client := by
  refine ⟨?_, ?_, ?_, h.elsewhere, ?_, ?_, ?_, ?_⟩ <;> rw [putClient_self]
  · rw [hconnector]
    exact h.connector
  · rw [hconnector]
    exact h.queue
  · exact hconnection
  · exact hwithin
  · rw [hconnector]
    exact h.active
  · rw [hconnector]
    exact h.current

end

/-- The connector after a function that queues nothing. -/
theorem ClientSound.setConnector (h : s.ClientSound g client) {k : Connector}
    (hsound : k.Sound) (hresets : k.resets = (s.clients client).connector.resets)
    (hconnection : (s.clients client).connection ≠ none → k.state = .kConnected)
    (hwithin : ∀ value, WithinClient value client (s.loops (g.clientLoop client)).within)
    (hactive : ∀ l fd, .connector client fd ∉ (s.loops l).active)
    (hcurrent : ∀ fd, (∃ ch ∈ (s.clients client).connector.channel, ch.fd = fd) →
      ∃ ch ∈ k.channel, ch.fd = fd) :
    (s.setClient g client ((s.clients client).setConnector k)).ClientSound g client := by
  rw [TcpClient.setConnector_same hresets]
  refine clientSound_setClient hsound ?_ h.elsewhere hconnection (hwithin _)
    (fun l fd hmem => absurd hmem (hactive l fd)) fun l fd hl => ?_
  · show _ + (s.clients client).loop.pendingFunctors.count .resetChannel = k.resets.length
    rw [h.loop, h.queue, hresets]
    rfl
  · exact ⟨(h.current l fd hl).1, hcurrent fd (h.current l fd hl).2⟩

/-- An attempt begins with no channel, and otherwise the channel stays. -/
theorem started_channel {c c' : Connector} {e : Nat} (h : Connector.Started c e c')
    {ch : ConnectChannel} (hch : c.channel = some ch) : c'.channel = some ch := by
  cases h with
  | connecting _ hnone => cases hnone.symm.trans hch
  | retry | close => exact hch

/-- `startInLoop` for a `connect()` or a retry timer. -/
theorem ClientSound.startInLoop (h : s.ClientSound g client) {k₀ k : Connector} {e : Nat}
    (hsound : (s.clients client).connector.Sound → k₀.Sound)
    (hresets : k₀.resets = (s.clients client).connector.resets)
    (hstate : k₀.state = (s.clients client).connector.state)
    (hchannel : k₀.channel = (s.clients client).connector.channel)
    (hwithin : ∀ value, WithinClient value client (s.loops (g.clientLoop client)).within)
    (hs : k₀.startInLoop e = .ok k) :
    (s.setClient g client ((s.clients client).setConnector k)).ClientSound g client := by
  obtain ⟨hdis, hstarted⟩ := Connector.startInLoop_ok hs
  rw [hstate] at hdis
  have hne : (s.clients client).connector.state ≠ .kConnected := by rw [hdis]; nofun
  refine h.setConnector ((hsound h.connector).startInLoop hs)
    ((ClientSystem.started_resets hstarted).trans hresets)
    (fun hconn => absurd (h.no_connection hne) hconn) hwithin
    (fun l fd => h.not_active (by rw [hdis]; nofun)) ?_
  rintro fd ⟨ch, hch, hfd⟩
  exact ⟨ch, started_channel hstarted (hchannel.trans hch), hfd⟩

theorem ClientSound.restart (h : s.ClientSound g client) {k : Connector} {e : Nat}
    (hstate : (s.clients client).connector.state = .kConnected)
    (hnone : (s.clients client).connection = none)
    (hwithin : ∀ value, WithinClient value client (s.loops (g.clientLoop client)).within)
    (hs : (s.clients client).connector.restart e = .ok k) :
    (s.setClient g client ((s.clients client).setConnector k)).ClientSound g client := by
  have hne : (s.clients client).connector.state ≠ .kConnecting := by rw [hstate]; nofun
  obtain ⟨-, hstarted⟩ := Connector.startInLoop_ok hs
  have hresets : k.resets = (s.clients client).connector.resets :=
    (ClientSystem.started_resets hstarted).trans rfl
  refine h.setConnector ((h.resting hne).restart hs) hresets
    (fun hconn => absurd hnone hconn) hwithin (fun l fd => h.not_active hne) ?_
  rintro fd ⟨ch, hch, hfd⟩
  exact ⟨ch, started_channel hstarted hch, hfd⟩

/-- The connector after a function that ends its attempt. -/
theorem ClientSound.endAttempt (h : s.ClientSound g client) {fd : Nat} {k : Connector}
    (htrying : (s.clients client).connector.Trying fd)
    (hstate : (s.clients client).connector.state = .kConnecting) (hrest : k.Resting)
    (hresets : k.resets = (s.clients client).connector.resets ++ [fd])
    (hchannel : k.channel = some (Connector.removed fd))
    (hwithin : ∀ value, WithinClient value client (s.loops (g.clientLoop client)).within)
    (hactive : ∀ l fd, .connector client fd ∉ (s.loops l).active) :
    (s.setClient g client ((s.clients client).setConnector k)).ClientSound g client := by
  have hnone := h.no_connection (by rw [hstate]; nofun)
  rw [TcpClient.setConnector_push hresets]
  refine clientSound_setClient (.inl hrest) ?_ h.elsewhere (fun hconn => absurd hnone hconn)
    (hwithin _) (fun l fd hmem => absurd hmem (hactive l fd)) fun l fd' hl => ?_
  · show _ + ((s.clients client).loop.queueInLoop true .resetChannel).pendingFunctors.count
      .resetChannel = k.resets.length
    rw [h.queue, hresets, EventLoop.queueInLoop_pendingFunctors, h.loop, List.length_append]
    rfl
  · obtain ⟨hloop, ch, hch, hfd⟩ := h.current l fd' hl
    cases hch.symm.trans htrying.watches.channel
    exact ⟨hloop, _, hchannel, hfd⟩

/-- The connecting channel is dispatched. -/
theorem ClientSound.dispatched (h : s.ClientSound g client) {fd : Nat} {k : Connector}
    (htrying : (s.clients client).connector.Trying fd)
    (hstate : (s.clients client).connector.state = .kConnecting)
    (hk : Connector.Dispatched (s.clients client).connector fd k)
    (hwithin : ∀ value, WithinClient value client (s.loops (g.clientLoop client)).within)
    (hactive : ∀ l fd, .connector client fd ∉ (s.loops l).active) :
    (s.setClient g client ((s.clients client).setConnector k)).ClientSound g client := by
  cases hk with
  | nothing =>
    have hnone := h.no_connection (by rw [hstate]; nofun)
    exact h.setConnector h.connector rfl (fun hconn => absurd hnone hconn) hwithin hactive
      fun _ => id
  | failed => exact h.endAttempt htrying hstate htrying.failed rfl rfl hwithin hactive
  | connected => exact h.endAttempt htrying hstate htrying.connected rfl rfl hwithin hactive

/-- The functor `resetChannel` is called. -/
theorem ClientSound.resetChannel (h : s.ClientSound g client)
    {called functors : List (ReactorFunctor S C)}
    (hphase : (s.loops l).phase = .running called (.resetChannel client :: functors))
    (hwithin : (s.loops l).within = .outside) :
    ((s.setPhase l (.running (called ++ [.resetChannel client]) functors)).setClient g client
      ((s.clients client).setConnector (s.clients client).connector.resetChannel)).ClientSound
        g client := by
  have hmem : .resetChannel client ∈ (s.loops l).queue := by
    rw [ReactorLoop.queue_running hphase]
    exact List.mem_append_left _ List.mem_cons_self
  have hloop : l = g.clientLoop client := by
    by_contra hne
    exact h.elsewhere l hne hmem
  have hqueue := h.queue
  rw [← hloop, ReactorLoop.queue_running hphase, List.cons_append, List.count_cons_self] at hqueue
  have hrest : (s.clients client).connector.Resting := by
    rcases h.connector with hrest | ⟨fd, htrying, -⟩
    · exact hrest
    · rw [htrying.reset] at hqueue
      cases hqueue
  let x : ReactorLoop S C :=
    { s.loops l with phase := .running (called ++ [.resetChannel client]) functors }
  have hself : (s.setLoop l x).loops l = x := setLoop_self
  rw [TcpClient.setConnector_tail rfl]
  show ((s.setLoop l x).setClient g client _).ClientSound g client
  refine clientSound_setClient (.inl hrest.resetChannel) ?_ (fun l' hl' => ?_) h.connection ?_
    (fun l' fd hl' => ?_) fun l' fd hl' => ?_
  · show _ + (s.clients client).loop.pendingFunctors.count .resetChannel =
      (s.clients client).connector.resets.tail.length
    rw [h.loop, ← hloop, hself, List.length_tail, ← hqueue]
    rfl
  · rw [setLoop_of_ne fun he => hl' (he.trans hloop)]
    exact h.elsewhere l' hl'
  · rw [← hloop, hself]
    show WithinClient _ client (s.loops l).within
    rw [hwithin]
    trivial
  · by_cases he : l' = l
    · rw [he, hself] at hl'
      cases hl'
    · rw [setLoop_of_ne he] at hl'
      exact absurd ((h.active l' fd hl').1.trans hloop.symm) he
  · by_cases he : l' = l
    · rw [he, hself] at hl'
      cases hl'
    · rw [setLoop_of_ne he] at hl'
      exact absurd ((h.current l' fd hl').1.trans hloop.symm) he

omit [DecidableEq S] [DecidableEq C] in
theorem setWithin_setWithin {within within' : ReactorAt S C} :
    (s.setWithin l within).setWithin l within' = s.setWithin l within' := by
  rw [setWithin, setWithin, setWithin, setLoop_self]
  exact congrArg (fun loops => { s with loops := loops }) (Function.update_idem ..)

/-- `TcpClient::newConnection`, up to `connectionEstablished`. -/
theorem ClientSound.newConnection (h : s.ClientSound g client) {fd : Nat}
    (hwithin : (s.loops (g.clientLoop client)).within = .handingOver client fd) :
    ((s.putClient client (s.clients client).newConnection).setWithin (g.clientLoop client)
      (.establishing client (s.clients client).nextConnId)).ClientSound g client := by
  have hw := h.within
  rw [hwithin] at hw
  obtain ⟨hstate, -⟩ := hw rfl
  have hout : (s.setWithin (g.clientLoop client) .outside).ClientSound g client :=
    h.narrow rfl (fun _ => trivial) (.of_phase rfl)
  have hput : ((s.setWithin (g.clientLoop client) .outside).putClient client
      (s.clients client).newConnection).ClientSound g client := by
    refine hout.putClient rfl (fun _ => hstate) ?_
    rw [setWithin, setLoop_self]
    trivial
  have hset : (((s.setWithin (g.clientLoop client) .outside).putClient client
      (s.clients client).newConnection).setWithin (g.clientLoop client)
        (.establishing client (s.clients client).nextConnId)).ClientSound g client := by
    refine hput.narrow rfl (fun _ => ?_) (.of_phase rfl)
    rw [putClient_self]
    exact fun _ => ⟨hstate, rfl⟩
  have heq : (s.setWithin (g.clientLoop client) .outside).putClient client
      (s.clients client).newConnection = (s.putClient client
        (s.clients client).newConnection).setWithin (g.clientLoop client) .outside := rfl
  rw [heq, setWithin_setWithin] at hset
  exact hset

end Reactor

end Summer.Net
