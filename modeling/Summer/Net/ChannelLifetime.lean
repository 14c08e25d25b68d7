import Summer.Net.ReactorSound

/-!
# The channels outlive their dispatch

In a run in which no connection is accepted under the name of one that exists, no channel of a
connection or connector is destroyed while it is registered, while it is still to be handled, or
inside its own `handleEvent`. A server that has come to the first name that comes back loses a
registered connection.
-/
namespace Summer.Net

open Summer.Lib

variable {L S C T : Type}

namespace Reactor

/-- The channel was not destroyed. A connection has its channel to the end, and a connector the
one of its last attempt until `resetChannel`. -/
def Exists (s : Reactor L S C T) : ChannelId S C → Prop
  | .acceptor _ => True
  | .connector client fd => ∃ ch ∈ (s.clients client).connector.channel, ch.fd = fd
  | .connection conn => s.conns conn ≠ none ∧ s.Held conn

variable [DecidableEq L] [DecidableEq S] [DecidableEq C] [DecidableEq T]

/-- No channel is destroyed while it is registered with the poller of a loop or dispatched by it. -/
def ChannelsExist (g : Layout L S C) (s : Reactor L S C T) : Prop :=
  ∀ l channel, s.Registered g l channel ∨ s.Dispatching l channel → s.Exists channel

/-- The connection that is accepted does not get the name of one that exists. -/
def FreshName (s : Reactor L S C T) : Action L S C T → Prop
  | .newConnection server _ _ => ∀ n, s.Held (.server server n) →
      (s.servers server).getName n ≠ (s.servers server).connName
  | _ => True

variable {g : Layout L S C} {s s' : Reactor L S C T} {a : Action L S C T}
  {as : List (Action L S C T)}

omit [DecidableEq T] in
/-- The channels that are registered or dispatched exist. -/
theorem Sound.channelsExist (h : Sound g none s) : ChannelsExist g s := by
  intro l channel hl
  cases channel with
  | acceptor server => trivial
  | connection conn =>
    have hreg : ∃ c, s.conns conn = some c ∧ c.conn.Registered := by
      rcases hl with ⟨c, hc, -, hreg⟩ | hl
      · exact ⟨c, hc, (h.accounted.staged conn c hc).registered hreg⟩
      · obtain ⟨c, hc, -, hreg⟩ := h.dispatches.connection l conn hl
        exact ⟨c, hc, hreg⟩
    obtain ⟨c, hc, hreg⟩ := hreg
    refine ⟨?_, h.held hc hreg⟩
    rw [hc]
    nofun
  | connector client fd =>
    have hclient := h.clients client
    have htrying : ∀ fd, (s.clients client).connector.Trying fd →
        s.Exists (.connector client fd) := fun fd ht => ⟨_, ht.watches.channel, rfl⟩
    rcases hl with ⟨-, hreg⟩ | hactive | hcurrent
    · rcases hclient.connector with hrest | ⟨fd', ht, -⟩
      · exact absurd (congrArg EpollPoller.registered (hrest.poller fd)) hreg
      · rw [ht.reported hreg]
        exact htrying fd' ht
    · exact htrying fd (hclient.active l fd hactive).2.1
    · exact (hclient.current l fd hcurrent).2

/-! ## Runs -/

theorem sound_step (h : Sound g none s) (ha : FreshName s a) (hs : step g s a = .ok s') :
    Sound g none s' := by
  cases a with
  | poll l active =>
    obtain ⟨_, -, hs⟩ := bind_eq_ok.mp hs
    obtain ⟨_, hregistered, hs⟩ := bind_eq_ok.mp hs
    obtain ⟨_, hnodup, hs⟩ := bind_eq_ok.mp hs
    split at hs
    · rename_i hphase
      cases hs
      exact h.poll hphase (ensure_eq_ok.mp hregistered) (ensure_eq_ok.mp hnodup)
    · cases hs
  | handleEvent l isSelfConnect =>
    obtain ⟨_, hwithin, hs⟩ := bind_eq_ok.mp hs
    exact h.handleEvent (ensure_eq_ok.mp hwithin) hs
  | callback l read nwrite =>
    obtain ⟨_, hwithin, hs⟩ := bind_eq_ok.mp hs
    exact h.callback (ensure_eq_ok.mp hwithin) hs
  | endEvent l =>
    obtain ⟨_, -, hs⟩ := bind_eq_ok.mp hs
    split at hs
    · rename_i channel active hphase
      cases hs
      exact h.proceed hphase (by simp)
    · cases hs
  | doPendingFunctor l =>
    obtain ⟨_, -, hs⟩ := bind_eq_ok.mp hs
    split at hs
    · rename_i callbacks hphase
      cases hs
      exact h.swap hphase
    · cases hs
  | runFunctor l e =>
    obtain ⟨_, hwithin, hs⟩ := bind_eq_ok.mp hs
    split at hs
    · rename_i called f functors hphase
      exact h.callFunctor (ensure_eq_ok.mp hwithin) hphase hs
    · cases hs
  | endPass l =>
    obtain ⟨_, -, hs⟩ := bind_eq_ok.mp hs
    split at hs
    · rename_i called hphase
      cases hs
      exact h.endPass hphase
    · cases hs
  | newConnection server ioLoop writeComplete =>
    obtain ⟨_, hwithin, hs⟩ := bind_eq_ok.mp hs
    exact h.newConnection ha (ensure_eq_ok.mp hwithin) hs
  | insert server =>
    rw [step] at hs
    split at hs
    · rename_i server' n hwithin
      obtain ⟨_, hserver, hs⟩ := bind_eq_ok.mp hs
      obtain rfl := ensure_eq_ok.mp hserver
      cases hs
      exact h.assign hwithin
    · cases hs
  | clientNewConnection client writeComplete =>
    rw [step] at hs
    split at hs
    · rename_i client' fd hwithin
      obtain ⟨_, hclient, hs⟩ := bind_eq_ok.mp hs
      obtain rfl := ensure_eq_ok.mp hclient
      cases hs
      exact h.clientNewConnection hwithin
    · cases hs
  | connectionEstablished client =>
    rw [step] at hs
    split at hs
    · rename_i client' n hwithin
      obtain ⟨_, hclient, hs⟩ := bind_eq_ok.mp hs
      obtain rfl := ensure_eq_ok.mp hclient
      exact h.clientEstablished hwithin hs
    · cases hs
  | restart client e =>
    obtain ⟨_, hwithin, hs⟩ := bind_eq_ok.mp hs
    obtain ⟨k, hk, rfl⟩ := runConnector_ok hs
    exact h.restart (ensure_eq_ok.mp hwithin) hk
  | timer client i e =>
    obtain ⟨_, hwithin, hs⟩ := bind_eq_ok.mp hs
    obtain ⟨_, -, hs⟩ := bind_eq_ok.mp hs
    split at hs
    · obtain ⟨k, hk, rfl⟩ := runConnector_ok hs
      refine h.runStart (fun hsound => hsound.timers _) ?_ ?_ ?_ (fun value => ?_) hk
      · rfl
      · rfl
      · rfl
      · rw [ensure_eq_ok.mp hwithin]
        trivial
    · cases hs
  | enableRetry client =>
    cases hs
    exact h.putClient rfl rfl rfl
  | connect client e =>
    obtain ⟨_, huser, hs⟩ := bind_eq_ok.mp hs
    have hput : Sound g none (s.putClient client { s.clients client with connect := true }) :=
      h.putClient rfl rfl rfl
    exact hput.startInLoop (withinClient_of_userCode (ensure_eq_ok.mp huser)) hs
  | disconnect client =>
    obtain ⟨_, -, hs⟩ := bind_eq_ok.mp hs
    have hput : Sound g none (s.putClient client { s.clients client with connect := false }) :=
      h.putClient rfl rfl rfl
    dsimp only at hs
    split at hs
    · cases hs
      exact hput
    · rename_i n hconn
      refine hput.shutdown ?_ hs
      exact .inl hconn
  | otherConnect t client | otherDisconnect t client =>
    obtain ⟨_, -, hs⟩ := bind_eq_ok.mp hs
    cases hs
    refine Sound.threads ?_ _
    exact h.putClient rfl rfl rfl
  | otherConnectPush t =>
    rw [step] at hs
    split at hs
    · rename_i client hthread
      cases hs
      refine Sound.threads ?_ _
      exact h.push (EventLoop.queueInLoop_pendingFunctors ..) (fun _ _ hc => by cases hc) (by simp)
    · cases hs
  | otherDisconnectReturn t =>
    rw [step] at hs
    split at hs
    · obtain ⟨_, -, hs⟩ := bind_eq_ok.mp hs
      cases hs
      exact h.threads _
    · cases hs
  | copy conn =>
    obtain ⟨_, hoffered, hs⟩ := bind_eq_ok.mp hs
    cases hs
    refine h.copies fun conn' hmem => ?_
    rcases List.mem_cons.mp hmem with rfl | hmem
    · exact h.offered (ensure_eq_ok.mp hoffered)
    · exact .inr (.inl hmem)
  | drop conn =>
    obtain ⟨_, -, hs⟩ := bind_eq_ok.mp hs
    cases hs
    exact h.copies fun conn' hmem => .inr (.inl (List.mem_of_mem_erase hmem))
  | send conn argument nwrite =>
    rw [step] at hs
    split at hs
    · cases hs
    · rename_i c hc
      obtain ⟨_, hen, hs⟩ := bind_eq_ok.mp hs
      obtain ⟨c', value, hc', hloop, hvalue, rfl⟩ := runConn_ok hs
      exact h.setConn hc' hloop ((h.accounted.staged conn c' hc').send hvalue)
        (h.offered (ensure_eq_ok.mp hen).1)
  | shutdown conn =>
    rw [step] at hs
    split at hs
    · cases hs
    · rename_i c hc
      obtain ⟨_, hen, hs⟩ := bind_eq_ok.mp hs
      exact h.shutdown (h.offered (ensure_eq_ok.mp hen).1) hs

theorem sound_run (hrun : run (step g) (init g) as = .ok s)
    (hnames : Along (step g) FreshName (init g) as) : Sound g none s :=
  run_invariant (fun _ _ _ h ha hs => sound_step h ha hs) init_sound hnames hrun

/-- In a run in which no connection is accepted under the name of one that exists, every channel
that is registered or dispatched exists. -/
theorem channels_exist (hrun : run (step g) (init g) as = .ok s)
    (hnames : Along (step g) FreshName (init g) as) : ChannelsExist g s :=
  (sound_run hrun hnames).channelsExist

/-! ## A name that comes back -/

/-- One server on one loop, with an address of 21 characters. -/
def oneServer : Layout Unit Unit Empty where
  serverLoop := fun _ => ()
  clientLoop := nofun
  name := fun _ => []
  listenAddr := fun _ => ⟨192, 168, 100, 100, 10000⟩

/-- A pass in which a connection is accepted for the loop itself. -/
def acceptPass : List (Action Unit Unit Empty Empty) :=
  [.poll () [(.acceptor (), POLLIN)], .handleEvent () false, .newConnection () () false,
    .insert (), .endEvent (), .doPendingFunctor (), .endPass ()]

/-- A pass in which connection `n` finds that its peer has closed. -/
def closePass (n : Nat) : List (Action Unit Unit Empty Empty) :=
  [.poll () [(.connection (.server () n), POLLIN)], .handleEvent () false, .callback () .eof 0,
    .endEvent (), .doPendingFunctor (), .runFunctor () 0, .endPass ()]

/-- Connection `n` is accepted and, unless it is `m`, closed again. -/
def serve (m n : Nat) : List (Action Unit Unit Empty Empty) :=
  acceptPass ++ if n = m then [] else closePass n

/-- One loop and one server, with nothing copied. -/
def serving (loop : ReactorLoop Unit Empty) (server : TcpServer Nat)
    (conns : ConnId Unit Empty → Option (ReactorConn Unit)) : Reactor Unit Unit Empty Empty where
  loops := fun _ => loop
  servers := fun _ => server
  conns := conns

section

variable {loop : ReactorLoop Unit Empty} {server : TcpServer Nat}
  {conns : ConnId Unit Empty → Option (ReactorConn Unit)} {channel : ChannelId Unit Empty}
  {m n : Nat}

theorem serving_setLoop (x : ReactorLoop Unit Empty) :
    (serving loop server conns).setLoop () x = serving x server conns := by
  rw [setLoop, Function.update_eq_const_of_subsingleton]
  rfl

theorem serving_putServer (value : TcpServer Nat) :
    (serving loop server conns).putServer () value = serving loop value conns := by
  rw [putServer, Function.update_eq_const_of_subsingleton]
  rfl

theorem serving_putConn (conn : ConnId Unit Empty) (value : TcpConnection Empty) :
    (serving loop server conns).putConn conn () value = serving loop server
      (Function.update conns conn (some ⟨(), { value with loop := {} }⟩)) := rfl

theorem serving_runConn {conn : ConnId Unit Empty} {c value : TcpConnection Empty}
    {f : TcpConnection Empty → Except Fault (TcpConnection Empty)}
    (hc : conns conn = some ⟨(), c⟩) (hvalue : f c = .ok value) (hloop : value.loop = {}) :
    (serving loop server conns).runConn () conn f =
      .ok (serving loop server (Function.update conns conn (some ⟨(), value⟩))) := by
  rw [runConn]
  split
  · rename_i hnone
    cases hc.symm.trans hnone
  · rename_i c' hc'
    cases hc.symm.trans hc'
    rw [ensure_of (by rfl), ok_bind, hvalue, ok_bind, setConn, hloop]
    have hvalue' : { value with loop := {} } = value := by rw [← hloop]
    rw [serving_putConn, hvalue']
    rfl

/-- The loop calls the read callback of a channel. -/
theorem channel_begins (hreg : (serving {} server conns).Registered oneServer () channel) :
    run (step oneServer) (serving {} server conns)
      [.poll () [(channel, POLLIN)], .handleEvent () false] =
        .ok (serving { phase := .handling (some channel) [.readCallback] [] } server conns) := by
  have hpoll : step oneServer (serving {} server conns) (.poll () [(channel, POLLIN)]) =
      .ok (serving { phase := .handling none [] [(channel, POLLIN)] } server conns) := by
    rw [step, ensure_of (by rfl), ok_bind, ensure_of, ok_bind,
      ensure_of (by exact List.nodup_singleton _), ok_bind]
    · exact congrArg Except.ok (serving_setLoop _)
    · intro channel' hmem
      rw [List.mem_singleton.mp hmem]
      exact hreg
  have hevent : step oneServer
      (serving { phase := .handling none [] [(channel, POLLIN)] } server conns)
        (.handleEvent () false) =
      .ok (serving { phase := .handling (some channel) [.readCallback] [] } server conns) := by
    rw [step, ensure_of (by rfl), ok_bind]
    cases channel with
    | connector client fd => exact client.elim
    | acceptor server' | connection conn => exact congrArg Except.ok (serving_setLoop _)
  exact run_cons_ok.mpr ⟨_, hpoll, run_singleton.trans hevent⟩

theorem functors_begin (fs : List (ReactorFunctor Unit Empty)) : run (step oneServer)
    (serving ⟨{ pendingFunctors := fs }, .handling (some channel) [] [], .outside⟩ server conns)
    [.endEvent (), .doPendingFunctor ()] = .ok (serving
      ⟨{ callingPendingFunctor := true }, .running [] fs, .outside⟩ server conns) := by
  have hevent : step oneServer (serving
      ⟨{ pendingFunctors := fs }, .handling (some channel) [] [], .outside⟩ server conns)
      (.endEvent ()) = .ok (serving
        ⟨{ pendingFunctors := fs }, .handling none [] [], .outside⟩ server conns) :=
    congrArg Except.ok (serving_setLoop _)
  have hswap : step oneServer (serving
      ⟨{ pendingFunctors := fs }, .handling none [] [], .outside⟩ server conns)
      (.doPendingFunctor ()) = .ok (serving
        ⟨{ callingPendingFunctor := true }, .running [] fs, .outside⟩ server conns) :=
    congrArg Except.ok (serving_setLoop _)
  exact run_cons_ok.mpr ⟨_, hevent, run_singleton.trans hswap⟩

theorem pass_ends (called : List (ReactorFunctor Unit Empty)) : step oneServer
    (serving ⟨{ callingPendingFunctor := true }, .running called [], .outside⟩ server conns)
    (.endPass ()) = .ok (serving {} server conns) :=
  congrArg Except.ok (serving_setLoop _)

/-! ### The two passes -/

/-- The connection is registered, and can be closed and destroyed. -/
structure Open (c : TcpConnection Empty) : Prop where
  registered : c.poller.registered ≠ none
  closes : ∃ c' c'', { c with state := .kDisconnected }.disableAll = .ok c' ∧ c'.loop = {} ∧
    c'.connectionDestroyed = .ok c'' ∧ c''.loop = {}

theorem accept_step (hnext : server.nextConnId < 2 ^ 31) : ∃ c, Open c ∧ step oneServer
    (serving { phase := .handling (some (.acceptor ())) [.readCallback] [] } server conns)
    (.newConnection () () false) = .ok (serving
      ⟨{}, .handling (some (.acceptor ())) [] [], .inserting () server.nextConnId⟩
      { server with nextConnId := server.nextConnId + 1 }
      (Function.update conns (.server () server.nextConnId) (some ⟨(), c⟩))) := by
  have hc : ∃ c : TcpConnection Empty, TcpConnection.connectionEstablished
      { writeComplete := false, owner := .server true } = .ok c ∧ c.loop = {} ∧ Open c :=
    ⟨_, rfl, rfl, nofun, _, _, rfl, rfl, rfl, rfl⟩
  obtain ⟨c, hc, hloop, hopen⟩ := hc
  refine ⟨c, hopen, ?_⟩
  rw [step, ensure_of (by rfl), ok_bind, newConnection]
  have hphase : ((serving { phase := .handling (some (.acceptor ())) [.readCallback] [] } server
      conns).loops (oneServer.serverLoop ())).phase =
      .handling (some (.acceptor ())) [.readCallback] [] := rfl
  split
  · rename_i acceptor callbacks active heq
    cases hphase.symm.trans heq
    rw [ensure_of rfl, ok_bind, ensure_of (by exact hnext), ok_bind]
    have hloops : oneServer.serverLoop () = () := rfl
    dsimp only
    rw [if_pos (by rfl), hloops, serving_setLoop, serving_putServer, serving_putConn,
      serving_runConn (by exact Function.update_self ..) (by exact hc) hloop,
      Function.update_idem]
    rfl
  · rename_i hnot
    exact absurd hphase (hnot _ _ _)

theorem insert_step : step oneServer
    (serving ⟨{}, .handling (some (.acceptor ())) [] [], .inserting () n⟩ server conns)
    (.insert ()) = .ok (serving { phase := .handling (some (.acceptor ())) [] [] } { server with
      connections := Function.update server.connections (server.getName n) (some n) } conns) := by
  rw [step]
  split
  · rename_i server' n' hwithin
    cases hwithin
    rw [ensure_of rfl, ok_bind]
    have hloops : oneServer.serverLoop () = () := rfl
    dsimp only
    rw [hloops, serving_putServer, setWithin, serving_setLoop]
    rfl
  · rename_i hnot
    exact absurd rfl (hnot () n)

theorem acceptPass_run (hnext : server.nextConnId < 2 ^ 31) : ∃ c, Open c ∧
    run (step oneServer) (serving {} server conns) acceptPass =
      .ok (serving {} (server.newConnection server.nextConnId)
        (Function.update conns (.server () server.nextConnId) (some ⟨(), c⟩))) := by
  obtain ⟨c, hopen, haccept⟩ := @accept_step server conns hnext
  refine ⟨c, hopen, ?_⟩
  have hbegins := @channel_begins server conns (.acceptor ()) rfl
  exact run_append_ok.mpr ⟨_, hbegins, run_cons_ok.mpr ⟨_, haccept, run_cons_ok.mpr ⟨_, insert_step,
    run_append_ok.mpr ⟨_, functors_begin [], run_singleton.trans (pass_ends [])⟩⟩⟩⟩

theorem serving_removeConnectionInLoop {c : TcpConnection Empty}
    (hc : conns (.server () n) = some ⟨(), c⟩)
    (hname : server.connections (server.getName n) ≠ none) :
    (serving loop server conns).removeConnectionInLoop oneServer () () n = .ok (serving
      { loop with
        eventLoop := loop.eventLoop.queueInLoop true (.connectionDestroyed (.server () n)) }
      { server with connections := Function.update server.connections (server.getName n) none }
      conns) := by
  rw [removeConnectionInLoop, ensure_of (by rfl), ok_bind, TcpServer.removeConnectionInLoop,
    ensure_of (by exact hname), ok_bind, ok_bind]
  split
  · rename_i hnone
    cases hc.symm.trans hnone
  · rename_i c' hc'
    cases hc.symm.trans hc'
    rw [serving_putServer, queueInLoop, serving_setLoop]
    rfl

theorem close_step {c c' : TcpConnection Empty} (hc : conns (.server () n) = some ⟨(), c⟩)
    (hclose : { c with state := .kDisconnected }.disableAll = .ok c') (hloop : c'.loop = {})
    (hname : server.connections (server.getName n) ≠ none) : step oneServer (serving
      { phase := .handling (some (.connection (.server () n))) [.readCallback] [] } server conns)
      (.callback () .eof 0) = .ok (serving
        ⟨{ pendingFunctors := [.connectionDestroyed (.server () n)] },
          .handling (some (.connection (.server () n))) [] [], .outside⟩
        { server with connections := Function.update server.connections (server.getName n) none }
        (Function.update conns (.server () n) (some ⟨(), c'⟩))) := by
  rw [step, ensure_of (by rfl), ok_bind]
  show handleClose ((serving _ server conns).setLoop () _) oneServer () (.server () n) = _
  rw [serving_setLoop, handleClose, serving_runConn hc hclose hloop, ok_bind, removeConnection,
    if_pos (by rfl), serving_removeConnectionInLoop (Function.update_self ..) hname]
  rfl

theorem closePass_run {c : TcpConnection Empty} (hc : conns (.server () n) = some ⟨(), c⟩)
    (hopen : Open c) (hname : server.connections (server.getName n) ≠ none) :
    ∃ o, run (step oneServer) (serving {} server conns) (closePass n) = .ok (serving {}
      { server with connections := Function.update server.connections (server.getName n) none }
      (Function.update conns (.server () n) o)) := by
  obtain ⟨hreg, c', c'', hclose, hloop, hdestroy, hloop'⟩ := hopen
  refine ⟨some ⟨(), c''⟩, ?_⟩
  have hbegins := @channel_begins server conns (.connection (.server () n)) ⟨_, hc, rfl, hreg⟩
  have hstep := close_step hc hclose hloop hname
  let value : TcpServer Nat := { server with
    connections := Function.update server.connections (server.getName n) none }
  have hfunctor : step oneServer (serving
      ⟨{ callingPendingFunctor := true }, .running [] [.connectionDestroyed (.server () n)],
        .outside⟩ value (Function.update conns (.server () n) (some ⟨(), c'⟩)))
      (.runFunctor () 0) = .ok (serving
        ⟨{ callingPendingFunctor := true }, .running [.connectionDestroyed (.server () n)] [],
          .outside⟩ value (Function.update conns (.server () n) (some ⟨(), c''⟩))) := by
    rw [step, ensure_of (by rfl), ok_bind]
    show runConn ((serving _ value _).setLoop () _) () (.server () n) _ = _
    rw [serving_setLoop, serving_runConn (Function.update_self ..) hdestroy hloop',
      Function.update_idem]
    rfl
  exact run_append_ok.mpr ⟨_, hbegins, run_cons_ok.mpr ⟨_, hstep, run_append_ok.mpr
    ⟨_, functors_begin _, run_cons_ok.mpr ⟨_, hfunctor, run_singleton.trans (pass_ends _)⟩⟩⟩⟩

/-! ### Many passes -/

/-- Connections 1 to `n` were accepted, and all but `m` may have been closed. -/
structure Served (m n : Nat) (server : TcpServer Nat)
    (conns : ConnId Unit Empty → Option (ReactorConn Unit)) : Prop where
  name : server.name = []
  hostPort : server.hostPort = (oneServer.listenAddr ()).toHostPort
  next : server.nextConnId = n + 1
  named : ∀ name k, server.connections name = some k → name = server.getName k ∧ k ≤ n
  kept : 0 < m → m ≤ n → ∃ c, conns (.server () m) = some ⟨(), c⟩ ∧ Open c

theorem Served.getName (h : Served m n server conns) (k : Nat) : server.getName k =
    TcpServer.connNameOf [] (oneServer.listenAddr ()).toHostPort k := by
  rw [TcpServer.getName, h.name, h.hostPort]

theorem Served.accept (h : Served m n server conns) {c : TcpConnection Empty} (hopen : Open c) :
    Served m (n + 1) (server.newConnection server.nextConnId)
      (Function.update conns (.server () server.nextConnId) (some ⟨(), c⟩)) where
  name := h.name
  hostPort := h.hostPort
  next := congrArg Nat.succ h.next
  named name k hk := by
    have hk : Function.update server.connections server.connName (some server.nextConnId) name =
      some k := hk
    by_cases hname : name = server.connName
    · subst hname
      rw [Function.update_self] at hk
      cases hk
      exact ⟨rfl, Nat.le_of_eq h.next⟩
    · rw [Function.update_of_ne hname] at hk
      have hk := h.named name k hk
      exact ⟨hk.1, Nat.le_succ_of_le hk.2⟩
  kept hpos hm := by
    by_cases he : m = server.nextConnId
    · subst he
      exact ⟨c, Function.update_self .., hopen⟩
    · have hle : m ≤ n := by
        rw [h.next] at he
        omega
      rw [Function.update_of_ne fun hconn => he (by cases hconn; rfl)]
      exact h.kept hpos hle

theorem Served.close (h : Served m n server conns) {k : Nat} (hk : k ≠ m) (name : Name)
    (o : Option (ReactorConn Unit)) : Served m n
      { server with connections := Function.update server.connections name none }
      (Function.update conns (.server () k) o) where
  name := h.name
  hostPort := h.hostPort
  next := h.next
  named name' k' hname' := by
    have hname' : Function.update server.connections name none name' = some k' := hname'
    by_cases he : name' = name
    · rw [he, Function.update_self] at hname'
      cases hname'
    · rw [Function.update_of_ne he] at hname'
      exact h.named name' k' hname'
  kept hpos hm := by
    rw [Function.update_of_ne fun hconn => hk (by cases hconn; rfl)]
    exact h.kept hpos hm

theorem Served.serve (h : Served m n server conns) (hn : n + 1 < 2 ^ 31) :
    ∃ server' conns', Served m (n + 1) server' conns' ∧
      run (step oneServer) (serving {} server conns) (serve m (n + 1)) =
        .ok (serving {} server' conns') := by
  obtain ⟨c, hopen, hpass⟩ := @acceptPass_run server conns (h.next ▸ hn)
  have haccept := h.accept hopen
  rw [Reactor.serve]
  split
  · rw [List.append_nil]
    exact ⟨_, _, haccept, hpass⟩
  · rename_i hne
    rw [h.next] at haccept hpass
    have hname : (server.newConnection (n + 1)).connections
        ((server.newConnection (n + 1)).getName (n + 1)) = some (n + 1) := by
      rw [← h.next]
      exact Function.update_self ..
    obtain ⟨o, hclose⟩ := closePass_run (Function.update_self ..) hopen (by rw [hname]; nofun)
    exact ⟨_, _, haccept.close hne _ o, run_append_ok.mpr ⟨_, hpass, hclose⟩⟩

theorem serve_run (hn : n < 2 ^ 31) : ∃ server conns, Served m n server conns ∧
    run (step oneServer) (init oneServer) ((List.range' 1 n).flatMap (serve m)) =
      .ok (serving {} server conns) := by
  induction n with
  | zero =>
    refine ⟨.init [] (oneServer.listenAddr ()), fun _ => none,
      ⟨rfl, rfl, rfl, fun name k hk => ?_, fun hpos hm => ?_⟩, rfl⟩
    · cases hk
    · omega
  | succ n ih =>
    obtain ⟨server, conns, h, hrun⟩ := ih (Nat.lt_of_succ_lt hn)
    obtain ⟨server', conns', h', hpass⟩ := h.serve hn
    refine ⟨server', conns', h', ?_⟩
    rw [List.range'_1_concat, List.flatMap_append, List.flatMap_singleton, Nat.add_comm 1 n]
    exact run_append_ok.mpr ⟨_, hrun, hpass⟩

theorem room_oneServer : TcpServer.room (oneServer.listenAddr ()).toHostPort = 8 := by
  decide +kernel

theorem length_oneServer : (oneServer.listenAddr ()).toHostPort.length < 29 := by
  decide +kernel

/-- Where nothing else refers to a connection, those that exist are in the map. -/
theorem entry_of_held (hwithin : ∀ k, loop.within ≠ .inserting () k) (hbound : loop.bound = [])
    {k : Nat} (hheld : (serving loop server conns).Held (.server () k)) :
    ∃ name, server.connections name = some k := by
  rcases hheld with (hname | ⟨l, hl⟩) | hcopy | ⟨l, f, hf, -⟩
  · exact hname
  · exact absurd hl (hwithin k)
  · cases hcopy
  · have hf : f ∈ loop.bound := hf
    rw [hbound] at hf
    cases hf

theorem Served.acceptPass_along (h : Served m n server conns) (hn : n + 1 < 10 ^ 8) :
    Along (step oneServer) FreshName (serving {} server conns) acceptPass := by
  have hsplit : acceptPass = [.poll () [(.acceptor (), POLLIN)], .handleEvent () false] ++
      [.newConnection () () false, .insert (), .endEvent (), .doPendingFunctor (),
        .endPass ()] := rfl
  rw [hsplit, along_append]
  refine ⟨⟨trivial, fun t _ => ⟨trivial, fun u _ => trivial⟩⟩, fun t ht => ⟨?_, ?_⟩⟩
  · cases (@channel_begins server conns (.acceptor ()) rfl).symm.trans ht
    intro k hheld hname
    obtain ⟨name, hk⟩ := entry_of_held (fun k hk => by cases hk) rfl hheld
    have hk := (h.named name k hk).2
    have hname : server.getName k = server.getName server.nextConnId := hname
    rw [h.getName, h.getName, h.next] at hname
    have hsame := TcpServer.connNameOf_inj length_oneServer
      (by rw [room_oneServer]; omega) (by rw [room_oneServer]; omega) hname
    omega
  · exact fun u _ => ⟨trivial, fun u _ => ⟨trivial, fun u _ => ⟨trivial, fun u _ =>
      ⟨trivial, fun u _ => trivial⟩⟩⟩⟩

/-- Only an accept has to meet the condition. -/
theorem closePass_along (s : Reactor Unit Unit Empty Empty) :
    Along (step oneServer) FreshName s (closePass n) :=
  ⟨trivial, fun _ _ => ⟨trivial, fun _ _ => ⟨trivial, fun _ _ => ⟨trivial, fun _ _ =>
    ⟨trivial, fun _ _ => ⟨trivial, fun _ _ => ⟨trivial, fun _ _ => trivial⟩⟩⟩⟩⟩⟩⟩

theorem serve_along (hn : n < 10 ^ 8) : Along (step oneServer) FreshName (init oneServer)
    ((List.range' 1 n).flatMap (serve m)) := by
  induction n with
  | zero => trivial
  | succ n ih =>
    rw [List.range'_1_concat, List.flatMap_append, List.flatMap_singleton, Nat.add_comm 1 n,
      along_append]
    refine ⟨ih (Nat.lt_of_succ_lt hn), fun t ht => ?_⟩
    obtain ⟨server, conns, h, hrun⟩ := @serve_run m n (by omega)
    cases hrun.symm.trans ht
    rw [serve, along_append]
    refine ⟨h.acceptPass_along hn, fun u _ => ?_⟩
    split
    · trivial
    · exact closePass_along u

/-- Up to here each connection has a name of its own. -/
theorem channels_exist_sample : ∃ s, run (step oneServer) (init oneServer)
      ((List.range' 1 99999999).flatMap (serve 10000000)) = .ok s ∧
    ChannelsExist oneServer s := by
  obtain ⟨server, conns, -, hrun⟩ := @serve_run 10000000 99999999 (by decide)
  exact ⟨_, hrun, channels_exist hrun (serve_along (by decide))⟩

/-- Connection number 100000000 gets the name of number 10000000, the only one that is still
open. `connections_` lets go of that one, which is destroyed with its channel registered. -/
theorem registered_channel_destroyed : ∃ s, run (step oneServer) (init oneServer)
      ((List.range' 1 99999999).flatMap (serve 10000000) ++ acceptPass) = .ok s ∧
    s.Registered oneServer () (.connection (.server () 10000000)) ∧
    ¬ s.Exists (.connection (.server () 10000000)) := by
  obtain ⟨server, conns, h, hrun⟩ := @serve_run 10000000 99999999 (by decide)
  obtain ⟨c, hopen, hpass⟩ := @acceptPass_run server conns (by rw [h.next]; decide)
  have hall := h.accept hopen
  refine ⟨serving {} (server.newConnection server.nextConnId)
    (Function.update conns (.server () server.nextConnId) (some ⟨(), c⟩)), ?_, ?_, ?_⟩
  · exact run_append_ok.mpr ⟨_, hrun, hpass⟩
  · obtain ⟨c', hc', hopen'⟩ := hall.kept (by decide) (by decide)
    exact ⟨_, hc', rfl, hopen'.registered⟩
  · rintro ⟨-, hheld⟩
    obtain ⟨name, hname⟩ := entry_of_held (fun k hk => by cases hk) rfl hheld
    have hsame : (server.newConnection server.nextConnId).getName 10000000 =
        server.connName := by
      have hcollides := @TcpServer.connNameOf_collides []
        (oneServer.listenAddr ()).toHostPort length_oneServer
      rw [room_oneServer] at hcollides
      rw [hall.getName, TcpServer.connName, h.name, h.hostPort, h.next]
      exact hcollides.symm
    rw [(hall.named name _ hname).1, hsame] at hname
    have hlast : Function.update server.connections server.connName (some server.nextConnId)
      server.connName = some 10000000 := hname
    rw [Function.update_self, h.next] at hlast
    exact absurd (Option.some_inj.mp hlast) (by decide)

end

end Reactor

end Summer.Net
