import Summer.Net.ReactorClients

/-!
# What the steps of servers and clients preserve

`Sound` says that every connection that may be registered is kept by someone, that no two that
exist have one name, that a loop dispatches only what is its own, and that the connectors are in
order. An exempt connection is one that a functor which is being called no longer keeps. There is
one lemma for each operation of the steps.
-/
namespace Summer.Net

open Summer.Lib

set_option linter.unusedSectionVars false

variable {L S C T : Type}

namespace Reactor

/-- A number was given to the connection. -/
def Numbered (s : Reactor L S C T) : ConnId S C → Prop
  | .server server n => n < (s.servers server).nextConnId
  | .client client n => n < (s.clients client).nextConnId

variable [DecidableEq L] [DecidableEq S] [DecidableEq C]

/-- What holds between two steps, and without an exempt connection in every state reached. -/
structure Sound (g : Layout L S C) (ex : Option (ConnId S C)) (s : Reactor L S C T) : Prop where
  accounted : s.Accounted ex
  dispatches : s.Dispatches
  clients : ∀ client, s.ClientSound g client
  numbered : ∀ conn, s.conns conn ≠ none → s.Numbered conn

variable {g : Layout L S C} {s s' : Reactor L S C T} {ex : Option (ConnId S C)} {l : L}
  {conn : ConnId S C} {client : C} {server : S} {n : Nat}

theorem init_sound : Sound g none (init g : Reactor L S C T) where
  accounted := by
    have hempty : ∀ server name,
        ((init g : Reactor L S C T).servers server).connections name = none := fun _ _ => rfl
    refine ⟨fun _ _ => nofun, fun _ _ => nofun, fun server name n hname => ?_, ?_⟩
    · rw [hempty] at hname
      cases hname
    · rintro server n n' ((⟨name, hname⟩ | ⟨l, hl⟩) | hcopy | ⟨l, f, hf, -⟩) - -
      · rw [hempty] at hname
        cases hname
      · cases hl
      · cases hcopy
      · cases hf
  dispatches := ⟨fun _ => List.nodup_nil, fun l conn hl => by rcases hl with hl | hl <;> cases hl⟩
  clients client :=
    ⟨rfl, .inl Connector.init_resting, rfl, nofun, fun hne => absurd rfl hne, trivial,
      nofun, nofun⟩
  numbered _ hne := absurd rfl hne

/-- A registered connection is kept. -/
theorem Sound.held (h : Sound g none s) {c : ReactorConn L} (hc : s.conns conn = some c)
    (hreg : c.conn.Registered) : s.Held conn := by
  rcases h.accounted.kept conn c hc with hremoved | hkept | hnone
  · exact absurd hremoved hreg.not_removed
  · exact hkept.held
  · cases hnone

/-! ## Queueing and the functions of the objects -/

theorem Sound.weaken (h : Sound g none s) : Sound g ex s :=
  ⟨h.accounted.weaken, h.dispatches, h.clients, h.numbered⟩

/-- What is exempt is kept after all. -/
theorem Sound.strengthen (h : Sound g ex s) (hkept : ∀ conn, ex = some conn → s.Kept conn) :
    Sound g none s := by
  refine ⟨⟨fun conn c hc => ?_, h.accounted.staged, h.accounted.named, h.accounted.distinct⟩,
    h.dispatches, h.clients, h.numbered⟩
  rcases h.accounted.kept conn c hc with hremoved | hk | hex
  · exact .inl hremoved
  · exact .inr (.inl hk)
  · exact .inr (.inl (hkept conn hex))

section

variable {e : EventLoop (ReactorFunctor S C)} {f : ReactorFunctor S C}

theorem Sound.push (h : Sound g ex s)
    (he : e.pendingFunctors = (s.loops l).eventLoop.pendingFunctors ++ [f])
    (hheld : ∀ server n, f.conn = some (.server server n) → s.Held (.server server n))
    (hreset : ∀ client, f ≠ .resetChannel client) :
    Sound g ex (s.setLoop l { s.loops l with eventLoop := e }) where
  accounted := h.accounted.push he hheld
  dispatches := h.dispatches.narrow (.of_phase rfl)
  clients client := (h.clients client).push he (hreset client)
  numbered := h.numbered

theorem Sound.deliver (h : Sound g ex s) {fs : List (ReactorFunctor S C)}
    (hheld : ∀ f ∈ fs, ∀ server n, f.conn = some (.server server n) →
      s.Held (.server server n)) (hreset : ∀ f ∈ fs, ∀ client, f ≠ .resetChannel client) :
    Sound g ex (s.deliver l fs) := by
  induction fs generalizing s with
  | nil => exact h
  | cons f fs ih =>
    have hpush : Sound g ex (s.queueInLoop l true f) :=
      h.push (EventLoop.queueInLoop_pendingFunctors ..) (hheld f List.mem_cons_self)
        (hreset f List.mem_cons_self)
    refine ih hpush (fun f' hf' server n hconn => ?_)
      fun f' hf' => hreset f' (List.mem_cons_of_mem _ hf')
    exact held_push (EventLoop.queueInLoop_pendingFunctors ..)
      (hheld f' (List.mem_cons_of_mem _ hf') server n hconn)

end

/-- What a connection queues is bound with it. -/
theorem ofConnection_conn {f : Functor Empty} {f' : ReactorFunctor S C}
    (h : Functor.ofConnection conn f = some f') :
    f'.conn = some conn ∧ ∀ client, f' ≠ .resetChannel client := by
  cases f <;> cases h <;> exact ⟨rfl, nofun⟩

theorem runConn_ok {f : TcpConnection Empty → Except Fault (TcpConnection Empty)}
    (h : s.runConn l conn f = .ok s') : ∃ c value, s.conns conn = some c ∧ c.loop = l ∧
      f c.conn = .ok value ∧ s' = s.setConn conn l value := by
  rw [runConn] at h
  split at h
  · cases h
  · rename_i c hc
    obtain ⟨_, hloop, h⟩ := bind_eq_ok.mp h
    obtain ⟨value, hvalue, h⟩ := bind_eq_ok.mp h
    cases h
    exact ⟨c, value, hc, ensure_eq_ok.mp hloop, hvalue, rfl⟩

/-- A connection with a number is put in. -/
theorem numbered_putConn (h : ∀ conn, s.conns conn ≠ none → s.Numbered conn)
    {value : TcpConnection Empty} (hnumber : s.Numbered conn) :
    ∀ conn', (s.putConn conn l value).conns conn' ≠ none →
      (s.putConn conn l value).Numbered conn' := by
  intro conn' hne
  by_cases he : conn' = conn
  · rw [he]
    exact hnumber
  · rw [putConn_of_ne he] at hne
    exact h conn' hne

theorem Sound.putConn (h : Sound g ex s) {c : ReactorConn L} {value : TcpConnection Empty}
    (hc : s.conns conn = some c) (hloop : c.loop = l) (hstays : c.conn.Stays value) :
    Sound g ex (s.putConn conn l value) where
  accounted := by
    refine h.accounted.putConn hstays.staged ?_
    rcases h.accounted.kept conn c hc with hremoved | hkept
    · exact .inl (hstays.removed hremoved)
    · exact .inr hkept
  dispatches := by
    refine h.dispatches.putConn fun l' hl' => ?_
    obtain ⟨c', hc', hloop', hreg'⟩ := h.dispatches.connection l' conn hl'
    cases hc.symm.trans hc'
    exact ⟨hloop'.symm.trans hloop, hstays.registered hreg'⟩
  clients client := (h.clients client).putConn
  numbered := numbered_putConn h.numbered (h.numbered conn (by rw [hc]; nofun))

/-- What a connection that exists has queued is moved to the queue of its loop. -/
theorem Sound.deliverConn (h : Sound g ex s) (hheld : s.Held conn) (fs : List (Functor Empty)) :
    Sound g ex (s.deliver l (fs.filterMap (Functor.ofConnection conn))) := by
  refine h.deliver (fun f hf server n hconn => ?_) fun f hf => ?_
  · obtain ⟨f', -, hf'⟩ := List.mem_filterMap.mp hf
    cases (ofConnection_conn hf').1.symm.trans hconn
    exact hheld
  · obtain ⟨f', -, hf'⟩ := List.mem_filterMap.mp hf
    exact (ofConnection_conn hf').2

/-- A function of a connection that exists, which neither establishes nor destroys it. -/
theorem Sound.setConn (h : Sound g ex s) {c : ReactorConn L} {value : TcpConnection Empty}
    (hc : s.conns conn = some c) (hloop : c.loop = l) (hstays : c.conn.Stays value)
    (hheld : s.Held conn) : Sound g ex (s.setConn conn l value) := by
  refine (h.putConn hc hloop hstays).deliverConn ?_ _
  exact hheld

theorem runConnector_ok {r : Except Fault Connector} (h : s.runConnector g client r = .ok s') :
    ∃ k, r = .ok k ∧ s' = s.setClient g client ((s.clients client).setConnector k) := by
  obtain ⟨k, hk, h⟩ := bind_eq_ok.mp h
  cases h
  exact ⟨k, hk, rfl⟩

/-- A client counts no lower than before. -/
theorem Numbered.putClient (h : s.Numbered conn) {value : TcpClient}
    (hnext : (s.clients client).nextConnId ≤ value.nextConnId) :
    (s.putClient client value).Numbered conn := by
  cases conn with
  | server server n => exact h
  | client client' n =>
    rw [Numbered]
    by_cases he : client' = client
    · subst he
      rw [putClient_self]
      exact Nat.lt_of_lt_of_le h hnext
    · rw [putClient_of_ne he]
      exact h

/-- A function of the client, which lets go of no connection but the one that is exempt. -/
theorem sound_setClient {value : TcpClient} (haccounted : s.Accounted ex)
    (hdispatches : s.Dispatches) (hothers : ∀ client', client' ≠ client → s.ClientSound g client')
    (hnumbered : ∀ conn, s.conns conn ≠ none → s.Numbered conn)
    (hkeeps : ∀ n, (s.clients client).connection = some n →
      value.connection = some n ∨ ex = some (.client client n))
    (hnext : (s.clients client).nextConnId ≤ value.nextConnId)
    (hown : (s.setClient g client value).ClientSound g client) :
    Sound g ex (s.setClient g client value) where
  accounted := by
    refine (haccounted.putClient hkeeps).deliver fun f hf server n hconn => ?_
    obtain ⟨f', -, hf'⟩ := List.mem_map.mp hf
    cases f' <;> cases hf' <;> cases hconn
  dispatches := by
    have hput : (s.putClient client value).Dispatches :=
      ⟨hdispatches.nodup, hdispatches.connection⟩
    exact hput.deliver
  clients client' := by
    by_cases he : client' = client
    · rw [he]
      exact hown
    · exact (hothers client' he).setClient_of_ne he
  numbered conn hne := by
    rw [Reactor.setClient, deliver_conns] at hne
    have hn := (hnumbered conn hne).putClient hnext
    cases conn with
    | server server n =>
      rw [Numbered, Reactor.setClient, deliver_servers]
      exact hn
    | client client' n =>
      rw [Numbered, Reactor.setClient, deliver_clients]
      exact hn

theorem Sound.setClient (h : Sound g ex s) {value : TcpClient}
    (hkeeps : ∀ n, (s.clients client).connection = some n →
      value.connection = some n ∨ ex = some (.client client n))
    (hnext : (s.clients client).nextConnId ≤ value.nextConnId)
    (hown : (s.setClient g client value).ClientSound g client) :
    Sound g ex (s.setClient g client value) :=
  sound_setClient h.accounted h.dispatches (fun client' _ => h.clients client') h.numbered hkeeps
    hnext hown

/-- A function of the connector. -/
theorem Sound.setConnector (h : Sound g ex s) {k : Connector}
    (hown : (s.setClient g client ((s.clients client).setConnector k)).ClientSound g client) :
    Sound g ex (s.setClient g client ((s.clients client).setConnector k)) :=
  h.setClient (fun _ hn => .inl hn) (Nat.le_refl _) hown

/-! ## Moving on -/

/-- A loop goes on, with the same functors. -/
theorem Sound.setLoop (h : Sound g ex s) {x : ReactorLoop S C}
    (hwithin : x.within = (s.loops l).within) (hqueue : x.queue = (s.loops l).queue)
    (hbound : ∀ f ∈ x.bound, f ∈ (s.loops l).bound) (hx : Narrows (s.loops l) x) :
    Sound g ex (s.setLoop l x) where
  accounted := h.accounted.setLoop ⟨inside_of_eq hwithin,
    fun _ hf _ _ => .inl (hqueue ▸ hf), fun f hf _ _ => .inl (hbound f hf)⟩
  dispatches := h.dispatches.narrow hx
  clients client := (h.clients client).narrow (by rw [hqueue]) (by rw [hwithin]; exact id) hx
  numbered := h.numbered

/-- A loop enters or leaves a function of a client. -/
theorem Sound.setWithin (h : Sound g ex s) {within : ReactorAt S C}
    (hleaves : ∀ server n, (s.loops l).within ≠ .inserting server n)
    (henters : ∀ server n, within ≠ .inserting server n)
    (hclients : ∀ client, WithinClient (s.clients client) client within) :
    Sound g ex (s.setWithin l within) where
  accounted := h.accounted.setLoop ⟨⟨fun server n hl => absurd hl (hleaves server n),
    fun server n hl => absurd hl (henters server n)⟩, fun _ hf _ _ => .inl hf,
    fun _ hf _ _ => .inl hf⟩
  dispatches := h.dispatches.narrow (.of_phase rfl)
  clients client := (h.clients client).narrow rfl (fun _ => hclients client) (.of_phase rfl)
  numbered := h.numbered

/-- A loop after it has taken the next functor of its batch. -/
structure Popped (x y : ReactorLoop S C) (f : ReactorFunctor S C) : Prop where
  queue : x.queue = f :: y.queue
  bound : y.bound = x.bound
  called : f ∈ y.bound
  narrows : Narrows x y

theorem popped_of_running {x : ReactorLoop S C} {called functors : List (ReactorFunctor S C)}
    {f : ReactorFunctor S C} (hphase : x.phase = .running called (f :: functors)) :
    Popped x { x with phase := .running (called ++ [f]) functors } f := by
  have hx : x.queue = f :: (functors ++ x.eventLoop.pendingFunctors) :=
    ReactorLoop.queue_running hphase
  have hcalled : x.called = called := by rw [ReactorLoop.called, hphase]
  refine ⟨hx, ?_, ?_, List.nil_sublist _, fun _ hc => by cases hc⟩
  · rw [ReactorLoop.bound, ReactorLoop.bound, hx, hcalled]
    show called ++ [f] ++ (functors ++ x.eventLoop.pendingFunctors) = _
    rw [List.append_assoc]
    rfl
  · exact List.mem_append_left _ (List.mem_append_right _ List.mem_cons_self)

section

variable {called functors : List (ReactorFunctor S C)} {f : ReactorFunctor S C}

/-- The next functor of the batch is taken; the connection that it ends is no longer kept by it. -/
theorem Accounted.pop (h : s.Accounted none)
    (hphase : (s.loops l).phase = .running called (f :: functors)) :
    (s.setPhase l (.running (called ++ [f]) functors)).Accounted f.ends := by
  have hpop := popped_of_running hphase
  refine h.weaken.setLoop ⟨inside_of_eq rfl, fun f' hf' conn hends => ?_,
    fun _ hf' _ _ => .inl (hpop.bound ▸ hf')⟩
  rw [hpop.queue] at hf'
  rcases List.mem_cons.mp hf' with rfl | hf'
  · exact .inr hends
  · exact .inl hf'

theorem Sound.pop (h : Sound g none s)
    (hphase : (s.loops l).phase = .running called (f :: functors))
    (hreset : ∀ client, f ≠ .resetChannel client) :
    Sound g f.ends (s.setPhase l (.running (called ++ [f]) functors)) where
  accounted := h.accounted.pop hphase
  dispatches := h.dispatches.narrow (popped_of_running hphase).narrows
  clients client := by
    have hpop := popped_of_running hphase
    refine (h.clients client).narrow ?_ id hpop.narrows
    rw [hpop.queue, List.count_cons_of_ne (hreset client)]
  numbered := h.numbered

/-- The functor that was taken refers to its connection until its batch ends. -/
theorem held_pop (hphase : (s.loops l).phase = .running called (f :: functors))
    (hf : f.conn = some conn) :
    (s.setPhase l (.running (called ++ [f]) functors)).Held conn := by
  refine .inr (.inr ⟨l, f, ?_, hf⟩)
  rw [setPhase, setLoop_self]
  exact (popped_of_running hphase).called

end

/-! ## Closing -/

/-- The number and the map of a server change. -/
theorem Sound.putServer (h : Sound g ex s) {nextConnId : Nat} {connections : Name → Option Nat}
    (hnext : (s.servers server).nextConnId ≤ nextConnId)
    (hkeeps : ∀ name n, (s.servers server).connections name = some n →
      (∃ name', connections name' = some n) ∨ s.Ending (.server server n))
    (hadds : ∀ name n, connections name = some n →
      name = (s.servers server).getName n ∧ s.Held (.server server n)) :
    Sound g ex (s.putServer server { s.servers server with
      nextConnId := nextConnId, connections := connections }) where
  accounted := h.accounted.putServer hkeeps hadds
  dispatches := ⟨h.dispatches.nodup, h.dispatches.connection⟩
  clients client := (h.clients client).putServer
  numbered conn hne := by
    have hn := h.numbered conn hne
    cases conn with
    | client client n => exact hn
    | server server' n =>
      by_cases he : server' = server
      · subst he
        rw [Numbered, putServer_self]
        exact Nat.lt_of_lt_of_le hn hnext
      · rw [Numbered, putServer_of_ne he]
        exact hn

/-- The entry under a name is that of the connection with the name that exists. -/
theorem Sound.entry (h : Sound g ex s) (hheld : s.Held (.server server n)) {k : Nat}
    (hk : (s.servers server).connections ((s.servers server).getName n) = some k) : k = n :=
  h.accounted.distinct server k n (.inl (.inl ⟨_, hk⟩)) hheld
    (h.accounted.named server _ k hk).symm

theorem Sound.erase (h : Sound g ex s) (hheld : s.Held (.server server n))
    (hending : s.Ending (.server server n)) :
    Sound g ex (s.putServer server { s.servers server with
      connections := Function.update (s.servers server).connections
        ((s.servers server).getName n) none }) := by
  refine h.putServer (Nat.le_refl _) (fun name k hk => ?_) fun name k hk => ?_
  · by_cases hname : name = (s.servers server).getName n
    · subst hname
      rw [h.entry hheld hk]
      exact .inr hending
    · exact .inl ⟨name, (Function.update_of_ne hname ..).trans hk⟩
  · by_cases hname : name = (s.servers server).getName n
    · rw [hname, Function.update_self] at hk
      cases hk
    · rw [Function.update_of_ne hname] at hk
      exact ⟨h.accounted.named server name k hk, .inl (.inl ⟨name, hk⟩)⟩

theorem Sound.insert (h : Sound g ex s) (hheld : s.Held (.server server n)) :
    Sound g ex (s.putServer server { s.servers server with
      connections := Function.update (s.servers server).connections
        ((s.servers server).getName n) (some n) }) := by
  refine h.putServer (Nat.le_refl _) (fun name k hk => ?_) fun name k hk => ?_
  · by_cases hname : name = (s.servers server).getName n
    · subst hname
      rw [h.entry hheld hk]
      exact .inl ⟨_, Function.update_self ..⟩
    · exact .inl ⟨name, (Function.update_of_ne hname ..).trans hk⟩
  · by_cases hname : name = (s.servers server).getName n
    · rw [hname, Function.update_self] at hk
      cases hk
      exact ⟨hname, hheld⟩
    · rw [Function.update_of_ne hname] at hk
      exact ⟨h.accounted.named server name k hk, .inl (.inl ⟨name, hk⟩)⟩

theorem removeConnectionInLoop_ok (h : s.removeConnectionInLoop g l server n = .ok s') :
    ∃ c, s.conns (.server server n) = some c ∧ s' = (s.queueInLoop c.loop (decide (c.loop = l))
      (.connectionDestroyed (.server server n))).putServer server { s.servers server with
        connections := Function.update (s.servers server).connections
          ((s.servers server).getName n) none } := by
  obtain ⟨_, -, h⟩ := bind_eq_ok.mp h
  obtain ⟨value, hvalue, h⟩ := bind_eq_ok.mp h
  obtain ⟨_, -, hvalue⟩ := bind_eq_ok.mp hvalue
  cases hvalue
  split at h
  · cases h
  · rename_i c hc
    cases h
    exact ⟨c, hc, rfl⟩

/-- The entry that is erased is that of the connection, since no other that exists has its name. -/
theorem Sound.removeConnectionInLoop (h : Sound g ex s) (hex : ∀ conn, ex = some conn →
      conn = .server server n) (hheld : s.Held (.server server n))
    (hs : s.removeConnectionInLoop g l server n = .ok s') : Sound g none s' := by
  obtain ⟨c, hc, rfl⟩ := removeConnectionInLoop_ok hs
  have hpending : ((s.loops c.loop).eventLoop.queueInLoop (decide (c.loop = l))
      (.connectionDestroyed (.server server n))).pendingFunctors =
      (s.loops c.loop).eventLoop.pendingFunctors ++ [.connectionDestroyed (.server server n)] :=
    EventLoop.queueInLoop_pendingFunctors ..
  have hpush : Sound g ex (s.queueInLoop c.loop (decide (c.loop = l))
      (.connectionDestroyed (.server server n))) := by
    refine h.push hpending (fun server' n' hconn => ?_) nofun
    cases hconn
    exact hheld
  have hending : (s.queueInLoop c.loop (decide (c.loop = l))
      (.connectionDestroyed (.server server n))).Ending (.server server n) := by
    refine ⟨c.loop, .connectionDestroyed (.server server n), ?_, rfl⟩
    rw [queueInLoop, setLoop_self, queue_push hpending]
    exact List.mem_append_right _ List.mem_cons_self
  have hsound : Sound g none (s.queueInLoop c.loop (decide (c.loop = l))
      (.connectionDestroyed (.server server n))) :=
    hpush.strengthen fun conn hconn => by
      obtain rfl := hex conn hconn
      exact .inr hending
  refine hsound.erase ?_ hending
  exact held_push hpending hheld

/-- `TcpClient::removeConnection`, up to `restart`. -/
theorem Sound.removeClientConnection (h : Sound g none s) {value : TcpClient}
    (hwithin : (s.loops (g.clientLoop client)).within = .outside)
    (hs : (s.clients client).removeConnection n = .ok value) :
    Sound g none ((s.setClient g client value).setWithin (g.clientLoop client)
      (if value.retry = true ∧ value.connect = true then .restarting client else .outside)) := by
  obtain ⟨_, hconn, hs⟩ := bind_eq_ok.mp hs
  have hconn := ensure_eq_ok.mp hconn
  cases hs
  have hclient := h.clients client
  have hpending : ((s.clients client).loop.queueInLoop true
      (.connectionDestroyed n)).pendingFunctors = [.connectionDestroyed n] := by
    rw [EventLoop.queueInLoop_pendingFunctors, hclient.loop]
    rfl
  let value : TcpClient := { s.clients client with
    connection := none
    loop := (s.clients client).loop.queueInLoop true (.connectionDestroyed n) }
  have hown : (s.setClient g client value).ClientSound g client := by
    refine clientSound_setClient hclient.connector ?_ hclient.elsewhere (fun hne => absurd rfl hne)
      ?_ hclient.active hclient.current
    · show _ + ((s.clients client).loop.queueInLoop true
        (.connectionDestroyed n)).pendingFunctors.count .resetChannel = _
      rw [hpending, hclient.queue]
      rfl
    · rw [hwithin]
      trivial
  have hset : Sound g (some (.client client n)) (s.setClient g client value) := by
    refine h.weaken.setClient (fun n' hn' => .inr ?_) (Nat.le_refl _) hown
    cases hconn.symm.trans hn'
    rfl
  have hending : (s.setClient g client value).Ending (.client client n) := by
    refine ⟨g.clientLoop client, .connectionDestroyed (.client client n), ?_, rfl⟩
    rw [Reactor.setClient, queues_deliver.queue]
    refine List.mem_append_right _ (List.mem_map.mpr ⟨.connectionDestroyed n, ?_, rfl⟩)
    show _ ∈ ((s.clients client).loop.queueInLoop true (.connectionDestroyed n)).pendingFunctors
    rw [hpending]
    exact List.mem_cons_self
  have hsound : Sound g none (s.setClient g client value) :=
    hset.strengthen fun conn hex => by
      cases hex
      exact .inr hending
  refine hsound.setWithin (fun server k hl => ?_) (fun server k hl => ?_) fun client' => ?_
  · rw [Reactor.setClient, deliver_within] at hl
    cases hwithin.symm.trans hl
  · split at hl <;> cases hl
  · split
    · rintro rfl
      rw [Reactor.setClient, deliver_clients, putClient_self]
      exact ⟨hclient.connection (by rw [hconn]; simp), rfl⟩
    · trivial

theorem Sound.removeConnection (h : Sound g none s) (hheld : s.Held conn)
    (hwithin : (s.loops l).within = .outside) (hs : s.removeConnection g l conn = .ok s') :
    Sound g none s' := by
  cases conn with
  | server server n =>
    rw [Reactor.removeConnection] at hs
    split at hs
    · exact h.removeConnectionInLoop nofun hheld hs
    · cases hs
      refine h.push (EventLoop.queueInLoop_pendingFunctors ..) (fun server' n' hconn => ?_) nofun
      cases hconn
      exact hheld
  | client client n =>
    obtain ⟨_, hloop, hs⟩ := bind_eq_ok.mp hs
    obtain ⟨value, hvalue, hs⟩ := bind_eq_ok.mp hs
    obtain rfl := ensure_eq_ok.mp hloop
    cases hs
    exact h.removeClientConnection hwithin hvalue

/-- A connection that is dispatched closes. -/
theorem Sound.handleClose (h : Sound g none s) (hdispatching : s.Dispatching l (.connection conn))
    (hwithin : (s.loops l).within = .outside) (hs : s.handleClose g l conn = .ok s') :
    Sound g none s' := by
  obtain ⟨s₁, hs₁, hs⟩ := bind_eq_ok.mp hs
  obtain ⟨c, value, hc, hloop, hvalue, rfl⟩ := runConn_ok hs₁
  obtain ⟨c', hc', -, hreg⟩ := h.dispatches.connection l conn hdispatching
  cases hc.symm.trans hc'
  have hvalue := TcpConnection.disableAll_stage hvalue
  have hset : Sound g none (s.setConn conn l value) :=
    h.setConn hc hloop (hvalue.stays hreg.not_removed) (h.held hc hreg)
  refine hset.removeConnection ?_ ?_ hs
  · have hconns : (s.setConn conn l value).conns conn = some ⟨l, { value with loop := {} }⟩ := by
      rw [Reactor.setConn, deliver_conns, putConn_self]
    exact hset.held hconns ⟨hvalue.index, hvalue.events⟩
  · rw [Reactor.setConn, deliver_within]
    exact hwithin

/-! ## The functors -/

theorem Sound.connectionEstablished (h : Sound g ex s) (hheld : s.Held conn)
    (hs : s.runConn l conn (fun c => c.connectionEstablished) = .ok s') : Sound g ex s' := by
  obtain ⟨c, value, hc, hloop, hvalue, rfl⟩ := runConn_ok hs
  obtain ⟨hnot, hreg⟩ := TcpConnection.connectionEstablished_stage hvalue
  exact h.setConn hc hloop (hreg.stays hnot) hheld

/-- The loop dispatches nothing while it calls functors. -/
theorem Sound.connectionDestroyed (h : Sound g (some conn) s) (hheld : s.Held conn)
    (hidle : ∀ channel, ¬ s.Dispatching l channel)
    (hs : s.runConn l conn (fun c => c.connectionDestroyed) = .ok s') : Sound g none s' := by
  obtain ⟨c, value, hc, hloop, hvalue, rfl⟩ := runConn_ok hs
  have hremoved := TcpConnection.connectionDestroyed_stage (h.accounted.staged conn c hc) hvalue
  have hput : Sound g none (s.putConn conn l value) := by
    refine ⟨h.accounted.destroyed hremoved, h.dispatches.putConn fun l' hl' => ?_,
      fun client => (h.clients client).putConn,
      numbered_putConn h.numbered (h.numbered conn (by rw [hc]; nofun))⟩
    obtain ⟨c', hc', hloop', -⟩ := h.dispatches.connection l' conn hl'
    cases hc.symm.trans hc'
    obtain rfl := hloop'.symm.trans hloop
    exact absurd hl' (hidle _)
  refine hput.deliverConn ?_ _
  exact hheld

/-- `startInLoop` for a `connect()`, which changes the flags first, or a retry timer. -/
theorem Sound.runStart (h : Sound g ex s) {k₀ k : Connector} {e : Nat}
    (hsound : (s.clients client).connector.Sound → k₀.Sound)
    (hresets : k₀.resets = (s.clients client).connector.resets)
    (hstate : k₀.state = (s.clients client).connector.state)
    (hchannel : k₀.channel = (s.clients client).connector.channel)
    (hwithin : ∀ value, WithinClient value client (s.loops (g.clientLoop client)).within)
    (hs : k₀.startInLoop e = .ok k) :
    Sound g ex (s.setClient g client ((s.clients client).setConnector k)) :=
  h.setConnector ((h.clients client).startInLoop hsound hresets hstate hchannel hwithin hs)

theorem Sound.startInLoop (h : Sound g ex s) {e : Nat}
    (hwithin : ∀ value, WithinClient value client (s.loops (g.clientLoop client)).within)
    (hs : s.startInLoop g l client e = .ok s') : Sound g ex s' := by
  obtain ⟨_, -, hs⟩ := bind_eq_ok.mp hs
  obtain ⟨k, hk, rfl⟩ := runConnector_ok hs
  exact h.runStart id rfl rfl rfl hwithin hk

theorem Sound.callFunctor (h : Sound g none s) {called functors : List (ReactorFunctor S C)}
    {f : ReactorFunctor S C} {e : Nat} (hwithin : (s.loops l).within = .outside)
    (hphase : (s.loops l).phase = .running called (f :: functors))
    (hs : (s.setPhase l (.running (called ++ [f]) functors)).callFunctor g l e f = .ok s') :
    Sound g none s' := by
  have hwithin' : ∀ l', ((s.setPhase l (.running (called ++ [f]) functors)).loops l').within =
      (s.loops l').within := by
    intro l'
    by_cases he : l' = l
    · rw [he, setPhase, setLoop_self]
    · rw [setPhase, setLoop_of_ne he]
  have hheld : ∀ conn, f.conn = some conn →
      (s.setPhase l (.running (called ++ [f]) functors)).Held conn := fun conn =>
    held_pop hphase
  cases f with
  | connectionEstablished conn =>
    exact (h.pop hphase (by simp)).connectionEstablished (hheld conn rfl) hs
  | removeConnectionInLoop server n =>
    exact (h.pop hphase (by simp)).removeConnectionInLoop
      (fun conn hex => (Option.some_inj.mp hex).symm)
      (hheld _ rfl) hs
  | connectionDestroyed conn =>
    refine (h.pop hphase (by simp)).connectionDestroyed (hheld conn rfl) (fun channel hl => ?_) hs
    rw [Dispatching, setPhase, setLoop_self] at hl
    rcases hl with hl | hl <;> cases hl
  | writeCompleteCallback conn =>
    cases hs
    exact h.pop hphase (by simp)
  | startInLoop client =>
    obtain ⟨_, hloop, hs⟩ := bind_eq_ok.mp hs
    obtain rfl := ensure_eq_ok.mp hloop
    obtain ⟨k, hk, rfl⟩ := runConnector_ok hs
    refine (h.pop hphase (by simp)).runStart id rfl rfl rfl (fun value => ?_) hk
    rw [hwithin', hwithin]
    trivial
  | resetChannel client =>
    obtain ⟨k, hk, rfl⟩ := runConnector_ok hs
    cases hk
    have hpop := popped_of_running hphase
    refine sound_setClient (h.accounted.pop hphase) (h.dispatches.narrow hpop.narrows)
      (fun client' hne => ?_) h.numbered (fun _ hn => .inl hn) (Nat.le_refl _)
      ((h.clients client).resetChannel hphase hwithin)
    refine (h.clients client').narrow ?_ id hpop.narrows
    rw [hpop.queue, List.count_cons_of_ne fun he => hne (by cases he; rfl)]

/-! ## Dispatching -/

section

variable {current current' : Option (ChannelId S C)} {callbacks callbacks' : List EventCallback}
  {active : List (ChannelId S C × Events)} {e : EventLoop (ReactorFunctor S C)}

/-- A loop has channels to handle, which are its own. -/
theorem Sound.dispatch (h : Sound g ex s) {within : ReactorAt S C}
    (hidle : ∀ called functors, (s.loops l).phase ≠ .running called functors)
    (he : e.pendingFunctors = (s.loops l).eventLoop.pendingFunctors)
    (hwithin : within = (s.loops l).within) (hnodup : (active.map Prod.fst).Nodup)
    (hconnection : ∀ conn, .connection conn ∈ active.map Prod.fst ∨
      current = some (.connection conn) → ∃ c ∈ s.conns conn, c.loop = l ∧ c.conn.Registered)
    (hactive : ∀ client fd, .connector client fd ∈ active.map Prod.fst → l = g.clientLoop client ∧
      (s.clients client).connector.Trying fd ∧ (s.clients client).connector.state = .kConnecting)
    (hcurrent : ∀ client fd, current = some (.connector client fd) → l = g.clientLoop client ∧
      ∃ ch ∈ (s.clients client).connector.channel, ch.fd = fd) :
    Sound g ex (s.setLoop l ⟨e, .handling current callbacks active, within⟩) := by
  subst hwithin
  obtain ⟨hqueue, hbound⟩ := ReactorLoop.queue_idle hidle
  have hqueue' : (ReactorLoop.mk e (.handling current callbacks active) (s.loops l).within).queue =
      (s.loops l).queue := he.trans hqueue.symm
  have hbound' : (ReactorLoop.mk e (.handling current callbacks active) (s.loops l).within).bound =
      (s.loops l).bound := he.trans hbound.symm
  refine ⟨h.accounted.setLoop ⟨inside_of_eq rfl, fun _ hf _ _ => .inl (hqueue'.symm ▸ hf),
    fun _ hf _ _ => .inl (hbound' ▸ hf)⟩, h.dispatches.setLoop hnodup hconnection,
    fun client => ?_, h.numbered⟩
  exact (h.clients client).setLoop (by rw [hqueue']) id (hactive client) (hcurrent client)

/-- A dispatch goes on, or is over. -/
theorem Sound.proceed (h : Sound g ex s)
    (hphase : (s.loops l).phase = .handling current callbacks active)
    (hcurrent : ∀ channel, current' = some channel → current = some channel) :
    Sound g ex (s.setPhase l (.handling current' callbacks' active)) := by
  have hactive : (s.loops l).active = active.map Prod.fst := by rw [ReactorLoop.active, hphase]
  have hcur : (s.loops l).current = current := by rw [ReactorLoop.current, hphase]
  refine h.dispatch (by rw [hphase]; simp) rfl rfl (hactive ▸ h.dispatches.nodup l)
    (fun conn hconn => h.dispatches.connection l conn ?_) (fun client fd hmem => ?_)
    fun client fd hc => ?_
  · rw [Dispatching, hactive, hcur]
    exact hconn.imp_right (hcurrent _)
  · exact (h.clients client).active l fd (hactive ▸ hmem)
  · exact (h.clients client).current l fd (hcur.trans (hcurrent _ hc))

/-- `poll` reports channels that are registered. -/
theorem Sound.poll (h : Sound g none s) (hphase : (s.loops l).phase = .between)
    (hregistered : ∀ channel ∈ active.map Prod.fst, s.Registered g l channel)
    (hnodup : (active.map Prod.fst).Nodup) :
    Sound g none (s.setLoop l { s.loops l with
      eventLoop := (s.loops l).eventLoop.handleRead
      phase := .handling none [] active }) := by
  refine h.dispatch (by rw [hphase]; nofun) rfl rfl hnodup (fun conn hconn => ?_)
    (fun client fd hmem => ?_) nofun
  · rcases hconn with hmem | hc
    · obtain ⟨c, hc, hloop, hreg⟩ := hregistered _ hmem
      exact ⟨c, hc, hloop, (h.accounted.staged conn c hc).registered hreg⟩
    · cases hc
  · obtain ⟨hloop, hreg⟩ := hregistered _ hmem
    exact ⟨hloop.symm, (h.clients client).connector.watched hreg⟩

end

/-- The loop takes the next channel. -/
theorem Sound.take (h : Sound g none s) {channel : ChannelId S C} {revents : Events}
    {callbacks callbacks' : List EventCallback} {active : List (ChannelId S C × Events)}
    (hphase : (s.loops l).phase = .handling none callbacks ((channel, revents) :: active)) :
    Sound g none (s.setPhase l (.handling (some channel) callbacks' active)) := by
  have hactive : (s.loops l).active = channel :: active.map Prod.fst := by
    rw [ReactorLoop.active, hphase]
    rfl
  have hnodup := h.dispatches.nodup l
  rw [hactive] at hnodup
  refine h.dispatch (by rw [hphase]; simp) rfl rfl (List.nodup_cons.mp hnodup).2
    (fun conn hconn => h.dispatches.connection l conn (.inl ?_)) (fun client fd hmem => ?_)
    fun client fd hc => ?_
  · rw [hactive]
    rcases hconn with hmem | hc
    · exact List.mem_cons_of_mem _ hmem
    · rw [Option.some_inj.mp hc]
      exact List.mem_cons_self
  · refine (h.clients client).active l fd ?_
    rw [hactive]
    exact List.mem_cons_of_mem _ hmem
  · have hmem : .connector client fd ∈ (s.loops l).active := by
      rw [hactive, Option.some_inj.mp hc]
      exact List.mem_cons_self
    obtain ⟨hloop, htrying, -⟩ := (h.clients client).active l fd hmem
    exact ⟨hloop, _, htrying.watches.channel, rfl⟩

/-- The loop calls `handleEvent` of the channel of a connector. -/
theorem Sound.dispatchConnector (h : Sound g none s) {fd : Nat} {revents : Events}
    {isSelfConnect : Bool} {active : List (ChannelId S C × Events)} {k : Connector}
    (hwithin : (s.loops l).within = .outside)
    (hphase : (s.loops l).phase = .handling none [] ((.connector client fd, revents) :: active))
    (hk : (s.clients client).connector.handleEvent fd revents isSelfConnect = .ok k) :
    Sound g none (((s.setPhase l
      (.handling (some (.connector client fd)) [] active)).setClient g client
        ((s.clients client).setConnector k)).setWithin l
      (if (s.clients client).connector.handed.length < k.handed.length
        then .handingOver client fd else .outside)) := by
  have hactive : (s.loops l).active = .connector client fd :: active.map Prod.fst := by
    rw [ReactorLoop.active, hphase]
    rfl
  have hnodup := h.dispatches.nodup l
  rw [hactive] at hnodup
  obtain ⟨hloop, htrying, hstate⟩ := (h.clients client).active l fd
    (by rw [hactive]; exact List.mem_cons_self)
  have hnone := (h.clients client).no_connection (by rw [hstate]; simp)
  have hdispatched := htrying.watches.handleEvent_ok hstate hk
  have htake : Sound g none
      (s.setPhase l (.handling (some (.connector client fd)) [] active)) := h.take hphase
  have hself : (s.setPhase l (.handling (some (.connector client fd)) [] active)).loops l =
      { s.loops l with phase := .handling (some (.connector client fd)) [] active } :=
    setLoop_self
  have hset : Sound g none ((s.setPhase l
      (.handling (some (.connector client fd)) [] active)).setClient g client
        ((s.clients client).setConnector k)) := by
    refine htake.setConnector ((htake.clients client).dispatched htrying hstate hdispatched
      (fun value => ?_) fun l' fd' hmem => ?_)
    · rw [← hloop, hself, hwithin]
      trivial
    · obtain ⟨hloop', htrying', -⟩ := (htake.clients client).active l' fd' hmem
      have hwatched : (s.clients client).connector.poller fd' = Connector.registration :=
        htrying'.watches.poller
      have hfd : fd' = fd := htrying.reported (by rw [hwatched]; exact Option.some_ne_none _)
      rw [hloop', ← hloop, hself, hfd] at hmem
      exact (List.nodup_cons.mp hnodup).1 hmem
  refine hset.setWithin (fun server n hl => ?_) (fun server n hl => ?_) fun client' => ?_
  · rw [Reactor.setClient, deliver_within] at hl
    have hout : ((s.setPhase l
      (.handling (some (.connector client fd)) [] active)).loops l).within = .outside := by
      rw [hself, hwithin]
    cases hout.symm.trans hl
  · split at hl <;> cases hl
  · split
    · rename_i hlt
      rintro rfl
      rw [Reactor.setClient, deliver_clients, putClient_self]
      cases hdispatched with
      | nothing => exact absurd hlt (Nat.lt_irrefl _)
      | failed => exact absurd hlt (Nat.lt_irrefl _)
      | connected => exact ⟨rfl, hnone⟩
    · trivial

theorem Sound.handleEvent (h : Sound g none s) {isSelfConnect : Bool}
    (hwithin : (s.loops l).within = .outside) (hs : s.handleEvent g l isSelfConnect = .ok s') :
    Sound g none s' := by
  rw [Reactor.handleEvent] at hs
  split at hs
  · rename_i client fd revents active hphase
    obtain ⟨k, hk, hs⟩ := bind_eq_ok.mp hs
    cases hs
    exact h.dispatchConnector hwithin hphase hk
  · rename_i channel revents active hnot hphase
    cases hs
    exact h.take hphase
  · cases hs

theorem Sound.handleCallback (h : Sound g none s) {read : ReadResult} {nwrite : Int}
    {callback : EventCallback} (hdispatching : s.Dispatching l (.connection conn))
    (hwithin : (s.loops l).within = .outside)
    (hs : s.handleCallback g l conn read nwrite callback = .ok s') : Sound g none s' := by
  cases callback with
  | closeCallback => exact h.handleClose hdispatching hwithin hs
  | errorCallback =>
    cases hs
    exact h
  | readCallback =>
    cases read with
    | eof => exact h.handleClose hdispatching hwithin hs
    | data | error =>
      cases hs
      exact h
  | writeCallback =>
    have hs : s.runConn l conn (fun c => c.handleWrite nwrite) = .ok s' := hs
    obtain ⟨c, value, hc, hloop, hvalue, rfl⟩ := runConn_ok hs
    obtain ⟨c', hc', -, hreg⟩ := h.dispatches.connection l conn hdispatching
    cases hc.symm.trans hc'
    have hvalue := (TcpConnection.handleWrite_spec hvalue).quiet.registered hreg
    exact h.setConn hc hloop (hvalue.stays hreg.not_removed) (h.held hc hreg)

theorem Sound.callback (h : Sound g none s) {read : ReadResult} {nwrite : Int}
    (hwithin : (s.loops l).within = .outside) (hs : s.callback g l read nwrite = .ok s') :
    Sound g none s' := by
  rw [Reactor.callback] at hs
  split at hs
  · rename_i conn callback callbacks active hphase
    refine (h.proceed hphase fun _ => id).handleCallback ?_ ?_ hs
    · rw [Dispatching, setPhase, setLoop_self]
      exact .inr rfl
    · rw [setPhase, setLoop_self]
      exact hwithin
  · rename_i server callback callbacks active hphase
    cases hs
    exact h.proceed hphase fun _ => id
  · cases hs

/-! ## New connections -/

/-- A connection is created, and referred to by the one who creates it. -/
theorem Sound.create (h : Sound g none s) (l : L) {value : TcpConnection Empty}
    (hfresh : value.Fresh) (hnew : s.conns conn = none) (howned : s.Owned conn)
    (hnumber : s.Numbered conn) : Sound g none (s.putConn conn l value) where
  accounted := h.accounted.putConn (.inl hfresh) (.inr (.inl (.inl howned)))
  dispatches := h.dispatches.putConn fun l' hl' => by
    obtain ⟨c, hc, -⟩ := h.dispatches.connection l' conn hl'
    cases hnew.symm.trans hc
  clients client := (h.clients client).putConn
  numbered := numbered_putConn h.numbered hnumber

theorem Sound.conns_none (h : Sound g ex s) (hnumber : ¬ s.Numbered conn) :
    s.conns conn = none := by
  by_contra hne
  exact hnumber (h.numbered conn hne)

/-- The thread of a server enters `newConnection`, and counts. -/
theorem Sound.enter (h : Sound g none s) (callbacks' : List EventCallback)
    {acceptor : Option (ChannelId S C)} {callbacks : List EventCallback}
    {active : List (ChannelId S C × Events)}
    (hname : ∀ n, s.Held (.server server n) →
      (s.servers server).getName n ≠ (s.servers server).connName)
    (hwithin : (s.loops l).within = .outside)
    (hphase : (s.loops l).phase = .handling acceptor callbacks active) :
    Sound g none ((s.setLoop l { s.loops l with
      phase := .handling acceptor callbacks' active
      within := .inserting server (s.servers server).nextConnId }).putServer server
        { s.servers server with nextConnId := (s.servers server).nextConnId + 1 }) := by
  obtain ⟨hqueue, hbound⟩ := ReactorLoop.queue_idle (x := s.loops l) (by rw [hphase]; nofun)
  have hnarrow : Narrows (s.loops l) { s.loops l with
      phase := .handling acceptor callbacks' active
      within := .inserting server (s.servers server).nextConnId } := by
    have hactive : (s.loops l).active = active.map Prod.fst := by rw [ReactorLoop.active, hphase]
    have hcurrent : (s.loops l).current = acceptor := by rw [ReactorLoop.current, hphase]
    exact ⟨hactive ▸ List.Sublist.refl _, fun channel hc => hcurrent.trans hc⟩
  have henter : Sound g none (s.setLoop l { s.loops l with
      phase := .handling acceptor callbacks' active
      within := .inserting server (s.servers server).nextConnId }) :=
    ⟨h.accounted.enter hwithin rfl hqueue.symm hbound.symm hname, h.dispatches.narrow hnarrow,
      fun client => (h.clients client).narrow (by rw [hqueue]; rfl) (fun _ => trivial) hnarrow,
      h.numbered⟩
  refine henter.putServer (Nat.le_succ _) (fun name n hn => .inl ⟨name, hn⟩) fun name n hn => ?_
  exact ⟨henter.accounted.named server name n hn, .inl (.inl ⟨name, hn⟩)⟩

/-- A connection is accepted. -/
theorem Sound.newConnection (h : Sound g none s) {ioLoop : L} {writeComplete : Bool}
    (hname : ∀ n, s.Held (.server server n) →
      (s.servers server).getName n ≠ (s.servers server).connName)
    (hwithin : (s.loops (g.serverLoop server)).within = .outside)
    (hs : s.newConnection g server ioLoop writeComplete = .ok s') : Sound g none s' := by
  rw [Reactor.newConnection] at hs
  split at hs
  · rename_i acceptor callbacks active hphase
    obtain ⟨_, hacceptor, hs⟩ := bind_eq_ok.mp hs
    obtain ⟨_, -, hs⟩ := bind_eq_ok.mp hs
    obtain rfl := ensure_eq_ok.mp hacceptor
    have henter := h.enter callbacks hname hwithin hphase
    have hnew : s.conns (.server acceptor (s.servers acceptor).nextConnId) = none :=
      h.conns_none (Nat.lt_irrefl _)
    have howned : ((s.setLoop (g.serverLoop acceptor) { s.loops (g.serverLoop acceptor) with
        phase := .handling (some (.acceptor acceptor)) callbacks active
        within := .inserting acceptor (s.servers acceptor).nextConnId }).putServer acceptor
          { s.servers acceptor with nextConnId := (s.servers acceptor).nextConnId + 1 }).Owned
        (.server acceptor (s.servers acceptor).nextConnId) :=
      .inr ⟨g.serverLoop acceptor, congrArg ReactorLoop.within setLoop_self⟩
    have hfresh : TcpConnection.Fresh (T := Empty) {
        writeComplete := writeComplete
        owner := .server (decide (ioLoop = g.serverLoop acceptor)) } := ⟨rfl, rfl, rfl⟩
    have hcreate := henter.create ioLoop hfresh hnew howned
      (by rw [Numbered, putServer_self]; exact Nat.lt_succ_self _)
    have hheld := howned.held
    dsimp only at hs
    split at hs
    · refine hcreate.connectionEstablished ?_ hs
      exact hheld
    · cases hs
      refine hcreate.push (EventLoop.queueInLoop_pendingFunctors ..)
        (fun server n hconn => ?_) nofun
      cases hconn
      exact hheld
  · cases hs

/-- `TcpClient::newConnection`, up to `connectionEstablished`. -/
theorem Sound.clientNewConnection (h : Sound g none s) {fd : Nat} {writeComplete : Bool}
    (hwithin : (s.loops (g.clientLoop client)).within = .handingOver client fd) :
    Sound g none (((s.putClient client (s.clients client).newConnection).putConn
      (.client client (s.clients client).nextConnId) (g.clientLoop client)
      { writeComplete := writeComplete, owner := .client }).setWithin (g.clientLoop client)
        (.establishing client (s.clients client).nextConnId)) := by
  have hw := (h.clients client).within
  rw [hwithin] at hw
  obtain ⟨-, hnone⟩ := hw rfl
  have hnew : s.conns (.client client (s.clients client).nextConnId) = none :=
    h.conns_none (Nat.lt_irrefl _)
  have howned : (s.putClient client (s.clients client).newConnection).Owned
      (.client client (s.clients client).nextConnId) := by
    rw [Owned, putClient_self]
    rfl
  have hnumber : ∀ conn, s.conns conn ≠ none →
      (s.putClient client (s.clients client).newConnection).Numbered conn := fun conn hne =>
    (h.numbered conn hne).putClient (Nat.le_succ _)
  have hnext : (s.putClient client (s.clients client).newConnection).Numbered
      (.client client (s.clients client).nextConnId) := by
    rw [Numbered, putClient_self]
    exact Nat.lt_succ_self _
  refine ⟨?_, ?_, fun client' => ?_, numbered_putConn hnumber hnext⟩
  · have hput : (s.putClient client (s.clients client).newConnection).Accounted none :=
      h.accounted.putClient fun n hn => by cases hnone.symm.trans hn
    have hconn : ((s.putClient client (s.clients client).newConnection).putConn
        (.client client (s.clients client).nextConnId) (g.clientLoop client)
        { writeComplete := writeComplete, owner := .client }).Accounted none :=
      hput.putConn (.inl ⟨rfl, rfl, rfl⟩) (.inr (.inl (.inl howned)))
    refine hconn.setLoop ⟨⟨fun server n hl => ?_, (by simp)⟩, fun _ hf _ _ => .inl hf,
      fun _ hf _ _ => .inl hf⟩
    cases hwithin.symm.trans hl
  · have hput : (s.putClient client (s.clients client).newConnection).Dispatches :=
      ⟨h.dispatches.nodup, h.dispatches.connection⟩
    refine Dispatches.narrow (hput.putConn fun l' hl' => ?_) (.of_phase rfl)
    obtain ⟨c, hc, -⟩ := h.dispatches.connection l' _ hl'
    cases hnew.symm.trans hc
  · by_cases he : client' = client
    · rw [he]
      exact ((h.clients client).newConnection hwithin).putConn
    · refine ClientSound.narrow ((h.clients client').putClient_of_ne he).putConn rfl (fun _ => ?_)
        (.of_phase rfl)
      exact fun hc => absurd hc.symm he

/-! ## The user -/

theorem Sound.offered (h : Sound g none s) (hoffered : s.Offered conn) : s.Held conn := by
  rcases hoffered with hcopy | ⟨c, hc, hreg | hcalled⟩
  · exact .inr (.inl hcopy)
  · exact h.held hc ((h.accounted.staged conn c hc).registered hreg)
  · exact .inr (.inr ⟨c.loop, _, List.mem_append_left _ hcalled, rfl⟩)

/-- User code runs where no function of the client is being carried out. -/
theorem withinClient_of_userCode (huser : s.UserCode l) (value : TcpClient) :
    WithinClient value client (s.loops l).within := by
  revert huser
  rw [UserCode]
  cases (s.loops l).within with
  | outside | inserting server n => exact fun _ => trivial
  | handingOver client fd | establishing client n | restarting client => exact False.elim

theorem withinClient_congr {value value' : TcpClient} {within : ReactorAt S C}
    (hconnector : value'.connector = value.connector)
    (hconnection : value'.connection = value.connection)
    (h : WithinClient value client within) : WithinClient value' client within := by
  revert h
  cases within with
  | outside | inserting server n => exact id
  | handingOver client' fd | establishing client' n | restarting client' =>
    intro h
    rw [WithinClient, hconnector, hconnection]
    exact h

/-- The flags of a client change. -/
theorem Sound.putClient (h : Sound g ex s) {value : TcpClient}
    (hconnector : value.connector = (s.clients client).connector)
    (hconnection : value.connection = (s.clients client).connection)
    (hnext : value.nextConnId = (s.clients client).nextConnId) :
    Sound g ex (s.putClient client value) where
  accounted := h.accounted.putClient fun n hn => .inl (hconnection.trans hn)
  dispatches := ⟨h.dispatches.nodup, h.dispatches.connection⟩
  clients client' := by
    by_cases he : client' = client
    · subst he
      refine (h.clients client').putClient hconnector (fun hne => ?_) ?_
      · rw [hconnector]
        exact (h.clients client').connection (hconnection ▸ hne)
      · exact withinClient_congr hconnector hconnection (h.clients client').within
    · exact (h.clients client').putClient_of_ne he
  numbered conn hne := (h.numbered conn hne).putClient (Nat.le_of_eq hnext.symm)

/-- The user takes up only connections that exist. -/
theorem Sound.copies (h : Sound g ex s) {copies : List (ConnId S C)}
    (hheld : ∀ conn ∈ copies, s.Held conn) : Sound g ex { s with copies := copies } :=
  ⟨h.accounted.copies hheld, ⟨h.dispatches.nodup, h.dispatches.connection⟩,
    fun client => (h.clients client).frame rfl rfl, h.numbered⟩

theorem Sound.threads (h : Sound g ex s) (threads : T → CallerAt C) :
    Sound g ex { s with threads := threads } :=
  ⟨h.accounted.threads threads, ⟨h.dispatches.nodup, h.dispatches.connection⟩,
    fun client => (h.clients client).frame rfl rfl, h.numbered⟩

/-- A server assigns to `connections_`, and leaves `newConnection`. -/
theorem Sound.assign (h : Sound g ex s) (hwithin : (s.loops l).within = .inserting server n) :
    Sound g ex ((s.putServer server { s.servers server with
      connections := Function.update (s.servers server).connections
        ((s.servers server).getName n) (some n) }).setWithin l .outside) := by
  have hinsert := h.insert (.inl (.inr ⟨l, hwithin⟩))
  refine ⟨hinsert.accounted.setLoop ⟨⟨fun server' k hl => .inr ?_, nofun⟩,
    fun _ hf _ _ => .inl hf, fun _ hf _ _ => .inl hf⟩, hinsert.dispatches.narrow (.of_phase rfl),
    fun client => (hinsert.clients client).narrow rfl (fun _ => trivial) (.of_phase rfl),
    hinsert.numbered⟩
  cases hwithin.symm.trans hl
  refine ⟨(s.servers server).getName n, ?_⟩
  rw [putServer_self]
  exact Function.update_self ..

/-- `shutdown()` of a connection that exists. -/
theorem Sound.shutdown (h : Sound g ex s) (hheld : s.Held conn)
    (hs : s.runConn l conn (fun c => .ok c.shutdown) = .ok s') : Sound g ex s' := by
  obtain ⟨c, value, hc, hloop, hvalue, rfl⟩ := runConn_ok hs
  cases hvalue
  exact h.setConn hc hloop (h.accounted.staged conn c hc).shutdown hheld

/-- The client has the connection, and establishes it. -/
theorem Sound.clientEstablished (h : Sound g none s)
    (hwithin : (s.loops (g.clientLoop client)).within = .establishing client n)
    (hs : (s.setWithin (g.clientLoop client) .outside).runConn (g.clientLoop client)
      (.client client n) (fun c => c.connectionEstablished) = .ok s') : Sound g none s' := by
  have hw := (h.clients client).within
  rw [hwithin] at hw
  have hout : Sound g none (s.setWithin (g.clientLoop client) .outside) :=
    h.setWithin (fun _ _ hl => by cases hwithin.symm.trans hl) nofun fun _ => trivial
  refine hout.connectionEstablished ?_ hs
  exact .inl (hw rfl).2

theorem Sound.restart (h : Sound g none s) {k : Connector} {e : Nat}
    (hwithin : (s.loops (g.clientLoop client)).within = .restarting client)
    (hk : (s.clients client).connector.restart e = .ok k) :
    Sound g none ((s.setWithin (g.clientLoop client) .outside).setClient g client
      ((s.clients client).setConnector k)) := by
  have hw := (h.clients client).within
  rw [hwithin] at hw
  have hout : Sound g none (s.setWithin (g.clientLoop client) .outside) :=
    h.setWithin (fun _ _ hl => by cases hwithin.symm.trans hl) nofun fun _ => trivial
  refine hout.setConnector
    ((hout.clients client).restart (hw rfl).1 (hw rfl).2 (fun value => ?_) hk)
  rw [Reactor.setWithin, setLoop_self]
  trivial

/-- `doPendingFunctor` swaps the queue out. -/
theorem Sound.swap (h : Sound g ex s) {current : Option (ChannelId S C)}
    {callbacks : List EventCallback} {active : List (ChannelId S C × Events)}
    (hphase : (s.loops l).phase = .handling current callbacks active) :
    Sound g ex (s.setLoop l { s.loops l with
      eventLoop := { (s.loops l).eventLoop with
        callingPendingFunctor := true, pendingFunctors := [] }
      phase := .running [] (s.loops l).eventLoop.pendingFunctors }) := by
  obtain ⟨hqueue, hbound⟩ := ReactorLoop.queue_idle (x := s.loops l) (by rw [hphase]; nofun)
  refine h.setLoop rfl ?_ (fun f hf => ?_) ⟨List.nil_sublist _, nofun⟩
  · rw [hqueue]
    exact List.append_nil _
  · have hf : f ∈ (s.loops l).eventLoop.pendingFunctors ++ [] := hf
    rw [hbound, ← List.append_nil (s.loops l).eventLoop.pendingFunctors]
    exact hf

/-- A pass ends; the functors of the batch are destroyed. -/
theorem Sound.endPass (h : Sound g ex s) {called : List (ReactorFunctor S C)}
    (hphase : (s.loops l).phase = .running called []) :
    Sound g ex (s.setLoop l { s.loops l with
      eventLoop := { (s.loops l).eventLoop with callingPendingFunctor := false }
      phase := .between }) := by
  have hqueue : (s.loops l).queue = (s.loops l).eventLoop.pendingFunctors :=
    ReactorLoop.queue_running hphase
  refine h.setLoop rfl hqueue.symm (fun f hf => List.mem_append_right _ ?_)
    ⟨List.nil_sublist _, nofun⟩
  rw [hqueue]
  exact hf

end Reactor

end Summer.Net
