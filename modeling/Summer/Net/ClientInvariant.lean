import Summer.Net.TcpClient

/-!
# An invariant of the client

The connector, its queued `resetChannel` and the connection are kept in step: there is a
connection only while the connector is in `kConnected`, and a connection that can be closed in a
pass was established in an earlier one, whose functors have run.
-/
namespace Summer.Net

open Summer.Lib

namespace TcpClient

variable {c : TcpClient} {k : Connector}

theorem setConnector_same (h : k.resets = c.connector.resets) :
    c.setConnector k = { c with connector := k } := by
  rw [setConnector, h, List.drop_length]
  rfl

theorem setConnector_push {fd : Nat} (h : k.resets = c.connector.resets ++ [fd]) :
    c.setConnector k =
      { c with connector := k, loop := c.loop.queueInLoop true .resetChannel } := by
  rw [setConnector, h, List.drop_left]
  rfl

theorem setConnector_tail (h : k.resets = c.connector.resets.tail) :
    c.setConnector k = { c with connector := k } := by
  rw [setConnector, h, List.drop_eq_nil_of_le (by rw [List.length_tail]; exact Nat.sub_le ..)]
  rfl

end TcpClient

namespace ClientSystem

variable {T : Type}

/-- The batch that is running. -/
def batch (s : ClientSystem T) : List ClientFunctor :=
  match s.phase with
  | .running functors => functors
  | _ => []

/-- Everything queued in the loop. -/
def functors (s : ClientSystem T) : List ClientFunctor :=
  s.batch ++ s.client.loop.pendingFunctors

/-- What the function that the loop thread is in has found or done. -/
def WithinSound (c : TcpClient) : ClientAt → Prop
  | .outside => True
  | .handingOver _ => c.connector.state = .kConnected ∧ c.connection = none
  | .establishing conn => c.connector.state = .kConnected ∧ c.connection = some conn
  | .restarting => c.connector.state = .kConnected ∧ c.connection = none ∧ c.connector.resets = []

/-- What holds of the channels that `poll` reported. -/
structure Reported (c : TcpClient) (connecting : Option Nat) (conns : List Nat) : Prop where
  connecting : ∀ fd, connecting = some fd →
    c.connector.Trying fd ∧ c.connector.state = .kConnecting
  old : ∀ conn ∈ conns, conn < c.nextConnId
  reset : ∀ conn ∈ conns, c.connection = some conn → c.connector.resets = []

structure Coherent (s : ClientSystem T) : Prop where
  connector : s.client.connector.Sound
  queue : s.functors.count .resetChannel = s.client.connector.resets.length
  within : WithinSound s.client s.within
  connection : ∀ conn, s.client.connection = some conn →
    s.client.connector.state = .kConnected ∧ conn < s.client.nextConnId
  registered : ∀ conn ∈ s.registered, conn < s.client.nextConnId
  handling : ∀ connecting conns, s.phase = .handling connecting conns →
    Reported s.client connecting conns
  swapped : (∀ connecting conns, s.phase ≠ .handling connecting conns) →
    s.client.loop.pendingFunctors.count .resetChannel = 0

variable {s s' : ClientSystem T}

theorem init_coherent : (init : ClientSystem T).Coherent where
  connector := .inl Connector.init_resting
  queue := rfl
  within := trivial
  connection := nofun
  registered := nofun
  handling := nofun
  swapped _ := rfl

theorem functors_of_phase (h : s'.phase = s.phase) :
    s'.functors = s.batch ++ s'.client.loop.pendingFunctors := by
  rw [functors, batch, h]
  rfl

/-- Steps that leave the connector and the connection alone. -/
theorem Coherent.congr (h : s.Coherent) (hconnector : s'.client.connector = s.client.connector)
    (hconnection : s'.client.connection = s.client.connection)
    (hnext : s'.client.nextConnId = s.client.nextConnId)
    (hregistered : s'.registered = s.registered) (hphase : s'.phase = s.phase)
    (hwithin : s'.within = s.within)
    (hpending : s'.client.loop.pendingFunctors.count .resetChannel =
      s.client.loop.pendingFunctors.count .resetChannel) : s'.Coherent where
  connector := hconnector ▸ h.connector
  queue := by
    rw [functors_of_phase hphase, List.count_append, hpending, ← List.count_append, hconnector]
    exact h.queue
  within := by
    have hw := h.within
    rw [hwithin]
    revert hw
    cases s.within with
    | outside => exact id
    | handingOver fd | establishing conn | restarting =>
      intro hw
      rw [WithinSound, hconnector, hconnection]
      exact hw
  connection := by
    rw [hconnection, hconnector, hnext]
    exact h.connection
  registered := by
    rw [hregistered, hnext]
    exact h.registered
  handling := by
    intro connecting conns hp
    have hr := h.handling connecting conns (hphase ▸ hp)
    refine ⟨?_, ?_, ?_⟩
    · rw [hconnector]
      exact hr.connecting
    · rw [hnext]
      exact hr.old
    · rw [hconnection, hconnector]
      exact hr.reset
  swapped := by
    rw [hphase, hpending]
    exact h.swapped

/-- Outside an attempt the connector rests. -/
theorem Coherent.resting (h : s.Coherent) (hne : s.client.connector.state ≠ .kConnecting) :
    s.client.connector.Resting := by
  rcases h.connector with hrest | ⟨fd, -, hstate⟩
  · exact hrest
  · exact absurd hstate hne

/-- Outside an attempt no connecting channel is reported. -/
theorem Coherent.not_reported (h : s.Coherent) (hne : s.client.connector.state ≠ .kConnecting)
    {connecting : Option Nat} {conns : List Nat} (hp : s.phase = .handling connecting conns) :
    connecting = none := by
  cases hc : connecting with
  | none => rfl
  | some fd => exact absurd ((h.handling connecting conns hp).connecting fd hc).2 hne

/-- Outside `kConnected` there is no connection. -/
theorem Coherent.no_connection (h : s.Coherent) (hne : s.client.connector.state ≠ .kConnected) :
    s.client.connection = none := by
  cases hc : s.client.connection with
  | none => rfl
  | some conn => exact absurd (h.connection conn hc).1 hne

/-! ## The connector's functions -/

theorem started_resets {c c' : Connector} {e : Nat} (h : Connector.Started c e c') :
    c'.resets = c.resets := by
  cases h <;> rfl

/-- `startInLoop` of a connector that rests, while there is no connection. -/
theorem Coherent.startInLoop (h : s.Coherent) {k₀ k : Connector} {e : Nat} (hrest : k₀.Resting)
    (hresets : k₀.resets = s.client.connector.resets) (hnone : s.client.connection = none)
    (hphase : ∀ connecting conns, s.phase = .handling connecting conns → connecting = none)
    (hs : k₀.startInLoop e = .ok k) :
    Coherent { s with client := s.client.setConnector k, within := .outside } := by
  obtain ⟨hstate, hstarted⟩ := Connector.startInLoop_ok hs
  have hk : k.resets = s.client.connector.resets := (started_resets hstarted).trans hresets
  rw [TcpClient.setConnector_same hk]
  refine ⟨?_, ?_, trivial, ?_, h.registered, fun connecting conns hp => ?_, h.swapped⟩
  · rcases hrest.started hstate hstarted with ⟨htrying, hstate'⟩ | ⟨hrest', -⟩
    · exact .inr ⟨_, htrying, hstate'⟩
    · exact .inl hrest'
  · show _ = k.resets.length
    rw [hk]
    exact h.queue
  · intro conn hconn
    cases hnone.symm.trans hconn
  · refine ⟨fun fd hfd => ?_, (h.handling connecting conns hp).old, fun conn _ hconn => ?_⟩
    · cases (hphase connecting conns hp).symm.trans hfd
    · cases hnone.symm.trans hconn

/-- `startInLoop` for a `connect()` or a retry timer. -/
theorem Coherent.runStart (h : s.Coherent) (hout : s.within = .outside) {k₀ k : Connector}
    {e : Nat} (hstate : k₀.state = s.client.connector.state)
    (hrest : s.client.connector.Resting → k₀.Resting)
    (hresets : k₀.resets = s.client.connector.resets) (hs : k₀.startInLoop e = .ok k) :
    Coherent { s with client := s.client.setConnector k } := by
  have hdis : s.client.connector.state = .kDisConnected :=
    hstate.symm.trans (Connector.startInLoop_ok hs).1
  have hne : s.client.connector.state ≠ .kConnecting := by rw [hdis]; nofun
  have hcoherent := h.startInLoop (hrest (h.resting hne)) hresets
    (h.no_connection (by rw [hdis]; nofun)) (fun _ _ hp => h.not_reported hne hp) hs
  exact hcoherent.congr rfl rfl rfl rfl rfl hout rfl

theorem Coherent.restart (h : s.Coherent) (hwithin : s.within = .restarting) {k : Connector}
    {e : Nat} (hs : s.client.connector.restart e = .ok k) :
    Coherent { s with client := s.client.setConnector k, within := .outside } := by
  have hw := h.within
  rw [hwithin] at hw
  obtain ⟨hstate, hnone, -⟩ := hw
  have hne : s.client.connector.state ≠ .kConnecting := by rw [hstate]; nofun
  have hrest := h.resting hne
  refine h.startInLoop ?_ ?_ hnone (fun _ _ hp => h.not_reported hne hp) hs
  · exact ⟨hrest.ledger, hrest.poller, nofun, hrest.reset⟩
  · rfl

/-- A functor other than `resetChannel` is taken from the batch. -/
theorem Coherent.pop (h : s.Coherent) {f : ClientFunctor} {fs : List ClientFunctor}
    (hphase : s.phase = .running (f :: fs)) (hf : f ≠ .resetChannel) :
    Coherent { s with phase := .running fs } := by
  refine ⟨h.connector, ?_, h.within, h.connection, h.registered, nofun,
    fun _ => h.swapped (by rw [hphase]; nofun)⟩
  have hqueue := h.queue
  rw [functors, batch, hphase] at hqueue
  rw [← hqueue]
  exact (List.count_cons_of_ne hf).symm

theorem Coherent.resetChannel (h : s.Coherent) (hout : s.within = .outside)
    {fs : List ClientFunctor}
    (hphase : s.phase = .running (.resetChannel :: fs)) :
    Coherent { s with
      client := s.client.setConnector s.client.connector.resetChannel
      phase := .running fs } := by
  have hqueue := h.queue
  rw [functors, batch, hphase] at hqueue
  dsimp only at hqueue
  rw [List.cons_append, List.count_cons_self] at hqueue
  have hrest : s.client.connector.Resting := by
    rcases h.connector with hrest | ⟨fd, htrying, -⟩
    · exact hrest
    · rw [htrying.reset] at hqueue
      cases hqueue
  rw [TcpClient.setConnector_tail rfl]
  refine ⟨.inl hrest.resetChannel, ?_, ?_, h.connection, h.registered, nofun,
    fun _ => h.swapped (by rw [hphase]; nofun)⟩
  · show (fs ++ s.client.loop.pendingFunctors).count .resetChannel =
      s.client.connector.resets.tail.length
    rw [List.length_tail, ← hqueue]
    rfl
  · show WithinSound _ s.within
    rw [hout]
    trivial

/-! ## The steps -/

/-- A dispatch of the connecting channel, which leaves no connection. -/
theorem Coherent.dispatched (h : s.Coherent) {fd : Nat} {conns : List Nat}
    (hphase : s.phase = .handling (some fd) conns) {client : TcpClient} {within : ClientAt}
    (hsound : client.connector.Sound) (hnone : client.connection = none)
    (hnext : client.nextConnId = s.client.nextConnId)
    (hpending : client.loop.pendingFunctors.count .resetChannel = client.connector.resets.length)
    (hwithin : within = .outside ∨
      within = .handingOver fd ∧ client.connector.state = .kConnected) :
    Coherent { s with client := client, phase := .handling none conns, within := within } := by
  refine ⟨hsound, hpending, ?_, ?_, ?_, fun connecting conns' hp => ?_, fun hp => ?_⟩
  · rcases hwithin with rfl | ⟨rfl, hstate⟩
    · trivial
    · exact ⟨hstate, hnone⟩
  · intro conn hconn
    cases hnone.symm.trans hconn
  · intro conn hconn
    show conn < client.nextConnId
    rw [hnext]
    exact h.registered conn hconn
  · cases hp
    refine ⟨nofun, fun conn hconn => ?_, fun conn _ hconn => ?_⟩
    · show conn < client.nextConnId
      rw [hnext]
      exact (h.handling _ _ hphase).old conn hconn
    · cases hnone.symm.trans hconn
  · exact absurd rfl (hp none conns)

theorem coherent_handleEvent (h : s.Coherent) {fd : Nat} {conns : List Nat} {k : Connector}
    {revents : Events} {isSelfConnect : Bool} (hphase : s.phase = .handling (some fd) conns)
    (hk : s.client.connector.handleEvent fd revents isSelfConnect = .ok k) :
    Coherent { s with
      client := s.client.setConnector k
      phase := .handling none conns
      within := if s.client.connector.handed.length < k.handed.length
        then .handingOver fd else .outside } := by
  obtain ⟨htrying, hstate⟩ := (h.handling _ _ hphase).connecting fd rfl
  have hnone := h.no_connection (by rw [hstate]; nofun)
  have hqueue : s.client.loop.pendingFunctors.count .resetChannel = 0 := by
    have hq := h.queue
    rw [functors, batch, hphase, htrying.reset] at hq
    exact hq
  -- the one `resetChannel` that ending the attempt queues
  have hpush : (s.client.loop.queueInLoop true .resetChannel).pendingFunctors.count .resetChannel =
      (s.client.connector.resets ++ [fd]).length := by
    rw [EventLoop.queueInLoop_pendingFunctors, List.count_append, hqueue, htrying.reset]
    rfl
  cases htrying.watches.handleEvent_ok hstate hk with
  | nothing =>
    rw [TcpClient.setConnector_same rfl, if_neg (Nat.lt_irrefl _)]
    refine h.dispatched hphase (.inr ⟨fd, htrying, hstate⟩) hnone rfl ?_ (.inl rfl)
    exact hqueue.trans (congrArg List.length htrying.reset).symm
  | failed =>
    have hsame : ¬ s.client.connector.handed.length <
        ((s.client.connector.ended fd).retry fd).handed.length := Nat.lt_irrefl _
    rw [TcpClient.setConnector_push rfl, if_neg hsame]
    exact h.dispatched hphase (.inl htrying.failed) hnone rfl hpush (.inl rfl)
  | connected =>
    rw [TcpClient.setConnector_push rfl, if_pos Connector.handed_lt]
    exact h.dispatched hphase (.inl htrying.connected) hnone rfl hpush (.inr ⟨rfl, rfl⟩)

theorem coherent_newConnection (h : s.Coherent) {fd : Nat} (hwithin : s.within = .handingOver fd) :
    Coherent { s with
      client := s.client.newConnection
      within := .establishing s.client.nextConnId } := by
  have hw := h.within
  rw [hwithin] at hw
  refine ⟨h.connector, h.queue, ⟨hw.1, rfl⟩, ?_, ?_, fun connecting conns hp => ?_,
    h.swapped⟩
  · intro conn hconn
    cases hconn
    exact ⟨hw.1, Nat.lt_succ_self _⟩
  · exact fun conn hconn => Nat.lt_succ_of_lt (h.registered conn hconn)
  · have hreported := h.handling connecting conns hp
    refine ⟨hreported.connecting, fun conn hconn => Nat.lt_succ_of_lt (hreported.old conn hconn),
      fun conn hmem hconn => ?_⟩
    cases hconn
    exact absurd (hreported.old _ hmem) (Nat.lt_irrefl _)

theorem coherent_established (h : s.Coherent) {conn : Nat}
    (hwithin : s.within = .establishing conn) :
    Coherent { s with
      within := .outside
      registered := conn :: s.registered
      established := s.established + 1 } := by
  have hw := h.within
  rw [hwithin] at hw
  refine ⟨h.connector, h.queue, trivial, h.connection, fun c hc => ?_, h.handling, h.swapped⟩
  rcases List.mem_cons.mp hc with rfl | hc
  · exact (h.connection c hw.2).2
  · exact h.registered c hc

theorem coherent_removeConnection (h : s.Coherent) {conn : Nat} {connecting : Option Nat}
    {conns : List Nat} {client : TcpClient} (hphase : s.phase = .handling connecting conns)
    (hmem : conn ∈ conns) (hremove : s.client.removeConnection conn = .ok client) :
    Coherent { s with
      client := client
      within := if client.retry = true ∧ client.connect = true then .restarting
        else .outside } := by
  obtain ⟨_, hconn, hremove⟩ := bind_eq_ok.mp hremove
  have hconn := ensure_eq_ok.mp hconn
  cases hremove
  have hcount : (s.client.loop.queueInLoop true (.connectionDestroyed conn)).pendingFunctors.count
      .resetChannel = s.client.loop.pendingFunctors.count .resetChannel := by
    rw [EventLoop.queueInLoop_pendingFunctors, List.count_append]
    rfl
  refine ⟨h.connector, ?_, ?_, nofun, h.registered, fun connecting' conns' hp => ?_, ?_⟩
  · have hq := h.queue
    rw [functors, List.count_append] at hq ⊢
    rw [hcount]
    exact hq
  · show WithinSound _ (if _ then _ else _)
    split
    · exact ⟨(h.connection conn hconn).1, rfl, (h.handling _ _ hphase).reset conn hmem hconn⟩
    · trivial
  · have hreported := h.handling connecting' conns' hp
    exact ⟨hreported.connecting, hreported.old, nofun⟩
  · intro hp
    exact absurd hphase (hp connecting conns)

theorem coherent_poll (h : s.Coherent) {connecting : Option Nat} {conns : List Nat}
    (hphase : s.phase = .between)
    (hconnecting : ∀ fd ∈ connecting, (s.client.connector.poller fd).registered ≠ none)
    (hconns : ∀ conn ∈ conns, conn ∈ s.registered) :
    Coherent { s with
      client := { s.client with loop := s.client.loop.handleRead }
      phase := .handling connecting conns } := by
  have hempty : s.client.connector.resets = [] := by
    have hq := h.queue
    rw [functors, batch, hphase] at hq
    have hzero := h.swapped (by rw [hphase]; nofun)
    rw [List.nil_append, hzero] at hq
    exact List.length_eq_zero_iff.mp hq.symm
  refine ⟨h.connector, ?_, h.within, h.connection, h.registered,
    fun connecting' conns' hp => ?_, fun hp => absurd rfl (hp connecting conns)⟩
  · have hq := h.queue
    rw [functors, batch, hphase] at hq
    exact hq
  · cases hp
    refine ⟨fun fd hfd => ?_, fun conn hconn => h.registered conn (hconns conn hconn),
      fun _ _ _ => hempty⟩
    exact h.connector.watched (hconnecting fd (hfd ▸ rfl))

theorem coherent_swap (h : s.Coherent) {conns : List Nat}
    (hphase : s.phase = .handling none conns) :
    Coherent { s with
      client := { s.client with loop := { s.client.loop with
        callingPendingFunctor := true, pendingFunctors := [] } }
      phase := .running s.client.loop.pendingFunctors } := by
  refine ⟨h.connector, ?_, h.within, h.connection, h.registered, nofun,
    fun _ => rfl⟩
  have hq := h.queue
  rw [functors, batch, hphase] at hq
  show (s.client.loop.pendingFunctors ++ []).count ClientFunctor.resetChannel = _
  rw [List.append_nil]
  exact hq

theorem coherent_endPass (h : s.Coherent) (hphase : s.phase = .running []) :
    Coherent { s with
      client := { s.client with loop := { s.client.loop with callingPendingFunctor := false } }
      phase := .between } := by
  refine ⟨h.connector, ?_, h.within, h.connection, h.registered, nofun,
    fun _ => h.swapped (by rw [hphase]; nofun)⟩
  have hq := h.queue
  rw [functors, batch, hphase] at hq
  exact hq

theorem runConnector_ok {r : Except Fault Connector} (h : s.runConnector r = .ok s') :
    ∃ k, r = .ok k ∧ s' = { s with client := s.client.setConnector k } := by
  obtain ⟨k, hk, h⟩ := bind_eq_ok.mp h
  cases h
  exact ⟨k, hk, rfl⟩

theorem coherent_runFunctor (h : s.Coherent) (hout : s.within = .outside) {f : ClientFunctor}
    {fs : List ClientFunctor} {e : Nat} (hphase : s.phase = .running (f :: fs))
    (hs : callFunctor { s with phase := .running fs } e f = .ok s') : s'.Coherent := by
  cases f with
  | startInLoop =>
    obtain ⟨k, hk, rfl⟩ := runConnector_ok hs
    exact (h.pop hphase nofun).runStart hout rfl id rfl hk
  | resetChannel =>
    obtain ⟨k, hk, rfl⟩ := runConnector_ok hs
    cases hk
    exact h.resetChannel hout hphase
  | connectionDestroyed conn =>
    cases hs
    have hpop := h.pop hphase nofun
    exact ⟨hpop.connector, hpop.queue, hpop.within, hpop.connection,
      fun c hc => h.registered c (List.mem_of_mem_erase hc), hpop.handling, hpop.swapped⟩

variable [DecidableEq T] {a : Action T} {as : List (Action T)}

theorem coherent_step (h : s.Coherent) (hs : step s a = .ok s') : s'.Coherent := by
  cases a with
  | enableRetry =>
    cases hs
    exact h.congr rfl rfl rfl rfl rfl rfl rfl
  | connect e =>
    obtain ⟨_, hout, hs⟩ := bind_eq_ok.mp hs
    obtain ⟨k, hk, rfl⟩ := runConnector_ok hs
    have h₁ : Coherent { s with client := { s.client with connect := true } } :=
      h.congr rfl rfl rfl rfl rfl rfl rfl
    exact h₁.runStart (ensure_eq_ok.mp hout) rfl id rfl hk
  | disconnect | otherConnect t | otherDisconnect t | otherDisconnectReturn t =>
    obtain ⟨_, -, hs⟩ := bind_eq_ok.mp hs
    cases hs
    exact h.congr rfl rfl rfl rfl rfl rfl rfl
  | otherConnectPush t =>
    obtain ⟨_, -, hs⟩ := bind_eq_ok.mp hs
    cases hs
    refine h.congr rfl rfl rfl rfl rfl rfl ?_
    show (s.client.loop.queueInLoop false .startInLoop).pendingFunctors.count .resetChannel = _
    rw [EventLoop.queueInLoop_pendingFunctors, List.count_append]
    rfl
  | poll connecting conns =>
    obtain ⟨_, hen, hs⟩ := bind_eq_ok.mp hs
    obtain ⟨_, hconnecting, hs⟩ := bind_eq_ok.mp hs
    obtain ⟨_, hconns, hs⟩ := bind_eq_ok.mp hs
    cases hs
    exact coherent_poll h (ensure_eq_ok.mp hen).2 (ensure_eq_ok.mp hconnecting)
      (ensure_eq_ok.mp hconns)
  | handleEvent revents isSelfConnect =>
    obtain ⟨_, -, hs⟩ := bind_eq_ok.mp hs
    split at hs
    · rename_i fd conns hphase
      obtain ⟨k, hk, hs⟩ := bind_eq_ok.mp hs
      cases hs
      exact coherent_handleEvent h hphase hk
    · cases hs
  | newConnection =>
    rw [step] at hs
    split at hs
    · rename_i fd hwithin
      cases hs
      exact coherent_newConnection h hwithin
    · cases hs
  | connectionEstablished =>
    rw [step] at hs
    split at hs
    · rename_i conn hwithin
      cases hs
      exact coherent_established h hwithin
    · cases hs
  | removeConnection conn =>
    obtain ⟨_, -, hs⟩ := bind_eq_ok.mp hs
    split at hs
    · rename_i connecting conns hphase
      obtain ⟨_, hmem, hs⟩ := bind_eq_ok.mp hs
      obtain ⟨client, hclient, hs⟩ := bind_eq_ok.mp hs
      cases hs
      exact coherent_removeConnection h hphase (ensure_eq_ok.mp hmem) hclient
    · cases hs
  | restart e =>
    obtain ⟨_, hwithin, hs⟩ := bind_eq_ok.mp hs
    obtain ⟨k, hk, rfl⟩ := runConnector_ok hs
    exact h.restart (ensure_eq_ok.mp hwithin) hk
  | timer i e =>
    obtain ⟨_, hen, hs⟩ := bind_eq_ok.mp hs
    split at hs
    · obtain ⟨k, hk, rfl⟩ := runConnector_ok hs
      refine h.runStart (ensure_eq_ok.mp hen).1 ?_ (fun hrest => ?_) ?_ hk
      · rfl
      · exact ⟨hrest.ledger, hrest.poller, hrest.state, hrest.reset⟩
      · rfl
    · cases hs
  | doPendingFunctor =>
    obtain ⟨_, -, hs⟩ := bind_eq_ok.mp hs
    split at hs
    · rename_i conns hphase
      cases hs
      exact coherent_swap h hphase
    · cases hs
  | runFunctor e =>
    obtain ⟨_, hout, hs⟩ := bind_eq_ok.mp hs
    split at hs
    · rename_i f fs hphase
      exact coherent_runFunctor h (ensure_eq_ok.mp hout) hphase hs
    · cases hs
  | endPass =>
    obtain ⟨_, -, hs⟩ := bind_eq_ok.mp hs
    split at hs
    · rename_i hphase
      cases hs
      exact coherent_endPass h hphase
    · cases hs

theorem coherent_run (hrun : run step init as = .ok s) : s.Coherent :=
  run_preserves (fun _ _ _ h hs => coherent_step h hs) init_coherent hrun

end ClientSystem

end Summer.Net
