import Summer.Net.ConnectionRuns

/-!
# What every run of a connection keeps

Until it is closed an established connection is registered with the poller. Each close is
matched by one removal, carried out or left to the base loop, and the removal carried out
by one `connectionDestroyed`, queued or run.
-/
namespace Summer.Net.ConnectionSystem

open Summer.Lib TcpConnection

variable {T : Type} [DecidableEq T] {s s' : ConnectionSystem T} {a : Action T}

/-- The state after `connectionEstablished`, before the user's callback. -/
def established (owner : Owner) (writeComplete : Bool) : ConnectionSystem T where
  conn := { (init owner writeComplete : ConnectionSystem T).conn with
    state := .kConnected }.watch (kNoneEvent ||| kReadEvent)
  establishing := true

/-- The `connectionDestroyed` functors that are queued. -/
def due (s : ConnectionSystem T) : Nat := s.functors.count .connectionDestroyed

structure Live (s : ConnectionSystem T) : Prop where
  state : s.conn.state ≠ .kConnecting
  closed : s.Closed → s.conn.state ≠ .kConnected
  opened : ¬ s.Closed → s.conn.Registered
  removal : s.conn.held.toNat + s.conn.record.closeCallbacks = s.conn.removals + 1
  destroyed : s.due + s.destroyed.toNat + s.conn.held.toNat = 1

/-- What the server or the client no longer holds was closed. -/
theorem Live.closed_of_not_held (h : s.Live) (hheld : s.conn.held = false) : s.Closed := by
  have hrem := h.removal
  rw [hheld, Bool.toNat_false] at hrem
  rw [Closed]
  omega

theorem Live.closed_of_destroyed (h : s.Live) (hdestroyed : s.destroyed = true) : s.Closed := by
  apply h.closed_of_not_held
  have hdes := h.destroyed
  cases hheld : s.conn.held with
  | false => rfl
  | true =>
    rw [hheld, hdestroyed, Bool.toNat_true] at hdes
    omega

theorem established_live (owner : Owner) (w : Bool) :
    (established owner w : ConnectionSystem T).Live where
  state := nofun
  closed := fun h => absurd h (Nat.lt_irrefl 0)
  opened := fun _ => ⟨rfl, rfl⟩
  removal := rfl
  destroyed := rfl

/-- The first step establishes the connection, or is a `disconnect()` that comes too early. -/
theorem step_init (owner : Owner) (w : Bool) (a : Action T) :
    step (init owner w) a = .ok (init owner w) ∨
      step (init owner w) a = .ok (established owner w) ∨
      step (init owner w) a = .error .notEnabled := by
  have hfree : ¬ (init owner w : ConnectionSystem T).Free := fun hf => hf.1 rfl
  have hnot : ∀ {p : Prop} [Decidable p] {k : Unit → Except Fault (ConnectionSystem T)},
      ¬ p → (ensure p Fault.notEnabled >>= k) = .error .notEnabled := by
    intro p _ k hp
    rw [ensure_of_not hp, error_bind]
  cases a with
  | connectionEstablished => exact .inr (.inl rfl)
  | connectionCallback => exact .inr (.inr (hnot Bool.false_ne_true))
  | poll revents read => exact .inr (.inr (hnot fun hp => hfree hp.1))
  | pollOther => exact .inr (.inr (hnot hfree))
  | handleEvent n => exact .inr (.inr (hnot hfree))
  | doPendingFunctor => exact .inr (.inr (hnot hfree))
  | runFunctor n => exact .inr (.inr (hnot hfree))
  | endPass => exact .inr (.inr (hnot hfree))
  | send argument n => exact .inr (.inr (hnot hfree))
  | shutdown => exact .inr (.inr (hnot hfree))
  | otherSend t argument => exact .inr (.inr (hnot fun hp => Bool.false_ne_true hp.1))
  | otherSendPush t => exact .inr (.inr rfl)
  | otherShutdown t =>
    rw [step]
    by_cases hp : (init owner w : ConnectionSystem T).Published ∧
        (init owner w : ConnectionSystem T).threads t = .idle
    · rw [ensure_of hp]
      exact .inl rfl
    · exact .inr (.inr (hnot hp))
  | otherShutdownSet t => exact .inr (.inr (hnot fun he => by cases he))
  | otherShutdownPush t => exact .inr (.inr (hnot fun he => by cases he))
  | otherFunctor => exact .inr (.inr (hnot fun hp => hp rfl))
  | removeConnectionInLoop => exact .inr (.inr (hnot (Nat.lt_irrefl 0)))

theorem first_step {owner : Owner} {w : Bool} (h : step (init owner w) a = .ok s') :
    s' = init owner w ∨ s' = established owner w := by
  rcases step_init owner w a with hs | hs | hs
  · exact .inl (Except.ok.inj (h.symm.trans hs))
  · exact .inr (Except.ok.inj (h.symm.trans hs))
  · cases h.symm.trans hs

theorem first_step_error {owner : Owner} {w : Bool} {f : Fault}
    (h : step (init owner w) a = .error f) : f = .notEnabled := by
  rcases step_init owner w a with hs | hs | hs
  · cases h.symm.trans hs
  · cases h.symm.trans hs
  · exact Except.error.inj (h.symm.trans hs)

/-! ## The queue -/

/-- The `connectionDestroyed` functors leave the queue and join it with the others. -/
theorem Turnover.due {l l' : List (Functor T)} (h : Turnover s s' l l') :
    s'.due + l.count .connectionDestroyed = s.due + l'.count .connectionDestroyed := by
  obtain ⟨rest, hs, hs'⟩ := h
  rw [ConnectionSystem.due, ConnectionSystem.due, hs, hs', List.count_append, List.count_append]
  omega

theorem Turnover.due_eq {l l' : List (Functor T)} (h : Turnover s s' l l')
    (hl : .connectionDestroyed ∉ l) (hl' : .connectionDestroyed ∉ l') : s'.due = s.due := by
  have hdue := h.due
  rwa [List.count_eq_zero.mpr hl, List.count_eq_zero.mpr hl', Nat.add_zero, Nat.add_zero] at hdue

/-- A quiet step that takes no `connectionDestroyed` queues none. -/
theorem due_quiet (hq : Quiet s.conn s'.conn) {l : List (Functor T)}
    (hb : s.batch = l ++ s'.batch) (hl : .connectionDestroyed ∉ l) : s'.due = s.due := by
  obtain ⟨l', hl', hw⟩ := hq.queue
  exact (turnover_of hb hl').due_eq hl fun hmem => nomatch hw _ hmem

/-- `Live` after a step that is quiet for the connection. -/
theorem Live.of_quiet (h : s.Live) (hq : Quiet s.conn s'.conn)
    (hstate : s'.conn.state = s.conn.state ∨ s'.conn.state = .kDisconnecting)
    (hdue : s'.due = s.due) (hdestroyed : s'.destroyed = s.destroyed) : s'.Live := by
  have hclosed : s'.Closed ↔ s.Closed := by
    rw [Closed, Closed, hq.closeCallbacks]
  refine ⟨?_, fun hc => ?_, fun hc => hq.registered (h.opened (mt hclosed.mpr hc)), ?_, ?_⟩
  · rcases hstate with heq | heq
    · rw [heq]
      exact h.state
    · rw [heq]
      decide
  · rcases hstate with heq | heq
    · rw [heq]
      exact h.closed (hclosed.mp hc)
    · rw [heq]
      decide
  · rw [hq.held, hq.closeCallbacks, hq.removals]
    exact h.removal
  · rw [hq.held, hdue, hdestroyed]
    exact h.destroyed

/-- `Live` looks only at these parts of a system. -/
theorem Live.congr (h : s.Live) (hstate : s'.conn.state = s.conn.state)
    (hevents : s'.conn.channel.events = s.conn.channel.events)
    (hindex : s'.conn.channel.index = s.conn.channel.index)
    (hpoller : s'.conn.poller = s.conn.poller) (hheld : s'.conn.held = s.conn.held)
    (hremovals : s'.conn.removals = s.conn.removals)
    (hclose : s'.conn.record.closeCallbacks = s.conn.record.closeCallbacks)
    (hdue : s'.due = s.due) (hdestroyed : s'.destroyed = s.destroyed) : s'.Live := by
  have hclosed : s'.Closed ↔ s.Closed := by
    rw [Closed, Closed, hclose]
  refine ⟨hstate ▸ h.state, fun hc => hstate ▸ h.closed (hclosed.mp hc), fun hc => ?_, ?_, ?_⟩
  · have hr := h.opened (mt hclosed.mpr hc)
    exact ⟨hindex.trans hr.index, by rw [hpoller, hevents, hr.events]⟩
  · rw [hheld, hclose, hremovals]
    exact h.removal
  · rw [hdue, hdestroyed, hheld]
    exact h.destroyed

theorem Live.passes (h : s.Live) (hp : Passes s a s') : s'.Live := by
  obtain ⟨hturn, hpopped⟩ := hp.turnover
  have hdue : s'.due = s.due := by
    refine hturn.due_eq (fun hmem => ?_) List.not_mem_nil
    rcases hpopped _ hmem with hf | hf <;> cases hf
  obtain ⟨loop, revents, phase, rfl⟩ := hp.frame
  exact h.congr rfl rfl rfl rfl rfl rfl rfl hdue rfl

theorem Live.close (h : s.Live) (hc : TcpConnection.Closed s.conn s'.conn)
    (hb : s.batch = s'.batch) (hdestroyed : s'.destroyed = s.destroyed) : s'.Live := by
  have hrec : s'.conn.record.closeCallbacks = s.conn.record.closeCallbacks + 1 := by rw [hc.record]
  have hrem := h.removal
  have hdes := h.destroyed
  refine ⟨by rw [hc.state]; decide, fun _ => by rw [hc.state]; decide, fun _ => hc.registered,
    ?_, ?_⟩
  · rw [hrec]
    rcases hc.removal with ⟨hh, hh', hr, -⟩ | ⟨hh, hr, -⟩
    · rw [hh', hr]
      rw [hh] at hrem
      dsimp only [Bool.toNat_true, Bool.toNat_false] at hrem ⊢
      omega
    · rw [hh, hr]
      omega
  · rw [hdestroyed]
    rcases hc.removal with ⟨hh, hh', -, hq⟩ | ⟨hh, -, hq⟩
    · have hdue := (turnover_of (l := []) hb hq).due
      rw [List.count_nil, List.count_singleton_self] at hdue
      rw [hh']
      rw [hh] at hdes
      dsimp only [Bool.toNat_true, Bool.toNat_false] at hdes ⊢
      omega
    · rw [(turnover_same hb hq).due_eq List.not_mem_nil List.not_mem_nil, hh]
      exact hdes

/-- A functor queued by another thread. -/
theorem Live.push (h : s.Live) {f : Functor T} (hf : f ≠ .connectionDestroyed)
    (threads : T → Pc) : Live { s with conn := s.runInLoop f, threads := threads } := by
  have hdue := (turnover_push (s := s) f threads).due_eq List.not_mem_nil fun hmem =>
    hf (List.mem_singleton.mp hmem).symm
  exact h.congr rfl rfl rfl rfl rfl rfl rfl hdue rfl

/-- A `connectionDestroyed` that is about to run is the only one, and the connection is no
longer held. -/
theorem Live.last_destroy (h : s.Live) {fs : List (Functor T)}
    (hb : s.batch = .connectionDestroyed :: fs) :
    s.destroyed = false ∧ s.conn.held = false := by
  have hdes := h.destroyed
  have hdue : 0 < s.due := by
    apply List.count_pos_iff.mpr
    rw [functors, hb]
    exact List.mem_cons_self
  constructor
  · apply Bool.toNat_eq_zero.mp
    omega
  · apply Bool.toNat_eq_zero.mp
    omega

theorem Live.destroy (h : s.Live) (hb : s.batch = .connectionDestroyed :: s'.batch)
    (hconn : s'.conn = { s.conn with poller := ⟨none⟩ }) (hdestroyed : s'.destroyed = true) :
    s'.Live := by
  obtain ⟨halive, hheld⟩ := h.last_destroy hb
  have hdes := h.destroyed
  have hq : s'.conn.loop.pendingFunctors = s.conn.loop.pendingFunctors ++ [] := by
    rw [hconn, List.append_nil]
  have hdue := (turnover_of (l := [.connectionDestroyed]) hb hq).due
  have hclosed : s'.Closed := by
    rw [Closed, hconn]
    exact h.closed_of_not_held hheld
  refine ⟨by rw [hconn]; exact h.state, fun _ => ?_, fun hc => absurd hclosed hc, ?_, ?_⟩
  · rw [hconn]
    exact h.closed (h.closed_of_not_held hheld)
  · rw [hconn]
    exact h.removal
  · rw [List.count_nil, List.count_singleton_self] at hdue
    have hheld' : s'.conn.held = false := by
      rw [hconn]
      exact hheld
    rw [halive, hheld, Bool.toNat_false] at hdes
    rw [hdestroyed, hheld', Bool.toNat_true, Bool.toNat_false]
    omega

theorem Live.baseRemove (h : s.Live) (hpos : 0 < s.conn.removals) (hheld : s.conn.held = true)
    (hconn : s'.conn = { s.conn with
      removals := s.conn.removals - 1
      held := false
      loop := s.conn.loop.queueInLoop false .connectionDestroyed })
    (hb : s.batch = s'.batch) (hdestroyed : s'.destroyed = s.destroyed) : s'.Live := by
  have hdes := h.destroyed
  have hrem := h.removal
  have hq : s'.conn.loop.pendingFunctors =
      s.conn.loop.pendingFunctors ++ [.connectionDestroyed] := by
    rw [hconn, EventLoop.queueInLoop_pendingFunctors]
  have hdue := (turnover_of (l := []) hb hq).due
  rw [List.count_nil, List.count_singleton_self] at hdue
  rw [hheld, Bool.toNat_true] at hdes hrem
  refine ⟨by rw [hconn]; exact h.state, fun hc => ?_, fun hc => ?_, ?_, ?_⟩
  · rw [hconn]
    rw [Closed, hconn] at hc
    exact h.closed hc
  · rw [Closed, hconn] at hc
    rw [hconn]
    exact ⟨(h.opened hc).index, (h.opened hc).events⟩
  · rw [hconn]
    dsimp only [Bool.toNat_false]
    omega
  · rw [hconn, hdestroyed]
    dsimp only [Bool.toNat_false]
    omega

theorem live_step (h : s.Live) (hstep : step s a = .ok s') : s'.Live := by
  cases moves_of_step h.state hstep with
  | passes hp => exact h.passes hp
  | notify => exact h.congr rfl rfl rfl rfl rfl rfl rfl rfl rfl
  | close _ hphase _ hclose => exact h.close (handleClose_spec hclose) (batch_handling hphase) rfl
  | drain _ hphase hdrain =>
    have hsent := handleWrite_spec hdrain
    exact h.of_quiet hsent.quiet (.inl hsent.state)
      (due_quiet (l := []) hsent.quiet (batch_handling hphase) List.not_mem_nil) rfl
  | destroy _ hphase hdestroy =>
    exact h.destroy (batch_running hphase) (connectionDestroyed_ok h.state hdestroy).2 rfl
  | runSend _ hphase hsend =>
    have hsent := sendInLoop_spec hsend
    exact h.of_quiet hsent.quiet (.inl hsent.state)
      (due_quiet (l := [_]) hsent.quiet (batch_running hphase) (by simp)) rfl
  | runShutdown _ hphase =>
    have hspec := shutdownInLoop_spec s.conn
    exact h.of_quiet hspec.quiet (.inl (shutdownInLoop_state _))
      (due_quiet (l := [_]) hspec.quiet (batch_running hphase) (by simp)) rfl
  | send _ _ hsend =>
    have hsent := sendInLoop_spec hsend
    exact h.of_quiet hsent.quiet (.inl hsent.state)
      (due_quiet (l := []) hsent.quiet rfl List.not_mem_nil) rfl
  | shutdown _ hstate =>
    have hspec := shutdown_spec s.conn
    refine h.of_quiet hspec.quiet (.inr ?_)
      (due_quiet (l := []) hspec.quiet rfl List.not_mem_nil) rfl
    dsimp only
    rw [TcpConnection.shutdown, if_pos hstate, shutdownInLoop_state]
  | otherSend _ _ => exact h.congr rfl rfl rfl rfl rfl rfl rfl rfl rfl
  | otherSendPush _ => exact h.push (by simp) _
  | otherShutdown _ _ _ => exact h.congr rfl rfl rfl rfl rfl rfl rfl rfl rfl
  | otherShutdownSet _ =>
    exact h.of_quiet (quiet_socket s.conn .kDisconnecting _ _ _ _) (.inr rfl) rfl rfl
  | otherShutdownPush _ => exact h.push (by simp) _
  | otherFunctor => exact h.push (by simp) _
  | baseRemove hpos hheld => exact h.baseRemove hpos hheld rfl rfl rfl

/-! ## The registration of the channel -/

/-- The poller knows the channel exactly until the connection is destroyed, and no dispatch of it
is left then. -/
structure Polled (s : ConnectionSystem T) : Prop where
  registered : s.destroyed = false → s.conn.Registered
  removed : s.destroyed = true → s.conn.channel.index = 1 ∧ s.conn.poller.registered = none
  handling : ∀ callback callbacks read, s.phase = .handling (callback :: callbacks) read →
    s.destroyed = false

omit [DecidableEq T] in
theorem established_polled (owner : Owner) (w : Bool) :
    (established owner w : ConnectionSystem T).Polled :=
  ⟨fun _ => ⟨rfl, rfl⟩, nofun, nofun⟩

omit [DecidableEq T] in
/-- A step after which no callback is left that was not left before. -/
theorem Polled.congr (h : s.Polled) (hevents : s'.conn.channel.events = s.conn.channel.events)
    (hindex : s'.conn.channel.index = s.conn.channel.index)
    (hpoller : s'.conn.poller = s.conn.poller) (hdestroyed : s'.destroyed = s.destroyed)
    (hphase : ∀ callback callbacks read, s'.phase = .handling (callback :: callbacks) read →
      s.destroyed = false) : s'.Polled := by
  refine ⟨fun hd => ?_, fun hd => ?_, fun cb cbs read hp => ?_⟩
  · have hr := h.registered (hdestroyed ▸ hd)
    exact ⟨hindex.trans hr.index, by rw [hpoller, hevents, hr.events]⟩
  · rw [hindex, hpoller]
    exact h.removed (hdestroyed ▸ hd)
  · exact hdestroyed.trans (hphase cb cbs read hp)

omit [DecidableEq T] in
theorem Polled.passes (h : s.Polled) (hp : Passes s a s') : s'.Polled := by
  cases hp with
  | poll _ _ hreg =>
    exact h.congr rfl rfl rfl rfl fun _ _ _ _ =>
      Bool.eq_false_iff.mpr fun hd => hreg (h.removed hd).2
  | pollOther _ _ => exact h.congr rfl rfl rfl rfl nofun
  | noClose _ hphase _ => exact h.congr rfl rfl rfl rfl fun _ _ _ _ => h.handling _ _ _ hphase
  | swap _ _ => exact h.congr rfl rfl rfl rfl nofun
  | runOther _ _ _ => exact h.congr rfl rfl rfl rfl nofun
  | endPass _ _ => exact h.congr rfl rfl rfl rfl nofun
  | ignored => exact h

omit [DecidableEq T] in
/-- `sendInLoop` keeps the registration, or finds the channel removed and leaves it alone. -/
theorem Polled.sendInLoop (h : s.Polled) {message : Bytes} {n : Int} {conn : TcpConnection T}
    (hsend : s.conn.sendInLoop message n = .ok conn) (hconn : s'.conn = conn)
    (hdestroyed : s'.destroyed = s.destroyed)
    (hphase : ∀ callback callbacks read, s'.phase = .handling (callback :: callbacks) read →
      s.destroyed = false) : s'.Polled := by
  subst hconn
  refine ⟨fun hd => ?_, fun hd => ?_, fun cb cbs read hp => ?_⟩
  · exact (sendInLoop_spec hsend).quiet.registered (h.registered (hdestroyed ▸ hd))
  · obtain ⟨hi, hr⟩ := h.removed (hdestroyed ▸ hd)
    obtain ⟨hchannel, hpoller⟩ := sendInLoop_removed hi hr hsend
    rw [hchannel, hpoller]
    exact ⟨hi, hr⟩
  · exact hdestroyed.trans (hphase cb cbs read hp)

theorem polled_step (hlive : s.Live) (h : s.Polled) (hstep : step s a = .ok s') : s'.Polled := by
  cases moves_of_step hlive.state hstep with
  | passes hp => exact h.passes hp
  | notify => exact h.congr rfl rfl rfl rfl h.handling
  | close _ hphase _ hclose =>
    have halive := h.handling _ _ _ hphase
    refine ⟨fun _ => (handleClose_spec hclose).registered, fun hd => ?_, fun _ _ _ _ => halive⟩
    cases halive.symm.trans hd
  | drain _ hphase hdrain =>
    have halive := h.handling _ _ _ hphase
    refine ⟨fun hd => ?_, fun hd => ?_, fun _ _ _ _ => halive⟩
    · exact (handleWrite_spec hdrain).quiet.registered (h.registered hd)
    · cases halive.symm.trans hd
  | destroy _ hphase hdestroy =>
    obtain ⟨-, rfl⟩ := connectionDestroyed_ok hlive.state hdestroy
    have halive := (hlive.last_destroy (batch_running hphase)).1
    exact ⟨nofun, fun _ => ⟨(h.registered halive).index, rfl⟩, nofun⟩
  | runSend _ hphase hsend => exact h.sendInLoop hsend rfl rfl nofun
  | runShutdown _ hphase =>
    have hspec := shutdownInLoop_spec s.conn
    exact h.congr (congrArg Channel.events hspec.channel) (congrArg Channel.index hspec.channel)
      hspec.poller rfl nofun
  | send _ _ hsend => exact h.sendInLoop hsend rfl rfl h.handling
  | shutdown _ _ =>
    have hspec := shutdown_spec s.conn
    exact h.congr (congrArg Channel.events hspec.channel) (congrArg Channel.index hspec.channel)
      hspec.poller rfl h.handling
  | otherSend _ _ => exact h.congr rfl rfl rfl rfl h.handling
  | otherSendPush _ => exact h.congr rfl rfl rfl rfl h.handling
  | otherShutdown _ _ _ => exact h.congr rfl rfl rfl rfl h.handling
  | otherShutdownSet _ => exact h.congr rfl rfl rfl rfl h.handling
  | otherShutdownPush _ => exact h.congr rfl rfl rfl rfl h.handling
  | otherFunctor => exact h.congr rfl rfl rfl rfl h.handling
  | baseRemove _ _ => exact h.congr rfl rfl rfl rfl h.handling

/-! ## Runs -/

section Runs

variable {owner : Owner} {w : Bool} {C : ConnectionSystem T → Action T → Prop}
  {I : ConnectionSystem T → Prop}

/-- A property of established connections that every conditioned step keeps, at any step. -/
theorem established_step (hinit : I (established owner w))
    (hstep : ∀ s a t, s.Live → I s → C s a → step s a = .ok t → I t) :
    ∀ s a t, (s = init owner w ∨ s.Live ∧ I s) → C s a → step s a = .ok t →
      t = init owner w ∨ t.Live ∧ I t := by
  rintro s a t (rfl | ⟨hlive, hi⟩) hc hs
  · rcases first_step hs with rfl | rfl
    · exact .inl rfl
    · exact .inr ⟨established_live owner w, hinit⟩
  · exact .inr ⟨live_step hlive hs, hstep s a t hlive hi hc hs⟩

theorem run_established (hinit : I (established owner w))
    (hstep : ∀ s a t, s.Live → I s → C s a → step s a = .ok t → I t) {as : List (Action T)}
    (hcond : Along step C (init owner w) as) (hrun : run step (init owner w) as = .ok s) :
    s = init owner w ∨ s.Live ∧ I s :=
  run_invariant (I := fun s => s = init owner w ∨ s.Live ∧ I s) (established_step hinit hstep)
    (.inl rfl) hcond hrun

/-- A fault that no conditioned step of an established connection raises ends no conditioned
run. -/
theorem run_fault {bad : Fault → Prop} (hinit : I (established owner w))
    (hstep : ∀ s a t, s.Live → I s → C s a → step s a = .ok t → I t)
    (herr : ∀ s a f, s.Live → I s → C s a → Faults s a f → ¬ bad f) (hne : ¬ bad .notEnabled)
    {as : List (Action T)} (hcond : Along step C (init owner w) as) {f : Fault}
    (hrun : run step (init owner w) as = .error f) : ¬ bad f := by
  refine run_ne_error (I := fun s => s = init owner w ∨ s.Live ∧ I s)
    (established_step hinit hstep) ?_ (.inl rfl) hcond hrun
  rintro s a f (rfl | ⟨hlive, hi⟩) hc hs
  · rwa [first_step_error hs]
  · exact herr s a f hlive hi hc (faults_of_step hlive.state hs)

theorem run_live {as : List (Action T)} (hrun : run step (init owner w) as = .ok s) :
    s = init owner w ∨ s.Live :=
  (run_established (I := fun _ => True) trivial (fun _ _ _ _ _ _ _ => trivial) along_true
    hrun).imp_right And.left

end Runs

end Summer.Net.ConnectionSystem
