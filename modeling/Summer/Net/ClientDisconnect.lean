import Summer.Net.ClientInvariant

/-!
# What a `disconnect()` leaves to happen

`connect_` is consulted in `removeConnection` only. A connection attempt that is in flight, a retry
timer and a `startInLoop` that is queued go on after a `disconnect()`, and end in a new connection.
-/
namespace Summer.Net.ClientSystem

open Summer.Lib

variable {T : Type}

/-- A call of `connect()` begins. -/
def Action.IsConnect : Action T → Prop
  | .connect _ | .otherConnect _ => True
  | _ => False

/-- A call of `disconnect()` returns. -/
def Action.IsDisconnect : Action T → Prop
  | .disconnect | .otherDisconnectReturn _ => True
  | _ => False

/-- Nothing that leads to a new connection is under way: the loop thread is not in a function of
the client, no attempt is in flight, before the next one no timer and no `startInLoop` is pending,
and the loss of the connection will not be followed by a reconnect. -/
structure Quiet (s : ClientSystem T) : Prop where
  within : s.within = .outside
  attempt : s.client.connector.state ≠ .kConnecting
  pending : s.client.connector.state = .kDisConnected →
    s.client.connector.timers = [] ∧ .startInLoop ∉ s.functors ∧ ∀ t, s.pushing t = false
  connect : s.client.connection ≠ none → s.client.connect = false

section

variable [DecidableEq T]

/-- Until the next `connect()` no connection is established. -/
def Final (s : ClientSystem T) : Prop :=
  ∀ bs t, (∀ b ∈ bs, ¬ b.IsConnect) → run step s bs = .ok t → t.established = s.established

end

variable {s s' : ClientSystem T}

/-! ## A quiet client stays quiet -/

/-- `startInLoop` succeeds in `kDisConnected` only. -/
theorem no_start {k₀ k : Connector} {e : Nat} (hstate : k₀.state = s.client.connector.state)
    (hp : s.client.connector.state ≠ .kDisConnected) : k₀.startInLoop e ≠ .ok k := by
  intro hk
  exact hp (hstate.symm.trans (Connector.startInLoop_ok hk).1)

/-- Steps that change the flags, the phase or what is queued. -/
theorem Quiet.congr (h : s.Quiet) (hwithin : s'.within = .outside)
    (hstate : s'.client.connector.state = s.client.connector.state)
    (htimers : s'.client.connector.timers = s.client.connector.timers)
    (hfunctors : s.client.connector.state = .kDisConnected → .startInLoop ∉ s.functors →
      .startInLoop ∉ s'.functors)
    (hpushing : ∀ t, s.pushing t = false → s'.pushing t = false)
    (hconnect : s'.client.connection ≠ none →
      s.client.connection ≠ none ∧ (s.client.connect = false → s'.client.connect = false)) :
    s'.Quiet where
  within := hwithin
  attempt := hstate ▸ h.attempt
  pending hdis := by
    rw [hstate] at hdis
    obtain ⟨hnone, hstart, hpush⟩ := h.pending hdis
    exact ⟨htimers.trans hnone, hfunctors hdis hstart, fun t => hpushing t (hpush t)⟩
  connect hne := (hconnect hne).2 (h.connect (hconnect hne).1)

theorem quiet_callFunctor (h : s.Quiet) {f : ClientFunctor}
    {fs : List ClientFunctor} {e : Nat} (hphase : s.phase = .running (f :: fs))
    (hs : callFunctor { s with phase := .running fs } e f = .ok s') :
    s'.Quiet ∧ s'.established = s.established := by
  have hfunctors : s.functors = f :: (fs ++ s.client.loop.pendingFunctors) := by
    rw [functors, batch, hphase]
    rfl
  cases f with
  | startInLoop =>
    obtain ⟨k, hk, rfl⟩ := runConnector_ok hs
    by_cases hdis : s.client.connector.state = .kDisConnected
    · refine absurd ?_ (h.pending hdis).2.1
      rw [hfunctors]
      exact List.mem_cons_self
    · exact absurd hk (no_start rfl hdis)
  | resetChannel =>
    obtain ⟨k, hk, rfl⟩ := runConnector_ok hs
    cases hk
    rw [TcpClient.setConnector_tail rfl]
    refine ⟨h.congr h.within rfl rfl (fun _ hnot => ?_) (fun _ ht => ht) fun hne => ⟨hne, id⟩, rfl⟩
    rw [hfunctors] at hnot
    exact fun hmem => hnot (List.mem_cons_of_mem _ hmem)
  | connectionDestroyed conn =>
    cases hs
    refine ⟨h.congr h.within rfl rfl (fun _ hnot => ?_) (fun _ ht => ht) fun hne => ⟨hne, id⟩, rfl⟩
    rw [hfunctors] at hnot
    exact fun hmem => hnot (List.mem_cons_of_mem _ hmem)

variable [DecidableEq T] {a : Action T} {as : List (Action T)}

theorem quiet_step (h : s.Quiet) (hc : s.Coherent) (ha : ¬ a.IsConnect) (hs : step s a = .ok s') :
    s'.Quiet ∧ s'.established = s.established := by
  cases a with
  | connect e | otherConnect t => exact absurd trivial ha
  | enableRetry =>
    cases hs
    exact ⟨h.congr h.within rfl rfl (fun _ => id) (fun _ => id) fun hne => ⟨hne, id⟩, rfl⟩
  | disconnect | otherDisconnect t =>
    obtain ⟨_, -, hs⟩ := bind_eq_ok.mp hs
    cases hs
    exact ⟨h.congr h.within rfl rfl (fun _ => id) (fun _ => id) fun hne => ⟨hne, fun _ => rfl⟩,
      rfl⟩
  | otherConnectPush t =>
    obtain ⟨_, hpush, hs⟩ := bind_eq_ok.mp hs
    have hpush := ensure_eq_ok.mp hpush
    cases hs
    refine ⟨h.congr h.within rfl rfl (fun hdis => ?_) (fun u hu => ?_) fun hne => ⟨hne, id⟩, rfl⟩
    · rw [(h.pending hdis).2.2 t] at hpush
      cases hpush
    · show Function.update s.pushing t false u = false
      by_cases hut : u = t
      · rw [hut, Function.update_self]
      · rw [Function.update_of_ne hut, hu]
  | otherDisconnectReturn t =>
    obtain ⟨_, -, hs⟩ := bind_eq_ok.mp hs
    cases hs
    exact ⟨h.congr h.within rfl rfl (fun _ => id) (fun _ => id) fun hne => ⟨hne, id⟩, rfl⟩
  | poll connecting conns =>
    obtain ⟨_, hen, hs⟩ := bind_eq_ok.mp hs
    obtain ⟨_, -, hs⟩ := bind_eq_ok.mp hs
    obtain ⟨_, -, hs⟩ := bind_eq_ok.mp hs
    cases hs
    refine ⟨h.congr h.within rfl rfl (fun _ hnot => ?_) (fun _ => id) fun hne => ⟨hne, id⟩, rfl⟩
    rw [functors, batch, (ensure_eq_ok.mp hen).2] at hnot
    exact hnot
  | handleEvent revents isSelfConnect =>
    obtain ⟨_, -, hs⟩ := bind_eq_ok.mp hs
    split at hs
    · rename_i fd conns hphase
      exact absurd ((hc.handling _ _ hphase).connecting fd rfl).2 h.attempt
    · cases hs
  | newConnection | connectionEstablished =>
    rw [step, h.within] at hs
    cases hs
  | removeConnection conn =>
    obtain ⟨_, -, hs⟩ := bind_eq_ok.mp hs
    split at hs
    · rename_i connecting conns hphase
      obtain ⟨_, -, hs⟩ := bind_eq_ok.mp hs
      obtain ⟨client, hclient, hs⟩ := bind_eq_ok.mp hs
      obtain ⟨_, hconn, hclient⟩ := bind_eq_ok.mp hclient
      have hconn := ensure_eq_ok.mp hconn
      have hconnect := h.connect (by rw [hconn]; simp)
      cases hclient
      cases hs
      refine ⟨h.congr ?_ rfl rfl (fun _ hnot hmem => ?_) (fun _ => id) (by simp), rfl⟩
      · exact if_neg fun hr => by rw [hconnect] at hr; cases hr.2
      · rw [functors, EventLoop.queueInLoop_pendingFunctors, ← List.append_assoc] at hmem
        rcases List.mem_append.mp hmem with hmem | hmem
        · exact hnot hmem
        · cases List.mem_singleton.mp hmem
    · cases hs
  | restart e =>
    obtain ⟨_, hwithin, hs⟩ := bind_eq_ok.mp hs
    rw [h.within] at hwithin
    cases ensure_eq_ok.mp hwithin
  | timer i e =>
    obtain ⟨_, hen, hs⟩ := bind_eq_ok.mp hs
    split at hs
    · obtain ⟨k, hk, rfl⟩ := runConnector_ok hs
      by_cases hdis : s.client.connector.state = .kDisConnected
      · have hlt := (ensure_eq_ok.mp hen).2
        rw [(h.pending hdis).1] at hlt
        exact absurd hlt (Nat.not_lt_zero _)
      · exact absurd hk (no_start rfl hdis)
    · cases hs
  | doPendingFunctor =>
    obtain ⟨_, -, hs⟩ := bind_eq_ok.mp hs
    split at hs
    · rename_i conns hphase
      cases hs
      refine ⟨h.congr h.within rfl rfl (fun _ hnot => ?_) (fun _ => id) fun hne => ⟨hne, id⟩, rfl⟩
      rw [functors, batch, hphase] at hnot
      show .startInLoop ∉ s.client.loop.pendingFunctors ++ []
      rw [List.append_nil]
      exact hnot
    · cases hs
  | runFunctor e =>
    obtain ⟨_, hout, hs⟩ := bind_eq_ok.mp hs
    split at hs
    · rename_i f fs hphase
      exact quiet_callFunctor h hphase hs
    · cases hs
  | endPass =>
    obtain ⟨_, -, hs⟩ := bind_eq_ok.mp hs
    split at hs
    · rename_i hphase
      cases hs
      refine ⟨h.congr h.within rfl rfl (fun _ hnot => ?_) (fun _ => id) fun hne => ⟨hne, id⟩, rfl⟩
      rw [functors, batch, hphase] at hnot
      exact hnot
    · cases hs

theorem Quiet.final (h : s.Quiet) (hc : s.Coherent) : s.Final := by
  intro bs t hbs hrun
  have hinv := run_invariant (C := fun _ a => ¬ a.IsConnect)
    (I := fun t => t.Coherent ∧ t.Quiet ∧ t.established = s.established) ?_ ⟨hc, h, rfl⟩
    (along_of_forall_mem hbs) hrun
  · exact hinv.2.2
  · rintro u a v ⟨hcoherent, hquiet, hsame⟩ ha hs
    obtain ⟨hquiet', hsame'⟩ := quiet_step hquiet hcoherent ha hs
    exact ⟨coherent_step hcoherent hs, hquiet', hsame'.trans hsame⟩

/-! ## What is not quiet goes on -/

/-- The loop is between two passes with nothing queued, and no `connect()` is under way. -/
structure Settled (s : ClientSystem T) : Prop where
  phase : s.phase = .between
  within : s.within = .outside
  queue : s.client.loop.pendingFunctors = []
  pushing : ∀ t, s.pushing t = false
  connect : s.client.connect = false

theorem poll_step (connecting : Option Nat) (hphase : s.phase = .between)
    (hwithin : s.within = .outside)
    (hreg : ∀ fd ∈ connecting, (s.client.connector.poller fd).registered ≠ none) :
    step s (.poll connecting []) = .ok { s with
      client := { s.client with loop := s.client.loop.handleRead }
      phase := .handling connecting [] } := by
  rw [step, ensure_of ⟨hwithin, hphase⟩, ok_bind, ensure_of hreg, ok_bind, ensure_of (by simp),
    ok_bind]

/-- The connecting channel is writable: its socket is handed over. -/
theorem handOver_step {fd : Nat} (hphase : s.phase = .handling (some fd) [])
    (hwithin : s.within = .outside) (hwatches : s.client.connector.Watches fd)
    (hstate : s.client.connector.state = .kConnecting) :
    step s (.handleEvent POLLOUT false) = .ok { s with
      client := s.client.setConnector (s.client.connector.connected fd)
      phase := .handling none []
      within := .handingOver fd } := by
  rw [step, ensure_of hwithin, ok_bind, hphase]
  dsimp only
  rw [hwatches.handleEvent_writable hstate, ok_bind, if_pos Connector.handed_lt]

/-- A socket that was handed over becomes a connection. -/
theorem established_run {fd : Nat} (hwithin : s.within = .handingOver fd) :
    ∃ t, run step s [.newConnection, .connectionEstablished] = .ok t ∧
      t.established = s.established + 1 := by
  have hnew : step s .newConnection = .ok { s with
      client := s.client.newConnection
      within := .establishing s.client.nextConnId } := by
    rw [step, hwithin]
  exact ⟨_, run_cons_ok.mpr ⟨_, hnew, rfl⟩, rfl⟩

/-- An attempt in flight succeeds. -/
theorem attempt_succeeds (hphase : s.phase = .between) (hwithin : s.within = .outside) {fd : Nat}
    (htrying : s.client.connector.Trying fd) (hstate : s.client.connector.state = .kConnecting) :
    ∃ t, run step s [.poll (some fd) [], .handleEvent POLLOUT false, .newConnection,
      .connectionEstablished] = .ok t ∧ t.established = s.established + 1 := by
  have hpoll := poll_step (some fd) hphase hwithin fun fd' hfd' => by
    cases hfd'
    rw [htrying.watches.poller]
    nofun
  let s₁ : ClientSystem T := { s with
    client := { s.client with loop := s.client.loop.handleRead }
    phase := .handling (some fd) [] }
  have hover := handOver_step (s := s₁) rfl hwithin htrying.watches hstate
  obtain ⟨t, hrun, ht⟩ := established_run (s := { s₁ with
    client := s₁.client.setConnector (s₁.client.connector.connected fd)
    phase := .handling none []
    within := .handingOver fd }) rfl
  exact ⟨t, run_cons_ok.mpr ⟨_, hpoll, run_cons_ok.mpr ⟨_, hover, hrun⟩⟩, ht⟩

/-- A retry timer begins an attempt, and the pass goes on without further ado. -/
theorem timer_attempt (h : s.Settled) (hresets : s.client.connector.resets = [])
    (hrest : s.client.connector.Resting) (hstate : s.client.connector.state = .kDisConnected)
    (htimers : s.client.connector.timers ≠ []) :
    ∃ t, run step s [.poll none [], .timer 0 0, .doPendingFunctor, .endPass] = .ok t ∧
      t.phase = .between ∧ t.within = .outside ∧ t.client.connector.state = .kConnecting ∧
      t.established = s.established := by
  have hpoll := poll_step none h.phase h.within nofun
  let s₁ : ClientSystem T := { s with
    client := { s.client with loop := s.client.loop.handleRead }
    phase := .handling none [] }
  let k : Connector :=
    { s.client.connector with timers := s.client.connector.timers.eraseIdx 0 }
  have hbegun : k.startInLoop 0 = .ok k.begun :=
    Connector.startInLoop_begins (.inl rfl) hstate (hrest.channel_none_iff.mpr hresets)
      (hrest.poller _)
  have htimer : step s₁ (.timer 0 0) =
      .ok { s₁ with client := { s₁.client with connector := k.begun } } := by
    have hen : s₁.within = .outside ∧ 0 < s₁.client.connector.timers.length :=
      ⟨h.within, List.length_pos_iff.mpr htimers⟩
    rw [step, ensure_of hen, ok_bind]
    show runConnector s₁ (k.startInLoop 0) = _
    rw [hbegun, ← TcpClient.setConnector_same (c := s₁.client) (k := k.begun) rfl]
    rfl
  let s₂ : ClientSystem T := { s₁ with client := { s₁.client with connector := k.begun } }
  have hswap : step s₂ .doPendingFunctor = .ok { s₂ with
      client := { s₂.client with loop := { s₂.client.loop with
        callingPendingFunctor := true, pendingFunctors := [] } }
      phase := .running [] } := by
    rw [step, ensure_of (show s₂.within = .outside from h.within), ok_bind]
    show Except.ok { s₂ with
      client := { s₂.client with loop := { s₂.client.loop with
        callingPendingFunctor := true, pendingFunctors := [] } }
      phase := .running s.client.loop.pendingFunctors } = _
    rw [h.queue]
  let s₃ : ClientSystem T := { s₂ with
    client := { s₂.client with loop := { s₂.client.loop with
      callingPendingFunctor := true, pendingFunctors := [] } }
    phase := .running [] }
  have hend : step s₃ .endPass = .ok { s₃ with
      client := { s₃.client with loop := { s₃.client.loop with callingPendingFunctor := false } }
      phase := .between } := by
    rw [step, ensure_of (show s₃.within = .outside from h.within), ok_bind]
  exact ⟨_, run_cons_ok.mpr ⟨_, hpoll, run_cons_ok.mpr ⟨_, htimer, run_cons_ok.mpr ⟨_, hswap,
    run_cons_ok.mpr ⟨_, hend, rfl⟩⟩⟩⟩, rfl, h.within, rfl, rfl⟩

/-- An attempt that is in flight between two passes may succeed. -/
theorem not_final_of_connecting (hc : s.Coherent) (hphase : s.phase = .between)
    (hwithin : s.within = .outside) (hstate : s.client.connector.state = .kConnecting) :
    ¬ s.Final := by
  rcases hc.connector with hrest | ⟨fd, htrying, -⟩
  · exact absurd hstate hrest.state
  · intro hfinal
    obtain ⟨t, hrun, ht⟩ := attempt_succeeds hphase hwithin htrying hstate
    have hsame := hfinal _ t (by simp [Action.IsConnect]) hrun
    rw [hsame] at ht
    exact Nat.succ_ne_self _ ht.symm

/-- So may the attempt that a retry timer begins. -/
theorem not_final_of_timer (hc : s.Coherent) (h : s.Settled)
    (hstate : s.client.connector.state = .kDisConnected)
    (htimers : s.client.connector.timers ≠ []) : ¬ s.Final := by
  have hne : s.client.connector.state ≠ .kConnecting := by rw [hstate]; nofun
  have hresets : s.client.connector.resets = [] := by
    have hqueue := hc.queue
    rw [functors, batch, h.phase, h.queue] at hqueue
    exact List.length_eq_zero_iff.mp hqueue.symm
  obtain ⟨t, hrun, hphase, hwithin, hconnecting, hsame⟩ :=
    timer_attempt h hresets (hc.resting hne) hstate htimers
  have hcoherent : t.Coherent := run_preserves (fun _ _ _ hc hs => coherent_step hc hs) hc hrun
  intro hfinal
  refine not_final_of_connecting hcoherent hphase hwithin hconnecting fun bs u hbs hu => ?_
  refine (hfinal _ u ?_ (run_append_ok.mpr ⟨t, hrun, hu⟩)).trans hsame.symm
  exact List.forall_mem_append.mpr ⟨by simp [Action.IsConnect], hbs⟩

theorem Settled.final_iff (h : s.Settled) (hc : s.Coherent) : s.Final ↔ s.Quiet := by
  refine ⟨fun hfinal => ⟨h.within, fun hstate => ?_, fun hstate => ⟨?_, ?_, h.pushing⟩,
    fun _ => h.connect⟩, fun hquiet => hquiet.final hc⟩
  · exact not_final_of_connecting hc h.phase h.within hstate hfinal
  · by_contra htimers
    exact not_final_of_timer hc h hstate htimers hfinal
  · rw [functors, batch, h.phase, h.queue]
    exact List.not_mem_nil

/-! ## `disconnect()` -/

/-- A client that is quiet when `disconnect()` returns establishes no connection before the next
`connect()`. Between two passes with nothing queued no other one is sure not to. -/
theorem disconnect_final_iff (hrun : run step init as = .ok s) (_ : a.IsDisconnect)
    (hs : step s a = .ok s') :
    (s'.Quiet → s'.Final) ∧ (s'.Settled → (s'.Final ↔ s'.Quiet)) := by
  have hc : s'.Coherent := coherent_step (coherent_run hrun) hs
  exact ⟨fun hquiet => hquiet.final hc, fun hsettled => hsettled.final_iff hc⟩

/-- A `disconnect()` before the first `connect()`. -/
theorem disconnect_final_sample :
    ∃ s, run (step (T := Unit)) init [.disconnect] = .ok s ∧ s.Quiet ∧ s.Final ∧ s.Settled := by
  have hrun : run (step (T := Unit)) init [] = .ok init := rfl
  have hiff := disconnect_final_iff (a := .disconnect) hrun trivial rfl
  have hquiet : Quiet { (init : ClientSystem Unit) with
      client := { (init : ClientSystem Unit).client with connect := false } } :=
    ⟨rfl, nofun, fun _ => ⟨rfl, nofun, fun _ => rfl⟩, nofun⟩
  exact ⟨_, rfl, hquiet, hiff.1 hquiet, rfl, rfl, rfl, fun _ => rfl, rfl⟩

/-- After a `disconnect()` while an attempt is in flight, or in a retry delay, a connection may be
established. -/
theorem disconnect_not_final :
    (∃ s, run (step (T := Unit)) init [.connect EINPROGRESS, .disconnect] = .ok s ∧ ¬ s.Final) ∧
    (∃ s, run (step (T := Unit)) init [.connect ECONNREFUSED, .disconnect] = .ok s ∧
      ¬ s.Final) := by
  have hinFlight : ∃ s, run (step (T := Unit)) init [.connect EINPROGRESS, .disconnect] = .ok s ∧
      s.phase = .between ∧ s.within = .outside ∧ s.client.connector.state = .kConnecting :=
    ⟨_, rfl, rfl, rfl, rfl⟩
  have hdelayed : ∃ s, run (step (T := Unit)) init [.connect ECONNREFUSED, .disconnect] = .ok s ∧
      s.Settled ∧ s.client.connector.state = .kDisConnected ∧
      s.client.connector.timers = [kInitRetryDelayMs] :=
    ⟨_, rfl, ⟨rfl, rfl, rfl, fun _ => rfl, rfl⟩, rfl, rfl⟩
  obtain ⟨s, hs, hphase, hwithin, hstate⟩ := hinFlight
  obtain ⟨t, ht, hsettled, hstate', htimers⟩ := hdelayed
  refine ⟨⟨s, hs, not_final_of_connecting (coherent_run hs) hphase hwithin hstate⟩,
    ⟨t, ht, not_final_of_timer (coherent_run ht) hsettled hstate' ?_⟩⟩
  rw [htimers]
  exact List.cons_ne_nil _ _

end Summer.Net.ClientSystem
