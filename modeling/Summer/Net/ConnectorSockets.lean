import Summer.Net.ConnectorSpec

/-!
# The sockets of a connector

A connector runs by its public functions, its retry timers, the dispatches of its channel and its
queued `resetChannel`, in any order. A `restart` during an attempt is what leaves a socket behind.
-/
namespace Summer.Net.Connector

open Summer.Lib

inductive Action where
  /-- `startInLoop` for a `start()`. -/
  | start (savedErrno : Nat)
  | restart (savedErrno : Nat)
  /-- The retry timer at a position fires. -/
  | timer (i : Nat) (savedErrno : Nat)
  /-- The poller reports a descriptor that is registered. -/
  | handleEvent (fd : Nat) (revents : Events) (isSelfConnect : Bool)
  | resetChannel
  deriving DecidableEq

def step (c : Connector) : Action → Except Fault Connector
  | .start savedErrno => c.startInLoop savedErrno
  | .restart savedErrno => c.restart savedErrno
  | .timer i savedErrno => do
    ensure (i < c.timers.length) .notEnabled
    { c with timers := c.timers.eraseIdx i }.startInLoop savedErrno
  | .handleEvent fd revents isSelfConnect => do
    ensure ((c.poller fd).registered ≠ none) .notEnabled
    c.handleEvent fd revents isSelfConnect
  | .resetChannel => do
    ensure (c.resets ≠ []) .notEnabled
    .ok c.resetChannel

/-- The descriptor is watched by `channel_` while the state is `kConnecting`. -/
def Watched (c : Connector) (fd : Nat) : Prop :=
  c.state = .kConnecting ∧ c.Watches fd

/-- Each descriptor is watched, or was closed once, or handed over once; no two are registered,
and a queued `resetChannel` finds the channel for which it was queued. -/
structure Disposed (c : Connector) : Prop where
  once : ∀ fd < c.sockets,
    (c.Watched fd ∧ fd ∉ c.closed ∧ fd ∉ c.handed) ∨
    (¬ c.Watched fd ∧ c.closed.count fd = 1 ∧ fd ∉ c.handed) ∨
    (¬ c.Watched fd ∧ fd ∉ c.closed ∧ c.handed.count fd = 1)
  single : ∀ fd fd', (c.poller fd).registered ≠ none → (c.poller fd').registered ≠ none → fd = fd'
  reset : ∀ fd ∈ c.resets, ∀ ch, c.channel = some ch → ch.fd = fd

/-- No attempt is watched. -/
structure Resting (c : Connector) : Prop where
  ledger : Ledger c.sockets c.closed c.handed none
  poller : ∀ fd, c.poller fd = {}
  state : c.state ≠ .kConnecting
  reset : (c.channel = none ∧ c.resets = []) ∨
    ∃ fd, c.channel = some (removed fd) ∧ c.resets = [fd]

/-- The attempt on `fd` is watched. -/
structure Trying (c : Connector) (fd : Nat) : Prop where
  ledger : Ledger c.sockets c.closed c.handed (some fd)
  watches : c.Watches fd
  poller : ∀ fd', fd' ≠ fd → c.poller fd' = {}
  reset : c.resets = []

variable {c c' : Connector} {a : Action} {as : List Action} {e fd : Nat} {isSelfConnect : Bool}

/-! ## What each function keeps -/

theorem init_resting : ({} : Connector).Resting :=
  ⟨Ledger.empty, fun _ => rfl, nofun, .inl ⟨rfl, rfl⟩⟩

theorem Resting.channel_none_iff (h : c.Resting) : c.channel = none ↔ c.resets = [] := by
  rcases h.reset with ⟨hchannel, hreset⟩ | ⟨fd, hchannel, hreset⟩
  · exact iff_of_true hchannel hreset
  · rw [hchannel, hreset]
    exact iff_of_false nofun nofun

theorem Resting.begun (h : c.Resting) (hnone : c.channel = none) :
    c.begun.Trying c.sockets := by
  refine ⟨h.ledger.obtain_held, ⟨rfl, Function.update_self ..⟩, fun fd' hne => ?_, ?_⟩
  · exact (Function.update_of_ne hne ..).trans (h.poller fd')
  · rcases h.reset with ⟨-, hreset⟩ | ⟨fd, hchannel, -⟩
    · exact hreset
    · rw [hchannel] at hnone
      cases hnone

/-- An attempt begins, or its socket is closed at once. -/
theorem Resting.started (h : c.Resting) (hstate : c.state = .kDisConnected)
    (hs : Started c e c') :
    (c'.Trying c.sockets ∧ c'.state = .kConnecting) ∨
      (c'.Resting ∧ c'.state = .kDisConnected) := by
  cases hs with
  | connecting _ hnone => exact .inl ⟨h.begun hnone, rfl⟩
  | retry => exact .inr ⟨⟨h.ledger.obtain_close, h.poller, nofun, h.reset⟩, rfl⟩
  | close => exact .inr ⟨⟨h.ledger.obtain_close, h.poller, h.state, h.reset⟩, hstate⟩

/-- While an attempt is watched no other one begins. -/
theorem Trying.started (h : c.Trying fd) (hstate : c.state = .kDisConnected)
    (hs : Started c e c') : c'.Trying fd ∧ c'.state = .kDisConnected := by
  cases hs with
  | connecting _ hnone =>
    rw [h.watches.channel] at hnone
    cases hnone
  | retry =>
    exact ⟨⟨h.ledger.obtain_close, ⟨h.watches.channel, h.watches.poller⟩, h.poller, h.reset⟩, rfl⟩
  | close =>
    exact ⟨⟨h.ledger.obtain_close, ⟨h.watches.channel, h.watches.poller⟩, h.poller, h.reset⟩,
      hstate⟩

theorem Trying.ended_poller (h : c.Trying fd) (fd' : Nat) : (c.ended fd).poller fd' = {} := by
  by_cases hne : fd' = fd
  · subst hne
    exact Function.update_self ..
  · exact (Function.update_of_ne hne ..).trans (h.poller fd' hne)

theorem Trying.ended_resets (h : c.Trying fd) : (c.ended fd).resets = [fd] := by
  show c.resets ++ [fd] = [fd]
  rw [h.reset, List.nil_append]

theorem Trying.failed (h : c.Trying fd) : ((c.ended fd).retry fd).Resting :=
  ⟨h.ledger.close, h.ended_poller, nofun, .inr ⟨fd, rfl, h.ended_resets⟩⟩

theorem Trying.connected (h : c.Trying fd) : (c.connected fd).Resting :=
  ⟨h.ledger.hand, h.ended_poller, nofun, .inr ⟨fd, rfl, h.ended_resets⟩⟩

/-- A dispatch leaves the attempt as it is, or disposes of its socket. -/
theorem Trying.dispatched (h : c.Trying fd) (hs : Dispatched c fd c') :
    c' = c ∨ c'.Resting := by
  cases hs with
  | nothing => exact .inl rfl
  | failed => exact .inr h.failed
  | connected => exact .inr h.connected

theorem Resting.resetChannel (h : c.Resting) : c.resetChannel.Resting := by
  refine ⟨h.ledger, h.poller, h.state, .inl ⟨rfl, ?_⟩⟩
  show c.resets.tail = []
  rcases h.reset with ⟨-, hreset⟩ | ⟨fd, -, hreset⟩ <;> rw [hreset] <;> rfl

/-! ## Runs -/

/-- Every socket is accounted for. -/
def Sound (c : Connector) : Prop := c.Resting ∨ ∃ fd, c.Trying fd ∧ c.state = .kConnecting

/-- An attempt is watched that the state no longer knows of. -/
def Stuck (c : Connector) : Prop := ∃ fd, c.Trying fd ∧ c.state = .kDisConnected

/-- No attempt is in flight when the connector is restarted. -/
def NotInFlight (c : Connector) : Action → Prop
  | .restart _ => c.state ≠ .kConnecting
  | _ => True

instance (c : Connector) (a : Action) : Decidable (NotInFlight c a) := by
  cases a <;> unfold NotInFlight <;> infer_instance

theorem Sound.timers (h : c.Sound) (timers : List Nat) : Sound { c with timers := timers } := by
  rcases h with hrest | ⟨fd, htrying, hstate⟩
  · exact .inl ⟨hrest.ledger, hrest.poller, hrest.state, hrest.reset⟩
  · exact .inr ⟨fd, ⟨htrying.ledger, ⟨htrying.watches.channel, htrying.watches.poller⟩,
      htrying.poller, htrying.reset⟩, hstate⟩

/-- `start()`, the timers and, at rest, `restart()`. -/
theorem Sound.startInLoop (h : c.Sound) (hs : c.startInLoop e = .ok c') : c'.Sound := by
  obtain ⟨hstate, hstarted⟩ := startInLoop_ok hs
  rcases h with hrest | ⟨fd, -, hconnecting⟩
  · rcases hrest.started hstate hstarted with ⟨htrying, hstate'⟩ | ⟨hrest', -⟩
    · exact .inr ⟨_, htrying, hstate'⟩
    · exact .inl hrest'
  · rw [hstate] at hconnecting
    cases hconnecting

theorem Stuck.startInLoop (h : c.Stuck) (hs : c.startInLoop e = .ok c') : c'.Stuck := by
  obtain ⟨fd, htrying, hstate⟩ := h
  exact ⟨fd, htrying.started hstate (startInLoop_ok hs).2⟩

theorem Resting.restart (h : c.Resting) (hs : c.restart e = .ok c') : c'.Sound := by
  refine Sound.startInLoop ?_ hs
  exact .inl ⟨h.ledger, h.poller, nofun, h.reset⟩

theorem Trying.restart (h : c.Trying fd) (hs : c.restart e = .ok c') : c'.Stuck := by
  refine Stuck.startInLoop ?_ hs
  exact ⟨fd, ⟨h.ledger, ⟨h.watches.channel, h.watches.poller⟩, h.poller, h.reset⟩, rfl⟩

/-- The descriptor that is reported is the one of the attempt. -/
theorem Trying.reported (h : c.Trying fd) {fd' : Nat} (hreg : (c.poller fd').registered ≠ none) :
    fd' = fd := by
  by_contra hne
  rw [h.poller fd' hne] at hreg
  exact hreg rfl

/-- What is registered is the attempt that is watched. -/
theorem Sound.watched (h : c.Sound) (hreg : (c.poller fd).registered ≠ none) :
    c.Trying fd ∧ c.state = .kConnecting := by
  rcases h with hrest | ⟨fd', htrying, hstate⟩
  · exact absurd (congrArg EpollPoller.registered (hrest.poller fd)) hreg
  · obtain rfl := htrying.reported hreg
    exact ⟨htrying, hstate⟩

theorem sound_step (h : c.Sound) (hc : NotInFlight c a) (hs : step c a = .ok c') : c'.Sound := by
  cases a with
  | start e => exact h.startInLoop hs
  | restart e =>
    rcases h with hrest | ⟨fd, -, hstate⟩
    · exact hrest.restart hs
    · exact absurd hstate hc
  | timer i e =>
    obtain ⟨_, -, hs⟩ := bind_eq_ok.mp hs
    exact (h.timers _).startInLoop hs
  | handleEvent fd revents isSelfConnect =>
    obtain ⟨_, hreg, hs⟩ := bind_eq_ok.mp hs
    obtain ⟨htrying, hstate⟩ := h.watched (ensure_eq_ok.mp hreg)
    rcases htrying.dispatched (htrying.watches.handleEvent_ok hstate hs) with rfl | hrest
    · exact .inr ⟨fd, htrying, hstate⟩
    · exact .inl hrest
  | resetChannel =>
    obtain ⟨_, hne, hs⟩ := bind_eq_ok.mp hs
    cases hs
    rcases h with hrest | ⟨fd, htrying, -⟩
    · exact .inl hrest.resetChannel
    · exact absurd htrying.reset (ensure_eq_ok.mp hne)

/-- A restart during an attempt fails an assertion or leaves the socket behind. -/
theorem Sound.stuck (h : c.Sound) (hc : ¬ NotInFlight c a) (hs : step c a = .ok c') :
    c'.Stuck := by
  cases a with
  | restart e =>
    rcases h with hrest | ⟨fd, htrying, -⟩
    · exact absurd hrest.state hc
    · exact htrying.restart hs
  | _ => exact absurd trivial hc

/-- A socket that was left behind stays so. -/
theorem stuck_step (h : c.Stuck) (hs : step c a = .ok c') : c'.Stuck := by
  cases a with
  | start e => exact h.startInLoop hs
  | restart e =>
    obtain ⟨fd, htrying, -⟩ := h
    exact htrying.restart hs
  | timer i e =>
    obtain ⟨_, -, hs⟩ := bind_eq_ok.mp hs
    obtain ⟨fd, htrying, hstate⟩ := h
    refine Stuck.startInLoop ?_ hs
    exact ⟨fd, ⟨htrying.ledger, ⟨htrying.watches.channel, htrying.watches.poller⟩,
      htrying.poller, htrying.reset⟩, hstate⟩
  | handleEvent fd revents isSelfConnect =>
    obtain ⟨_, hreg, hs⟩ := bind_eq_ok.mp hs
    obtain ⟨fd', htrying, hstate⟩ := h
    obtain rfl := htrying.reported (ensure_eq_ok.mp hreg)
    rw [htrying.watches.handleEvent_disconnected hstate hs]
    exact ⟨fd, htrying, hstate⟩
  | resetChannel =>
    obtain ⟨_, hne, hs⟩ := bind_eq_ok.mp hs
    obtain ⟨fd, htrying, -⟩ := h
    exact absurd htrying.reset (ensure_eq_ok.mp hne)

theorem Sound.disposed (h : c.Sound) : c.Disposed := by
  rcases h with hrest | ⟨fd, htrying, hstate⟩
  · refine ⟨fun i hi => .inr ?_, fun i j hi => ?_, fun i hi ch hch => ?_⟩
    · have hnot : ¬ c.Watched i := fun hw => hrest.state hw.1
      exact (hrest.ledger.once hi nofun).imp (fun ho => ⟨hnot, ho⟩) fun ho => ⟨hnot, ho⟩
    · exact absurd (congrArg EpollPoller.registered (hrest.poller i)) hi
    · rcases hrest.reset with ⟨-, hreset⟩ | ⟨fd, hchannel, hreset⟩
      · rw [hreset] at hi
        cases hi
      · rw [hreset] at hi
        rw [hchannel] at hch
        cases hch
        exact (List.mem_singleton.mp hi).symm
  · refine ⟨fun i hi => ?_, fun i j hi hj => ?_, fun i hi => ?_⟩
    · by_cases hfd : i = fd
      · subst hfd
        exact .inl ⟨⟨hstate, htrying.watches⟩, htrying.ledger.unspent i (.inr rfl)⟩
      · have hnot : ¬ c.Watched i := by
          intro hw
          have hpoller := hw.2.poller
          rw [htrying.poller i hfd] at hpoller
          cases hpoller
        have hne : some fd ≠ some i := fun he => hfd (Option.some_inj.mp he).symm
        exact .inr ((htrying.ledger.once hi hne).imp (fun ho => ⟨hnot, ho⟩) fun ho => ⟨hnot, ho⟩)
    · exact (htrying.reported hi).trans (htrying.reported hj).symm
    · rw [htrying.reset] at hi
      cases hi

theorem Stuck.not_disposed (h : c.Stuck) : ¬ c.Disposed := by
  obtain ⟨fd, htrying, hstate⟩ := h
  intro hd
  obtain ⟨hclosed, hhanded⟩ := htrying.ledger.unspent fd (.inr rfl)
  rcases hd.once fd (htrying.ledger.held_lt fd rfl) with ⟨hw, -⟩ | ⟨-, hone, -⟩ | ⟨-, -, hone⟩
  · rw [hw.1] at hstate
    cases hstate
  · rw [List.count_eq_zero.mpr hclosed] at hone
    cases hone
  · rw [List.count_eq_zero.mpr hhanded] at hone
    cases hone

theorem sound_or_stuck (hrun : run step {} as = .ok c) :
    (c.Sound ∧ Along step NotInFlight {} as) ∨ (c.Stuck ∧ ¬ Along step NotInFlight {} as) := by
  refine run_history (J := fun as c => (c.Sound ∧ Along step NotInFlight {} as) ∨
    (c.Stuck ∧ ¬ Along step NotInFlight {} as)) (.inl ⟨.inl init_resting, trivial⟩) ?_ hrun
  intro as c a c' hrun ih hs
  rw [along_concat hrun]
  rcases ih with ⟨hsound, hcond⟩ | ⟨hstuck, hcond⟩
  · by_cases hc : NotInFlight c a
    · exact .inl ⟨sound_step hsound hc hs, hcond, hc⟩
    · exact .inr ⟨hsound.stuck hc hs, fun h => hc h.2⟩
  · exact .inr ⟨stuck_step hstuck hs, fun h => hcond h.1⟩

/-- Every socket is disposed of as it should be exactly as long as the connector was never
restarted during an attempt. -/
theorem sockets_disposed_iff (hrun : run step {} as = .ok c) :
    c.Disposed ↔ Along step NotInFlight {} as := by
  rcases sound_or_stuck hrun with ⟨hsound, hcond⟩ | ⟨hstuck, hcond⟩
  · exact iff_of_true hsound.disposed hcond
  · exact iff_of_false hstuck.not_disposed hcond

/-- The first attempt fails with an error and a write event in one dispatch; the retry succeeds and
its connection is lost, and the connector is restarted. -/
theorem sockets_disposed_sample :
    ∃ c, run step {} [.start EINPROGRESS, .handleEvent 0 (POLLERR ||| POLLOUT) false,
        .resetChannel, .timer 0 0, .handleEvent 1 POLLOUT false, .resetChannel,
        .restart ECONNREFUSED] = .ok c ∧
      c.closed = [0, 2] ∧ c.handed = [1] ∧ c.Disposed := by
  have hend : endsIn step (fun c => decide (c.closed = [0, 2] ∧ c.handed = [1])) {}
      [.start EINPROGRESS, .handleEvent 0 (POLLERR ||| POLLOUT) false, .resetChannel,
        .timer 0 0, .handleEvent 1 POLLOUT false, .resetChannel, .restart ECONNREFUSED] = true := by
    decide +kernel
  obtain ⟨c, hrun, hc⟩ := endsIn_iff.mp hend
  rw [decide_eq_true_eq] at hc
  exact ⟨c, hrun, hc.1, hc.2, (sockets_disposed_iff hrun).mpr (by decide +kernel)⟩

/-- The connector is restarted during an attempt, and `connect` is refused. -/
theorem restart_leaves_socket :
    ∃ c, run step {} [.start EINPROGRESS, .restart ECONNREFUSED] = .ok c ∧
      c.state = .kDisConnected ∧ c.Watches 0 ∧ c.closed = [1] ∧ c.handed = [] ∧ ¬ c.Disposed := by
  have hend : endsIn step (fun c => decide (c.state = .kDisConnected ∧ c.Watches 0 ∧
      c.closed = [1] ∧ c.handed = [])) {} [.start EINPROGRESS, .restart ECONNREFUSED] = true := by
    decide +kernel
  obtain ⟨c, hrun, hc⟩ := endsIn_iff.mp hend
  obtain ⟨hstate, hwatches, hclosed, hhanded⟩ := of_decide_eq_true hc
  refine ⟨c, hrun, hstate, hwatches, hclosed, hhanded, ?_⟩
  rcases sound_or_stuck hrun with ⟨-, hcond⟩ | ⟨hstuck, -⟩
  · exact absurd hcond (by decide +kernel)
  · exact hstuck.not_disposed

end Summer.Net.Connector
