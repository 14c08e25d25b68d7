import Summer.Net.ConnectionInvariant

/-!
# The order of the values of `state_`

The accesses to `state_`, one at a time. The loop thread tests and assigns it in
`connectionEstablished`, `handleWrite`, `handleClose`, `shutdown` and `connectionDestroyed`; any
other threads test it in `send()`, and test and assign it in `shutdown()`. A connection's steps
are carried out by such accesses.
-/
namespace Summer.Net

open Summer.Lib

/-- `kConnecting`, `kConnected`, `kDisconnecting`, `kDisconnected`. -/
def StateE.order : StateE → Nat
  | .kConnecting => 0
  | .kConnected => 1
  | .kDisconnecting => 2
  | .kDisconnected => 3

/-- Where the loop thread is between two accesses of one function. -/
inductive LoopAt where
  | idle
  /-- In `connectionEstablished`, behind its assertion. -/
  | establishing
  /-- In `handleWrite`, about to call `shutdown()`. -/
  | draining
  /-- In `shutdown()`, having found `kConnected`. -/
  | shuttingDown
  /-- In `connectionDestroyed`, having found `kConnecting`. -/
  | destroying
  deriving DecidableEq

inductive Access (T : Type) where
  | connectionEstablished
  | setConnected
  | handleClose
  /-- The test of `state_` when the output is drained. -/
  | handleWrite
  | shutdown
  | setDisconnecting
  | connectionDestroyed
  | setDisconnected
  | send
  | otherSend (thread : T)
  | otherShutdown (thread : T)
  | otherShutdownSet (thread : T)
  deriving DecidableEq

/-- `checked t` is whether thread `t` is in `shutdown()`, having found `kConnected`. -/
structure StateWord (T : Type) where
  state : StateE := .kConnecting
  loopAt : LoopAt := .idle
  checked : T → Bool := fun _ => false

namespace StateWord

variable {T : Type} [DecidableEq T]

def step (s : StateWord T) : Access T → Except Fault (StateWord T)
  | .connectionEstablished => do
    ensure (s.loopAt = .idle) .notEnabled
    ensure (s.state = .kConnecting) (.assertion .connectionEstablished)
    .ok { s with loopAt := .establishing }
  | .setConnected => do
    ensure (s.loopAt = .establishing) .notEnabled
    .ok { s with state := .kConnected, loopAt := .idle }
  | .handleClose => do
    ensure (s.loopAt = .idle) .notEnabled
    .ok { s with state := .kDisconnected }
  | .handleWrite => do
    ensure (s.loopAt = .idle) .notEnabled
    .ok { s with loopAt := if s.state = .kDisconnecting then .draining else .idle }
  | .shutdown => do
    ensure (s.loopAt = .idle ∨ s.loopAt = .draining) .notEnabled
    .ok { s with loopAt := if s.state = .kConnected then .shuttingDown else .idle }
  | .setDisconnecting => do
    ensure (s.loopAt = .shuttingDown) .notEnabled
    .ok { s with state := .kDisconnecting, loopAt := .idle }
  | .connectionDestroyed => do
    ensure (s.loopAt = .idle) .notEnabled
    .ok { s with loopAt := if s.state = .kConnecting then .destroying else .idle }
  | .setDisconnected => do
    ensure (s.loopAt = .destroying) .notEnabled
    .ok { s with state := .kDisconnected, loopAt := .idle }
  | .send => do
    ensure (s.loopAt = .idle) .notEnabled
    .ok s
  | .otherSend _ => .ok s
  | .otherShutdown t => do
    ensure (s.checked t = false) .notEnabled
    .ok { s with checked := Function.update s.checked t (decide (s.state = .kConnected)) }
  | .otherShutdownSet t => do
    ensure (s.checked t = true) .notEnabled
    .ok { s with state := .kDisconnecting, checked := Function.update s.checked t false }

/-- The access does not take `state_` back. -/
def Forward (s : StateWord T) (a : Access T) : Prop :=
  ∀ s', step s a = .ok s' → s.state.order ≤ s'.state.order

/-- No other thread's `shutdown()` assigns after a close. -/
def NotOvertaken (s : StateWord T) : Access T → Prop
  | .otherShutdownSet t => s.checked t = true → s.state ≠ .kDisconnected
  | _ => True

instance (s : StateWord T) (a : Access T) : Decidable (NotOvertaken s a) := by
  cases a <;> unfold NotOvertaken <;> infer_instance

/-- What a test has found is not undone before the assignment that rests on it. -/
structure Sound (s : StateWord T) : Prop where
  connecting : s.loopAt = .establishing ∨ s.loopAt = .destroying → s.state = .kConnecting
  shuttingDown : s.loopAt = .shuttingDown → s.state = .kConnected ∨ s.state = .kDisconnecting
  checked : ∀ t, s.checked t = true → s.state ≠ .kConnecting

variable {s s' : StateWord T} {a : Access T} {as : List (Access T)}

omit [DecidableEq T] in
theorem init_sound : ({} : StateWord T).Sound := by
  constructor <;> simp

theorem sound_step (h : s.Sound) (hs : step s a = .ok s') : s'.Sound := by
  cases a with
  | connectionEstablished =>
    obtain ⟨_, -, hs⟩ := bind_eq_ok.mp hs
    obtain ⟨_, hen, hs⟩ := bind_eq_ok.mp hs
    cases hs
    exact ⟨fun _ => ensure_eq_ok.mp hen, nofun, h.checked⟩
  | setConnected =>
    obtain ⟨_, -, hs⟩ := bind_eq_ok.mp hs
    cases hs
    exact ⟨by simp, nofun, fun _ _ => nofun⟩
  | handleClose =>
    obtain ⟨_, hen, hs⟩ := bind_eq_ok.mp hs
    cases hs
    have hidle := ensure_eq_ok.mp hen
    exact ⟨by simp [hidle], by simp [hidle], fun _ _ => nofun⟩
  | handleWrite =>
    obtain ⟨_, -, hs⟩ := bind_eq_ok.mp hs
    cases hs
    refine ⟨fun hat => ?_, fun hat => ?_, h.checked⟩
    · dsimp only at hat
      split at hat <;> simp at hat
    · dsimp only at hat
      split at hat <;> simp at hat
  | shutdown =>
    obtain ⟨_, -, hs⟩ := bind_eq_ok.mp hs
    cases hs
    refine ⟨fun hat => ?_, fun hat => ?_, h.checked⟩
    · dsimp only at hat
      split at hat <;> simp at hat
    · dsimp only at hat
      split at hat
      · rename_i hstate
        exact .inl hstate
      · cases hat
  | setDisconnecting =>
    obtain ⟨_, -, hs⟩ := bind_eq_ok.mp hs
    cases hs
    exact ⟨by simp, nofun, fun _ _ => nofun⟩
  | connectionDestroyed =>
    obtain ⟨_, -, hs⟩ := bind_eq_ok.mp hs
    cases hs
    refine ⟨fun hat => ?_, fun hat => ?_, h.checked⟩
    · dsimp only at hat
      split at hat
      · rename_i hstate
        exact hstate
      · simp at hat
    · dsimp only at hat
      split at hat <;> cases hat
  | setDisconnected =>
    obtain ⟨_, -, hs⟩ := bind_eq_ok.mp hs
    cases hs
    exact ⟨by simp, nofun, fun _ _ => nofun⟩
  | send =>
    obtain ⟨_, -, hs⟩ := bind_eq_ok.mp hs
    cases hs
    exact h
  | otherSend t =>
    cases hs
    exact h
  | otherShutdown t =>
    obtain ⟨_, -, hs⟩ := bind_eq_ok.mp hs
    cases hs
    refine ⟨h.connecting, h.shuttingDown, fun u hu => ?_⟩
    by_cases hut : u = t
    · subst hut
      have hstate := of_decide_eq_true ((Function.update_self ..).symm.trans hu)
      intro he
      rw [hstate] at he
      cases he
    · exact h.checked u ((Function.update_of_ne hut ..).symm.trans hu)
  | otherShutdownSet t =>
    obtain ⟨_, hen, hs⟩ := bind_eq_ok.mp hs
    cases hs
    have hne := h.checked t (ensure_eq_ok.mp hen)
    exact ⟨fun hat => absurd (h.connecting hat) hne, fun _ => .inr rfl, fun _ _ => nofun⟩

theorem sound_run (hs : s.Sound) (hrun : run step s as = .ok s') : s'.Sound :=
  run_preserves (fun _ _ _ h hs => sound_step h hs) hs hrun

/-- Only the late assignment of another thread goes backwards. -/
theorem Sound.forward_iff (h : s.Sound) : Forward s a ↔ NotOvertaken s a := by
  constructor
  · intro hforward
    cases a with
    | otherShutdownSet t =>
      intro hchecked hstate
      have hs : step s (.otherShutdownSet t) = .ok { s with
          state := .kDisconnecting, checked := Function.update s.checked t false } := by
        rw [step, ensure_of hchecked, ok_bind]
      have hle : s.state.order ≤ 2 := hforward _ hs
      rw [hstate] at hle
      exact absurd hle (by decide)
    | _ => trivial
  · intro hc s' hs
    cases a with
    | connectionEstablished =>
      obtain ⟨_, -, hs⟩ := bind_eq_ok.mp hs
      obtain ⟨_, -, hs⟩ := bind_eq_ok.mp hs
      cases hs
      exact le_rfl
    | setConnected =>
      obtain ⟨_, hen, hs⟩ := bind_eq_ok.mp hs
      cases hs
      rw [h.connecting (.inl (ensure_eq_ok.mp hen))]
      exact Nat.zero_le _
    | handleClose =>
      obtain ⟨_, -, hs⟩ := bind_eq_ok.mp hs
      cases hs
      show s.state.order ≤ 3
      cases s.state <;> decide
    | handleWrite | shutdown | connectionDestroyed | send | otherShutdown t =>
      obtain ⟨_, -, hs⟩ := bind_eq_ok.mp hs
      cases hs
      exact le_rfl
    | otherSend t =>
      cases hs
      exact le_rfl
    | setDisconnecting =>
      obtain ⟨_, hen, hs⟩ := bind_eq_ok.mp hs
      cases hs
      show s.state.order ≤ 2
      rcases h.shuttingDown (ensure_eq_ok.mp hen) with hstate | hstate <;> rw [hstate] <;> decide
    | setDisconnected =>
      obtain ⟨_, hen, hs⟩ := bind_eq_ok.mp hs
      cases hs
      rw [h.connecting (.inr (ensure_eq_ok.mp hen))]
      exact Nat.zero_le _
    | otherShutdownSet t =>
      obtain ⟨_, hen, hs⟩ := bind_eq_ok.mp hs
      cases hs
      have hne := hc (ensure_eq_ok.mp hen)
      show s.state.order ≤ 2
      cases hstate : s.state with
      | kDisconnected => exact absurd hstate hne
      | kConnecting | kConnected | kDisconnecting => decide

/-- A run that is not overtaken keeps the order from one end to the other. -/
theorem order_run (hs : s.Sound) (hcond : Along step NotOvertaken s as)
    (hrun : run step s as = .ok s') : s.state.order ≤ s'.state.order := by
  have hinv := run_invariant (I := fun t => t.Sound ∧ s.state.order ≤ t.state.order) ?_
    ⟨hs, le_rfl⟩ hcond hrun
  · exact hinv.2
  · intro t a u ht hc hstep
    exact ⟨sound_step ht.1 hstep, ht.2.trans (ht.1.forward_iff.mpr hc u hstep)⟩

theorem along_forward_iff (as : List (Access T)) :
    Along step Forward {} as ↔ Along step NotOvertaken {} as :=
  along_iff (fun _ _ _ h hs => sound_step h hs) (fun _ _ h => h.forward_iff) init_sound

/-- The values of `state_` go forward in a run exactly when no thread assigns `kDisconnecting`
after a close; then nothing leaves `kDisconnected`. -/
theorem state_moves_forward_iff (as : List (Access T)) :
    (Along step Forward {} as ↔ Along step NotOvertaken {} as) ∧
    (Along step NotOvertaken {} as → ∀ pre post s t, as = pre ++ post →
      run step {} pre = .ok s → run step s post = .ok t →
        s.state.order ≤ t.state.order ∧ (s.state = .kDisconnected → t.state = .kDisconnected)) := by
  refine ⟨along_forward_iff as, ?_⟩
  rintro hcond pre post s t rfl hpre hpost
  have hle := order_run (sound_run init_sound hpre) ((along_append.mp hcond).2 s hpre) hpost
  refine ⟨hle, fun hstate => ?_⟩
  rw [hstate] at hle
  cases ht : t.state with
  | kDisconnected => rfl
  | kConnecting | kConnected | kDisconnecting =>
    rw [ht] at hle
    exact absurd hle (by decide)

end StateWord

/-! ## The accesses of a connection -/

namespace ConnectionSystem

variable {T : Type} [DecidableEq T]

def stateWord (s : ConnectionSystem T) : StateWord T where
  state := s.conn.state
  checked t := decide (s.threads t = .shutdownChecked)

/-- The accesses of one callback of a dispatch; `handleWrite` tests `state_` if the `::write`
drained the output. -/
def callbackAccesses (c : TcpConnection T) (read : ReadResult) (nwrite : Int) :
    EventCallback → List (Access T)
  | .closeCallback => [.handleClose]
  | .errorCallback => []
  | .readCallback => if read = .eof then [.handleClose] else []
  | .writeCallback =>
    if c.isWriting = true ∧ 0 < nwrite ∧ c.outputBuffer.drop nwrite.toNat = [] then
      if c.state = .kDisconnecting then [.handleWrite, .shutdown] else [.handleWrite]
    else []

/-- The accesses to `state_` that a step makes. -/
def accesses (s : ConnectionSystem T) : Action T → List (Access T)
  | .connectionEstablished => [.connectionEstablished, .setConnected]
  | .connectionCallback => [.send]
  | .handleEvent nwrite =>
    match s.phase with
    | .handling (callback :: _) read => callbackAccesses s.conn read nwrite callback
    | _ => []
  | .runFunctor _ =>
    match s.phase with
    | .running (.connectionDestroyed :: _) => [.connectionDestroyed]
    | _ => []
  | .send _ _ => [.send]
  | .shutdown =>
    if s.conn.state = .kConnected then [.shutdown, .setDisconnecting] else [.shutdown]
  | .otherSend t _ => [.otherSend t]
  | .otherShutdown t => [.otherShutdown t]
  | .otherShutdownSet t => [.otherShutdownSet t]
  | _ => []

variable {s s' : ConnectionSystem T} {a : Action T}

/-- Thread `t` gets to `pc`. -/
theorem stateWord_update {t : T} {pc : Pc} (h : s'.threads = Function.update s.threads t pc) :
    s'.stateWord = {
      state := s'.conn.state
      checked := Function.update s.stateWord.checked t (decide (pc = .shutdownChecked)) } := by
  rw [stateWord, h]
  congr 1
  funext u
  by_cases hu : u = t
  · subst hu
    rw [Function.update_self, Function.update_self]
  · rw [Function.update_of_ne hu, Function.update_of_ne hu]
    rfl

/-- A thread goes on with `send()` or behind the assignment in `shutdown()`. -/
theorem stateWord_update_same {t : T} {pc : Pc}
    (h : s'.threads = Function.update s.threads t pc) (hstate : s'.conn.state = s.conn.state)
    (hs : s.threads t ≠ .shutdownChecked) (hpc : pc ≠ .shutdownChecked) :
    s'.stateWord = s.stateWord := by
  have hchecked : s.stateWord.checked t = decide (pc = .shutdownChecked) :=
    (decide_eq_false hs).trans (decide_eq_false hpc).symm
  rw [stateWord_update h, hstate, ← hchecked, Function.update_eq_self]
  rfl

/-- Before `connectionEstablished` there is nothing to do but a `disconnect()` that finds the
connection not connected. -/
theorem init_action {owner : Owner} {w : Bool} (h : step (init owner w) a = .ok s') :
    a = .connectionEstablished ∨ ∃ t, a = .otherShutdown t := by
  cases a with
  | connectionEstablished => exact .inl rfl
  | otherShutdown t => exact .inr ⟨t, rfl⟩
  | otherSendPush t => cases h
  | _ =>
    obtain ⟨_, hen, -⟩ := bind_eq_ok.mp h
    simp [init, Free] at hen

theorem accesses_init {owner : Owner} {w : Bool} (h : step (init owner w) a = .ok s') :
    run StateWord.step (init owner w).stateWord ((init owner w).accesses a) =
      .ok s'.stateWord := by
  rcases init_action h with rfl | ⟨t, rfl⟩
  · cases h
    rfl
  · obtain ⟨_, -, h⟩ := bind_eq_ok.mp h
    cases h
    have hsame : Function.update (fun _ : T => false) t false = fun _ => false :=
      Function.update_eq_self t _
    show Except.ok { ({} : StateWord T) with
      checked := Function.update (fun _ => false) t false } = _
    rw [hsame]
    rfl

/-- The test of another thread's `shutdown()`. -/
theorem otherShutdown_access {t : T} (hpc : s.threads t ≠ .shutdownChecked) :
    run StateWord.step s.stateWord [.otherShutdown t] = .ok { s.stateWord with
      checked := Function.update s.stateWord.checked t (decide (s.conn.state = .kConnected)) } := by
  have hfalse : s.stateWord.checked t = false := decide_eq_false hpc
  rw [run, StateWord.step, ensure_of hfalse]
  rfl

/-- The test of a `shutdown()` by the loop thread that finds the connection not connected. -/
theorem shutdown_access {w : StateWord T} (hat : w.loopAt = .idle ∨ w.loopAt = .draining)
    (hstate : w.state ≠ .kConnected) :
    run StateWord.step w [.shutdown] = .ok { w with loopAt := .idle } := by
  rw [run, StateWord.step, ensure_of hat, ok_bind, if_neg hstate]
  rfl

theorem accesses_passes (h : Passes s a s')
    (hpc : ∀ t, a = .otherShutdown t → s.threads t ≠ .shutdownChecked) :
    run StateWord.step s.stateWord (s.accesses a) = .ok s'.stateWord := by
  cases h with
  | noClose hfree hphase hcall =>
    rw [accesses, hphase]
    rcases hcall with rfl | ⟨rfl, hread⟩
    · rfl
    · show run StateWord.step s.stateWord (if _ = ReadResult.eof then _ else _) = _
      rw [if_neg hread]
      rfl
  | runOther hfree hphase hf =>
    rw [accesses, hphase]
    rcases hf with rfl | rfl <;> rfl
  | ignored hstate ha =>
    rcases ha with ⟨argument, n, rfl⟩ | rfl | ⟨t, argument, rfl⟩ | ⟨t, rfl⟩
    · rfl
    · rw [accesses, if_neg hstate]
      exact shutdown_access (.inl rfl) hstate
    · rfl
    · have hfalse : decide (s.conn.state = .kConnected) = s.stateWord.checked t :=
        (decide_eq_false hstate).trans (decide_eq_false (hpc t rfl)).symm
      rw [accesses, otherShutdown_access (hpc t rfl), hfalse, Function.update_eq_self]
  | poll | pollOther | swap | endPass => rfl

theorem accesses_drain {n : Int} {callbacks : List EventCallback} {read : ReadResult}
    {conn : TcpConnection T} (hphase : s.phase = .handling (.writeCallback :: callbacks) read)
    (hdrain : s.conn.handleWrite n = .ok conn) :
    run StateWord.step s.stateWord (s.accesses (.handleEvent n)) =
      .ok (stateWord { s with conn := conn, phase := .handling callbacks read }) := by
  have hsame : stateWord { s with conn := conn, phase := .handling callbacks read } =
      s.stateWord := by
    rw [stateWord, (TcpConnection.handleWrite_spec hdrain).state]
    rfl
  rw [hsame, accesses, hphase]
  show run StateWord.step s.stateWord (if _ then _ else _) = _
  split
  · split
    · rename_i hstate
      rw [run_cons, StateWord.step, ensure_of (show s.stateWord.loopAt = .idle from rfl), ok_bind,
        if_pos (show s.stateWord.state = .kDisconnecting from hstate), ok_bind]
      refine (shutdown_access (.inr rfl) ?_).trans rfl
      show s.conn.state ≠ .kConnected
      rw [hstate]
      decide
    · rename_i hstate
      rw [run_cons, StateWord.step, ensure_of (show s.stateWord.loopAt = .idle from rfl), ok_bind,
        if_neg (show s.stateWord.state ≠ .kDisconnecting from hstate)]
      rfl
  · rfl

/-- Every step of an established connection is carried out by its accesses. -/
theorem accesses_moves (h : Moves s a s') (hne : s.conn.state ≠ .kConnecting)
    (hidle : ∀ t, a = .otherShutdown t → s.threads t ≠ .shutdownChecked) :
    run StateWord.step s.stateWord (s.accesses a) = .ok s'.stateWord := by
  cases h with
  | passes hp => exact accesses_passes hp hidle
  | notify => rfl
  | close hfree hphase hcall hclose =>
    have hstate := (TcpConnection.handleClose_spec hclose).state
    rw [stateWord, stateWord, hstate, accesses, hphase]
    rcases hcall with rfl | ⟨rfl, rfl⟩ <;> rfl
  | drain hfree hphase hdrain => exact accesses_drain hphase hdrain
  | destroy hfree hphase hdestroy =>
    obtain ⟨-, rfl⟩ := TcpConnection.connectionDestroyed_ok hne hdestroy
    rw [accesses, hphase]
    dsimp only
    rw [run, StateWord.step, ensure_of (show s.stateWord.loopAt = .idle from rfl), ok_bind,
      if_neg (show s.stateWord.state ≠ .kConnecting from hne)]
    rfl
  | runSend hfree hphase hsend =>
    rw [stateWord, stateWord, (TcpConnection.sendInLoop_spec hsend).state, accesses, hphase]
    rfl
  | runShutdown hfree hphase =>
    rw [stateWord, stateWord, TcpConnection.shutdownInLoop_state, accesses, hphase]
    rfl
  | send hfree hstate hsend =>
    rw [stateWord, stateWord, (TcpConnection.sendInLoop_spec hsend).state]
    rfl
  | shutdown hfree hstate =>
    have hset : s.conn.shutdown.state = .kDisconnecting := by
      rw [TcpConnection.shutdown, if_pos hstate, TcpConnection.shutdownInLoop_state]
    rw [accesses, if_pos hstate, run_cons, StateWord.step, ensure_of (.inl rfl), ok_bind,
      if_pos (show s.stateWord.state = .kConnected from hstate), stateWord, stateWord, hset]
    rfl
  | @otherSend t argument hpc hstate =>
    refine congrArg Except.ok (Eq.symm ?_)
    exact stateWord_update_same rfl rfl (by rw [hpc]; simp) (by simp)
  | @otherSendPush t message hpc =>
    refine congrArg Except.ok (Eq.symm ?_)
    exact stateWord_update_same rfl rfl (by rw [hpc]; simp) (by simp)
  | @otherShutdown t hpub hpc hstate =>
    have hnext : stateWord { s with threads := Function.update s.threads t .shutdownChecked } =
        { state := s.conn.state, checked := Function.update s.stateWord.checked t true } :=
      @stateWord_update _ _ s _ t .shutdownChecked rfl
    rw [hnext]
    refine (otherShutdown_access (by rw [hpc]; simp)).trans ?_
    rw [decide_eq_true hstate]
    rfl
  | @otherShutdownSet t hpc =>
    have htrue : s.stateWord.checked t = true := decide_eq_true hpc
    rw [accesses, run, StateWord.step, ensure_of htrue]
    have hnext : stateWord { s with
          conn := { s.conn with state := .kDisconnecting }
          threads := Function.update s.threads t .shutdownSet } =
        { state := .kDisconnecting, checked := Function.update s.stateWord.checked t false } :=
      @stateWord_update _ _ s _ t .shutdownSet rfl
    rw [hnext]
    rfl
  | @otherShutdownPush t hpc =>
    refine congrArg Except.ok (Eq.symm ?_)
    exact stateWord_update_same rfl rfl (by rw [hpc]; simp) (by simp)
  | otherFunctor => rfl
  | baseRemove => rfl

variable {owner : Owner} {w : Bool} {as : List (Action T)}

theorem accesses_step (h : s = init owner w ∨ s.Live) (hs : step s a = .ok s') :
    run StateWord.step s.stateWord (s.accesses a) = .ok s'.stateWord := by
  rcases h with rfl | hlive
  · exact accesses_init hs
  · refine accesses_moves (moves_of_step hlive.state hs) hlive.state ?_
    rintro t rfl hpc
    obtain ⟨_, hen, -⟩ := bind_eq_ok.mp hs
    rw [(ensure_eq_ok.mp hen).2] at hpc
    cases hpc

/-- A run of a connection, taken to its accesses, is a run of its state word. -/
theorem accesses_run (hrun : run step (init owner w) as = .ok s) :
    run StateWord.step {} (emitted step accesses (init owner w) as) = .ok s.stateWord := by
  refine run_history (J := fun as t =>
    run StateWord.step {} (emitted step accesses (init owner w) as) = .ok t.stateWord) rfl ?_ hrun
  intro as t a u ht ih hs
  rw [emitted_append ht, emitted_cons_ok hs]
  refine run_append_ok.mpr ⟨_, ih, ?_⟩
  rw [emitted, List.append_nil]
  exact accesses_step (run_live ht) hs

/-- No thread's `shutdown()` assigns after a close. -/
def NotOvertaken (s : ConnectionSystem T) : Action T → Prop
  | .otherShutdownSet t => s.threads t = .shutdownChecked → s.conn.state ≠ .kDisconnected
  | _ => True

theorem NotOvertaken.accesses (h : NotOvertaken s a) :
    Along StateWord.step StateWord.NotOvertaken s.stateWord (s.accesses a) := by
  cases a with
  | otherShutdownSet t => exact ⟨fun hpc => h (of_decide_eq_true hpc), fun _ _ => trivial⟩
  | connectionEstablished => exact ⟨trivial, fun _ _ => ⟨trivial, fun _ _ => trivial⟩⟩
  | handleEvent n =>
    rw [ConnectionSystem.accesses]
    split
    · rename_i callback callbacks read hphase
      cases callback with
      | closeCallback => exact ⟨trivial, fun _ _ => trivial⟩
      | errorCallback => trivial
      | readCallback =>
        show Along _ _ _ (if _ = ReadResult.eof then _ else _)
        split
        · exact ⟨trivial, fun _ _ => trivial⟩
        · trivial
      | writeCallback =>
        show Along _ _ _ (if _ then _ else _)
        split
        · split
          · exact ⟨trivial, fun _ _ => ⟨trivial, fun _ _ => trivial⟩⟩
          · exact ⟨trivial, fun _ _ => trivial⟩
        · trivial
    · trivial
  | runFunctor n =>
    rw [ConnectionSystem.accesses]
    split
    · exact ⟨trivial, fun _ _ => trivial⟩
    · trivial
  | shutdown =>
    rw [ConnectionSystem.accesses]
    split
    · exact ⟨trivial, fun _ _ => ⟨trivial, fun _ _ => trivial⟩⟩
    · exact ⟨trivial, fun _ _ => trivial⟩
  | connectionCallback | send | otherSend | otherShutdown =>
    exact ⟨trivial, fun _ _ => trivial⟩
  | _ => trivial

theorem otherShutdownSet_step {t : T} (h : s.threads t = .shutdownChecked) :
    step s (.otherShutdownSet t) = .ok { s with
      conn := { s.conn with state := .kDisconnecting }
      threads := Function.update s.threads t .shutdownSet } := by
  rw [step, ensure_of h, ok_bind]

/-- The same for the steps of a connection: its state goes forward in a run exactly when no
thread's `shutdown()` assigns after a close. -/
theorem connection_moves_forward_iff (owner : Owner) (w : Bool) (as : List (Action T)) :
    Along step (fun s a => ∀ s', step s a = .ok s' → s.conn.state.order ≤ s'.conn.state.order)
        (init owner w) as ↔
      Along step NotOvertaken (init owner w) as := by
  refine along_iff (I := fun s => (s = init owner w ∨ s.Live) ∧ s.stateWord.Sound) ?_ ?_
    ⟨.inl rfl, StateWord.init_sound⟩
  · rintro s a t ⟨hlive, hsound⟩ hs
    refine ⟨?_, StateWord.sound_run hsound (accesses_step hlive hs)⟩
    rcases hlive with rfl | hlive
    · rcases first_step hs with rfl | rfl
      · exact .inl rfl
      · exact .inr (established_live owner w)
    · exact .inr (live_step hlive hs)
  · rintro s a ⟨hlive, hsound⟩
    constructor
    · intro hforward
      cases a with
      | otherShutdownSet t =>
        intro hpc hstate
        have hle : s.conn.state.order ≤ 2 := hforward _ (otherShutdownSet_step hpc)
        rw [hstate] at hle
        exact absurd hle (by decide)
      | _ => trivial
    · intro hc s' hs
      exact StateWord.order_run hsound hc.accesses (accesses_step hlive hs)

/-- A thread has found the connection connected when the peer closes it; then it assigns. -/
theorem late_shutdown_goes_back :
    (∃ s t : ConnectionSystem Unit, run step (init (.server true) false)
        [.connectionEstablished, .connectionCallback, .otherShutdown (), .poll POLLIN .eof,
          .handleEvent 0] = .ok s ∧ s.conn.state = .kDisconnected ∧
      step s (.otherShutdownSet ()) = .ok t ∧ t.conn.state = .kDisconnecting) ∧
    ¬ Along StateWord.step StateWord.Forward ({} : StateWord Unit)
      [.connectionEstablished, .setConnected, .otherShutdown (), .handleClose,
        .otherShutdownSet ()] := by
  constructor
  · have hend : endsIn step
        (fun s => decide (s.conn.state = .kDisconnected) &&
          decide (s.threads () = .shutdownChecked))
        (init (.server true) false : ConnectionSystem Unit)
        [.connectionEstablished, .connectionCallback, .otherShutdown (), .poll POLLIN .eof,
          .handleEvent 0] = true := by
      decide +kernel
    obtain ⟨s, hrun, hs⟩ := endsIn_iff.mp hend
    rw [Bool.and_eq_true, decide_eq_true_eq, decide_eq_true_eq] at hs
    exact ⟨s, _, hrun, hs.1, otherShutdownSet_step hs.2, rfl⟩
  · rw [StateWord.along_forward_iff]
    decide

end ConnectionSystem

end Summer.Net
