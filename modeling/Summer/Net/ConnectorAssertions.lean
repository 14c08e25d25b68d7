import Summer.Net.ClientInvariant

/-!
# The assertions of the connector

Under a client the connector's assertions fail exactly in a `startInLoop` that a `connect()` or a
retry timer makes at the wrong time; a restart and the handlers keep to them.
-/
namespace Summer.Net

open Summer.Lib

/-- One of the assertions in `startInLoop`, `connecting`, `handleWrite` and `handleError`. -/
def OfConnector (f : Fault) : Prop :=
  f = .assertion .startInLoop ∨ f = .assertion .connecting ∨ f = .assertion .handleWrite ∨
    f = .assertion .handleError

namespace Connector

variable {c : Connector} {e : Nat} {f : Fault}

theorem Sound.poller_fresh (h : c.Sound) : c.poller c.sockets = {} := by
  rcases h with hrest | ⟨fd, htrying, -⟩
  · exact hrest.poller _
  · exact htrying.poller _ fun he => Nat.lt_irrefl _ (he ▸ htrying.ledger.held_lt fd rfl)

/-- No attempt is in flight, none has led to a connection that was not lost, and if this one goes
on no channel of an earlier one is left. -/
def AtRest (c : Connector) (e : Nat) : Prop :=
  c.state = .kDisConnected ∧ (proceeds e → c.resets = [])

instance (c : Connector) (e : Nat) : Decidable (c.AtRest e) := inferInstanceAs (Decidable (_ ∧ _))

theorem AtRest.startInLoop (h : c.AtRest e) (hsound : c.Sound) :
    c.startInLoop e ≠ .error f := by
  obtain ⟨hstate, hresets⟩ := h
  have hrest : c.Resting := by
    rcases hsound with hrest | ⟨fd, -, hconnecting⟩
    · exact hrest
    · rw [hstate] at hconnecting
      cases hconnecting
  intro hs
  rcases startInLoop_error hsound.poller_fresh hs with ⟨-, hne⟩ | ⟨-, hp, hchannel⟩
  · exact hne hstate
  · exact hchannel (hrest.channel_none_iff.mpr (hresets hp))

/-- At any other time `startInLoop` fails one of the assertions. -/
theorem startInLoop_asserts (hsound : c.Sound) (h : ¬ c.AtRest e) :
    ∃ f, c.startInLoop e = .error f ∧ OfConnector f := by
  cases hs : c.startInLoop e with
  | error f =>
    refine ⟨f, rfl, ?_⟩
    rcases startInLoop_error hsound.poller_fresh hs with ⟨rfl, -⟩ | ⟨rfl, -⟩
    · exact .inl rfl
    · exact .inr (.inl rfl)
  | ok c' =>
    obtain ⟨hstate, hstarted⟩ := startInLoop_ok hs
    refine absurd ⟨hstate, fun hp => ?_⟩ h
    cases hstarted with
    | connecting _ hnone =>
      rcases hsound with hrest | ⟨fd, htrying, -⟩
      · exact hrest.channel_none_iff.mp hnone
      · exact htrying.reset
    | retry hnot | close hnot => exact absurd hp hnot

end Connector

namespace ClientSystem

variable {T : Type}

/-- The errno of the `startInLoop` that the step makes for a `connect()` or a retry timer. -/
def starts (s : ClientSystem T) : Action T → Option Nat
  | .connect e => if s.within = .outside then some e else none
  | .timer i e =>
    match s.phase with
    | .handling _ _ =>
      if s.within = .outside ∧ i < s.client.connector.timers.length then some e else none
    | _ => none
  | .runFunctor e =>
    match s.phase with
    | .running (.startInLoop :: _) => if s.within = .outside then some e else none
    | _ => none
  | _ => none

/-- A `connect()` or a retry timer finds the connector at rest. -/
def Admissible (s : ClientSystem T) (a : Action T) : Prop :=
  ∀ e ∈ s.starts a, s.client.connector.AtRest e

instance (s : ClientSystem T) (a : Action T) : Decidable (Admissible s a) :=
  match h : s.starts a with
  | none => .isTrue fun e he => by rw [h] at he; cases he
  | some e => decidable_of_iff (s.client.connector.AtRest e)
    ⟨fun hr e' he => by rw [h] at he; cases he; exact hr, fun hr => hr e (by rw [h]; rfl)⟩

variable [DecidableEq T] {s s' : ClientSystem T} {a : Action T} {as : List (Action T)} {f : Fault}

omit [DecidableEq T] in
theorem runConnector_error {r : Except Fault Connector} (h : s.runConnector r = .error f) :
    r = .error f := by
  rcases bind_eq_error.mp h with h | ⟨k, -, h⟩
  · exact h
  · cases h

/-- Such a step is a `startInLoop` of the connector as it is, but for the timer that fires. -/
theorem step_starts {e : Nat} (he : e ∈ s.starts a) : ∃ (t : ClientSystem T) (k : Connector),
    step s a = t.runConnector (k.startInLoop e) ∧ (s.client.connector.Sound → k.Sound) ∧
    (k.AtRest e ↔ s.client.connector.AtRest e) := by
  cases a with
  | connect e' =>
    rw [starts] at he
    split at he
    · rename_i hout
      cases he
      rw [step, ensure_of hout]
      exact ⟨_, _, rfl, id, Iff.rfl⟩
    · cases he
  | timer i e' =>
    rw [starts] at he
    split at he
    · rename_i connecting conns hphase
      split at he
      · rename_i hen
        cases he
        rw [step, ensure_of hen, ok_bind, hphase]
        exact ⟨_, _, rfl, fun hsound => hsound.timers _, Iff.rfl⟩
      · cases he
    · cases he
  | runFunctor e' =>
    rw [starts] at he
    split at he
    · rename_i fs hphase
      split at he
      · rename_i hout
        cases he
        rw [step, ensure_of hout, ok_bind, hphase]
        exact ⟨_, _, rfl, id, Iff.rfl⟩
      · cases he
    · cases he
  | _ => cases he

theorem starts_asserts (h : s.Coherent) (hc : ¬ Admissible s a) :
    ∃ f, step s a = .error f ∧ OfConnector f := by
  rw [Admissible, Classical.not_forall] at hc
  obtain ⟨e, hc⟩ := hc
  obtain ⟨he, hrest⟩ := Classical.not_imp.mp hc
  obtain ⟨t, k, hstep, hsound, hiff⟩ := step_starts he
  obtain ⟨f, hf, hof⟩ := Connector.startInLoop_asserts (hsound h.connector) (mt hiff.mp hrest)
  refine ⟨f, ?_, hof⟩
  rw [hstep, hf]
  rfl

omit [DecidableEq T] in
theorem not_ofConnector_notEnabled : ¬ OfConnector .notEnabled := by
  rintro (h | h | h | h) <;> cases h

omit [DecidableEq T] in
/-- A restart finds the connector without an earlier channel. -/
theorem restart_ne_error (h : s.Coherent) (hwithin : s.within = .restarting) {e : Nat} :
    s.client.connector.restart e ≠ .error f := by
  have hw := h.within
  rw [hwithin] at hw
  obtain ⟨hstate, -, hresets⟩ := hw
  have hrest := h.resting (by rw [hstate]; nofun)
  refine Connector.AtRest.startInLoop ⟨rfl, fun _ => hresets⟩ (.inl ?_)
  exact ⟨hrest.ledger, hrest.poller, nofun, hrest.reset⟩

theorem admissible_ne_assertion (h : s.Coherent) (hc : Admissible s a)
    (hs : step s a = .error f) : ¬ OfConnector f := by
  cases hstarts : s.starts a with
  | some e =>
    obtain ⟨t, k, hstep, hsound, hiff⟩ := step_starts hstarts
    rw [hstep] at hs
    have hrest := hiff.mpr (hc e hstarts)
    exact absurd (runConnector_error hs) (hrest.startInLoop (hsound h.connector))
  | none =>
    by_cases hne : Fault.notEnabled = f
    · rw [← hne]
      exact not_ofConnector_notEnabled
    cases a with
    | enableRetry => cases hs
    | connect e =>
      obtain ⟨hout, -⟩ := ensure_bind_error_of_ne hs hne
      rw [starts, if_pos hout] at hstarts
      cases hstarts
    | disconnect | otherConnect t | otherConnectPush t | otherDisconnect t
      | otherDisconnectReturn t =>
      obtain ⟨-, hs⟩ := ensure_bind_error_of_ne hs hne
      cases hs
    | poll connecting conns =>
      obtain ⟨-, hs⟩ := ensure_bind_error_of_ne hs hne
      obtain ⟨-, hs⟩ := ensure_bind_error_of_ne hs hne
      obtain ⟨-, hs⟩ := ensure_bind_error_of_ne hs hne
      cases hs
    | handleEvent revents isSelfConnect =>
      obtain ⟨-, hs⟩ := ensure_bind_error_of_ne hs hne
      split at hs
      · rename_i fd conns hphase
        obtain ⟨htrying, hstate⟩ := (h.handling _ _ hphase).connecting fd rfl
        obtain ⟨k, hk, -⟩ := htrying.watches.handleEvent hstate revents isSelfConnect
        rw [hk] at hs
        cases hs
      · exact absurd (Except.error.inj hs) hne
    | newConnection | connectionEstablished =>
      rw [step] at hs
      split at hs
      · cases hs
      · exact absurd (Except.error.inj hs) hne
    | removeConnection conn =>
      obtain ⟨-, hs⟩ := ensure_bind_error_of_ne hs hne
      split at hs
      · obtain ⟨-, hs⟩ := ensure_bind_error_of_ne hs hne
        rcases bind_eq_error.mp hs with hs | ⟨_, -, hs⟩
        · -- the only assertion that can fail here is that of the client
          rcases ensure_bind_eq_error.mp hs with ⟨-, rfl⟩ | ⟨-, hs⟩
          · rintro (hf | hf | hf | hf) <;> cases hf
          · cases hs
        · cases hs
      · exact absurd (Except.error.inj hs) hne
    | restart e =>
      obtain ⟨hwithin, hs⟩ := ensure_bind_error_of_ne hs hne
      exact absurd (runConnector_error hs) (restart_ne_error h hwithin)
    | timer i e =>
      obtain ⟨hen, hs⟩ := ensure_bind_error_of_ne hs hne
      split at hs
      · rename_i connecting conns hphase
        rw [starts, hphase] at hstarts
        dsimp only at hstarts
        rw [if_pos hen] at hstarts
        cases hstarts
      · exact absurd (Except.error.inj hs) hne
    | doPendingFunctor | endPass =>
      obtain ⟨-, hs⟩ := ensure_bind_error_of_ne hs hne
      split at hs
      · cases hs
      · exact absurd (Except.error.inj hs) hne
    | runFunctor e =>
      obtain ⟨hout, hs⟩ := ensure_bind_error_of_ne hs hne
      split at hs
      · rename_i functor fs hphase
        cases functor with
        | startInLoop =>
          rw [starts, hphase] at hstarts
          dsimp only at hstarts
          rw [if_pos hout] at hstarts
          cases hstarts
        | resetChannel | connectionDestroyed conn => cases hs
      · exact absurd (Except.error.inj hs) hne

/-- No assertion of the connector fails in a run in which every `connect()` and every retry timer
finds the connector at rest; any other one fails an assertion. -/
theorem connector_assertions_iff (as : List (Action T)) :
    (Along step Admissible init as → ∀ f, run step init as = .error f → ¬ OfConnector f) ∧
    ∀ s a, run step init as = .ok s →
      ((∃ f, step s a = .error f ∧ OfConnector f) ↔ ¬ Admissible s a) := by
  constructor
  · intro hcond f hrun
    exact run_ne_error (I := Coherent) (fun _ _ _ h _ hs => coherent_step h hs)
      (fun s a e h hc hs => admissible_ne_assertion h hc hs) init_coherent hcond hrun
  · intro s a hrun
    have hcoherent := coherent_run hrun
    constructor
    · rintro ⟨f, hs, hof⟩ hc
      exact admissible_ne_assertion hcoherent hc hs hof
    · exact starts_asserts hcoherent

/-- A second `connect()` during an attempt, a retry timer after a `connect()` in its delay, and a
retry timer that fires in the pass in which its attempt failed. -/
theorem connect_at_the_wrong_time :
    run step (init : ClientSystem Unit) [.connect EINPROGRESS, .connect EINPROGRESS] =
      .error (.assertion .startInLoop) ∧
    run step (init : ClientSystem Unit) [.connect ECONNREFUSED, .connect EINPROGRESS,
      .poll none [], .timer 0 EINPROGRESS] = .error (.assertion .startInLoop) ∧
    run step (init : ClientSystem Unit) [.connect EINPROGRESS, .poll (some 0) [],
      .handleEvent POLLERR false, .timer 0 EINPROGRESS] = .error (.assertion .connecting) := by
  refine ⟨faultOf_eq_some.mp ?_, faultOf_eq_some.mp ?_, faultOf_eq_some.mp ?_⟩
  · decide +kernel
  · decide +kernel
  · decide +kernel

end ClientSystem

end Summer.Net
