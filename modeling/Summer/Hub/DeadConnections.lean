import Summer.Hub.HubRuns
import Summer.Net.ConnectionCallbacks

/-!
# The hub and its dead connections

A hub over its server: every connection runs as a connection of a server with one loop does,
and the hub hears of it through `connectionCallback_` and the message callback alone. What
the hub sends are steps of the connections.
-/
namespace Summer.Hub

open Summer.Lib
open Summer.Net (Timestamp ConnectionSystem Phase POLLIN)

variable {C : Type} [LinearOrder C]

structure ServerSystem (C : Type) [LinearOrder C] where
  hub : HubServer C := {}
  connections : C → ConnectionSystem Empty := fun _ => .init (.server true) false

namespace ServerSystem

inductive Action (C : Type) where
  | connection (conn : C) (action : ConnectionSystem.Action Empty)
  /-- The message callback processes one message of what was read. -/
  | message (conn : C) (s : Strings) (now : Timestamp)

/-- The dispatch of the connection has read data. -/
def Reading (t : ConnectionSystem Empty) : Prop :=
  match t.phase with
  | .handling _ .data => True
  | _ => False

instance (t : ConnectionSystem Empty) : Decidable (Reading t) := by
  unfold Reading
  split <;> infer_instance

def callbacks (t : ConnectionSystem Empty) : List Bool := t.conn.record.connectionCallbacks

def step (s : ServerSystem C) : Action C → Except Fault (ServerSystem C)
  | .connection conn action => do
    let t ← (s.connections conn).step action
    -- The callbacks that this step made.
    let called := (callbacks t).drop (callbacks (s.connections conn)).length
    let hub ← called.foldlM (fun h connected => h.onConnection conn connected) s.hub
    .ok { s with hub := hub, connections := Function.update s.connections conn t }
  | .message conn strings now => do
    ensure (Reading (s.connections conn)) .notEnabled
    let (hub, _sent) ← s.hub.command conn strings now
    .ok { s with hub := hub }

def init : ServerSystem C := {}

/-- The commands among the actions, in order. -/
def Action.command : Action C → Option (Event C)
  | .connection _ _ => none
  | .message conn s now => some (.command conn s now)

def commands (as : List (Action C)) : List (Event C) := as.filterMap Action.command

/-- No topic has a connection in its audience that was closed and destroyed. -/
def ForgetsDead (s : ServerSystem C) : Prop :=
  ∀ c, (s.connections c).Closed → (s.connections c).destroyed = true →
    ∀ topic, c ∉ (s.hub.getTopic topic).audiences

/-! ## What the hub hears -/

/-- The connection has run like this so far. -/
def Reached (t : ConnectionSystem Empty) : Prop :=
  ∃ bs, run ConnectionSystem.step (.init (.server true) false) bs = .ok t

/-- No thread but the loop's can disturb the callback. -/
theorem along_undisturbed {t : ConnectionSystem Empty} (bs : List (ConnectionSystem.Action Empty)) :
    Along ConnectionSystem.step ConnectionSystem.Undisturbed t bs := by
  induction bs generalizing t with
  | nil => trivial
  | cons b bs ih =>
    refine ⟨fun _ => ?_, fun _ _ => ih⟩
    cases b with
    | otherShutdownSet thread => cases thread
    | _ => rfl

/-- The user is told at most once, and then that the connection is up. -/
theorem callbacks_of_reached {t : ConnectionSystem Empty} (h : Reached t) :
    callbacks t = [] ∨ callbacks t = [true] := by
  obtain ⟨bs, hrun⟩ := h
  rcases ConnectionSystem.run_callbacks hrun with ⟨rfl, -⟩ | hcb
  · exact .inl rfl
  · cases hcb with
    | early _ _ _ hcb _ => exact .inl hcb
    | called _ _ b hcb hup =>
      rw [hup.mpr (along_undisturbed bs)] at hcb
      exact .inr hcb

theorem reached_step {t t' : ConnectionSystem Empty} (h : Reached t)
    {a : ConnectionSystem.Action Empty} (hs : t.step a = .ok t') : Reached t' := by
  obtain ⟨bs, hrun⟩ := h
  refine ⟨bs ++ [a], run_append_ok.mpr ⟨t, hrun, run_cons_ok.mpr ⟨t', hs, rfl⟩⟩⟩

/-- No step of a connection tells the hub that it is down. -/
theorem called_of_step {t t' : ConnectionSystem Empty} (h : Reached t)
    {a : ConnectionSystem.Action Empty} (hs : t.step a = .ok t') :
    (callbacks t').drop (callbacks t).length = [] ∨
      (callbacks t').drop (callbacks t).length = [true] := by
  rcases callbacks_of_reached (reached_step h hs) with h' | h'
  · left
    rw [h']
    exact List.drop_nil
  · rw [h']
    cases (callbacks t).length with
    | zero => exact .inr rfl
    | succ n => exact .inl (List.drop_nil)

/-! ## Runs -/

variable {s s' : ServerSystem C} {as : List (Action C)}

/-- What a step does to the hub: it hears that a connection is up, or carries out a command. -/
theorem hub_step (hr : ∀ c, Reached (s.connections c)) {a : Action C} (h : step s a = .ok s') :
    (∀ c, Reached (s'.connections c)) ∧ ∀ history, HubServer.Audiences history s.hub →
      HubServer.Audiences (history ++ (Action.command a).toList) s'.hub := by
  cases a with
  | connection conn action =>
    obtain ⟨t, ht, h⟩ := bind_eq_ok.mp h
    obtain ⟨hub, hhub, h⟩ := bind_eq_ok.mp h
    cases h
    constructor
    · intro c
      by_cases hc : c = conn
      · subst hc
        show Reached (Function.update s.connections c t c)
        rw [Function.update_self]
        exact reached_step (hr c) ht
      · show Reached (Function.update s.connections conn t c)
        rw [Function.update_of_ne hc]
        exact hr c
    · intro history ha
      simp only [Action.command, Option.toList_none, List.append_nil]
      rcases called_of_step (hr conn) ht with hcalled | hcalled
      · simp only [hcalled, List.foldlM_nil] at hhub
        cases hhub
        exact ha
      · simp only [hcalled, List.foldlM_cons, List.foldlM_nil, HubServer.onConnection] at hhub
        cases hhub
        exact ha
  | message conn strings now =>
    obtain ⟨_, -, h⟩ := bind_eq_ok.mp h
    obtain ⟨⟨hub, sent⟩, hc, h⟩ := bind_eq_ok.mp h
    cases h
    exact ⟨hr, fun history ha => ha.command (HubServer.does_of_command hc)⟩

theorem audiences_run (hrun : run step init as = .ok s) :
    HubServer.Audiences (commands as) s.hub := by
  have hinit : HubServer.Audiences (commands ([] : List (Action C))) (init (C := C)).hub :=
    HubServer.audiences_init
  have hinv := run_history (J := fun as u => (∀ c, Reached (u.connections c)) ∧
    HubServer.Audiences (commands as) u.hub) ⟨fun _ => ⟨[], rfl⟩, hinit⟩ ?_ hrun
  · exact hinv.2
  · intro as u a v _ hu hs
    obtain ⟨hr, ha⟩ := hub_step hu.1 hs
    have hcommands : commands (as ++ [a]) = commands as ++ (Action.command a).toList := by
      cases a <;> simp [commands, Action.command]
    rw [hcommands]
    exact ⟨hr, ha _ hu.2⟩

/-- The hub forgets its dead connections exactly when each of them had left every topic by
its own commands. -/
theorem forgets_dead_iff (hrun : run step init as = .ok s) :
    s.ForgetsDead ↔ ∀ c, (s.connections c).Closed → (s.connections c).destroyed = true →
      ∀ topic, ¬ Subscribed (commands as) c topic := by
  have ha := audiences_run hrun
  refine forall_congr' fun c => imp_congr_right fun _ => imp_congr_right fun _ => ?_
  exact forall_congr' fun topic => not_congr (ha c topic)

/-- A connection subscribes, takes it back, and is closed and destroyed. -/
theorem forgets_dead_iff_sample :
    ∃ s : ServerSystem Nat, run step init
        [.connection 1 .connectionEstablished, .connection 1 .connectionCallback,
          .connection 1 (.poll POLLIN .data), .connection 1 (.handleEvent 0),
          .message 1 ⟨sub, [97], []⟩ ⟨5, by decide⟩,
          .message 1 ⟨unsub, [97], []⟩ ⟨5, by decide⟩,
          .connection 1 .doPendingFunctor, .connection 1 .endPass,
          .connection 1 (.poll POLLIN .eof), .connection 1 (.handleEvent 0),
          .connection 1 .doPendingFunctor, .connection 1 (.runFunctor 0)] = .ok s ∧
      (s.connections 1).destroyed = true ∧ s.ForgetsDead := by
  have hend : endsIn step (fun s => (s.connections 1).destroyed) (init : ServerSystem Nat)
        [.connection 1 .connectionEstablished, .connection 1 .connectionCallback,
          .connection 1 (.poll POLLIN .data), .connection 1 (.handleEvent 0),
          .message 1 ⟨sub, [97], []⟩ ⟨5, by decide⟩,
          .message 1 ⟨unsub, [97], []⟩ ⟨5, by decide⟩,
          .connection 1 .doPendingFunctor, .connection 1 .endPass,
          .connection 1 (.poll POLLIN .eof), .connection 1 (.handleEvent 0),
          .connection 1 .doPendingFunctor, .connection 1 (.runFunctor 0)] = true := by
    decide +kernel
  obtain ⟨s, hrun, hdestroyed⟩ := endsIn_iff.mp hend
  refine ⟨s, hrun, hdestroyed, (forgets_dead_iff hrun).mpr fun c _ _ topic => ?_⟩
  have hwords : sub ≠ unsub ∧ unsub ≠ sub := by decide
  show ¬ Subscribed [.command 1 ⟨sub, [97], []⟩ ⟨5, _⟩, .command 1 ⟨unsub, [97], []⟩ ⟨5, _⟩] c topic
  by_cases hct : 1 = c ∧ [97] = topic
  · simp [Subscribed, latest, Event.interest, hct, hwords]
  · simp [Subscribed, latest, Event.interest, hct]

/-- A subscriber's peer closes: the destroyed connection stays in the audience. -/
theorem dead_connection_remembered :
    ∃ s : ServerSystem Nat, run step init
        [.connection 1 .connectionEstablished, .connection 1 .connectionCallback,
          .connection 1 (.poll POLLIN .data), .connection 1 (.handleEvent 0),
          .message 1 ⟨sub, [97], []⟩ ⟨5, by decide⟩,
          .connection 1 .doPendingFunctor, .connection 1 .endPass,
          .connection 1 (.poll POLLIN .eof), .connection 1 (.handleEvent 0),
          .connection 1 .doPendingFunctor, .connection 1 (.runFunctor 0)] = .ok s ∧
      ¬ s.ForgetsDead := by
  have hend : endsIn step
        (fun s => decide (s.connections 1).Closed && (s.connections 1).destroyed &&
          decide (1 ∈ (s.hub.getTopic [97]).audiences))
        (init : ServerSystem Nat)
        [.connection 1 .connectionEstablished, .connection 1 .connectionCallback,
          .connection 1 (.poll POLLIN .data), .connection 1 (.handleEvent 0),
          .message 1 ⟨sub, [97], []⟩ ⟨5, by decide⟩,
          .connection 1 .doPendingFunctor, .connection 1 .endPass,
          .connection 1 (.poll POLLIN .eof), .connection 1 (.handleEvent 0),
          .connection 1 .doPendingFunctor, .connection 1 (.runFunctor 0)] = true := by
    decide +kernel
  obtain ⟨s, hrun, hs⟩ := endsIn_iff.mp hend
  rw [Bool.and_eq_true, Bool.and_eq_true, decide_eq_true_eq, decide_eq_true_eq] at hs
  exact ⟨s, hrun, fun h => h 1 hs.1.1 hs.1.2 [97] hs.2⟩

end ServerSystem

end Summer.Hub
