import Summer.Hub.HubServer
import Summer.Lib.History

/-!
# Runs of a hub

Connections are established and their commands processed in any order. What the hub keeps
for a topic is a function of the history: who subscribed last, and what was published last.
-/
namespace Summer.Hub

open Summer.Lib
open Summer.Net (Timestamp)

inductive Event (C : Type) where
  /-- The connection callback of a new connection. -/
  | established (conn : C)
  /-- A message of the connection, parsed into the strings, is processed at this time. -/
  | command (conn : C) (s : Strings) (now : Timestamp)
  deriving DecidableEq

namespace Event

variable {C : Type} [DecidableEq C]

def conn : Event C → C
  | established conn => conn
  | command conn _ _ => conn

/-- A subscription of the connection to the topic, or an end of it. -/
def interest (conn : C) (topic : Bytes) : Event C → Option Bool
  | established _ => none
  | command c s _ =>
    if c = conn ∧ s.topic = topic then
      if s.cmd = sub then some true else if s.cmd = unsub then some false else none
    else none

/-- The content that is published on the topic. -/
def published (topic : Bytes) : Event C → Option Bytes
  | established _ => none
  | command _ s _ => if s.cmd = pub ∧ s.topic = topic then some s.content else none

end Event

/-- The connection's most recent `sub` or `unsub` on the topic is a `sub`. -/
def Subscribed {C : Type} [DecidableEq C] (history : List (Event C)) (conn : C) (topic : Bytes) :
    Prop := latest (Event.interest conn topic) history = some true

instance {C : Type} [DecidableEq C] (history : List (Event C)) (conn : C) (topic : Bytes) :
    Decidable (Subscribed history conn topic) := inferInstanceAs (Decidable (_ = _))

/-- The topic's most recent content. -/
def lastContent {C : Type} [DecidableEq C] (history : List (Event C)) (topic : Bytes) :
    Option Bytes := latest (Event.published topic) history

variable {C : Type} [LinearOrder C]

/-- `live` are the connections established so far, and `sent` all sends, in order. -/
structure HubSystem (C : Type) [LinearOrder C] where
  hub : HubServer C := {}
  live : List C := []
  sent : List (C × Bytes) := []

namespace HubSystem

def step (s : HubSystem C) : Event C → Except Fault (HubSystem C)
  | .established conn => do
    ensure (conn ∉ s.live) .notEnabled
    let hub ← s.hub.onConnection conn true
    .ok { s with hub := hub, live := conn :: s.live }
  | .command conn strings now => do
    ensure (conn ∈ s.live) .notEnabled
    let (hub, sent) ← s.hub.command conn strings now
    .ok { s with hub := hub, sent := s.sent ++ sent }

def init : HubSystem C := {}

end HubSystem

/-! ## The audiences follow the history -/

namespace HubServer

variable {h h' : HubServer C} {conn c : C} {s : Strings} {now : Timestamp} {topic : Bytes}
  {sent : List (C × Bytes)} {history : List (Event C)}

/-- A `pub` or unknown command is no interest in anything. -/
theorem interest_none (hs : s.cmd ≠ sub) (hu : s.cmd ≠ unsub) :
    (Event.command conn s now).interest c topic = none := by
  simp [Event.interest, hs, hu]

/-- What a command does to an audience. -/
theorem Does.audiences (hd : Does h conn s now h' sent) (c : C) (topic : Bytes) :
    match (Event.command conn s now).interest c topic with
    | some b => c ∈ (h'.getTopic topic).audiences ↔ b = true
    | none => c ∈ (h'.getTopic topic).audiences ↔ c ∈ (h.getTopic topic).audiences := by
  cases hd with
  | publish hp =>
    rw [interest_none (by rw [hp]; decide) (by rw [hp]; decide)]
    by_cases ht : topic = s.topic
    · subst ht
      simp [Topic.publish]
    · simp [getTopic_setTopic_ne ht]
  | subscribe hs =>
    by_cases ht : topic = s.topic
    · subst ht
      by_cases hc : conn = c
      · simp [Event.interest, hc, hs, Topic.add, OrderedSet.mem_insert]
      · simp [Event.interest, hc, Topic.add, OrderedSet.mem_insert, Ne.symm hc]
    · simp [Event.interest, Ne.symm ht, getTopic_setTopic_ne ht]
  | unSubscribe hu =>
    have hs : unsub ≠ sub := by decide
    by_cases ht : topic = s.topic
    · subst ht
      by_cases hc : conn = c
      · simp [Event.interest, hc, hs, hu, Topic.remove, OrderedSet.mem_erase]
      · simp [Event.interest, hc, Topic.remove, OrderedSet.mem_erase, Ne.symm hc]
    · simp [Event.interest, Ne.symm ht, getTopic_setTopic_ne ht]
  | unknown hn => simp [interest_none hn.2.1 hn.2.2]

/-- Every audience is who subscribed last. -/
def Audiences (history : List (Event C)) (h : HubServer C) : Prop :=
  ∀ c topic, c ∈ (h.getTopic topic).audiences ↔ Subscribed history c topic

theorem Audiences.command (ha : Audiences history h) (hd : Does h conn s now h' sent) :
    Audiences (history ++ [.command conn s now]) h' := by
  intro c topic
  have hstep := hd.audiences c topic
  cases hi : (Event.command conn s now).interest c topic with
  | none =>
    simp only [hi] at hstep
    rw [hstep, ha, Subscribed, Subscribed, latest_concat_none hi]
  | some b =>
    simp only [hi] at hstep
    rw [hstep, Subscribed, latest_concat_some hi, Option.some_inj]

theorem Audiences.established (ha : Audiences history h) (topics : OrderedSet Bytes) :
    Audiences (history ++ [.established conn]) (h.setContext conn topics) := by
  intro c topic
  have hi : (Event.established conn).interest c topic = none := rfl
  rw [getTopic_setContext, ha, Subscribed, Subscribed, latest_concat_none hi]

theorem audiences_init : Audiences ([] : List (Event C)) {} := by
  intro c topic
  simp [getTopic, Subscribed]

end HubServer

/-! ## Runs -/

namespace HubSystem

variable {s s' : HubSystem C} {as : List (Event C)}

/-- The context of a connection is the empty set from its establishment on. -/
def ContextsEmpty (s : HubSystem C) : Prop :=
  ∀ c, s.hub.contexts c = if c ∈ s.live then some ∅ else none

/-- What a step does: it establishes a connection or carries out a command. -/
inductive Moves (s : HubSystem C) : Event C → HubSystem C → Prop where
  | established {conn} (fresh : conn ∉ s.live) : Moves s (.established conn)
      { s with hub := s.hub.setContext conn ∅, live := conn :: s.live }
  | command {conn strings now hub sent} (live : conn ∈ s.live)
      (does : HubServer.Does s.hub conn strings now hub sent) :
      Moves s (.command conn strings now) { s with hub := hub, sent := s.sent ++ sent }

theorem moves_of_step {e : Event C} (h : step s e = .ok s') : Moves s e s' := by
  cases e with
  | established conn =>
    obtain ⟨_, hen, h⟩ := bind_eq_ok.mp h
    cases h
    exact .established (ensure_eq_ok.mp hen)
  | command conn strings now =>
    obtain ⟨_, hen, h⟩ := bind_eq_ok.mp h
    obtain ⟨⟨hub, sent⟩, hc, h⟩ := bind_eq_ok.mp h
    cases h
    exact .command (ensure_eq_ok.mp hen) (HubServer.does_of_command hc)

theorem step_error (hc : s.ContextsEmpty) {e : Event C} {f : Fault} (h : step s e = .error f) :
    f = .notEnabled := by
  cases e with
  | established conn =>
    rcases ensure_bind_eq_error.mp h with ⟨-, rfl⟩ | ⟨-, h⟩
    · rfl
    · cases h
  | command conn strings now =>
    rcases ensure_bind_eq_error.mp h with ⟨-, rfl⟩ | ⟨hlive, h⟩
    · rfl
    · have hctx : s.hub.contexts conn = some ∅ := (hc conn).trans (if_pos hlive)
      rcases HubServer.command_cases s.hub conn strings now with ⟨_, _, hok, -⟩ | ⟨-, hnone⟩
      · rw [hok] at h
        cases h
      · rw [hctx] at hnone
        cases hnone

theorem contextsEmpty_step (hc : s.ContextsEmpty) {e : Event C} (h : step s e = .ok s') :
    s'.ContextsEmpty := by
  cases moves_of_step h with
  | established hfresh =>
    rename_i conn
    intro c
    by_cases hcc : c = conn
    · subst hcc
      simp [HubServer.setContext]
    · simp [HubServer.setContext, hcc, hc c]
  | command _ hdoes =>
    intro c
    rw [hdoes.contexts]
    exact hc c

theorem contextsEmpty_run (h : run step init as = .ok s) : s.ContextsEmpty :=
  run_preserves (fun _ _ _ hc hs => contextsEmpty_step hc hs) (fun _ => rfl) h

/-- No run fails on the type of a context. -/
theorem run_error {f : Fault} (h : run step (init : HubSystem C) as = .error f) :
    f = .notEnabled := by
  by_contra hne
  have herr : ∀ (u : HubSystem C) a e, u.ContextsEmpty → True → step u a = .error e →
      ¬ e ≠ .notEnabled := fun u a e hu _ he hbad => hbad (step_error hu he)
  exact run_ne_error (fun _ _ _ hc _ hs => contextsEmpty_step hc hs) herr (fun _ => rfl)
    along_true h hne

/-- In every state the audiences are those of the history. -/
theorem audiences_run (h : run step init as = .ok s) : HubServer.Audiences as s.hub := by
  refine run_history (J := fun as u => HubServer.Audiences as u.hub)
    HubServer.audiences_init ?_ h
  intro as u e v _ ha hs
  cases moves_of_step hs with
  | established _ => exact ha.established ∅
  | command _ hdoes => exact ha.command hdoes

end HubSystem

end Summer.Hub
