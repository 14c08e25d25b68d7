import Summer.Hub.MessageLoop
import Summer.Lib.OrderedSet
import Summer.Net.Timer
import Mathlib.Data.List.Lex

/-!
# The hub server

A connection is a `TcpConnectionPtr`, ordered as the keys of a `std::set` are. `contexts`
holds what each connection keeps in its `boost::any`: the set of strings, or something else.
The functions return the calls of `conn->send` they make, in order.
-/
namespace Summer.Hub

open Summer.Lib
open Summer.Net (Timestamp)

/-- `std::string` compares its characters as unsigned bytes. -/
instance instLinearOrderUInt8 : LinearOrder UInt8 where
  le_refl := UInt8.le_refl
  le_trans _ _ _ := UInt8.le_trans
  le_antisymm _ _ := UInt8.le_antisymm
  le_total := UInt8.le_total
  lt_iff_le_not_ge a b := by rw [UInt8.not_le]; exact ⟨fun h => ⟨UInt8.le_of_lt h, h⟩, And.right⟩
  toDecidableLE := inferInstance

variable {C : Type} [LinearOrder C]

structure Topic (C : Type) [LinearOrder C] where
  topic : Bytes
  lastPubTime : Timestamp := Timestamp.invalid
  content : Bytes := []
  audiences : OrderedSet C := ∅

namespace Topic

def makeMessage (t : Topic C) : Bytes :=
  pub ++ [space] ++ t.topic ++ [CR, LF] ++ t.content ++ [CR, LF]

def add (t : Topic C) (conn : C) : Topic C × List (C × Bytes) :=
  let t := { t with audiences := (t.audiences.insert conn).1 }
  (t, if t.lastPubTime.valid = true then [(conn, t.makeMessage)] else [])

def remove (t : Topic C) (conn : C) : Topic C :=
  { t with audiences := (t.audiences.erase conn).1 }

def publish (t : Topic C) (content : Bytes) (timestamp : Timestamp) :
    Topic C × List (C × Bytes) :=
  let t := { t with content := content, lastPubTime := timestamp }
  (t, t.audiences.toList.map fun conn => (conn, t.makeMessage))

end Topic

structure HubServer (C : Type) [LinearOrder C] where
  topics : Bytes → Option (Topic C) := fun _ => none
  contexts : C → Option (OrderedSet Bytes) := fun _ => none

namespace HubServer

/-- The topic, which is created if it does not exist. -/
def getTopic (h : HubServer C) (topic : Bytes) : Topic C :=
  match h.topics topic with
  | none => { topic := topic }
  | some t => t

/-- What is done through the reference that `getTopic` returns. -/
def setTopic (h : HubServer C) (topic : Bytes) (t : Topic C) : HubServer C :=
  { h with topics := Function.update h.topics topic (some t) }

/-- `boost::any_cast<std::set<std::string>>(conn->getContext())`, which answers a copy. -/
def anyCast (h : HubServer C) (conn : C) : Except Fault (OrderedSet Bytes) :=
  match h.contexts conn with
  | none => .error .badAnyCast
  | some topics => .ok topics

def setContext (h : HubServer C) (conn : C) (topics : OrderedSet Bytes) : HubServer C :=
  { h with contexts := Function.update h.contexts conn (some topics) }

def doUnSubscribe (h : HubServer C) (conn : C) (topic : Bytes) : Except Fault (HubServer C) := do
  let topics ← h.anyCast conn
  -- The erasure is made in the copy, which is then dropped.
  let _topics := (topics.erase topic).1
  .ok (h.setTopic topic ((h.getTopic topic).remove conn))

def doSubscribe (h : HubServer C) (conn : C) (topic : Bytes) :
    Except Fault (HubServer C × List (C × Bytes)) := do
  let topics ← h.anyCast conn
  -- The insertion is made in the copy, which is then dropped.
  let _topics := (topics.insert topic).1
  let (t, sent) := (h.getTopic topic).add conn
  .ok (h.setTopic topic t, sent)

def doPublish (h : HubServer C) (topic content : Bytes) (timestamp : Timestamp) :
    HubServer C × List (C × Bytes) :=
  let (t, sent) := (h.getTopic topic).publish content timestamp
  (h.setTopic topic t, sent)

/-- The connection callback. -/
def onConnection (h : HubServer C) (conn : C) (connected : Bool) : Except Fault (HubServer C) :=
  if connected = true then .ok (h.setContext conn ∅)
  else do
    let topics ← h.anyCast conn
    topics.toList.foldlM (fun h topic => h.doUnSubscribe conn topic) h

/-- One call of the message loop, at the time `now`. -/
def handle (h : HubServer C) (conn : C) (now : Timestamp) :
    HubCall → Except Fault (HubServer C × List (C × Bytes))
  | .doPublish topic content => .ok (h.doPublish topic content now)
  | .doSubscribe topic => h.doSubscribe conn topic
  | .doUnSubscribe topic => do
    let h ← h.doUnSubscribe conn topic
    .ok (h, [])

/-- What the message loop does with one parsed message. -/
def command (h : HubServer C) (conn : C) (s : Strings) (now : Timestamp) :
    Except Fault (HubServer C × List (C × Bytes)) :=
  match dispatch s with
  | [] => .ok (h, [])
  | call :: _ => h.handle conn now call

/-! ## What each function does -/

variable {h h' : HubServer C} {conn : C} {topic : Bytes} {s : Strings} {now : Timestamp}
  {sent : List (C × Bytes)}

@[simp] theorem getTopic_setTopic_self (t : Topic C) :
    (h.setTopic topic t).getTopic topic = t := by
  simp [getTopic, setTopic]

theorem getTopic_setTopic_ne {topic' : Bytes} (hne : topic' ≠ topic) (t : Topic C) :
    (h.setTopic topic t).getTopic topic' = h.getTopic topic' := by
  simp [getTopic, setTopic, hne]

@[simp] theorem setTopic_contexts (t : Topic C) : (h.setTopic topic t).contexts = h.contexts := rfl

@[simp] theorem getTopic_setContext (topics : OrderedSet Bytes) :
    (h.setContext conn topics).getTopic topic = h.getTopic topic := rfl

/-- What a command does: publish, subscribe, unsubscribe, or nothing. -/
inductive Does (h : HubServer C) (conn : C) (s : Strings) (now : Timestamp) :
    HubServer C → List (C × Bytes) → Prop where
  | publish (cmd : s.cmd = pub) : Does h conn s now
      (h.setTopic s.topic ((h.getTopic s.topic).publish s.content now).1)
      ((h.getTopic s.topic).publish s.content now).2
  | subscribe (cmd : s.cmd = sub) : Does h conn s now
      (h.setTopic s.topic ((h.getTopic s.topic).add conn).1) ((h.getTopic s.topic).add conn).2
  | unSubscribe (cmd : s.cmd = unsub) : Does h conn s now
      (h.setTopic s.topic ((h.getTopic s.topic).remove conn)) []
  | unknown (cmd : s.cmd ≠ pub ∧ s.cmd ≠ sub ∧ s.cmd ≠ unsub) : Does h conn s now h []

/-- A command is carried out, unless the context is not a set of strings. -/
theorem command_cases (h : HubServer C) (conn : C) (s : Strings) (now : Timestamp) :
    (∃ h' sent, h.command conn s now = .ok (h', sent) ∧ Does h conn s now h' sent) ∨
      (h.command conn s now = .error .badAnyCast ∧ h.contexts conn = none) := by
  have hcast : (∃ topics, h.anyCast conn = .ok topics) ∨
      (h.anyCast conn = .error .badAnyCast ∧ h.contexts conn = none) := by
    rw [anyCast]
    cases h.contexts conn with
    | none => exact .inr ⟨rfl, rfl⟩
    | some topics => exact .inl ⟨topics, rfl⟩
  rw [command, dispatch]
  by_cases hp : s.cmd = pub
  · rw [if_pos hp]
    exact .inl ⟨_, _, rfl, .publish hp⟩
  · rw [if_neg hp]
    by_cases hs : s.cmd = sub
    · rw [if_pos hs]
      rcases hcast with ⟨topics, hok⟩ | ⟨herr, hnone⟩
      · refine .inl ⟨_, _, ?_, .subscribe hs⟩
        simp only [handle, doSubscribe, hok, ok_bind]
      · refine .inr ⟨?_, hnone⟩
        simp only [handle, doSubscribe, herr, error_bind]
    · rw [if_neg hs]
      by_cases hu : s.cmd = unsub
      · rw [if_pos hu]
        rcases hcast with ⟨topics, hok⟩ | ⟨herr, hnone⟩
        · refine .inl ⟨_, _, ?_, .unSubscribe hu⟩
          simp only [handle, doUnSubscribe, hok, ok_bind]
        · refine .inr ⟨?_, hnone⟩
          simp only [handle, doUnSubscribe, herr, error_bind]
      · rw [if_neg hu]
        exact .inl ⟨h, [], rfl, .unknown ⟨hp, hs, hu⟩⟩

theorem does_of_command (hc : h.command conn s now = .ok (h', sent)) :
    Does h conn s now h' sent := by
  rcases command_cases h conn s now with ⟨h₁, sent₁, hok, hd⟩ | ⟨herr, -⟩
  · rw [hok] at hc
    cases hc
    exact hd
  · rw [herr] at hc
    cases hc

/-- No command touches a context. -/
theorem Does.contexts (hd : Does h conn s now h' sent) : h'.contexts = h.contexts := by
  cases hd <;> rfl

end HubServer

end Summer.Hub
