import Summer.Hub.Fragmentation
import Summer.Hub.HubServer
import Mathlib.Data.List.Infix

/-!
# The protocol between the hub and its clients

Three functions of the client and one of the hub build messages, and `parseMessage` takes
them apart on both sides.
-/
namespace Summer.Hub

open Summer.Lib

/-! ## The encoders -/

def PubSubClient.subscribe (topic : Bytes) : Bytes := sub ++ [space] ++ topic ++ [CR, LF]

def PubSubClient.unSubscribe (topic : Bytes) : Bytes := unsub ++ [space] ++ topic ++ [CR, LF]

def PubSubClient.publish (topic content : Bytes) : Bytes :=
  pub ++ [space] ++ topic ++ [CR, LF] ++ content ++ [CR, LF]

/-- A message, by the function that builds it. -/
inductive Message where
  | subscribe (topic : Bytes)
  | unSubscribe (topic : Bytes)
  | publish (topic content : Bytes)
  | makeMessage (topic content : Bytes)
  deriving DecidableEq, Repr

/-- The two bytes CR and LF occur next to each other. -/
def HasCRLF (b : Bytes) : Prop := [CR, LF] <:+: b

instance (b : Bytes) : Decidable (HasCRLF b) := inferInstanceAs (Decidable (_ <:+: _))

namespace Message

def encode : Message → Bytes
  | subscribe topic => PubSubClient.subscribe topic
  | unSubscribe topic => PubSubClient.unSubscribe topic
  | publish topic content => PubSubClient.publish topic content
  | makeMessage topic content => ({ topic := topic, content := content } : Topic Nat).makeMessage

def encodeAll (ms : List Message) : Bytes := ms.flatMap encode

/-- Neither string of the message has CR LF in it. -/
def Separable : Message → Prop
  | subscribe topic | unSubscribe topic => ¬ HasCRLF topic
  | publish topic content | makeMessage topic content => ¬ HasCRLF topic ∧ ¬ HasCRLF content

instance : DecidablePred Separable := fun m => by
  cases m <;> unfold Separable <;> infer_instance

/-- The strings the message stands for; only a `pub` message sets the content. -/
def strings (s : Strings) : Message → Strings
  | subscribe topic => { s with cmd := sub, topic := topic }
  | unSubscribe topic => { s with cmd := unsub, topic := topic }
  | publish topic content | makeMessage topic content => ⟨pub, topic, content⟩

/-- The frame of the message. -/
def frame : Message → Frame
  | subscribe topic => .sub topic
  | unSubscribe topic => .unsub topic
  | publish topic content | makeMessage topic content => .pub topic content

theorem encode_frame (m : Message) : m.frame.encode = m.encode := by
  cases m with
  | subscribe topic =>
    simp [encode, frame, Frame.encode, Frame.line, Frame.body, Frame.crlf, PubSubClient.subscribe]
  | unSubscribe topic =>
    simp [encode, frame, Frame.encode, Frame.line, Frame.body, Frame.crlf,
      PubSubClient.unSubscribe]
  | publish topic content =>
    simp [encode, frame, Frame.encode, Frame.line, Frame.body, Frame.crlf, PubSubClient.publish]
  | makeMessage topic content =>
    simp [encode, frame, Frame.encode, Frame.line, Frame.body, Frame.crlf, Topic.makeMessage]

theorem strings_frame (m : Message) (s : Strings) : m.frame.strings s = m.strings s := by
  cases m <;> rfl

theorem wellFormed_frame {m : Message} (h : m.Separable) : m.frame.WellFormed := by
  have hplain : ∀ {b : Bytes}, ¬ HasCRLF b → Frame.Plain b :=
    fun hb => searchMark_eq_none_iff.mpr hb
  cases m with
  | subscribe topic => exact hplain h
  | unSubscribe topic => exact hplain h
  | publish topic content => exact ⟨hplain h.1, hplain h.2⟩
  | makeMessage topic content => exact ⟨hplain h.1, hplain h.2⟩

/-- A whole message is parsed as itself, whatever follows it. -/
theorem parse_encode {m : Message} (h : m.Separable) (rest : Bytes) (s : Strings) :
    parseMessage (m.encode ++ rest) s = .ok (.kSuccess, rest, m.strings s) := by
  rw [← encode_frame, ← strings_frame]
  exact Frame.parse_encode (wellFormed_frame h) rest s

end Message

/-! ## The decoder on a sequence of messages -/

/-- One call of `parseMessage` for each entry of the list, which is what the caller's strings
hold before the call: the results, and the bytes left unread. -/
def parseMessages (m : Bytes) : List Strings → Except Fault (List (ParseResult × Strings) × Bytes)
  | [] => .ok ([], m)
  | s :: calls => do
    let (result, m, s) ← parseMessage m s
    let (results, rest) ← parseMessages m calls
    .ok ((result, s) :: results, rest)

theorem parseMessages_encodeAll {ms : List Message} (h : ∀ m ∈ ms, m.Separable) (trailing : Bytes)
    {calls : List Strings} (hlen : calls.length = ms.length) :
    parseMessages (Message.encodeAll ms ++ trailing) calls =
      .ok (List.zipWith (fun m s => (.kSuccess, m.strings s)) ms calls, trailing) := by
  induction ms generalizing calls with
  | nil =>
    rw [List.length_nil, List.length_eq_zero_iff] at hlen
    subst hlen
    rfl
  | cons m ms ih =>
    cases calls with
    | nil => cases hlen
    | cons s calls =>
      have hparse := Message.parse_encode (h m List.mem_cons_self)
        (Message.encodeAll ms ++ trailing) s
      have hrest := ih (fun n hn => h n (List.mem_cons_of_mem m hn)) (Nat.succ.inj hlen)
      rw [Message.encodeAll, List.flatMap_cons, List.append_assoc, ← Message.encodeAll,
        parseMessages, hparse, ok_bind]
      dsimp only
      rw [hrest]
      rfl

/-- One message alone is what the callback dispatches. -/
theorem onMessage_encode {κ : Type} (fresh : Bool) (handle : Strings → List κ) (onError : List κ)
    {m : Message} (h : m.Separable) :
    onMessage fresh handle onError m.encode = .ok (handle (m.strings {}), []) := by
  have hparse : parseMessage m.encode (if fresh then {} else {}) =
      .ok (.kSuccess, [], m.strings {}) := by
    have := Message.parse_encode h [] {}
    rw [List.append_nil] at this
    rw [ite_self]
    exact this
  have hend : messageLoop fresh handle [] (m.strings {}) = .ok ([], .kContinue, []) :=
    messageLoop_continue (parseMessage_noLine rfl _)
  rw [onMessage, messageLoop_success hparse, hend]
  simp

/-- Encoders and decoder agree: every sequence of messages is parsed back message by message,
and what a client publishes reaches the callback of every subscriber through the hub. -/
theorem encoders_match_decoder :
    (∀ (ms : List Message) (trailing : Bytes) (calls : List Strings),
      (∀ m ∈ ms, m.Separable) → calls.length = ms.length →
      parseMessages (Message.encodeAll ms ++ trailing) calls =
        .ok (List.zipWith (fun m s => (.kSuccess, m.strings s)) ms calls, trailing)) ∧
    ∀ {C : Type} [LinearOrder C] (t : Topic C) (content : Bytes) (now : Net.Timestamp),
      ¬ HasCRLF t.topic → ¬ HasCRLF content →
      HubServer.onMessage (PubSubClient.publish t.topic content) =
        .ok ([.doPublish t.topic content], []) ∧
      ∀ sent ∈ (t.publish content now).2,
        PubSubClient.onMessage true sent.2 =
          .ok ([.subscribeCallback t.topic content], []) := by
  refine ⟨fun ms trailing calls h hlen => parseMessages_encodeAll h trailing hlen, ?_⟩
  intro C _ t content now ht hc
  constructor
  · exact onMessage_encode false HubServer.dispatch [] (m := .publish t.topic content) ⟨ht, hc⟩
  · intro sent hsent
    obtain ⟨conn, -, rfl⟩ := List.mem_map.mp hsent
    exact onMessage_encode true (PubSubClient.dispatch true) [.shutdown]
      (m := .makeMessage t.topic content) ⟨ht, hc⟩

/-- A topic that ends in CR, a content that starts with LF, empty strings, and half a message
behind them. -/
theorem encoders_match_decoder_sample :
    parseMessages (Message.encodeAll [.subscribe [97, CR], .publish [space, CR] [LF, 98],
        .unSubscribe [], .makeMessage [] [CR]] ++ [112, CR]) [{}, {}, {}, {}] =
      .ok ([(.kSuccess, ⟨sub, [97, CR], []⟩), (.kSuccess, ⟨pub, [space, CR], [LF, 98]⟩),
        (.kSuccess, ⟨unsub, [], []⟩), (.kSuccess, ⟨pub, [], [CR]⟩)], [112, CR]) ∧
    HubServer.onMessage (PubSubClient.publish [97, CR] [LF]) =
      .ok ([.doPublish [97, CR] [LF]], []) := by
  have hlaw := encoders_match_decoder
  refine ⟨hlaw.1 _ _ _ (by decide) rfl, ?_⟩
  exact (hlaw.2 ({ topic := [97, CR] } : Topic Nat) [LF] Net.Timestamp.invalid (by decide)
    (by decide)).1

end Summer.Hub
