import Summer.Hub.LoopEnds

/-!
# What a message is decoded as

The strings of a message are put between delimiters as they are. Cut at every CR LF, the text
of a `sub` or `unsub` message should be one piece and that of a `pub` message two. A further
piece is the next line that the receiver reads.
-/
namespace Summer.Hub

open Summer.Lib

/-! ## The pieces of a message -/

namespace Message

/-- The command the caller asks for. -/
def command : Message → Bytes
  | subscribe _ => sub
  | unSubscribe _ => unsub
  | publish _ _ | makeMessage _ _ => pub

/-- What stands between the command with its space and the last terminator. -/
def text : Message → Bytes
  | subscribe topic | unSubscribe topic => topic
  | publish topic content | makeMessage topic content => topic ++ CR :: LF :: content

/-- The number of pieces that the receiver takes for the message. -/
def lines : Message → Nat
  | subscribe _ | unSubscribe _ => 1
  | publish _ _ | makeMessage _ _ => 2

/-- The first piece of the text behind those. -/
def surplus (m : Message) : Option Bytes := (splitMark CR LF m.text)[m.lines]?

theorem encode_text (m : Message) : m.encode = m.command ++ space :: (m.text ++ [CR, LF]) := by
  cases m <;> simp [encode, command, text, PubSubClient.subscribe, PubSubClient.unSubscribe,
    PubSubClient.publish, Topic.makeMessage]

end Message

/-- The first line of a text with a terminator behind it, and where the other pieces are. -/
theorem firstLine_pieces (t : Bytes) : ∃ piece more tail, splitMark CR LF t = piece :: more ∧
    FirstLine (t ++ [CR, LF]) piece tail ∧
      ((more = [] ∧ tail = [] ∧ ¬ HasCRLF t) ∨
        ∃ r, more = splitMark CR LF r ∧ tail = r ++ [CR, LF]) := by
  rcases searchMark_cases CR LF t with h | ⟨a, r, rfl, ha⟩
  · have hplain : ¬ HasCRLF t := searchMark_eq_none_iff.mp h
    exact ⟨t, [], [], splitMark_of_none h, ⟨rfl, hplain⟩, .inl ⟨rfl, rfl, hplain⟩⟩
  · refine ⟨a, splitMark CR LF r, r ++ [CR, LF], splitMark_append_mark cr_ne_lf ha r, ?_,
      .inr ⟨r, rfl, rfl⟩⟩
    exact ⟨by simp, searchMark_eq_none_iff.mp ha⟩

/-- A command in front of a text becomes part of its first line. -/
theorem FirstLine.command {t piece tail : Bytes} (h : FirstLine t piece tail) (m : Message) :
    FirstLine (m.command ++ space :: t) (m.command ++ space :: piece) tail where
  split := by rw [h.split, List.append_assoc, List.cons_append]
  plain := by
    have hp := Frame.plain_line h.unmarked
    apply searchMark_eq_none_iff.mp
    cases m with
    | subscribe topic => exact hp.2.1
    | unSubscribe topic => exact hp.2.2
    | publish topic content => exact hp.1
    | makeMessage topic content => exact hp.1

theorem Message.command_word (m : Message) : space ∉ m.command := by
  have h : space ∉ sub ∧ space ∉ unsub ∧ space ∉ pub := by decide
  cases m with
  | subscribe topic => exact h.1
  | unSubscribe topic => exact h.2.1
  | publish topic content => exact h.2.2
  | makeMessage topic content => exact h.2.2

/-- The bytes sent start with a message of the command asked for. Nothing follows it, or a line
that is the surplus piece. -/
theorem Message.encode_frame_surplus (m : Message) : ∃ topic content tail,
    IsFrame m.encode m.command topic content tail ∧
      ((m.surplus = none ∧ tail = []) ∨
        ∃ piece rest, m.surplus = some piece ∧ FirstLine tail piece rest) := by
  obtain ⟨piece, more, tail, hsplit, hfirst, hmore⟩ := firstLine_pieces m.text
  have hline : FirstLine m.encode (m.command ++ space :: piece) tail := by
    rw [encode_text]
    exact hfirst.command m
  have hcommand : Command (m.command ++ space :: piece) m.command piece := ⟨rfl, m.command_word⟩
  by_cases hpub : m.command = pub
  · have hlines : m.lines = 2 := by cases m <;> first | rfl | cases hpub
    have hcrlf : HasCRLF m.text := by
      cases m with
      | subscribe topic => cases hpub
      | unSubscribe topic => cases hpub
      | publish topic content => exact ⟨topic, content, by simp [text]⟩
      | makeMessage topic content => exact ⟨topic, content, by simp [text]⟩
    obtain ⟨-, -, hplain⟩ | ⟨r, rfl, rfl⟩ := hmore
    · exact absurd hcrlf hplain
    obtain ⟨second, more, tail, hsplit', hsecond, hmore⟩ := firstLine_pieces r
    refine ⟨piece, some second, tail, ?_, ?_⟩
    · rw [hpub] at hline hcommand ⊢
      exact .pub hline hcommand hsecond
    · rw [surplus, hsplit, hsplit', hlines]
      obtain ⟨rfl, rfl, -⟩ | ⟨r', rfl, rfl⟩ := hmore
      · exact .inl ⟨rfl, rfl⟩
      · obtain ⟨third, more, tail', hsplit', hthird, -⟩ := firstLine_pieces r'
        exact .inr ⟨third, tail', by rw [hsplit']; rfl, hthird⟩
  · have hlines : m.lines = 1 := by cases m <;> first | rfl | exact absurd rfl hpub
    refine ⟨piece, none, tail, .line hline hcommand hpub, ?_⟩
    rw [surplus, hsplit, hlines]
    obtain ⟨rfl, rfl, -⟩ | ⟨r, rfl, rfl⟩ := hmore
    · exact .inl ⟨rfl, rfl⟩
    · obtain ⟨second, more, tail', hsplit', hsecond, -⟩ := firstLine_pieces r
      exact .inr ⟨second, tail', by rw [hsplit']; rfl, hsecond⟩

/-- A line with a space is a message, or the first line of one. -/
theorem FirstLine.frame_or_cut {m line rest : Bytes} (h : FirstLine m line rest)
    (hs : space ∈ line) :
    CutPub m ∨ ∃ cmd topic content rest', IsFrame m cmd topic content rest' := by
  obtain ⟨cmd, topic, rfl, hcmd⟩ := List.eq_append_cons_of_mem hs
  by_cases hp : cmd = pub
  · subst hp
    rcases searchMark_cases CR LF rest with hr | ⟨content, rest', rfl, hc⟩
    · exact .inl ⟨_, topic, rest, h, ⟨rfl, hcmd⟩, searchMark_eq_none_iff.mp hr⟩
    · exact .inr ⟨pub, topic, some content, rest',
        .pub h ⟨rfl, hcmd⟩ ⟨rfl, searchMark_eq_none_iff.mp hc⟩⟩
  · exact .inr ⟨cmd, topic, none, rest, .line h ⟨rfl, hcmd⟩ hp⟩

/-! ## What the receiver decodes -/

/-- The loop of the receiver decodes the bytes as the messages `msgs`, dispatches each of them,
and stops without a fault. -/
def Decodes (fresh : Bool) (bytes : Bytes) (msgs : List Strings) : Prop :=
  ∀ {κ : Type} (handle : Strings → List κ), ∃ result rest,
    messageLoop fresh handle bytes {} = .ok (msgs.flatMap handle, result, rest)

/-- Two messages in a row are both decoded. -/
theorem Decodes.two_le_length {fresh : Bool} {m tail rest cmd cmd' topic topic' : Bytes}
    {content content' : Option Bytes} {msgs : List Strings} (h : Decodes fresh m msgs)
    (hfirst : IsFrame m cmd topic content tail) (hsecond : IsFrame tail cmd' topic' content' rest) :
    2 ≤ msgs.length := by
  obtain ⟨result, left, hloop⟩ := h fun s => [s]
  rw [messageLoop_success (hfirst.parse _), messageLoop_success (hsecond.parse _)] at hloop
  obtain ⟨⟨calls, result', left'⟩, hcalls, hloop⟩ := bind_eq_ok.mp hloop
  obtain ⟨⟨more, result'', left''⟩, -, hcalls⟩ := bind_eq_ok.mp hcalls
  cases hcalls
  injection hloop with hloop
  have hcount := congrArg (fun r => r.1.length) hloop
  simp only [List.length_append, List.length_singleton, List.flatMap_singleton'] at hcount
  omega

/-- The bytes are decoded as at most one message, whose command is the one asked for. -/
def DecodedAlone (fresh : Bool) (m : Message) : Prop :=
  ∃ msgs, Decodes fresh m.encode msgs ∧ msgs.length ≤ 1 ∧ ∀ s ∈ msgs, s.cmd = m.command

/-- The first message is decoded, and a surplus piece without a space ends the loop. -/
theorem Message.decodedAlone_of_surplus (fresh : Bool) {m : Message}
    (h : ∀ piece ∈ m.surplus, space ∉ piece) : DecodedAlone fresh m := by
  obtain ⟨topic, content, tail, hframe, htail⟩ := m.encode_frame_surplus
  have hparse : parseMessage m.encode (if fresh then {} else {}) =
      .ok (.kSuccess, tail, ({} : Strings).fill m.command topic content) := by
    rw [ite_self]
    exact hframe.parse {}
  refine ⟨[({} : Strings).fill m.command topic content], ?_, le_refl _, ?_⟩
  · intro κ handle
    rw [messageLoop_success hparse]
    obtain ⟨-, rfl⟩ | ⟨piece, rest, hsome, hfirst⟩ := htail
    · rw [messageLoop_continue (parse_of_noLine (by decide) _)]
      exact ⟨.kContinue, [], by simp⟩
    · have hb : Malformed tail := ⟨piece, rest, hfirst, h piece hsome⟩
      rw [messageLoop_kError (hb.parse _)]
      exact ⟨.kError, tail, by simp⟩
  · intro s hs
    rw [List.mem_singleton.mp hs]
    rfl

/-- The receiver decodes nothing but the message exactly when the surplus piece, if there is one,
has no space. -/
theorem decoded_alone_iff (fresh : Bool) (m : Message) :
    DecodedAlone fresh m ↔ ∀ piece ∈ m.surplus, space ∉ piece := by
  obtain ⟨topic, content, tail, hframe, htail⟩ := m.encode_frame_surplus
  let s₁ : Strings := ({} : Strings).fill m.command topic content
  have hparse : parseMessage m.encode (if fresh then {} else {}) = .ok (.kSuccess, tail, s₁) := by
    rw [ite_self]
    exact hframe.parse {}
  refine ⟨?_, Message.decodedAlone_of_surplus fresh⟩
  rintro ⟨msgs, hmsgs, hlen, -⟩ piece hpiece hs
  obtain ⟨hnone, -⟩ | ⟨piece', rest, hsome, hfirst⟩ := htail
  · rw [hnone] at hpiece
    cases hpiece
  · rw [hsome] at hpiece
    cases hpiece
    rcases hfirst.frame_or_cut hs with hcut | ⟨cmd, topic', content', rest', hframe'⟩
    · obtain ⟨result, left, hloop⟩ := hmsgs fun s => [s]
      rw [messageLoop_success hparse, messageLoop_error (hcut.parse _)] at hloop
      cases hloop
    · have := hmsgs.two_le_length hframe hframe'
      omega

/-- Strings without CR LF leave no surplus. -/
theorem Message.surplus_of_separable {m : Message} (h : m.Separable) : m.surplus = none := by
  have hone : ∀ {b : Bytes}, ¬ HasCRLF b → splitMark CR LF b = [b] :=
    fun hb => splitMark_of_none (searchMark_eq_none_iff.mpr hb)
  have htwo : ∀ {topic content : Bytes}, ¬ HasCRLF topic → ¬ HasCRLF content →
      splitMark CR LF (topic ++ CR :: LF :: content) = [topic, content] := fun ht hc => by
    rw [splitMark_append_mark cr_ne_lf (searchMark_eq_none_iff.mpr ht), hone hc]
  cases m with
  | subscribe topic => rw [surplus, text, hone h]; rfl
  | unSubscribe topic => rw [surplus, text, hone h]; rfl
  | publish topic content => rw [surplus, text, htwo h.1 h.2]; rfl
  | makeMessage topic content => rw [surplus, text, htwo h.1 h.2]; rfl

/-- A message whose strings have no CR LF is decoded alone by both receivers. -/
theorem Message.Separable.decodedAlone {m : Message} (h : m.Separable) (fresh : Bool) :
    DecodedAlone fresh m := by
  refine m.decodedAlone_of_surplus fresh ?_
  rw [surplus_of_separable h]
  nofun

/-- A topic with `unsub b` on a line of its own makes the hub unsubscribe `b`, and a content with
a publication behind a line end makes the client see that publication too. -/
theorem topic_smuggles_a_command :
    ¬ DecodedAlone false (.subscribe [97, 13, 10, 117, 110, 115, 117, 98, 32, 98]) ∧
      HubServer.onMessage
          (PubSubClient.subscribe [97, 13, 10, 117, 110, 115, 117, 98, 32, 98]) =
        .ok ([.doSubscribe [97], .doUnSubscribe [98]], []) ∧
      ¬ DecodedAlone true
        (.makeMessage [97] [99, 13, 10, 112, 117, 98, 32, 98, 13, 10, 100]) := by
  have hsub : IsFrame (PubSubClient.subscribe [97, 13, 10, 117, 110, 115, 117, 98, 32, 98]) sub
      [97] none [117, 110, 115, 117, 98, 32, 98, 13, 10] :=
    .line (⟨rfl, by decide⟩ : FirstLine _ [115, 117, 98, 32, 97] _) ⟨rfl, by decide⟩ (by decide)
  have hunsub : IsFrame [117, 110, 115, 117, 98, 32, 98, 13, 10] unsub [98] none [] :=
    .line (⟨rfl, by decide⟩ : FirstLine _ [117, 110, 115, 117, 98, 32, 98] _) ⟨rfl, by decide⟩
      (by decide)
  refine ⟨?_, ?_, ?_⟩
  · rintro ⟨msgs, hmsgs, hlen, -⟩
    have := hmsgs.two_le_length hsub hunsub
    omega
  · rw [HubServer.onMessage, onMessage, messageLoop_success (hsub.parse _),
      messageLoop_success (hunsub.parse _), messageLoop_continue (parse_of_noLine (by decide) _)]
    rfl
  · rintro ⟨msgs, hmsgs, hlen, -⟩
    have hfirst : IsFrame (Message.makeMessage [97]
        [99, 13, 10, 112, 117, 98, 32, 98, 13, 10, 100]).encode pub [97] (some [99])
          [112, 117, 98, 32, 98, 13, 10, 100, 13, 10] :=
      .pub (⟨rfl, by decide⟩ : FirstLine _ [112, 117, 98, 32, 97] _) ⟨rfl, by decide⟩
        ⟨rfl, by decide⟩
    have hsecond : IsFrame [112, 117, 98, 32, 98, 13, 10, 100, 13, 10] pub [98] (some [100]) [] :=
      .pub (⟨rfl, by decide⟩ : FirstLine _ [112, 117, 98, 32, 98] _) ⟨rfl, by decide⟩
        ⟨rfl, by decide⟩
    have := hmsgs.two_le_length hfirst hsecond
    omega

end Summer.Hub
