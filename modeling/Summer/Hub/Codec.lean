import Summer.Basic
import Summer.Lib.Run
import Summer.Lib.Search
import Summer.Lib.Storage

/-!
# The publish/subscribe codec

`parseMessage` works on the unread bytes of a connection's input. A pointer into them
is an offset from `peek()`, and a search that finds nothing answers no pointer.
-/
namespace Summer.Hub

open Summer.Lib

def CR : UInt8 := 13
def LF : UInt8 := 10
def space : UInt8 := 32

/-- The command words `pub`, `sub` and `unsub`. -/
def pub : Bytes := [112, 117, 98]
def sub : Bytes := [115, 117, 98]
def unsub : Bytes := [117, 110, 115, 117, 98]

theorem cr_ne_lf : CR ≠ LF := by decide

inductive ParseResult where
  | kSuccess
  | kContinue
  | kError
  deriving DecidableEq, Repr

/-- The three strings a caller of `parseMessage` passes by pointer. -/
structure Strings where
  cmd : Bytes := []
  topic : Bytes := []
  content : Bytes := []
  deriving DecidableEq, Repr

/-! ## The buffer operations the parser uses -/

def findCRLF (message : Bytes) : Option Nat := searchMark CR LF message

/-- `findCRLF(start)`, which asserts that `start` lies in the unread region. -/
def findCRLFFrom (message : Bytes) (start : Nat) : Except Fault (Option Nat) := do
  ensure (start ≤ message.length) (.assertion .findCRLF)
  .ok ((searchMark CR LF (message.drop start)).map (start + ·))

/-- `std::string::assign(first, last)` on pointers into the unread region. -/
def assign (message : Bytes) (first : Nat) : Option Nat → Except Fault Bytes
  | none => .error .nullPointer
  | some last => do
    ensure (first ≤ last ∧ last ≤ message.length) .outOfRange
    .ok (slice message first last)

def retrieve (message : Bytes) : Option Nat → Except Fault Bytes
  | none => .error .nullPointer
  | some last => do
    ensure (last ≤ message.length) (.assertion .retrieve)
    .ok (message.drop last)

/-! ## The parser -/

/-- The result, the bytes left unread, and the strings as the caller finds them. -/
def parseMessage (message : Bytes) (s : Strings) :
    Except Fault (ParseResult × Bytes × Strings) :=
  match findCRLF message with
  | none => .ok (.kContinue, message, s)
  | some crlf =>
    let spacePos := (message.take crlf).idxOf space
    if spacePos ≠ crlf then do
      let cmd ← assign message 0 (some spacePos)
      let topic ← assign message (spacePos + 1) (some crlf)
      if cmd = pub then do
        let secCrlf ← findCRLFFrom message (crlf + 2)
        -- The source tests crlf here, which is not null, and goes on with secCrlf.
        let content ← assign message (crlf + 2) secCrlf
        let message ← retrieve message (secCrlf.map (· + 2))
        .ok (.kSuccess, message, ⟨cmd, topic, content⟩)
      else do
        let message ← retrieve message (some (crlf + 2))
        .ok (.kSuccess, message, { s with cmd := cmd, topic := topic })
    else .ok (.kError, message, s)

theorem parseMessage_noLine {m : Bytes} (h : searchMark CR LF m = none) (s : Strings) :
    parseMessage m s = .ok (.kContinue, m, s) := by
  simp only [parseMessage, findCRLF, h]

theorem parseMessage_noSpace {a : Bytes} (ha : searchMark CR LF a = none) (hs : space ∉ a)
    (rest : Bytes) (s : Strings) :
    parseMessage (a ++ CR :: LF :: rest) s = .ok (.kError, a ++ CR :: LF :: rest, s) := by
  have hsp : a.idxOf space = a.length := List.idxOf_eq_length hs
  simp only [parseMessage, findCRLF, searchMark_append_mark cr_ne_lf ha, List.take_left, hsp,
    ne_eq, not_true_eq_false, ↓reduceIte]

section Line

variable {w topic : Bytes} (hw : space ∉ w)
  (hl : searchMark CR LF (w ++ space :: topic) = none) (rest : Bytes) (s : Strings)

include hw hl

/-- Where the two pieces of a line with a space lie in the unread bytes. -/
theorem line_pieces :
    let m := (w ++ space :: topic) ++ CR :: LF :: rest
    findCRLF m = some (w.length + 1 + topic.length) ∧
      (m.take (w.length + 1 + topic.length)).idxOf space = w.length ∧
      assign m 0 (some w.length) = .ok w ∧
      assign m (w.length + 1) (some (w.length + 1 + topic.length)) = .ok topic ∧
      m.length = w.length + 1 + topic.length + 2 + rest.length ∧
      m.drop (w.length + 1 + topic.length + 2) = rest := by
  intro m
  have hlen : (w ++ space :: topic).length = w.length + 1 + topic.length := by
    simp only [List.length_append, List.length_cons]
    omega
  have hm : m.length = w.length + 1 + topic.length + 2 + rest.length := by
    simp only [m, List.length_append, List.length_cons]
    omega
  refine ⟨?_, ?_, ?_, ?_, hm, ?_⟩
  · rw [findCRLF, searchMark_append_mark cr_ne_lf hl, hlen]
  · rw [← hlen, List.take_left, List.idxOf_append_of_notMem hw, List.idxOf_cons_self, Nat.add_zero]
  · rw [assign, ensure_of ⟨by omega, by omega⟩]
    simp only [ok_bind, slice, m, List.append_assoc, List.take_left, List.drop_zero]
  · rw [assign, ensure_of ⟨by omega, by omega⟩]
    have h1 : m = ((w ++ [space]) ++ topic) ++ CR :: LF :: rest := by simp [m]
    have h2 : ((w ++ [space]) ++ topic).length = w.length + 1 + topic.length := by
      simp only [List.length_append, List.length_singleton]
    have h3 : (w ++ [space]).length = w.length + 1 := by simp
    rw [ok_bind, slice, h1, ← h2, List.take_left, ← h3, List.drop_left]
  · have h1 : m = ((w ++ space :: topic) ++ [CR, LF]) ++ rest := by simp [m]
    have h2 : ((w ++ space :: topic) ++ [CR, LF]).length = w.length + 1 + topic.length + 2 := by
      rw [List.length_append, hlen]
      rfl
    rw [h1, ← h2, List.drop_left]

/-- A line whose command is not `pub` is a whole message. -/
theorem parseMessage_line (hp : w ≠ pub) :
    parseMessage ((w ++ space :: topic) ++ CR :: LF :: rest) s =
      .ok (.kSuccess, rest, { s with cmd := w, topic := topic }) := by
  obtain ⟨h1, h2, h3, h4, h5, h6⟩ := line_pieces hw hl rest
  rw [parseMessage, h1]
  simp only [h2, h3, h4, ok_bind]
  rw [if_pos (by omega), if_neg hp, retrieve, ensure_of (by omega)]
  simp only [ok_bind, h6]

/-- A `pub` line takes its content up to the next terminator. -/
theorem parseMessage_pub (hp : w = pub) {content : Bytes}
    (hc : searchMark CR LF content = none) :
    parseMessage ((w ++ space :: topic) ++ CR :: LF :: (content ++ CR :: LF :: rest)) s =
      .ok (.kSuccess, rest, ⟨w, topic, content⟩) := by
  obtain ⟨h1, h2, h3, h4, h5, h6⟩ := line_pieces hw hl (content ++ CR :: LF :: rest)
  have hlen : (content ++ CR :: LF :: rest).length = content.length + 2 + rest.length := by
    simp only [List.length_append, List.length_cons]
    omega
  rw [hlen] at h5
  rw [parseMessage, h1]
  simp only [h2, h3, h4, ok_bind]
  rw [if_pos (by omega), if_pos hp, findCRLFFrom, ensure_of (by omega)]
  simp only [ok_bind, h6, searchMark_append_mark cr_ne_lf hc, Option.map_some, assign, retrieve]
  rw [ensure_of ⟨by omega, by omega⟩, ok_bind, ensure_of (by omega), ok_bind]
  have hcont : content ++ CR :: LF :: rest = (content ++ [CR, LF]) ++ rest := by simp
  have hclen : (content ++ [CR, LF]).length = content.length + 2 := List.length_append
  rw [slice_eq_take_drop, h6, List.take_left, Nat.add_assoc _ content.length 2,
    ← List.drop_drop, h6, hcont, ← hclen, List.drop_left]
  rfl

/-- With no second terminator the end of the content is a null pointer. -/
theorem parseMessage_pub_cut (hp : w = pub) (hr : searchMark CR LF rest = none) :
    parseMessage ((w ++ space :: topic) ++ CR :: LF :: rest) s = .error .nullPointer := by
  obtain ⟨h1, h2, h3, h4, h5, h6⟩ := line_pieces hw hl rest
  rw [parseMessage, h1]
  simp only [h2, h3, h4, ok_bind]
  rw [if_pos (by omega), if_pos hp, findCRLFFrom, ensure_of (by omega)]
  simp only [ok_bind, h6, hr]
  rfl

end Line

/-- Everything `parseMessage` can do, by where the terminators and the first space fall. -/
theorem parseMessage_cases (m : Bytes) (s : Strings) :
    (searchMark CR LF m = none ∧ parseMessage m s = .ok (.kContinue, m, s)) ∨
    (∃ a rest, m = a ++ CR :: LF :: rest ∧ searchMark CR LF a = none ∧ space ∉ a ∧
      parseMessage m s = .ok (.kError, m, s)) ∨
    (∃ w topic rest, m = (w ++ space :: topic) ++ CR :: LF :: rest ∧ space ∉ w ∧
      searchMark CR LF (w ++ space :: topic) = none ∧ w ≠ pub ∧
      parseMessage m s = .ok (.kSuccess, rest, { s with cmd := w, topic := topic })) ∨
    (∃ topic content rest,
      m = (pub ++ space :: topic) ++ CR :: LF :: (content ++ CR :: LF :: rest) ∧
      searchMark CR LF (pub ++ space :: topic) = none ∧ searchMark CR LF content = none ∧
      parseMessage m s = .ok (.kSuccess, rest, ⟨pub, topic, content⟩)) ∨
    ∃ topic rest, m = (pub ++ space :: topic) ++ CR :: LF :: rest ∧
      searchMark CR LF (pub ++ space :: topic) = none ∧ searchMark CR LF rest = none ∧
      parseMessage m s = .error .nullPointer := by
  rcases searchMark_cases CR LF m with h | ⟨a, rest, rfl, ha⟩
  · exact .inl ⟨h, parseMessage_noLine h s⟩
  by_cases hs : space ∈ a
  · obtain ⟨w, topic, rfl, hw⟩ := List.eq_append_cons_of_mem hs
    by_cases hp : w = pub
    · subst hp
      rcases searchMark_cases CR LF rest with hr | ⟨content, rest, rfl, hc⟩
      · exact .inr (.inr (.inr (.inr ⟨topic, rest, rfl, ha, hr,
          parseMessage_pub_cut hw ha rest s rfl hr⟩)))
      · exact .inr (.inr (.inr (.inl ⟨topic, content, rest, rfl, ha, hc,
          parseMessage_pub hw ha rest s rfl hc⟩)))
    · exact .inr (.inr (.inl ⟨w, topic, rest, rfl, hw, ha, hp,
        parseMessage_line hw ha rest s hp⟩))
  · exact .inr (.inl ⟨a, rest, rfl, ha, hs, parseMessage_noSpace ha hs rest s⟩)

/-- A success takes at least the space and the terminator out of the input. -/
theorem parseMessage_shrinks {m m' : Bytes} {s s' : Strings}
    (h : parseMessage m s = .ok (.kSuccess, m', s')) : m'.length + 3 ≤ m.length := by
  rcases parseMessage_cases m s with ⟨-, hp⟩ | ⟨a, rest, -, -, -, hp⟩ |
    ⟨w, topic, rest, rfl, -, -, -, hp⟩ | ⟨topic, content, rest, rfl, -, -, hp⟩ |
    ⟨topic, rest, -, -, -, hp⟩
  all_goals
    rw [hp] at h
    cases h
  all_goals
    simp only [List.length_append, List.length_cons]
    omega

end Summer.Hub
