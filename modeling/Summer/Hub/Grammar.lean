import Summer.Hub.Protocol

/-!
# The grammar of the message stream

A message starts with a line, which ends at the first CR LF; the text before the first space
of the line is its command. A `pub` line is followed by its content, up to the next CR LF; any
other line is a whole message. The grammar is stated on the bytes alone, and `parseMessage` is
compared with it.
-/
namespace Summer.Hub

open Summer.Lib

/-- `line` is the first line of `m`, and `rest` is what follows its terminator. -/
structure FirstLine (m line rest : Bytes) : Prop where
  split : m = line ++ CR :: LF :: rest
  plain : ¬ HasCRLF line

/-- The command of a line is the text before its first space, the topic what is behind it. -/
structure Command (line cmd topic : Bytes) : Prop where
  split : line = cmd ++ space :: topic
  word : space ∉ cmd

/-- `m` starts with a complete message, and `rest` is what follows it. -/
inductive IsFrame (m : Bytes) : (cmd topic : Bytes) → Option Bytes → (rest : Bytes) → Prop
  | line {line cmd topic rest : Bytes} (first : FirstLine m line rest)
      (command : Command line cmd topic) (other : cmd ≠ pub) : IsFrame m cmd topic none rest
  | pub {line topic body content rest : Bytes} (first : FirstLine m line body)
      (command : Command line Hub.pub topic) (second : FirstLine body content rest) :
      IsFrame m Hub.pub topic (some content) rest

/-- The first line has no space. -/
def Malformed (m : Bytes) : Prop := ∃ line rest, FirstLine m line rest ∧ space ∉ line

/-- The first line is a `pub` line, and no terminator follows it. -/
def CutPub (m : Bytes) : Prop :=
  ∃ line topic rest, FirstLine m line rest ∧ Command line pub topic ∧ ¬ HasCRLF rest

/-- The strings of a message, in the place of those the caller passed. -/
def Strings.fill (s : Strings) (cmd topic : Bytes) (content : Option Bytes) : Strings :=
  ⟨cmd, topic, content.getD s.content⟩

/-! ## What the parser does with each form of input -/

section Forms

variable {m line cmd topic rest : Bytes} {content : Option Bytes}

theorem FirstLine.unmarked (h : FirstLine m line rest) : searchMark CR LF line = none :=
  searchMark_eq_none_iff.mpr h.plain

/-- Bytes behind a line do not move its end. -/
theorem FirstLine.append (h : FirstLine m line rest) (s : Bytes) :
    FirstLine (m ++ s) line (rest ++ s) where
  split := by rw [h.split, List.append_assoc, List.cons_append, List.cons_append]
  plain := h.plain

theorem IsFrame.append (h : IsFrame m cmd topic content rest) (s : Bytes) :
    IsFrame (m ++ s) cmd topic content (rest ++ s) := by
  cases h with
  | line first command other => exact .line (first.append s) command other
  | pub first command second => exact .pub (first.append s) command (second.append s)

theorem Malformed.append (h : Malformed m) (s : Bytes) : Malformed (m ++ s) := by
  obtain ⟨line, rest, first, hs⟩ := h
  exact ⟨line, rest ++ s, first.append s, hs⟩

theorem IsFrame.parse (h : IsFrame m cmd topic content rest) (s : Strings) :
    parseMessage m s = .ok (.kSuccess, rest, s.fill cmd topic content) := by
  cases h with
  | line first command other =>
    have hl := first.unmarked
    rw [first.split, command.split]
    rw [command.split] at hl
    exact parseMessage_line command.word hl rest s other
  | pub first command second =>
    have hl := first.unmarked
    rw [first.split, second.split, command.split]
    rw [command.split] at hl
    exact parseMessage_pub command.word hl rest s rfl second.unmarked

theorem Malformed.parse (h : Malformed m) (s : Strings) :
    parseMessage m s = .ok (.kError, m, s) := by
  obtain ⟨line, rest, first, hs⟩ := h
  rw [first.split]
  exact parseMessage_noSpace first.unmarked hs rest s

theorem CutPub.parse (h : CutPub m) (s : Strings) : parseMessage m s = .error .nullPointer := by
  obtain ⟨line, topic, rest, first, command, hr⟩ := h
  have hl := first.unmarked
  rw [first.split, command.split]
  rw [command.split] at hl
  exact parseMessage_pub_cut command.word hl rest s rfl (searchMark_eq_none_iff.mpr hr)

theorem parse_of_noLine (h : ¬ HasCRLF m) (s : Strings) :
    parseMessage m s = .ok (.kContinue, m, s) :=
  parseMessage_noLine (searchMark_eq_none_iff.mpr h) s

/-- Every input has one of the four forms. -/
theorem forms (m : Bytes) :
    ¬ HasCRLF m ∨ Malformed m ∨ CutPub m ∨
      ∃ cmd topic content rest, IsFrame m cmd topic content rest := by
  have hplain : ∀ {b : Bytes}, searchMark CR LF b = none → ¬ HasCRLF b :=
    searchMark_eq_none_iff.mp
  have hpub : space ∉ pub := by decide
  rcases parseMessage_cases m {} with ⟨h, -⟩ | ⟨a, rest, rfl, ha, hs, -⟩ |
    ⟨w, topic, rest, rfl, hw, hl, hp, -⟩ | ⟨topic, content, rest, rfl, hl, hc, -⟩ |
    ⟨topic, rest, rfl, hl, hr, -⟩
  · exact .inl (hplain h)
  · exact .inr (.inl ⟨a, rest, ⟨rfl, hplain ha⟩, hs⟩)
  · exact .inr (.inr (.inr ⟨w, topic, none, rest,
      .line ⟨rfl, hplain hl⟩ ⟨rfl, hw⟩ hp⟩))
  · exact .inr (.inr (.inr ⟨pub, topic, some content, rest,
      .pub ⟨rfl, hplain hl⟩ ⟨rfl, hpub⟩ ⟨rfl, hplain hc⟩⟩))
  · exact .inr (.inr (.inl ⟨_, topic, rest, ⟨rfl, hplain hl⟩, ⟨rfl, hpub⟩, hplain hr⟩))

/-- The answer tells the form. -/
theorem form_of_answer {s s' : Strings} {result : ParseResult} {m' : Bytes}
    (hp : parseMessage m s = .ok (result, m', s')) :
    match result with
    | .kContinue => ¬ HasCRLF m ∧ m' = m
    | .kError => Malformed m ∧ m' = m
    | .kSuccess => ∃ cmd topic content, IsFrame m cmd topic content m' ∧
        s' = s.fill cmd topic content := by
  rcases forms m with hl | hb | hc | ⟨cmd, topic, content, rest, hf⟩
  · rw [parse_of_noLine hl] at hp
    cases hp
    exact ⟨hl, rfl⟩
  · rw [hb.parse] at hp
    cases hp
    exact ⟨hb, rfl⟩
  · rw [hc.parse] at hp
    cases hp
  · rw [hf.parse] at hp
    cases hp
    exact ⟨cmd, topic, content, hf, rfl⟩

end Forms

/-! ## Sequences of messages -/

/-- `m` starts with `n` complete messages, and `tail` is what follows them. -/
inductive Messages : Nat → (m tail : Bytes) → Prop
  | nil (m : Bytes) : Messages 0 m m
  | cons {n : Nat} {m cmd topic rest tail : Bytes} {content : Option Bytes}
      (frame : IsFrame m cmd topic content rest) (messages : Messages n rest tail) :
      Messages (n + 1) m tail

/-- After some complete messages there is a line without a space. -/
def ReachesMalformed (m : Bytes) : Prop := ∃ n tail, Messages n m tail ∧ Malformed tail

/-- After some complete messages there is a `pub` line without its content. -/
def ReachesCutPub (m : Bytes) : Prop := ∃ n tail, Messages n m tail ∧ CutPub tail

section Sequences

variable {m tail rest : Bytes} {n k : Nat}

theorem IsFrame.length_le {cmd topic : Bytes} {content : Option Bytes}
    (h : IsFrame m cmd topic content rest) : rest.length + 3 ≤ m.length :=
  parseMessage_shrinks (h.parse {})

theorem Messages.length_le (h : Messages n m tail) : 3 * n + tail.length ≤ m.length := by
  induction h with
  | nil m => omega
  | cons frame _ ih =>
    have := frame.length_le
    omega

theorem Messages.append (h : Messages n m tail) (s : Bytes) : Messages n (m ++ s) (tail ++ s) := by
  induction h with
  | nil m => exact .nil _
  | cons frame _ ih => exact .cons (frame.append s) ih

theorem Messages.trans (h : Messages n m rest) (h' : Messages k rest tail) :
    Messages (n + k) m tail := by
  induction h with
  | nil m =>
    rw [Nat.zero_add]
    exact h'
  | cons frame _ ih =>
    rw [Nat.add_right_comm]
    exact .cons frame (ih h')

/-- Every input is some complete messages and a tail that does not start with one. -/
theorem exists_messages (m : Bytes) :
    ∃ n tail, Messages n m tail ∧ (¬ HasCRLF tail ∨ Malformed tail ∨ CutPub tail) := by
  induction hlen : m.length using Nat.strong_induction_on generalizing m with
  | _ l ih =>
    rcases forms m with hl | hb | hc | ⟨cmd, topic, content, rest, hf⟩
    · exact ⟨0, m, .nil m, .inl hl⟩
    · exact ⟨0, m, .nil m, .inr (.inl hb)⟩
    · exact ⟨0, m, .nil m, .inr (.inr hc)⟩
    · have hlt := hf.length_le
      obtain ⟨n, tail, hm, ht⟩ := ih rest.length (by omega) rest rfl
      exact ⟨n + 1, tail, .cons hf hm, ht⟩

end Sequences

/-! ## The parser decides the grammar -/

/-- What the grammar asks of `parseMessage` on `m`. A pointer outside the unread bytes is a
fault of `assign` or `retrieve`. -/
structure FollowsGrammar (m : Bytes) (s : Strings) : Prop where
  inside : ∃ answer, parseMessage m s = .ok answer
  continues : (∃ m' s', parseMessage m s = .ok (.kContinue, m', s')) ↔ ¬ HasCRLF m ∨ CutPub m
  errs : (∃ m' s', parseMessage m s = .ok (.kError, m', s')) ↔ Malformed m
  succeeds : (∃ m' s', parseMessage m s = .ok (.kSuccess, m', s')) ↔
    ¬ (¬ HasCRLF m ∨ CutPub m) ∧ ¬ Malformed m
  pieces : ∀ rest s', parseMessage m s = .ok (.kSuccess, rest, s') ↔
    ∃ cmd topic content, IsFrame m cmd topic content rest ∧ s' = s.fill cmd topic content
  unchanged : ∀ result m' s', parseMessage m s = .ok (result, m', s') → result ≠ .kSuccess →
    m' = m

theorem followsGrammar_of_not_cutPub {m : Bytes} (h : ¬ CutPub m) (s : Strings) :
    FollowsGrammar m s where
  inside := by
    rcases forms m with hl | hb | hc | ⟨cmd, topic, content, rest, hf⟩
    · exact ⟨_, parse_of_noLine hl s⟩
    · exact ⟨_, hb.parse s⟩
    · exact absurd hc h
    · exact ⟨_, hf.parse s⟩
  continues := by
    constructor
    · rintro ⟨m', s', hp⟩
      exact .inl (form_of_answer hp).1
    · intro hl
      exact ⟨m, s, parse_of_noLine (hl.resolve_right h) s⟩
  errs := by
    constructor
    · rintro ⟨m', s', hp⟩
      exact (form_of_answer hp).1
    · intro hb
      exact ⟨m, s, hb.parse s⟩
  succeeds := by
    constructor
    · rintro ⟨m', s', hp⟩
      obtain ⟨cmd, topic, content, hf, -⟩ := form_of_answer hp
      refine ⟨?_, ?_⟩
      · rintro (hl | hc)
        · rw [parse_of_noLine hl] at hp
          cases hp
        · exact h hc
      · intro hb
        rw [hb.parse] at hp
        cases hp
    · rintro ⟨hl, hb⟩
      obtain ⟨hl, -⟩ := not_or.mp hl
      rcases forms m with hl' | hb' | hc | ⟨cmd, topic, content, rest, hf⟩
      · exact absurd hl' hl
      · exact absurd hb' hb
      · exact absurd hc h
      · exact ⟨_, _, hf.parse s⟩
  pieces := by
    intro rest s'
    constructor
    · exact form_of_answer
    · rintro ⟨cmd, topic, content, hf, rfl⟩
      exact hf.parse s
  unchanged := by
    intro result m' s' hp hne
    have hform := form_of_answer hp
    cases result with
    | kSuccess => exact absurd rfl hne
    | kContinue => exact hform.2
    | kError => exact hform.2

/-- `parseMessage` follows the grammar on every input but a `pub` line that is still waiting for
its content. -/
theorem parseMessage_follows_grammar_iff (m : Bytes) (s : Strings) :
    FollowsGrammar m s ↔ ¬ CutPub m := by
  constructor
  · intro h hc
    obtain ⟨answer, hp⟩ := h.inside
    rw [hc.parse] at hp
    cases hp
  · exact fun h => followsGrammar_of_not_cutPub h s

/-- The line `pub t` alone. -/
theorem pub_line_without_content :
    ¬ FollowsGrammar [112, 117, 98, 32, 116, 13, 10] {} := by
  intro h
  obtain ⟨answer, hp⟩ := h.inside
  have hnull : faultOf (parseMessage [112, 117, 98, 32, 116, 13, 10] {}) = some .nullPointer := by
    decide
  rw [hp] at hnull
  cases hnull

/-! ## More input -/

/-- A success and an error stay what they are when more bytes arrive. -/
theorem verdict_stable (m more : Bytes) (s : Strings) :
    (∀ rest s', parseMessage m s = .ok (.kSuccess, rest, s') →
      parseMessage (m ++ more) s = .ok (.kSuccess, rest ++ more, s')) ∧
    ∀ m' s', parseMessage m s = .ok (.kError, m', s') →
      parseMessage (m ++ more) s = .ok (.kError, m ++ more, s) := by
  constructor
  · intro rest s' hp
    obtain ⟨cmd, topic, content, hf, rfl⟩ := form_of_answer hp
    exact (hf.append more).parse s
  · intro m' s' hp
    obtain ⟨hb, -⟩ := form_of_answer hp
    exact (hb.append more).parse s

/-- A `sub` line whose successor ends in CR, before an LF arrives; and a line without a space. -/
theorem verdict_stable_sample :
    parseMessage ([115, 117, 98, 32, 97, 13, 10, 13] ++ [10]) {} =
        .ok (.kSuccess, [13, 10], ⟨sub, [97], []⟩) ∧
      parseMessage ([120, 13, 10] ++ [32, 13, 10]) {} =
        .ok (.kError, [120, 13, 10, 32, 13, 10], {}) := by
  constructor
  · exact (verdict_stable [115, 117, 98, 32, 97, 13, 10, 13] [10] {}).1 [13] _ rfl
  · exact (verdict_stable [120, 13, 10] [32, 13, 10] {}).2 [120, 13, 10] {} rfl

end Summer.Hub
