import Summer.Hub.Grammar

/-!
# The message loops end

Each turn of a message loop that goes on has parsed a complete message, so the loop makes no
more turns than the input has messages, and stops in front of what is not one.
-/
namespace Summer.Hub

open Summer.Lib

variable {κ : Type} {fresh : Bool} {handle : Strings → List κ} {m tail : Bytes} {n : Nat}

/-! ## The loop on a sequence of messages -/

/-- The loop dispatches the messages and goes on with what follows them. -/
theorem messageLoop_messages (fresh : Bool) (handle : Strings → List κ) (h : Messages n m tail)
    (s : Strings) : ∃ calls s', messageLoop fresh handle m s = (do
      let (more, result, rest) ← messageLoop fresh handle tail s'
      .ok (calls ++ more, result, rest)) := by
  induction h generalizing s with
  | nil m =>
    refine ⟨[], s, ?_⟩
    cases messageLoop fresh handle m s <;> rfl
  | @cons n m cmd topic rest tail content frame _ ih =>
    let s₁ := (if fresh then {} else s : Strings).fill cmd topic content
    obtain ⟨calls, s', hrest⟩ := ih s₁
    refine ⟨handle s₁ ++ calls, s', ?_⟩
    rw [messageLoop_success (frame.parse _), hrest]
    cases messageLoop fresh handle tail s' with
    | error f => rfl
    | ok answer => simp only [ok_bind, List.append_assoc, s₁]

theorem messageLoop_noLine (fresh : Bool) (handle : Strings → List κ) (h : Messages n m tail)
    (hl : ¬ HasCRLF tail) (s : Strings) :
    ∃ calls, messageLoop fresh handle m s = .ok (calls, .kContinue, tail) := by
  obtain ⟨calls, s', hloop⟩ := messageLoop_messages fresh handle h s
  rw [messageLoop_continue (parse_of_noLine hl _)] at hloop
  exact ⟨_, hloop⟩

theorem messageLoop_malformed (fresh : Bool) (handle : Strings → List κ) (h : Messages n m tail)
    (hb : Malformed tail) (s : Strings) :
    ∃ calls, messageLoop fresh handle m s = .ok (calls, .kError, tail) := by
  obtain ⟨calls, s', hloop⟩ := messageLoop_messages fresh handle h s
  rw [messageLoop_kError (hb.parse _)] at hloop
  exact ⟨_, hloop⟩

theorem messageLoop_cutPub (h : Messages n m tail) (hc : CutPub tail) (s : Strings) :
    messageLoop fresh handle m s = .error .nullPointer := by
  obtain ⟨calls, s', hloop⟩ := messageLoop_messages fresh handle h s
  rw [messageLoop_error (hc.parse _)] at hloop
  exact hloop

/-- How the loop ends is decided by what follows the complete messages. -/
theorem messageLoop_ends (fresh : Bool) (handle : Strings → List κ) (m : Bytes) (s : Strings) :
    ∃ n tail, Messages n m tail ∧
      ((¬ HasCRLF tail ∧ ∃ calls, messageLoop fresh handle m s = .ok (calls, .kContinue, tail)) ∨
        (Malformed tail ∧ ∃ calls, messageLoop fresh handle m s = .ok (calls, .kError, tail)) ∨
        (CutPub tail ∧ messageLoop fresh handle m s = .error .nullPointer)) := by
  obtain ⟨n, tail, hm, hl | hb | hc⟩ := exists_messages m
  · exact ⟨n, tail, hm, .inl ⟨hl, messageLoop_noLine fresh handle hm hl s⟩⟩
  · exact ⟨n, tail, hm, .inr (.inl ⟨hb, messageLoop_malformed fresh handle hm hb s⟩)⟩
  · exact ⟨n, tail, hm, .inr (.inr ⟨hc, messageLoop_cutPub hm hc s⟩)⟩

/-! ## The number of turns -/

/-- The loop, at the test of its condition, has gone round `n` times, each time with a success:
from unread bytes and the strings of the caller to unread bytes and strings. -/
inductive Turns (fresh : Bool) : Nat → Bytes × Strings → Bytes × Strings → Prop
  | start (x : Bytes × Strings) : Turns fresh 0 x x
  | turn {n : Nat} {m m' : Bytes} {s s' : Strings} {y : Bytes × Strings}
      (parse : parseMessage m (if fresh then {} else s) = .ok (.kSuccess, m', s'))
      (turns : Turns fresh n (m', s') y) : Turns fresh (n + 1) (m, s) y

theorem Turns.length_le {x y : Bytes × Strings} (h : Turns fresh n x y) :
    3 * n + y.1.length ≤ x.1.length := by
  induction h with
  | start x => omega
  | turn parse _ ih =>
    have := parseMessage_shrinks parse
    dsimp only at ih ⊢
    omega

/-- The turns go through the messages of the input. -/
theorem Messages.turns (h : Messages n m tail) (fresh : Bool) (s : Strings) :
    ∃ s', Turns fresh n (m, s) (tail, s') := by
  induction h generalizing s with
  | nil m => exact ⟨s, .start _⟩
  | cons frame _ ih =>
    obtain ⟨s', h⟩ := ih _
    exact ⟨s', .turn (frame.parse _) h⟩

/-- The loop on `m` goes round `n` times and stops with `left` unread: the next parse is not a
success, and if it is not an error either then `left` does not start with a complete message
other than `pub`. -/
structure StopsAfter (fresh : Bool) (m : Bytes) (n : Nat) (left : Bytes) (s : Strings) : Prop where
  turns : Turns fresh n (m, {}) (left, s)
  last : ∀ m' s', parseMessage left (if fresh then {} else s) ≠ .ok (.kSuccess, m', s')
  incomplete : (∀ m' s', parseMessage left (if fresh then {} else s) ≠ .ok (.kError, m', s')) →
    ∀ cmd topic rest, ¬ IsFrame left cmd topic none rest

/-- What the callback leaves unread, unless it stops on a `pub` line without its content. -/
def Leaves (callback : Bytes → Except Fault (List κ × Bytes)) (m left : Bytes) : Prop :=
  (∃ calls, callback m = .ok (calls, left)) ∨ (callback m = .error .nullPointer ∧ CutPub left)

theorem onMessage_ends (fresh : Bool) (handle : Strings → List κ) (onError : List κ) (m : Bytes) :
    ∃ n left s, StopsAfter fresh m n left s ∧ n ≤ m.length / 3 ∧
      Leaves (onMessage fresh handle onError) m left := by
  obtain ⟨n, left, hm, htail⟩ := messageLoop_ends fresh handle m {}
  obtain ⟨s, hturns⟩ := hm.turns fresh {}
  have hnot : ∀ m' s', parseMessage left (if fresh then {} else s) ≠ .ok (.kSuccess, m', s') := by
    intro m' s' hp
    rcases htail with ⟨hl, -⟩ | ⟨hb, -⟩ | ⟨hc, -⟩
    · rw [parse_of_noLine hl] at hp
      cases hp
    · rw [hb.parse] at hp
      cases hp
    · rw [hc.parse] at hp
      cases hp
  refine ⟨n, left, s, ⟨hturns, hnot, ?_⟩, ?_, ?_⟩
  · intro _ cmd topic rest hf
    exact hnot _ _ (hf.parse _)
  · have := hm.length_le
    omega
  · rcases htail with ⟨-, calls, hloop⟩ | ⟨-, calls, hloop⟩ | ⟨hc, hloop⟩
    · left
      exact ⟨_, by rw [onMessage, hloop]; rfl⟩
    · left
      exact ⟨_, by rw [onMessage, hloop]; rfl⟩
    · right
      exact ⟨by rw [onMessage, hloop]; rfl, hc⟩

/-- Both loops end on every input, after at most a third as many successful parses as there are
unread bytes. -/
theorem message_loops_end (m : Bytes) :
    (∀ fresh n x, Turns fresh n (m, {}) x → n ≤ m.length / 3) ∧
    (∃ n left s, StopsAfter false m n left s ∧ n ≤ m.length / 3 ∧
      Leaves HubServer.onMessage m left) ∧
    ∀ subscribeCallback, ∃ n left s, StopsAfter true m n left s ∧ n ≤ m.length / 3 ∧
      Leaves (PubSubClient.onMessage subscribeCallback) m left := by
  refine ⟨?_, ?_, ?_⟩
  · intro fresh n x h
    have := h.length_le
    dsimp only at this
    omega
  · exact onMessage_ends false HubServer.dispatch [] m
  · intro subscribeCallback
    exact onMessage_ends true (PubSubClient.dispatch subscribeCallback) [.shutdown] m

end Summer.Hub
