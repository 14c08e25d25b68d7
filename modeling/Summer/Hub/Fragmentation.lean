import Summer.Hub.MessageLoop

/-!
# Fragmentation of a stream of frames

A stream of frames arrives in chunks. The messages dispatched are those of the frames,
however the stream is cut, as long as no chunk ends between the two terminators of a
`pub` frame. There the parser follows a null pointer.
-/
namespace Summer.Hub

open Summer.Lib

inductive Frame where
  | pub (topic content : Bytes)
  | sub (topic : Bytes)
  | unsub (topic : Bytes)
  deriving DecidableEq, Repr

namespace Frame

def crlf : Bytes := [CR, LF]

/-- The command line, with its terminator. -/
def line : Frame → Bytes
  | pub topic _ => (Hub.pub ++ space :: topic) ++ crlf
  | sub topic => (Hub.sub ++ space :: topic) ++ crlf
  | unsub topic => (Hub.unsub ++ space :: topic) ++ crlf

/-- What follows the command line. -/
def body : Frame → Bytes
  | pub _ content => content ++ crlf
  | _ => []

def encode (f : Frame) : Bytes := f.line ++ f.body

def encodeAll (fs : List Frame) : Bytes := fs.flatMap encode

/-- A string without a terminator inside. -/
def Plain (b : Bytes) : Prop := searchMark CR LF b = none

instance (b : Bytes) : Decidable (Plain b) := inferInstanceAs (Decidable (_ = _))

def WellFormed : Frame → Prop
  | pub topic content => Plain topic ∧ Plain content
  | sub topic => Plain topic
  | unsub topic => Plain topic

instance : DecidablePred WellFormed := fun f => by
  cases f <;> unfold WellFormed <;> infer_instance

/-- The strings `parseMessage` leaves behind for the frame. -/
def strings (s : Strings) : Frame → Strings
  | pub topic content => ⟨Hub.pub, topic, content⟩
  | sub topic => { s with cmd := Hub.sub, topic := topic }
  | unsub topic => { s with cmd := Hub.unsub, topic := topic }

/-- A command word and a space in front of a topic put no terminator into it. -/
theorem plain_line {topic : Bytes} (h : Plain topic) :
    Plain (Hub.pub ++ space :: topic) ∧ Plain (Hub.sub ++ space :: topic) ∧
      Plain (Hub.unsub ++ space :: topic) := by
  have hs : Plain (space :: topic) := by
    rw [Plain, searchMark_cons_of_ne (by decide), show searchMark CR LF topic = none from h]
    rfl
  have hstep : ∀ {a : UInt8} {b : Bytes}, a ≠ CR → Plain b → Plain (a :: b) := by
    intro a b ha hb
    rw [Plain, searchMark_cons_of_ne ha, show searchMark CR LF b = none from hb]
    rfl
  refine ⟨?_, ?_, ?_⟩
  · exact hstep (by decide) (hstep (by decide) (hstep (by decide) hs))
  · exact hstep (by decide) (hstep (by decide) (hstep (by decide) hs))
  · exact hstep (by decide) (hstep (by decide) (hstep (by decide) (hstep (by decide)
      (hstep (by decide) hs))))

/-- A whole frame is parsed as itself, whatever follows it. -/
theorem parse_encode {f : Frame} (h : f.WellFormed) (rest : Bytes) (s : Strings) :
    parseMessage (f.encode ++ rest) s = .ok (.kSuccess, rest, f.strings s) := by
  cases f with
  | pub topic content =>
    have hp := parseMessage_pub (w := Hub.pub) (by decide) (plain_line h.1).1 rest s rfl h.2
    simpa [encode, line, body, crlf, strings] using hp
  | sub topic =>
    have hp := parseMessage_line (w := Hub.sub) (by decide) (plain_line h).2.1 rest s (by decide)
    simpa [encode, line, body, crlf, strings] using hp
  | unsub topic =>
    have hp := parseMessage_line (w := Hub.unsub) (by decide) (plain_line h).2.2 rest s (by decide)
    simpa [encode, line, body, crlf, strings] using hp

/-- An unfinished command line. -/
theorem parse_partial_line {f : Frame} (h : f.WellFormed) {p : Bytes} (hp : p <+: f.line)
    (hlt : p.length < f.line.length) (s : Strings) :
    parseMessage p s = .ok (.kContinue, p, s) := by
  refine parseMessage_noLine ?_ s
  have hlen : ∀ {w : Bytes}, p.length < (w ++ crlf).length → p.length < w.length + 2 := by
    intro w hw
    rwa [List.length_append] at hw
  cases f with
  | pub topic content => exact searchMark_none_of_lt cr_ne_lf (plain_line h.1).1 hp (hlen hlt)
  | sub topic => exact searchMark_none_of_lt cr_ne_lf (plain_line h).2.1 hp (hlen hlt)
  | unsub topic => exact searchMark_none_of_lt cr_ne_lf (plain_line h).2.2 hp (hlen hlt)

/-- A complete command line with an unfinished second line. -/
theorem parse_partial_body {f : Frame} (h : f.WellFormed) {q : Bytes} (hq : q <+: f.body)
    (hlt : q.length < f.body.length) (s : Strings) :
    parseMessage (f.line ++ q) s = .error .nullPointer := by
  cases f with
  | pub topic content =>
    have hlen : q.length < content.length + 2 := by
      rwa [body, List.length_append] at hlt
    have hr := searchMark_none_of_lt cr_ne_lf h.2 hq hlen
    have hp := parseMessage_pub_cut (w := Hub.pub) (by decide) (plain_line h.1).1 q s rfl hr
    simpa [line, crlf] using hp
  | sub topic => cases hlt
  | unsub topic => cases hlt

end Frame

open Hub.Frame

/-! ## Cutting the stream -/

/-- The frames complete within the first `n` bytes. -/
def complete : List Frame → Nat → List Frame
  | [], _ => []
  | f :: fs, n => if n < f.encode.length then [] else f :: complete fs (n - f.encode.length)

/-- The frames not complete within the first `n` bytes. -/
def left : List Frame → Nat → List Frame
  | [], _ => []
  | f :: fs, n => if n < f.encode.length then f :: fs else left fs (n - f.encode.length)

/-- The bytes of the frame that position `n` cuts. -/
def unfinished : List Frame → Nat → Bytes
  | [], _ => []
  | f :: fs, n =>
    if n < f.encode.length then f.encode.take n else unfinished fs (n - f.encode.length)

/-- Position `n` lies behind the command line of a `pub` frame and before its end. -/
def cutInside : List Frame → Nat → Bool
  | [], _ => false
  | f :: fs, n =>
    if n < f.encode.length then decide (f.line.length ≤ n) else cutInside fs (n - f.encode.length)

/-- The positions at which the chunks end, the first one starting at `n`. -/
def cuts : Nat → List Bytes → List Nat
  | _, [] => []
  | n, c :: cs => (n + c.length) :: cuts (n + c.length) cs

theorem Frame.encode_pos (f : Frame) : 0 < f.encode.length := by
  cases f <;> simp [Frame.encode, Frame.line, Hub.pub, Hub.sub, Hub.unsub]

theorem encodeAll_cons (f : Frame) (fs : List Frame) :
    encodeAll (f :: fs) = f.encode ++ encodeAll fs := rfl

theorem complete_append_left (fs : List Frame) (n : Nat) : complete fs n ++ left fs n = fs := by
  induction fs generalizing n with
  | nil => rfl
  | cons f fs ih =>
    simp only [complete, left]
    split
    · rfl
    · rw [List.cons_append, ih]

theorem left_subset (fs : List Frame) (n : Nat) : ∀ f ∈ left fs n, f ∈ fs := by
  intro f hf
  rw [← complete_append_left fs n]
  exact List.mem_append_right _ hf

/-- Nothing left is complete in the bytes that are unfinished. -/
theorem complete_left (fs : List Frame) (n : Nat) :
    complete (left fs n) (unfinished fs n).length = [] := by
  induction fs generalizing n with
  | nil => rfl
  | cons f fs ih =>
    by_cases h : n < f.encode.length
    · simp only [left, unfinished, if_pos h, complete, List.length_take]
      exact if_pos (by omega)
    · simp only [left, unfinished, if_neg h]
      exact ih _

theorem take_encodeAll (fs : List Frame) (n : Nat) :
    (encodeAll fs).take n = encodeAll (complete fs n) ++ unfinished fs n := by
  induction fs generalizing n with
  | nil => simp [encodeAll, complete, unfinished]
  | cons f fs ih =>
    simp only [complete, unfinished, encodeAll_cons]
    by_cases h : n < f.encode.length
    · rw [if_pos h, if_pos h, List.take_append_of_le_length (Nat.le_of_lt h)]
      rfl
    · rw [if_neg h, if_neg h, List.take_append, List.take_of_length_le (Nat.le_of_not_lt h), ih,
        encodeAll_cons, List.append_assoc]

/-- What follows the bytes taken completes the unfinished ones to the frames left. -/
theorem unfinished_append (fs : List Frame) {n : Nat} {rest : Bytes}
    (h : (encodeAll fs).take n ++ rest = encodeAll fs) :
    unfinished fs n ++ rest = encodeAll (left fs n) := by
  have hsplit : encodeAll (complete fs n) ++ encodeAll (left fs n) = encodeAll fs := by
    rw [encodeAll, encodeAll, ← List.flatMap_append, complete_append_left]
    rfl
  rw [take_encodeAll, List.append_assoc, ← hsplit] at h
  exact List.append_cancel_left h

/-- A position in the stream and in what is left after the complete frames before it. -/
theorem cutInside_left (fs : List Frame) {n : Nat} (hn : n ≤ (encodeAll fs).length) (k : Nat) :
    cutInside (left fs n) ((unfinished fs n).length + k) = cutInside fs (n + k) := by
  induction fs generalizing n with
  | nil => rfl
  | cons f fs ih =>
    rw [encodeAll_cons, List.length_append] at hn
    by_cases h : n < f.encode.length
    · simp only [left, unfinished, if_pos h, List.length_take_of_le (Nat.le_of_lt h)]
    · have h' : ¬ n + k < f.encode.length := by omega
      have hs : n + k - f.encode.length = n - f.encode.length + k := by omega
      simp only [left, unfinished, if_neg h]
      rw [ih (by omega)]
      simp only [cutInside, if_neg h', hs]

theorem cuts_add (a n : Nat) (cs : List Bytes) : cuts (a + n) cs = (cuts n cs).map (a + ·) := by
  induction cs generalizing n with
  | nil => rfl
  | cons c cs ih => simp only [cuts, List.map_cons, Nat.add_assoc, ih]

/-- Whether some chunk ends inside a `pub` frame, from a position and from what is left there. -/
theorem cuts_left (fs : List Frame) {n : Nat} (hn : n ≤ (encodeAll fs).length) (cs : List Bytes) :
    (∃ k ∈ cuts (unfinished fs n).length cs, cutInside (left fs n) k = true) ↔
      ∃ k ∈ cuts n cs, cutInside fs k = true := by
  have h1 := cuts_add (unfinished fs n).length 0 cs
  have h2 := cuts_add n 0 cs
  rw [Nat.add_zero] at h1 h2
  simp only [h1, h2, List.mem_map, exists_exists_and_eq_and, cutInside_left fs hn]

/-! ## One delivery -/

section Delivery

variable {κ : Type} {fresh : Bool} {handle : Strings → List κ} {onError : List κ}
  {calls : Frame → List κ} (hcalls : ∀ f s, handle (f.strings s) = calls f)

include hcalls

/-- The loop dispatches the complete frames, and fails on a `pub` frame that has only its
first terminator. -/
theorem messageLoop_take {fs : List Frame} (hfs : ∀ f ∈ fs, f.WellFormed) (n : Nat)
    (s : Strings) :
    messageLoop fresh handle ((encodeAll fs).take n) s =
      if cutInside fs n = true then .error .nullPointer
      else .ok ((complete fs n).flatMap calls, .kContinue, unfinished fs n) := by
  induction fs generalizing n s with
  | nil =>
    rw [show (encodeAll []).take n = [] from List.take_nil]
    exact messageLoop_continue (parseMessage_noLine rfl _)
  | cons f fs ih =>
    have hf := hfs f List.mem_cons_self
    have hlen : f.encode.length = f.line.length + f.body.length := List.length_append
    rw [encodeAll_cons]
    by_cases h : n < f.encode.length
    · rw [List.take_append_of_le_length (Nat.le_of_lt h)]
      simp only [cutInside, complete, unfinished, if_pos h, decide_eq_true_eq,
        List.flatMap_nil]
      by_cases hl : f.line.length ≤ n
      · have hq : f.encode.take n = f.line ++ f.body.take (n - f.line.length) := by
          rw [encode, List.take_append, List.take_of_length_le hl]
        rw [if_pos hl, hq]
        refine messageLoop_error (parse_partial_body hf (List.take_prefix _ _) ?_ _)
        rw [List.length_take]
        omega
      · have hq : f.encode.take n = f.line.take n := by
          rw [encode, List.take_append_of_le_length (by omega)]
        rw [if_neg hl, hq]
        refine messageLoop_continue (parse_partial_line hf (List.take_prefix _ _) ?_ _)
        rw [List.length_take]
        omega
    · rw [List.take_append, List.take_of_length_le (Nat.le_of_not_lt h)]
      rw [messageLoop_success (parse_encode hf _ _),
        ih (fun g hg => hfs g (List.mem_cons_of_mem _ hg)), hcalls]
      simp only [cutInside, complete, unfinished, if_neg h, List.flatMap_cons]
      split
      · rfl
      · rfl

theorem onMessage_take {fs : List Frame} (hfs : ∀ f ∈ fs, f.WellFormed) (n : Nat) :
    onMessage fresh handle onError ((encodeAll fs).take n) =
      if cutInside fs n = true then .error .nullPointer
      else .ok ((complete fs n).flatMap calls, unfinished fs n) := by
  rw [onMessage, messageLoop_take hcalls hfs]
  split
  · rfl
  · simp

/-- A whole stream in chunks, from unread bytes that hold no complete frame. -/
theorem deliver_frames {fs : List Frame} (hfs : ∀ f ∈ fs, f.WellFormed) {unread : Bytes}
    {chunks : List Bytes} (hu : complete fs unread.length = [])
    (hs : unread ++ chunks.flatten = encodeAll fs) :
    deliver (onMessage fresh handle onError) unread chunks =
      if ∃ n ∈ cuts unread.length chunks, cutInside fs n = true then .error .nullPointer
      else .ok (fs.flatMap calls, []) := by
  induction chunks generalizing fs unread with
  | nil =>
    rw [List.flatten_nil, List.append_nil] at hs
    cases fs with
    | nil =>
      subst hs
      simp [deliver, cuts, encodeAll]
    | cons f fs =>
      rw [hs, encodeAll_cons, complete, if_neg (by simp)] at hu
      cases hu
  | cons c cs ih =>
    set n := unread.length + c.length with hn
    rw [List.flatten_cons, ← List.append_assoc] at hs
    have hlen : (unread ++ c).length = n := List.length_append
    have htake : (encodeAll fs).take n = unread ++ c := by
      rw [← hs, ← hlen, List.take_left]
    have hle : n ≤ (encodeAll fs).length := by
      rw [← hs, List.length_append, hlen]
      omega
    have hnext : unfinished fs n ++ cs.flatten = encodeAll (left fs n) :=
      unfinished_append fs (by rw [htake]; exact hs)
    rw [deliver, ← htake, onMessage_take hcalls hfs]
    simp only [cuts, ← hn, List.exists_mem_cons_iff]
    by_cases hcut : cutInside fs n = true
    · rw [if_pos hcut, if_pos (.inl hcut)]
      rfl
    · have hih := ih (fun f hf => hfs f (left_subset fs n f hf)) (complete_left fs n) hnext
      rw [if_neg hcut, ok_bind]
      dsimp only
      rw [hih]
      simp only [cuts_left fs hle]
      by_cases hmore : ∃ k ∈ cuts n cs, cutInside fs k = true
      · rw [if_pos hmore, if_pos (.inr hmore)]
        rfl
      · rw [if_neg hmore, if_neg (not_or.mpr ⟨hcut, hmore⟩), ok_bind, ← List.flatMap_append,
          complete_append_left]

end Delivery

/-! ## The hub and the client -/

namespace Frame

/-- The call a frame leads the hub to. -/
def hubCalls : Frame → List HubCall
  | pub topic content => [.doPublish topic content]
  | sub topic => [.doSubscribe topic]
  | unsub topic => [.doUnSubscribe topic]

/-- The calls a frame leads the client to. -/
def clientCalls (subscribeCallback : Bool) : Frame → List ClientCall
  | pub topic content => if subscribeCallback = true then [.subscribeCallback topic content] else []
  | _ => []

theorem hub_dispatch (f : Frame) (s : Strings) :
    HubServer.dispatch (f.strings s) = f.hubCalls := by
  cases f <;> rfl

theorem client_dispatch (subscribeCallback : Bool) (f : Frame) (s : Strings) :
    PubSubClient.dispatch subscribeCallback (f.strings s) = f.clientCalls subscribeCallback := by
  cases f with
  | pub topic content => simp [PubSubClient.dispatch, strings, clientCalls]
  | sub topic => exact if_neg (by rintro ⟨h, -⟩; cases h)
  | unsub topic => exact if_neg (by rintro ⟨h, -⟩; cases h)

end Frame

/-- The chunks lead to the calls that the whole stream leads to, without a fault. -/
def SameDispatch {κ : Type} (callback : Bytes → Except Fault (List κ × Bytes))
    (chunks : List Bytes) : Prop :=
  ∃ calls rest rest', deliver callback [] chunks = .ok (calls, rest) ∧
    deliver callback [] [chunks.flatten] = .ok (calls, rest')

/-- No chunk ends between the two terminators of a `pub` frame. -/
def CutsBetweenFrames (fs : List Frame) (chunks : List Bytes) : Prop :=
  ∀ n ∈ cuts 0 chunks, cutInside fs n = false

instance (fs : List Frame) (chunks : List Bytes) : Decidable (CutsBetweenFrames fs chunks) :=
  inferInstanceAs (Decidable (∀ n ∈ cuts 0 chunks, _))

theorem cutInside_all (fs : List Frame) : cutInside fs (encodeAll fs).length = false := by
  induction fs with
  | nil => rfl
  | cons f fs ih =>
    rw [encodeAll_cons, List.length_append, cutInside, if_neg (by omega), Nat.add_sub_cancel_left]
    exact ih

theorem sameDispatch_iff {κ : Type} {fresh : Bool} {handle : Strings → List κ} {onError : List κ}
    {calls : Frame → List κ} (hcalls : ∀ f s, handle (f.strings s) = calls f) {fs : List Frame}
    (hfs : ∀ f ∈ fs, f.WellFormed) {chunks : List Bytes} (hs : chunks.flatten = encodeAll fs) :
    SameDispatch (onMessage fresh handle onError) chunks ↔ CutsBetweenFrames fs chunks := by
  have hcomplete : complete fs ([] : Bytes).length = [] := by
    cases fs with
    | nil => rfl
    | cons f fs =>
      apply if_pos
      cases f <;> simp [encode, line, Hub.pub, Hub.sub, Hub.unsub]
  have hwhole : deliver (onMessage fresh handle onError) [] [chunks.flatten] =
      .ok (fs.flatMap calls, []) := by
    rw [deliver_frames hcalls hfs hcomplete (by simpa using hs), if_neg]
    intro h
    obtain ⟨n, hn, hcut⟩ := h
    have hn' : n = (encodeAll fs).length := by simpa [cuts, hs] using hn
    rw [hn', cutInside_all] at hcut
    cases hcut
  rw [SameDispatch, hwhole, deliver_frames hcalls hfs hcomplete hs]
  constructor
  · rintro ⟨calls', rest, rest', h, -⟩ n hn
    by_contra hcut
    rw [if_pos ⟨n, hn, by simpa using hcut⟩] at h
    cases h
  · intro h
    refine ⟨_, _, _, if_neg ?_, rfl⟩
    intro h
    obtain ⟨n, hn, hcut⟩ := h
    rw [h n hn] at hcut
    cases hcut

/-- Both callbacks dispatch the messages of the whole stream exactly when no chunk ends between
the two terminators of a `pub` frame. -/
theorem fragmentation_transparent_iff {fs : List Frame} (hfs : ∀ f ∈ fs, f.WellFormed)
    {chunks : List Bytes} (hs : chunks.flatten = encodeAll fs) :
    (SameDispatch HubServer.onMessage chunks ↔ CutsBetweenFrames fs chunks) ∧
      ∀ subscribeCallback, SameDispatch (PubSubClient.onMessage subscribeCallback) chunks ↔
        CutsBetweenFrames fs chunks :=
  ⟨sameDispatch_iff hub_dispatch hfs hs,
    fun subscribeCallback => sameDispatch_iff (client_dispatch subscribeCallback) hfs hs⟩

/-- A `pub` frame and a `sub` frame cut inside the first terminator and after the second. -/
theorem fragmentation_transparent_sample :
    SameDispatch HubServer.onMessage
        [[112, 117, 98, 32, 116, 13], [10, 99, 13, 10, 115, 117], [98, 32, 116, 13, 10]] ∧
      SameDispatch (PubSubClient.onMessage true)
        [[112, 117, 98, 32, 116, 13], [10, 99, 13, 10, 115, 117], [98, 32, 116, 13, 10]] := by
  have hwf : ∀ f ∈ [Frame.pub [116] [99], Frame.sub [116]], f.WellFormed := by decide
  have hs : [[112, 117, 98, 32, 116, 13], [10, 99, 13, 10, 115, 117],
      [98, 32, 116, 13, 10]].flatten = encodeAll [.pub [116] [99], .sub [116]] := by decide
  have h := fragmentation_transparent_iff hwf hs
  exact ⟨h.1.mpr (by decide), (h.2 true).mpr (by decide)⟩

/-- Cut after its first line, a `pub` frame makes the parser follow a null pointer. -/
theorem pub_cut_follows_null :
    (∀ f ∈ [Frame.pub [116] [99]], f.WellFormed) ∧
      [[112, 117, 98, 32, 116, 13, 10], [99, 13, 10]].flatten = encodeAll [.pub [116] [99]] ∧
      parseMessage [112, 117, 98, 32, 116, 13, 10] {} = .error .nullPointer ∧
      ¬ SameDispatch HubServer.onMessage [[112, 117, 98, 32, 116, 13, 10], [99, 13, 10]] ∧
      ¬ SameDispatch (PubSubClient.onMessage true)
        [[112, 117, 98, 32, 116, 13, 10], [99, 13, 10]] := by
  have hwf : ∀ f ∈ [Frame.pub [116] [99]], f.WellFormed := by decide
  have hs : [[112, 117, 98, 32, 116, 13, 10], [99, 13, 10]].flatten =
      encodeAll [.pub [116] [99]] := by decide
  refine ⟨hwf, hs, by decide, ?_, ?_⟩
  · intro h
    exact absurd ((sameDispatch_iff hub_dispatch hwf hs).mp h) (by decide)
  · intro h
    exact absurd ((sameDispatch_iff (client_dispatch true) hwf hs).mp h) (by decide)

end Summer.Hub
