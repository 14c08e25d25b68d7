import Summer.Hub.BufferCodec
import Summer.Hub.MalformedLine
import Summer.Net.ReadFd

/-!
# The input path of a connection

A read event appends what the kernel has to the input buffer, and the message callback parses in
that buffer. The buffer starts with room for 1024 bytes and never gets more: when a read does not
fit, `append` moves the unread bytes to the front, and fails if that is not enough.
-/
namespace Summer.Hub

open Summer.Lib
open Summer.Net (Buffer)
open Summer.Net.Buffer (kCheapPrepend kInitialSize extrabufSize)

/-- The input buffer between two events. -/
structure InputBuffer where
  buffer : Buffer
  valid : buffer.Valid
  size : buffer.buffer.length = kCheapPrepend + kInitialSize
  cheap : kCheapPrepend ≤ buffer.readIndex

namespace InputBuffer

def init : InputBuffer where
  buffer := Buffer.init
  valid := Buffer.represents_init.toValid
  size := List.length_replicate
  cheap := le_refl _

def unread (b : InputBuffer) : Bytes := b.buffer.unread

theorem unread_init : init.unread = [] := Buffer.represents_init.contents

/-! ## Reading -/

/-- The bytes fit into the free tail, or the unread bytes moved to the front leave more room than
they take. -/
def Takes (b : InputBuffer) (n : Nat) : Prop :=
  b.buffer.writeIndex + n ≤ kCheapPrepend + kInitialSize ∨ b.unread.length + n < kInitialSize

instance (b : InputBuffer) (n : Nat) : Decidable (b.Takes n) :=
  inferInstanceAs (Decidable (_ ∨ _))

/-- A read never leaves more unread bytes than the initial size. -/
theorem Takes.le_kInitialSize {b : InputBuffer} {n : Nat} (h : b.Takes n) :
    b.unread.length + n ≤ kInitialSize := by
  have hlen := b.valid.unread_length
  have hcheap := b.cheap
  rcases h with h | h
  · have hu : (b.unread.length : Int) = b.buffer.writeIndex - b.buffer.readIndex := hlen
    omega
  · omega

end InputBuffer

end Summer.Hub

namespace Summer.Net.Buffer

open Summer.Lib

variable {b c : Buffer} {data : Bytes}

theorem put_frame (h : b.put data = .ok c) :
    c.buffer.length = b.buffer.length ∧ c.readIndex = b.readIndex := by
  obtain ⟨_, -, h⟩ := bind_eq_ok.mp h
  obtain ⟨buf, hbuf, h⟩ := bind_eq_ok.mp h
  cases h
  obtain ⟨_, hrange, hbuf⟩ := bind_eq_ok.mp hbuf
  cases hbuf
  have hfit := ensure_eq_ok.mp hrange
  exact ⟨length_overwrite (by omega), rfl⟩

/-- On a full storage `append` returns only after a compaction: growing leaves no room behind the
write index. -/
theorem append_full (hv : b.Valid) (hfull : b.writeableBytes = 0) (hwrite : 0 < b.writeIndex)
    (hpos : 0 < data.length) (hlen : data.length < 2 ^ 31) (h : b.append data = .ok c) :
    c.Valid ∧ c.unread = b.unread ++ data ∧ c.buffer.length = b.buffer.length ∧
      c.readIndex = kCheapPrepend := by
  have h1 := hv.read_nonneg
  have h2 := hv.read_le_write
  have h3 := hv.write_lt
  have hw := hv.writeable_cast
  have hr := hv.readable_cast
  have hk : (kCheapPrepend : Int) = 8 := rfl
  unfold append at h
  rw [if_pos (by omega)] at h
  cases hg : b.grows data.length with
  | true =>
    rcases makespace_grows hv (by omega) hg with ⟨-, hm⟩ | ⟨-, d, hm, -⟩
    · rw [hm] at h
      cases h
    · have hsize : d.buffer.length = data.length ∧ d.writeIndex = b.writeIndex := by
        unfold makespace resize at hm
        rw [if_pos hg] at hm
        obtain ⟨buf, hbuf, hm⟩ := bind_eq_ok.mp hm
        cases hm
        obtain ⟨_, -, hbuf⟩ := bind_eq_ok.mp hbuf
        cases hbuf
        have hn : sizeT (b.writeableBytes + data.length) = data.length := by
          rw [hfull, Int.natCast_zero, Int.zero_add]
          exact sizeT_natCast (by omega)
        refine ⟨?_, rfl⟩
        simp only [hn, List.length_append, List.length_take, List.length_replicate]
        omega
      rw [hm, ok_bind] at h
      obtain ⟨_, -, h⟩ := bind_eq_ok.mp h
      obtain ⟨buf, hbuf, -⟩ := bind_eq_ok.mp h
      obtain ⟨_, hrange, -⟩ := bind_eq_ok.mp hbuf
      have hfit := ensure_eq_ok.mp hrange
      omega
  | false =>
    obtain ⟨d, hm, hdv, hdu, hdw, hdsize, hdr⟩ :=
      compact_valid hv (by omega) hg (add_kCheapPrepend_lt (by omega))
    have hfree := (compaction_leftward hv (by omega) hg (add_kCheapPrepend_lt (by omega))).1
    rw [hm, ok_bind] at h
    obtain ⟨hsize, hread⟩ := put_frame h
    have hindex : d.writeIndex + data.length < 2 ^ 31 := by omega
    rcases put_valid hdv hindex with herr | ⟨e, he, hev, heu, -⟩
    · rw [herr] at h
      cases h
    · rw [he] at h
      cases h
      exact ⟨hev, heu.trans (by rw [hdu]), hsize.trans hdsize, hread.trans hdr⟩

/-- What a read leaves, when it returns. -/
theorem readFd_keeps (hv : b.Valid) (hsize : b.buffer.length = kCheapPrepend + kInitialSize)
    (hcheap : kCheapPrepend ≤ b.readIndex) {e e' n : Int}
    (h : readFd append b e (.ok data) = .ok (n, e', c)) :
    c.Valid ∧ c.unread = b.unread ++ data ∧ c.buffer.length = kCheapPrepend + kInitialSize ∧
      kCheapPrepend ≤ c.readIndex ∧ n = data.length ∧ e' = e := by
  have h1 := hv.read_nonneg
  have h2 := hv.read_le_write
  have hw := hv.writeable_cast
  have hk : kCheapPrepend + kInitialSize = 1032 := rfl
  by_cases hn : data.length ≤ b.writeableBytes
  · obtain ⟨hcv, hcu⟩ := extend_valid hv hn (by omega)
    rw [readFd_tail hv hn, int32_cast (by omega) (by omega)] at h
    cases h
    exact ⟨hcv, hcu, (length_overwrite (by omega)).trans hsize, hcheap, rfl, rfl⟩
  · have hextra : data.length ≤ b.writeableBytes + extrabufSize := by
      unfold readFd at h
      dsimp only at h
      rw [fillTail_eq hv, ok_bind, if_neg hn] at h
      obtain ⟨_, hen, -⟩ := bind_eq_ok.mp h
      have := ensure_eq_ok.mp hen
      omega
    obtain ⟨d, hd, hdv, hdfree, hdu⟩ := setFull_fillTail hv data (by omega) (by omega)
    have hframe := fillTail_frame hv hd
    rw [readFd_spill hv (by omega) hextra, hd, ok_bind] at h
    obtain ⟨e, he, h⟩ := bind_eq_ok.mp h
    cases h
    have hdrop : (data.drop b.writeableBytes).length = data.length - b.writeableBytes :=
      List.length_drop
    have hwrite : 0 < d.setFull.writeIndex := by
      have hdw := hdv.writeable_cast
      rw [hdfree, setFull_buffer, hframe.1, hsize, hk] at hdw
      generalize d.setFull.writeIndex = w at hdw ⊢
      omega
    have hspilled : (data.drop b.writeableBytes).length < 2 ^ 31 := by
      unfold extrabufSize at hextra
      omega
    obtain ⟨hcv, hcu, hcs, hcr⟩ := append_full hdv hdfree hwrite (by omega) hspilled he
    refine ⟨hcv, ?_, ?_, le_of_eq hcr.symm, rfl, rfl⟩
    · rw [hcu, hdu, List.append_assoc, List.take_append_drop]
    · rw [hcs, setFull_buffer, hframe.1, hsize]

end Summer.Net.Buffer

namespace Summer.Hub

open Summer.Lib
open Summer.Net (Buffer)
open Summer.Net.Buffer (kCheapPrepend kInitialSize extrabufSize)

namespace InputBuffer

/-- `inputBuffer_.readFd`, when the kernel delivers the bytes. -/
def readFd (b : InputBuffer) (data : Bytes) : Except Fault InputBuffer :=
  match h : Buffer.readFd Buffer.append b.buffer 0 (.ok data) with
  | .error f => .error f
  | .ok (_, _, c) =>
    have hkeeps := Buffer.readFd_keeps b.valid b.size b.cheap h
    .ok ⟨c, hkeeps.1, hkeeps.2.2.1, hkeeps.2.2.2.1⟩

/-- A read either appends its bytes, or fails because they do not fit. -/
theorem readFd_spec (b : InputBuffer) {data : Bytes}
    (hextra : data.length ≤ b.buffer.writeableBytes + extrabufSize) :
    (b.Takes data.length ∧ ∃ c, b.readFd data = .ok c ∧ c.unread = b.unread ++ data) ∨
      (¬ b.Takes data.length ∧ ∃ f, b.readFd data = .error f) := by
  have hw := b.valid.writeable_cast
  have hu : (b.unread.length : Int) = b.buffer.writeIndex - b.buffer.readIndex :=
    b.valid.unread_length
  have hsize := b.size
  have hk : kCheapPrepend = 8 ∧ kInitialSize = 1024 := ⟨rfl, rfl⟩
  have hreads : (∃ n e c, Buffer.readFd Buffer.append b.buffer 0 (.ok data) = .ok (n, e, c)) ↔
      b.Takes data.length := by
    by_cases hn : data.length ≤ b.buffer.writeableBytes
    · refine iff_of_true ⟨_, _, _, Buffer.readFd_tail b.valid hn⟩ (.inl ?_)
      omega
    · have hspill : (∃ c, Buffer.readFd Buffer.append b.buffer 0 (.ok data) =
          .ok (data.length, 0, c) ∧ c.Valid ∧ c.unread = b.buffer.unread ++ data) ↔
          data.length - b.buffer.writeableBytes + kCheapPrepend < b.buffer.readIndex :=
        Buffer.readFd_append_spill_iff b.valid (by omega) (by omega) hextra
      constructor
      · rintro ⟨n, e, c, h⟩
        obtain ⟨hcv, hcu, -, -, rfl, rfl⟩ := Buffer.readFd_keeps b.valid b.size b.cheap h
        have hroom := hspill.mp ⟨c, h, hcv, hcu⟩
        exact .inr (by omega)
      · intro h
        obtain ⟨c, hc, -⟩ := hspill.mpr (by rcases h with h | h <;> omega)
        exact ⟨_, _, c, hc⟩
  unfold readFd
  split
  · rename_i f hf
    refine .inr ⟨fun htakes => ?_, f, rfl⟩
    obtain ⟨n, e, c, hc⟩ := hreads.mpr htakes
    rw [hf] at hc
    cases hc
  · rename_i n e c hc
    exact .inl ⟨hreads.mp ⟨n, e, c, hc⟩, _, rfl,
      (Buffer.readFd_keeps b.valid b.size b.cheap hc).2.1⟩

/-! ## Parsing -/

variable {κ : Type}

theorem leave_size (b : InputBuffer) {rest : Bytes} (h : rest <:+ b.unread) :
    (b.buffer.leave rest).Valid ∧
      (b.buffer.leave rest).buffer.length = kCheapPrepend + kInitialSize ∧
      kCheapPrepend ≤ (b.buffer.leave rest).readIndex := by
  have hlen := b.valid.unread_length
  have hcheap := b.cheap
  have hle : rest.length ≤ b.buffer.unread.length := h.length_le
  refine ⟨(Buffer.leave_spec b.valid h).1, b.size, ?_⟩
  rw [Buffer.leave]
  dsimp only
  omega

/-- What the parser leaves. -/
theorem parsed_keeps (b : InputBuffer) {s s' : Strings} {r : ParseResult} {c : Buffer}
    (h : BufferCodec.parseMessage b.buffer s = .ok (r, c, s')) :
    ∃ rest, Hub.parseMessage b.unread s = .ok (r, rest, s') ∧ rest <:+ b.unread ∧
      c = b.buffer.leave rest := by
  rw [BufferCodec.parseMessage_eq b.valid] at h
  cases hp : Hub.parseMessage b.buffer.unread s with
  | error f =>
    rw [hp] at h
    cases h
  | ok result =>
    obtain ⟨r', rest, s''⟩ := result
    rw [hp] at h
    cases h
    exact ⟨rest, hp, BufferCodec.parseMessage_suffix hp, rfl⟩

theorem parsed_valid (b : InputBuffer) {s s' : Strings} {r : ParseResult} {c : Buffer}
    (h : BufferCodec.parseMessage b.buffer s = .ok (r, c, s')) :
    c.Valid ∧ c.buffer.length = kCheapPrepend + kInitialSize ∧ kCheapPrepend ≤ c.readIndex := by
  obtain ⟨rest, -, hsuffix, rfl⟩ := b.parsed_keeps h
  exact b.leave_size hsuffix

/-- `parseMessage(&inputBuffer_, ..)`. -/
def parseMessage (b : InputBuffer) (s : Strings) :
    Except Fault (ParseResult × InputBuffer × Strings) :=
  match h : BufferCodec.parseMessage b.buffer s with
  | .error f => .error f
  | .ok (r, c, s') =>
    have hvalid := b.parsed_valid h
    .ok (r, ⟨c, hvalid.1, hvalid.2.1, hvalid.2.2⟩, s')

/-- On the unread bytes the parser does what it does to a list. -/
theorem parseMessage_unread (b : InputBuffer) (s : Strings) :
    Hub.parseMessage b.unread s =
      (b.parseMessage s).map fun r => (r.1, r.2.1.unread, r.2.2) := by
  unfold parseMessage
  split
  · rename_i f hf
    rw [BufferCodec.parseMessage_eq b.valid] at hf
    cases hp : Hub.parseMessage b.unread s with
    | error f' =>
      rw [show Hub.parseMessage b.buffer.unread s = .error f' from hp] at hf
      cases hf
      rfl
    | ok result =>
      rw [show Hub.parseMessage b.buffer.unread s = .ok result from hp] at hf
      cases hf
  · rename_i r c s' hc
    obtain ⟨rest, hp, hsuffix, rfl⟩ := b.parsed_keeps hc
    rw [hp]
    have hrest := (Buffer.leave_spec b.valid hsuffix).2
    simp only [Except.map, unread, hrest]

theorem parseMessage_shrinks {b c : InputBuffer} {s s' : Strings}
    (h : b.parseMessage s = .ok (.kSuccess, c, s')) : c.unread.length < b.unread.length := by
  have hp := b.parseMessage_unread s
  rw [h] at hp
  have hlt : c.unread.length + 3 ≤ b.unread.length := Hub.parseMessage_shrinks hp
  omega

/-- `while(parseResult == kSuccess)`, on the buffer. -/
def messageLoop (fresh : Bool) (handle : Strings → List κ) (b : InputBuffer) (s : Strings) :
    Except Fault (List κ × ParseResult × InputBuffer) :=
  match _h : b.parseMessage (if fresh then {} else s) with
  | .error f => .error f
  | .ok (.kSuccess, c, s') => do
    let (calls, result, rest) ← messageLoop fresh handle c s'
    .ok (handle s' ++ calls, result, rest)
  | .ok (.kContinue, c, _) => .ok ([], .kContinue, c)
  | .ok (.kError, c, _) => .ok ([], .kError, c)
termination_by b.unread.length
decreasing_by exact parseMessage_shrinks _h

def onMessage (fresh : Bool) (handle : Strings → List κ) (onError : List κ) (b : InputBuffer) :
    Except Fault (List κ × InputBuffer) := do
  let (calls, result, rest) ← b.messageLoop fresh handle {}
  .ok (calls ++ (if result = .kError then onError else []), rest)

theorem turn_success {fresh : Bool} {handle : Strings → List κ} {b c : InputBuffer}
    {s s' : Strings} (h : b.parseMessage (if fresh then {} else s) = .ok (.kSuccess, c, s')) :
    b.messageLoop fresh handle s = (do
      let (calls, result, rest) ← c.messageLoop fresh handle s'
      .ok (handle s' ++ calls, result, rest)) := by
  rw [messageLoop]
  split <;> simp_all

theorem messageLoop_unread (fresh : Bool) (handle : Strings → List κ) (b : InputBuffer)
    (s : Strings) :
    Hub.messageLoop fresh handle b.unread s =
      (b.messageLoop fresh handle s).map fun r => (r.1, r.2.1, r.2.2.unread) := by
  induction b, s using messageLoop.induct fresh with
  | case1 b s f h =>
    rw [dite_eq_ite] at h
    have hp := b.parseMessage_unread (if fresh then {} else s)
    rw [h] at hp
    rw [messageLoop_error hp, messageLoop]
    split <;> simp_all [Except.map]
  | case2 b s c s' h ih =>
    rw [dite_eq_ite] at h
    have hp := b.parseMessage_unread (if fresh then {} else s)
    rw [h] at hp
    rw [messageLoop_success hp, ih, turn_success h]
    cases c.messageLoop fresh handle s' <;> rfl
  | case3 b s c s' h =>
    rw [dite_eq_ite] at h
    have hp := b.parseMessage_unread (if fresh then {} else s)
    rw [h] at hp
    rw [messageLoop_continue hp, messageLoop]
    split <;> simp_all [Except.map]
  | case4 b s c s' h =>
    rw [dite_eq_ite] at h
    have hp := b.parseMessage_unread (if fresh then {} else s)
    rw [h] at hp
    rw [messageLoop_kError hp, messageLoop]
    split <;> simp_all [Except.map]

theorem onMessage_unread (fresh : Bool) (handle : Strings → List κ) (onError : List κ)
    (b : InputBuffer) :
    Hub.onMessage fresh handle onError b.unread =
      (b.onMessage fresh handle onError).map fun r => (r.1, r.2.unread) := by
  rw [Hub.onMessage, messageLoop_unread, onMessage]
  cases b.messageLoop fresh handle {} <;> rfl

end InputBuffer

/-! ## Read events -/

/-- The input buffer of a connection, and the calls that its message callback has made. -/
structure InputPath (κ : Type) where
  buffer : InputBuffer := InputBuffer.init
  calls : List κ := []

namespace InputPath

variable {κ : Type} {fresh : Bool} {handle : Strings → List κ} {onError : List κ}
  {s s' : InputPath κ} {reads : List Bytes}

/-- `handleRead`, when the kernel delivers the bytes: one at least, and at most as many as the
free tail and the area on the stack hold. -/
def handleRead (fresh : Bool) (handle : Strings → List κ) (onError : List κ) (s : InputPath κ)
    (data : Bytes) : Except Fault (InputPath κ) := do
  ensure (0 < data.length ∧ data.length ≤ s.buffer.buffer.writeableBytes + extrabufSize) .notEnabled
  let b ← s.buffer.readFd data
  let (calls, b) ← b.onMessage fresh handle onError
  .ok { buffer := b, calls := s.calls ++ calls }

/-- A read that is taken does to the unread bytes what the callback does to a list. -/
theorem handleRead_ok {data : Bytes}
    (h : handleRead fresh handle onError s data = .ok s') :
    s.buffer.Takes data.length ∧ ∃ calls,
      onMessage fresh handle onError (s.buffer.unread ++ data) = .ok (calls, s'.buffer.unread) ∧
        s'.calls = s.calls ++ calls := by
  obtain ⟨_, hen, h⟩ := bind_eq_ok.mp h
  obtain ⟨b, hread, h⟩ := bind_eq_ok.mp h
  obtain ⟨⟨calls, c⟩, hmessage, h⟩ := bind_eq_ok.mp h
  cases h
  rcases s.buffer.readFd_spec (ensure_eq_ok.mp hen).2 with ⟨htakes, d, hd, hu⟩ | ⟨-, f, hf⟩
  · rw [hread] at hd
    cases hd
    refine ⟨htakes, calls, ?_, rfl⟩
    rw [← hu, InputBuffer.onMessage_unread, hmessage]
    rfl
  · rw [hread] at hf
    cases hf

theorem deliver_run (hrun : run (handleRead fresh handle onError) s reads = .ok s') :
    ∃ calls, deliver (onMessage fresh handle onError) s.buffer.unread reads =
      .ok (calls, s'.buffer.unread) ∧ s'.calls = s.calls ++ calls := by
  induction reads generalizing s with
  | nil =>
    cases hrun
    exact ⟨[], rfl, (List.append_nil _).symm⟩
  | cons data reads ih =>
    obtain ⟨t, hstep, hrun⟩ := run_cons_ok.mp hrun
    obtain ⟨-, first, hfirst, hcalls⟩ := handleRead_ok hstep
    obtain ⟨more, hmore, hcalls'⟩ := ih hrun
    refine ⟨first ++ more, ?_, by rw [hcalls', hcalls, List.append_assoc]⟩
    rw [deliver, hfirst, ok_bind]
    dsimp only
    rw [hmore]
    rfl

/-- In every run the storage keeps its size, what was parsed and what is unread are what the
callback makes of the lists of bytes, and a read is taken exactly when it fits and the callback
does not fail on the unread bytes with those read. -/
theorem input_path_exact (hrun : run (handleRead fresh handle onError) {} reads = .ok s) :
    s.buffer.buffer.buffer.length = kCheapPrepend + kInitialSize ∧
    deliver (onMessage fresh handle onError) [] reads = .ok (s.calls, s.buffer.unread) ∧
    ∀ data : Bytes, 0 < data.length →
      data.length ≤ s.buffer.buffer.writeableBytes + extrabufSize →
      ((∃ s', handleRead fresh handle onError s data = .ok s') ↔
        s.buffer.Takes data.length ∧
          ∃ r, onMessage fresh handle onError (s.buffer.unread ++ data) = .ok r) := by
  refine ⟨s.buffer.size, ?_, fun data hpos hextra => ⟨?_, ?_⟩⟩
  · obtain ⟨calls, hdeliver, hcalls⟩ := deliver_run hrun
    rw [show ({} : InputPath κ).buffer.unread = [] from InputBuffer.unread_init] at hdeliver
    rw [hdeliver, hcalls]
    rfl
  · rintro ⟨s', h⟩
    obtain ⟨htakes, calls, hmessage, -⟩ := handleRead_ok h
    exact ⟨htakes, _, hmessage⟩
  · rintro ⟨htakes, r, hr⟩
    rcases s.buffer.readFd_spec hextra with ⟨-, c, hc, hu⟩ | ⟨hnot, -⟩
    · rw [← hu, InputBuffer.onMessage_unread] at hr
      cases hmessage : c.onMessage fresh handle onError with
      | error f =>
        rw [hmessage] at hr
        cases hr
      | ok answer =>
        refine ⟨{ buffer := answer.2, calls := s.calls ++ answer.1 }, ?_⟩
        simp only [handleRead, ensure_of (show 0 < data.length ∧
          data.length ≤ s.buffer.buffer.writeableBytes + extrabufSize from ⟨hpos, hextra⟩),
          ok_bind, hc, hmessage]
    · exact absurd htakes hnot

/-- Two subscriptions, the second one cut in two. -/
theorem input_path_exact_sample :
    ∃ s, run (handleRead false HubServer.dispatch []) {}
        [(Frame.sub [97]).encode ++ sub, [space, 98, CR, LF]] = .ok s ∧
      deliver HubServer.onMessage [] [(Frame.sub [97]).encode ++ sub, [space, 98, CR, LF]] =
        .ok ([.doSubscribe [97], .doSubscribe [98]], s.buffer.unread) := by
  have hend : endsIn (handleRead false HubServer.dispatch [])
      (fun s => decide (s.calls = [.doSubscribe [97], .doSubscribe [98]])) {}
      [(Frame.sub [97]).encode ++ sub, [space, 98, CR, LF]] = true := by decide +kernel
  obtain ⟨s, hrun, hcalls⟩ := endsIn_iff.mp hend
  have hdeliver := (input_path_exact hrun).2.1
  rw [of_decide_eq_true hcalls] at hdeliver
  exact ⟨s, hrun, hdeliver⟩

/-! ## Streams of frames -/

/-- What was read of a stream of frames: those dispatched, and the start of the next. -/
structure Received (calls : Frame → List κ) (fs : List Frame) (s : InputPath κ)
    (reads : List Bytes) (done rest : List Frame) : Prop where
  frames : fs = done ++ rest
  calls : s.calls = done.flatMap calls
  short : ∀ f ∈ done, f.encode.length ≤ kInitialSize
  stream : reads.flatten = Frame.encodeAll done ++ s.buffer.unread
  unparsed : complete rest s.buffer.unread.length = []
  room : s.buffer.unread.length ≤ kInitialSize

theorem encodeAll_append (fs gs : List Frame) :
    Frame.encodeAll (fs ++ gs) = Frame.encodeAll fs ++ Frame.encodeAll gs := List.flatMap_append

theorem length_le_encodeAll {f : Frame} {fs : List Frame} (h : f ∈ fs) :
    f.encode.length ≤ (Frame.encodeAll fs).length := by
  induction fs with
  | nil => cases h
  | cons g fs ih =>
    rw [encodeAll_cons, List.length_append]
    rcases List.mem_cons.mp h with rfl | h
    · omega
    · have := ih h
      omega

theorem length_complete_le (fs : List Frame) (n : Nat) :
    (Frame.encodeAll (complete fs n)).length ≤ n := by
  have h := congrArg List.length (take_encodeAll fs n)
  rw [List.length_take, List.length_append] at h
  omega

theorem Received.read {calls : Frame → List κ} (hcalls : ∀ f s, handle (f.strings s) = calls f)
    {fs done rest : List Frame} (hfs : ∀ f ∈ fs, f.WellFormed)
    (h : Received calls fs s reads done rest) {data : Bytes}
    (hs : (reads ++ [data]).flatten <+: Frame.encodeAll fs)
    (hstep : handleRead fresh handle onError s data = .ok s') :
    ∃ done' rest', Received calls fs s' (reads ++ [data]) done' rest' := by
  obtain ⟨htakes, made, hmessage, hmade⟩ := handleRead_ok hstep
  have hroom := htakes.le_kInitialSize
  have hrest : ∀ f ∈ rest, f.WellFormed := by
    intro f hf
    refine hfs f ?_
    rw [h.frames]
    exact List.mem_append_right _ hf
  have hflat : (reads ++ [data]).flatten =
      Frame.encodeAll done ++ (s.buffer.unread ++ data) := by
    rw [List.flatten_append, h.stream, List.append_assoc]
    simp
  set n := s.buffer.unread.length + data.length with hn
  have htake : (Frame.encodeAll rest).take n = s.buffer.unread ++ data := by
    rw [hflat, h.frames, encodeAll_append] at hs
    obtain ⟨more, hmore⟩ := (List.prefix_append_right_inj _).mp hs
    have hlen : (s.buffer.unread ++ data).length = n := List.length_append
    rw [← hmore, ← hlen, List.take_left]
  rw [← htake, onMessage_take hcalls hrest] at hmessage
  split at hmessage
  · cases hmessage
  · obtain ⟨hmade', hunread⟩ := Prod.mk.inj (Except.ok.inj hmessage)
    have hlen : s'.buffer.unread.length ≤ n := by
      have hl := congrArg List.length (take_encodeAll rest n)
      rw [List.length_take, List.length_append, hunread] at hl
      omega
    refine ⟨done ++ complete rest n, left rest n, ?_, ?_, ?_, ?_, ?_, by omega⟩
    · rw [List.append_assoc, complete_append_left, h.frames]
    · rw [hmade, h.calls, ← hmade', List.flatMap_append]
    · intro f hf
      rcases List.mem_append.mp hf with hf | hf
      · exact h.short f hf
      · have hle := length_le_encodeAll hf
        have hcomplete := length_complete_le rest n
        omega
    · rw [hflat, ← htake, take_encodeAll, hunread, encodeAll_append, List.append_assoc]
    · rw [← hunread]
      exact complete_left rest n

/-- In every run over a stream of frames the calls are those of a first part of the frames, all of
at most 1024 bytes, and of the next frame at most 1024 bytes have been read. A longer frame is
never dispatched, and nothing behind it. -/
theorem long_frames_never_dispatched {calls : Frame → List κ}
    (hcalls : ∀ f s, handle (f.strings s) = calls f) {fs : List Frame}
    (hfs : ∀ f ∈ fs, f.WellFormed) (hs : reads.flatten <+: Frame.encodeAll fs)
    (hrun : run (handleRead fresh handle onError) {} reads = .ok s) :
    ∃ done rest, Received calls fs s reads done rest := by
  refine run_history (J := fun reads s => reads.flatten <+: Frame.encodeAll fs →
    ∃ done rest, Received calls fs s reads done rest) (fun _ => ?_) ?_ hrun hs
  · refine ⟨[], fs, rfl, rfl, List.forall_mem_nil _, ?_, ?_, ?_⟩
    · exact InputBuffer.unread_init.symm
    · rw [show ({} : InputPath κ).buffer.unread = [] from InputBuffer.unread_init]
      cases fs with
      | nil => rfl
      | cons f fs => exact if_pos (by cases f <;> simp [Frame.encode, Frame.line, pub, sub, unsub])
    · rw [show ({} : InputPath κ).buffer.unread = [] from InputBuffer.unread_init]
      exact Nat.zero_le _
  · intro reads s data s' _ ih hstep hs
    have hbefore : reads.flatten <+: Frame.encodeAll fs := by
      refine List.IsPrefix.trans ?_ hs
      rw [List.flatten_append]
      exact List.prefix_append _ _
    obtain ⟨done, rest, h⟩ := ih hbefore
    exact h.read hcalls hfs hs hstep

/-- A subscription to a topic of 1030 bytes, behind a short one, of which 593 bytes were read. -/
theorem long_frames_never_dispatched_sample :
    ∃ s, run (handleRead false HubServer.dispatch []) {}
        [(Frame.encodeAll [.sub [97], .sub (List.replicate 1030 98)]).take 300,
          ((Frame.encodeAll [.sub [97], .sub (List.replicate 1030 98)]).drop 300).take 300] =
        .ok s ∧
      ∃ done rest, [Frame.sub [97], .sub (List.replicate 1030 98)] = done ++ rest ∧
        s.calls = done.flatMap Frame.hubCalls ∧
        ∀ f ∈ done, f.encode.length ≤ kInitialSize := by
  have hend : endsIn (handleRead false HubServer.dispatch [])
      (fun s => decide (s.calls = [.doSubscribe [97]])) {}
      [(Frame.encodeAll [.sub [97], .sub (List.replicate 1030 98)]).take 300,
        ((Frame.encodeAll [.sub [97], .sub (List.replicate 1030 98)]).drop 300).take 300] =
      true := by decide +kernel
  obtain ⟨s, hrun, -⟩ := endsIn_iff.mp hend
  have hwf : ∀ f ∈ [Frame.sub [97], .sub (List.replicate 1030 98)], f.WellFormed := by
    decide +kernel
  have hstream : [(Frame.encodeAll [.sub [97], .sub (List.replicate 1030 98)]).take 300,
      ((Frame.encodeAll [.sub [97], .sub (List.replicate 1030 98)]).drop 300).take 300].flatten <+:
      Frame.encodeAll [.sub [97], .sub (List.replicate 1030 98)] := by decide +kernel
  obtain ⟨done, rest, h⟩ :=
    long_frames_never_dispatched Frame.hub_dispatch hwf hstream hrun
  exact ⟨s, hrun, done, rest, h.frames, h.calls, h.short⟩

end InputPath

end Summer.Hub
