import Summer.Net.BufferAppend

/-!
# Reading from a descriptor into a buffer

`readFd` has the kernel fill the free tail of the storage first and an area on the stack second,
and appends what landed in the second. `append` is a parameter here.
-/
namespace Summer.Net.Buffer

open Summer.Lib

/-- `sizeof(extrabuf)`. -/
def extrabufSize : Nat := 64 * 1024

/-- What `readv` has put into the tail of the storage. -/
def fillTail (b : Buffer) (data : Bytes) : Except Fault Buffer := do
  let buffer ← writeRange b.buffer b.writeIndex (data.take b.writeableBytes)
  .ok { b with buffer := buffer }

/-- `writeIndex_ = buffer_.size()`. -/
def setFull (b : Buffer) : Buffer := { b with writeIndex := int32 b.buffer.length }

@[simp] theorem setFull_buffer (b : Buffer) : b.setFull.buffer = b.buffer := by
  cases b with
  | mk buffer readIndex writeIndex =>
    show (setFull ⟨buffer, readIndex, writeIndex⟩).buffer = buffer
    rfl

@[simp] theorem setFull_readIndex (b : Buffer) : b.setFull.readIndex = b.readIndex := by
  cases b with
  | mk buffer readIndex writeIndex =>
    show (setFull ⟨buffer, readIndex, writeIndex⟩).readIndex = readIndex
    rfl

/-- `readFd`: the bytes that `readv` delivers, or the `errno` it fails with, are given; the
results are the return value, `*savedErrno` and the buffer. -/
def readFd (append : Buffer → Bytes → Except Fault Buffer) (b : Buffer) (savedErrno : Int)
    (readv : Except Int Bytes) : Except Fault (Int × Int × Buffer) :=
  let writeable := b.writeableBytes
  match readv with
  | .error errno => .ok (-1, errno, b)
  | .ok data => do
    let nread := data.length
    let b ← b.fillTail data
    if nread ≤ writeable then
      .ok (nread, savedErrno, { b with writeIndex := int32 (b.writeIndex + nread) })
    else do
      ensure (nread - writeable ≤ extrabufSize) .outOfRange
      let b ← append b.setFull (data.drop writeable)
      .ok (nread, savedErrno, b)

variable {append : Buffer → Bytes → Except Fault Buffer} {b : Buffer} {data : Bytes}
  {savedErrno : Int}

/-- What is assumed of `append`: on a valid buffer it appends exactly the bytes it is given, as
long as a valid buffer can hold them. -/
def Appends (append : Buffer → Bytes → Except Fault Buffer) : Prop :=
  ∀ c data, c.Valid → c.unread.length + data.length < 2 ^ 31 →
    ∃ d, append c data = .ok d ∧ d.Valid ∧ d.unread = c.unread ++ data

/-- The new write index is an `int`; if the read spills over, so are the size of the storage,
which becomes the write index, and the number of unread bytes. -/
def ReadFits (b : Buffer) (n : Nat) : Prop :=
  if n ≤ b.writeableBytes then b.writeIndex + n < 2 ^ 31
  else b.buffer.length < 2 ^ 31 ∧ b.readableBytes + n < 2 ^ 31

instance (b : Buffer) (n : Nat) : Decidable (ReadFits b n) := by
  unfold ReadFits
  infer_instance

/-- The read appends the bytes, and if it spills over then `append` is called with the rest on a
valid buffer that has no free tail and has the others. -/
structure ReadAppends (append : Buffer → Bytes → Except Fault Buffer) (b : Buffer)
    (savedErrno : Int) (data : Bytes) : Prop where
  appended : ∃ c, readFd append b savedErrno (.ok data) = .ok (data.length, savedErrno, c) ∧
    c.Valid ∧ c.unread = b.unread ++ data
  call : b.writeableBytes < data.length → ∃ c, b.fillTail data = .ok c ∧ c.setFull.Valid ∧
    c.setFull.writeableBytes = 0 ∧ c.setFull.unread = b.unread ++ data.take b.writeableBytes ∧
    (data.drop b.writeableBytes).length = data.length - b.writeableBytes

/-! ## The tail -/

theorem fillTail_eq (hv : b.Valid) (data : Bytes) : b.fillTail data =
    .ok { b with
      buffer := overwrite b.buffer b.writeIndex.toNat (data.take b.writeableBytes) } := by
  have h1 := hv.read_nonneg
  have h2 := hv.read_le_write
  have hw := hv.writeable_cast
  unfold fillTail writeRange
  rw [ensure_of ⟨by omega, by rw [List.length_take]; omega⟩]
  rfl

theorem fillTail_frame {c : Buffer} (hv : b.Valid) (h : b.fillTail data = .ok c) :
    c.buffer.length = b.buffer.length ∧ c.readIndex = b.readIndex := by
  have h1 := hv.read_nonneg
  have h2 := hv.read_le_write
  have hw := hv.writeable_cast
  rw [fillTail_eq hv] at h
  cases h
  exact ⟨length_overwrite (by rw [List.length_take]; omega), rfl⟩

/-- A read that fits into the tail. -/
theorem readFd_tail (hv : b.Valid) (hn : data.length ≤ b.writeableBytes) :
    readFd append b savedErrno (.ok data) = .ok (data.length, savedErrno,
      ⟨overwrite b.buffer b.writeIndex.toNat data, b.readIndex,
        int32 (b.writeIndex + data.length)⟩) := by
  unfold readFd
  dsimp only
  rw [fillTail_eq hv, ok_bind, if_pos hn, List.take_of_length_le hn]

/-- A read that spills over, up to the call of `append`. -/
theorem readFd_spill (hv : b.Valid) (hn : b.writeableBytes < data.length)
    (hextra : data.length ≤ b.writeableBytes + extrabufSize) :
    readFd append b savedErrno (.ok data) = (do
      let c ← b.fillTail data
      let d ← append c.setFull (data.drop b.writeableBytes)
      .ok (data.length, savedErrno, d)) := by
  unfold readFd
  dsimp only
  rw [fillTail_eq hv, ok_bind, ok_bind, if_neg (by omega), ensure_of (by omega), ok_bind]

/-- The buffer on which `append` is called. -/
theorem setFull_fillTail (hv : b.Valid) (data : Bytes) (hn : b.writeableBytes < data.length)
    (hsize : b.buffer.length < 2 ^ 31) : ∃ c, b.fillTail data = .ok c ∧ c.setFull.Valid ∧
      c.setFull.writeableBytes = 0 ∧
      c.setFull.unread = b.unread ++ data.take b.writeableBytes := by
  have h1 := hv.read_nonneg
  have h2 := hv.read_le_write
  have hw := hv.writeable_cast
  have hlen : (data.take b.writeableBytes).length = b.writeableBytes := by
    rw [List.length_take]
    omega
  have hfull : b.writeIndex + (data.take b.writeableBytes).length = b.buffer.length := by
    rw [hlen]
    omega
  obtain ⟨hcv, hu⟩ := extend_valid hv (le_of_eq hlen) (by omega)
  have hstore : (overwrite b.buffer b.writeIndex.toNat (data.take b.writeableBytes)).length =
      b.buffer.length := length_overwrite (by omega)
  have hset : setFull { b with
      buffer := overwrite b.buffer b.writeIndex.toNat (data.take b.writeableBytes) } =
      ⟨overwrite b.buffer b.writeIndex.toNat (data.take b.writeableBytes), b.readIndex,
        b.writeIndex + (data.take b.writeableBytes).length⟩ := by
    rw [setFull, hstore, int32_cast (by omega) (by omega), hfull]
  refine ⟨_, fillTail_eq hv data, ?_, ?_, ?_⟩
  · rw [hset]
    exact hcv
  · have hfree := hcv.writeable_cast
    rw [hset]
    dsimp only at hfree
    omega
  · rw [hset]
    exact hu

/-! ## A read appends -/

theorem readAppends_of_fits (ha : Appends append) (hv : b.Valid)
    (hextra : data.length ≤ b.writeableBytes + extrabufSize) (h : ReadFits b data.length) :
    ReadAppends append b savedErrno data := by
  have h1 := hv.read_nonneg
  have h2 := hv.read_le_write
  have hu := hv.unread_length
  have hr := hv.readable_cast
  unfold ReadFits at h
  by_cases hn : data.length ≤ b.writeableBytes
  · rw [if_pos hn] at h
    obtain ⟨hcv, hcu⟩ := extend_valid hv hn h
    rw [← int32_cast (by omega) h] at hcv hcu
    exact ⟨⟨_, readFd_tail hv hn, hcv, hcu⟩, fun hlt => by omega⟩
  · rw [if_neg hn] at h
    obtain ⟨c, hc, hcv, hfree, hcu⟩ := setFull_fillTail hv data (by omega) h.1
    have hdrop : (data.drop b.writeableBytes).length = data.length - b.writeableBytes :=
      List.length_drop
    have htake : (data.take b.writeableBytes).length = b.writeableBytes := by
      rw [List.length_take]
      omega
    have hfit : c.setFull.unread.length + (data.drop b.writeableBytes).length < 2 ^ 31 := by
      rw [hcu, List.length_append, htake, hdrop]
      omega
    obtain ⟨d, hd, hdv, hdu⟩ := ha c.setFull _ hcv hfit
    refine ⟨⟨d, ?_, hdv, ?_⟩, fun _ => ⟨c, hc, hcv, hfree, hcu, hdrop⟩⟩
    · rw [readFd_spill hv (by omega) hextra, hc, ok_bind, hd, ok_bind]
    · rw [hdu, hcu, List.append_assoc, List.take_append_drop]

/-- The index that is stored is the one the unread bytes call for. -/
theorem readFits_of_appends (hv : b.Valid) (h : ReadAppends append b savedErrno data) :
    ReadFits b data.length := by
  have h1 := hv.read_nonneg
  have h2 := hv.read_le_write
  have hu := hv.unread_length
  have hr := hv.readable_cast
  have hbw := hv.writeable_cast
  obtain ⟨c, hok, hcv, hcu⟩ := h.appended
  have hlen := hcv.unread_length
  have hlt := hcv.write_lt
  have hc0 := hcv.read_nonneg
  rw [hcu, List.length_append] at hlen
  have hunread : b.readableBytes + data.length < 2 ^ 31 := by omega
  unfold ReadFits
  by_cases hn : data.length ≤ b.writeableBytes
  · rw [if_pos hn]
    rw [readFd_tail hv hn] at hok
    cases hok
    dsimp only at hlen hlt
    omega
  · rw [if_neg hn]
    obtain ⟨e, he, hev, hfree, -, -⟩ := h.call (by omega)
    have hstore : e.buffer.length = b.buffer.length := (fillTail_frame hv he).1
    have hw := hev.writeable_cast
    rw [hfree, setFull_buffer, hstore] at hw
    have hwlt := hev.write_lt
    generalize e.setFull.writeIndex = w at hw hwlt
    exact ⟨by omega, hunread⟩

/-- For a read of any length the kernel can deliver, `readFd` is an append exactly when the write
index it stores is an `int`; and a failed read only stores `errno`. -/
theorem readFd_appends_iff (ha : Appends append) (hv : b.Valid)
    (hextra : data.length ≤ b.writeableBytes + extrabufSize) (savedErrno : Int) :
    (ReadAppends append b savedErrno data ↔ ReadFits b data.length) ∧
      ∀ errno, readFd append b savedErrno (.error errno) = .ok (-1, errno, b) :=
  ⟨⟨readFits_of_appends hv, readAppends_of_fits ha hv hextra⟩, fun _ => rfl⟩

/-- An `append` that copies everything into a storage of the right size. -/
def appendCopy (c : Buffer) (data : Bytes) : Except Fault Buffer :=
  .ok ⟨c.unread ++ data, 0, (c.unread ++ data).length⟩

theorem appends_appendCopy : Appends appendCopy := by
  intro c data _ hlen
  have hlen' : (c.unread ++ data).length < 2 ^ 31 := by
    rw [List.length_append]
    exact hlen
  refine ⟨_, rfl, valid_mk (le_refl _) (by omega) (le_refl _) (by omega) ?_, ?_⟩
  · unfold maxSize
    omega
  · dsimp only [unread, slice]
    rw [Int.toNat_natCast, Int.toNat_zero, List.take_length, List.drop_zero]

/-- Two bytes go into the tail and the third spills over. -/
theorem readFd_appends_sample :
    ReadAppends appendCopy ⟨List.replicate 12 0, 10, 10⟩ 0 [1, 2, 3] ∧
      readFd appendCopy ⟨List.replicate 12 0, 10, 10⟩ 0 (.error 11) =
        .ok (-1, 11, ⟨List.replicate 12 0, 10, 10⟩) := by
  have hv : Valid ⟨List.replicate 12 0, 10, 10⟩ :=
    valid_mk (by decide) (by decide) (by decide) (by decide) (by decide)
  have hextra : ([1, 2, 3] : Bytes).length ≤
      writeableBytes ⟨List.replicate 12 0, 10, 10⟩ + extrabufSize := by decide
  have h := readFd_appends_iff appends_appendCopy hv hextra 0
  exact ⟨h.1.mpr (by decide), h.2 11⟩

/-- A read of one byte into the last free byte of a storage of 2^31 bytes. -/
theorem not_readAppends_of_full_int (append : Buffer → Bytes → Except Fault Buffer) {buf : Bytes}
    (hlen : buf.length = 2 ^ 31) :
    Valid ⟨buf, 0, 2 ^ 31 - 1⟩ ∧ ¬ ReadAppends append ⟨buf, 0, 2 ^ 31 - 1⟩ 0 [7] := by
  have hv : Valid ⟨buf, 0, 2 ^ 31 - 1⟩ :=
    valid_mk (le_refl _) (by omega) (by omega) (by omega) (by unfold maxSize; omega)
  refine ⟨hv, fun h => ?_⟩
  have hfits := readFits_of_appends hv h
  have hw := hv.writeable_cast
  dsimp only at hw
  unfold ReadFits at hfits
  rw [List.length_singleton, if_pos (by omega)] at hfits
  dsimp only at hfits
  omega

/-- A storage of 2^31 bytes with one free byte: the byte read moves the write index to -2^31. -/
theorem readFd_overflows : ∃ b data, Valid b ∧ data.length ≤ b.writeableBytes + extrabufSize ∧
    ¬ ReadAppends appendCopy b 0 data := by
  obtain ⟨buf, hlen⟩ : ∃ buf : Bytes, buf.length = 2 ^ 31 :=
    ⟨List.replicate (2 ^ 31) 0, List.length_replicate⟩
  obtain ⟨hv, hnot⟩ := not_readAppends_of_full_int appendCopy hlen
  refine ⟨_, [7], hv, ?_, hnot⟩
  rw [List.length_singleton]
  unfold extrabufSize
  omega

/-! ## With the append of the source -/

/-- On a full storage `append` works only if compaction frees more than the data needs. -/
theorem append_full_iff {f : Buffer} (data : Bytes) (hv : f.Valid) (hfull : f.writeableBytes = 0)
    (hpos : 0 < data.length) (hextra : data.length ≤ extrabufSize) :
    (∃ c, f.append data = .ok c ∧ c.Valid ∧ c.unread = f.unread ++ data) ↔
      data.length + kCheapPrepend < f.readIndex := by
  have h1 := hv.read_nonneg
  have h2 := hv.read_le_write
  have h3 := hv.write_lt
  have hw := hv.writeable_cast
  have hr := hv.readable_cast
  have hp := hv.prependable_cast
  have hlen : data.length < 2 ^ 63 := by
    unfold extrabufSize at hextra
    omega
  have hg := hv.grows_iff (add_kCheapPrepend_lt hlen)
  have hk : (kCheapPrepend : Int) = 8 := rfl
  rw [(append_returns_iff hv ⟨data, hlen⟩).2]
  unfold Room AppendFits place
  dsimp only
  rw [if_neg (by omega)]
  cases hgrow : f.grows data.length with
  | true =>
    have hless := hg.mp hgrow
    rw [if_pos rfl, if_neg (by simp)]
    unfold extrabufSize at hextra
    unfold maxSize
    constructor
    · rintro ⟨hroom, hcut, -⟩
      have := hcut (by omega) rfl
      omega
    · intro h
      omega
  | false =>
    have hmore := mt hg.mpr (by rw [hgrow]; decide)
    rw [if_neg (by decide), if_pos ⟨by omega, rfl⟩]
    constructor
    · rintro ⟨hroom, -⟩
      omega
    · intro h
      exact ⟨by omega, fun _ hf => (by cases hf), by omega⟩

/-- A read that spills over is appended exactly when the bytes already retrieved leave more room
in front of the unread ones than the prepend area and the spilled bytes take. -/
theorem readFd_append_spill_iff (hv : b.Valid) (hsize : b.buffer.length < 2 ^ 31)
    (hn : b.writeableBytes < data.length) (hextra : data.length ≤ b.writeableBytes + extrabufSize) :
    (∃ c, readFd Buffer.append b savedErrno (.ok data) = .ok (data.length, savedErrno, c) ∧
      c.Valid ∧ c.unread = b.unread ++ data) ↔
      data.length - b.writeableBytes + kCheapPrepend < b.readIndex := by
  obtain ⟨c, hc, hcv, hfree, hcu⟩ := setFull_fillTail hv data hn hsize
  have hread : c.setFull.readIndex = b.readIndex := by
    rw [setFull_readIndex, (fillTail_frame hv hc).2]
  have hdrop : (data.drop b.writeableBytes).length = data.length - b.writeableBytes :=
    List.length_drop
  have happend := append_full_iff (data.drop b.writeableBytes) hcv hfree (by omega) (by omega)
  have hbytes : c.setFull.unread ++ data.drop b.writeableBytes = b.unread ++ data := by
    rw [hcu, List.append_assoc, List.take_append_drop]
  rw [hdrop, hread, hbytes] at happend
  rw [readFd_spill hv hn hextra, hc, ok_bind]
  constructor
  · rintro ⟨d, hd, hdv, hdu⟩
    obtain ⟨e, he, hd⟩ := bind_eq_ok.mp hd
    cases hd
    have := happend.mp ⟨d, he, hdv, hdu⟩
    omega
  · intro h
    obtain ⟨d, hd, hdv, hdu⟩ := happend.mpr (by omega)
    exact ⟨d, by rw [hd]; rfl, hdv, hdu⟩

end Summer.Net.Buffer
