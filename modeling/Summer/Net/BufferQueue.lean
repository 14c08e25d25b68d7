import Summer.Net.Buffer

/-!
# The buffer as a byte queue

`Represents` relates a buffer to the list of its unread bytes. Each operation acts on
that list as the queue operation of the same name does, except that `append` and
`shrink` do so only under `AppendFits` and `ShrinkFits`: `makespace` computes the new
size from `writeableBytes`, which can cut the storage below `writeIndex`, and an
`int` index or a `size_t` size can wrap.
-/
namespace Summer.Net.Buffer

open Summer.Lib

variable {b c : Buffer} {q data : Bytes}

/-! ## Reading operations -/

theorem Represents.advance (hr : Represents b q) {n : Nat} (hn : b.readIndex + n ≤ b.writeIndex) :
    Represents { b with readIndex := b.readIndex + n } (q.drop n) := by
  have h1 := hr.read_nonneg
  apply represents_mk (by omega) hn hr.write_le_size hr.write_lt hr.size_le hr.cheap_le_write
  rw [← hr.contents, unread, drop_slice]
  congr 1
  omega

theorem retrieve_represents (hr : Represents b q) (len : Nat) :
    b.retrieve len = .error (.assertion .retrieve) ∨
      ∃ c, b.retrieve len = .ok c ∧ Represents c (q.drop len) := by
  have h1 := hr.read_nonneg
  have h3 := hr.write_lt
  have hrd := hr.readable_cast
  unfold retrieve
  by_cases hl : len ≤ b.readableBytes
  · right
    have hi : int32 (b.readIndex + len) = b.readIndex + len := int32_cast (by omega) (by omega)
    rw [ensure_of hl, hi]
    exact ⟨_, rfl, hr.advance (by omega)⟩
  · left
    rw [ensure_of_not hl]
    rfl

theorem retrieveTo_represents (hr : Represents b q) (off : Int) :
    b.retrieveTo off = .error (.assertion .retrieve) ∨
      ∃ c, b.retrieveTo off = .ok c ∧ Represents c (q.drop off.toNat) := by
  have h1 := hr.read_nonneg
  have h3 := hr.write_lt
  unfold retrieveTo
  by_cases h0 : 0 ≤ off
  · by_cases hl : b.readIndex + off ≤ b.writeIndex
    · right
      have hi : int32 (b.readIndex + off) = b.readIndex + off.toNat := by
        rw [int32_cast (by omega) (by omega)]
        omega
      rw [ensure_of h0, ensure_of hl, hi]
      exact ⟨_, rfl, hr.advance (by omega)⟩
    · left
      rw [ensure_of h0, ensure_of_not hl]
      rfl
  · left
    rw [ensure_of_not h0]
    rfl

theorem retrieveAll_represents (hr : Represents b q) : Represents b.retrieveAll [] := by
  have h1 := hr.cheap_le_write
  have h2 := hr.write_le_size
  have h8 : (kCheapPrepend : Int) = 8 := rfl
  exact represents_mk (by omega) (le_refl _) (h1.trans h2) (by omega) hr.size_le (le_refl _)
    (slice_self _ _)

theorem retrieveAsString_represents (hr : Represents b q) :
    b.retrieveAsString = .ok (q, b.retrieveAll) := by
  have h1 := hr.read_nonneg
  have h2 := hr.read_le_write
  have h3 := hr.write_le_size
  have he : b.readIndex + b.readableBytes = b.writeIndex := by
    have := hr.readable_cast
    omega
  unfold retrieveAsString readRange
  rw [he, ensure_of ⟨h1, h2, h3⟩]
  simp only [ok_bind]
  rw [← hr.contents, unread]

/-! ## Writing operations -/

theorem prepend_represents (hr : Represents b q) (data : Bytes) :
    b.prepend data = .error (.assertion .prepend) ∨
      ∃ c, b.prepend data = .ok c ∧ Represents c (data ++ q) := by
  have h1 := hr.read_nonneg
  have h2 := hr.read_le_write
  have h3 := hr.write_le_size
  have h4 := hr.write_lt
  have hp := hr.prependable_cast
  unfold prepend writeRange
  by_cases hl : data.length < b.prependableBytes
  · right
    have hi : int32 (b.readIndex - data.length) = b.readIndex - data.length :=
      int32_cast (by omega) (by omega)
    rw [ensure_of hl]
    simp only [ok_bind]
    rw [hi, ensure_of ⟨by omega, by omega⟩]
    simp only [ok_bind]
    have hn : (b.readIndex - data.length).toNat + data.length = b.readIndex.toNat := by omega
    have hlen : (overwrite b.buffer (b.readIndex - data.length).toNat data).length =
        b.buffer.length := length_overwrite (by omega)
    refine ⟨_, rfl, represents_mk (by omega) (by omega) (by rw [hlen]; exact h3) h4
      (by rw [hlen]; exact hr.size_le) hr.cheap_le_write ?_⟩
    rw [← slice_append _ b.readIndex.toNat (by omega) (by omega) (by rw [hlen]; omega)]
    congr 1
    · rw [← hn]
      exact slice_overwrite_same (by omega)
    · rw [slice_overwrite_after (by omega) (by omega)]
      exact hr.contents
  · left
    rw [ensure_of_not hl]
    rfl

/-- Bytes written behind `writeIndex`, and the index moved behind them. -/
theorem extend_valid (hv : b.Valid) (hroom : data.length ≤ b.writeableBytes)
    (hi : b.writeIndex + data.length < 2 ^ 31) :
    Valid ⟨overwrite b.buffer b.writeIndex.toNat data, b.readIndex, b.writeIndex + data.length⟩ ∧
      unread ⟨overwrite b.buffer b.writeIndex.toNat data, b.readIndex,
        b.writeIndex + data.length⟩ = b.unread ++ data := by
  have h1 := hv.read_nonneg
  have h2 := hv.read_le_write
  have h3 := hv.write_le_size
  have hw := hv.writeable_cast
  have hlen : (overwrite b.buffer b.writeIndex.toNat data).length = b.buffer.length :=
    length_overwrite (by omega)
  refine ⟨valid_mk h1 (by omega) (by rw [hlen]; omega) hi (by rw [hlen]; exact hv.size_le), ?_⟩
  have hn : (b.writeIndex + data.length).toNat = b.writeIndex.toNat + data.length := by omega
  dsimp only [unread]
  rw [hn, ← slice_append _ b.writeIndex.toNat (by omega) (by omega) (by rw [hlen]; omega)]
  congr 1
  · exact slice_overwrite_before (by omega) (le_refl _)
  · exact slice_overwrite_same (by omega)

/-- With room behind `writeIndex` and an `int` that holds the new index, the end of
`append` extends the unread bytes unless its strict assertion fires. -/
theorem put_valid (hv : b.Valid) (hi : b.writeIndex + data.length < 2 ^ 31) :
    b.put data = .error (.assertion .append) ∨
      ∃ c, b.put data = .ok c ∧ c.Valid ∧ c.unread = b.unread ++ data ∧
        c.writeIndex = b.writeIndex + data.length := by
  have h1 := hv.read_nonneg
  have h2 := hv.read_le_write
  have hw := hv.writeable_cast
  unfold put writeRange
  by_cases hl : data.length < b.writeableBytes
  · right
    have hidx : int32 (b.writeIndex + data.length) = b.writeIndex + data.length :=
      int32_cast (by omega) hi
    obtain ⟨hcv, hu⟩ := extend_valid hv (by omega) hi
    rw [ensure_of hl]
    simp only [ok_bind]
    rw [ensure_of ⟨by omega, by omega⟩, hidx]
    exact ⟨_, rfl, hcv, hu, rfl⟩
  · left
    rw [ensure_of_not hl]
    rfl

/-! ## Making space -/

/-- Where `append` will write: after a compaction the unread bytes start at the
prepend area, otherwise they stay where they are. -/
def place (b : Buffer) (len : Nat) : Int :=
  if b.writeableBytes < len ∧ b.grows len = false then kCheapPrepend + b.readableBytes
  else b.writeIndex

/-- What `append` needs of its input: a growing `makespace` does not cut the storage below
`writeIndex`, and the new write index is an `int`. -/
def AppendFits (b : Buffer) (len : Nat) : Prop :=
  (b.writeableBytes < len → b.grows len = true → b.writeIndex ≤ b.writeableBytes + len) ∧
    b.place len + len < 2 ^ 31

instance (b : Buffer) (len : Nat) : Decidable (AppendFits b len) :=
  inferInstanceAs (Decidable (_ ∧ _))

theorem resize_slice {buf : Bytes} {n lo hi : Nat} (hn : hi ≤ n) (hl : hi ≤ buf.length) :
    slice (buf.take n ++ List.replicate (n - buf.length) 0) lo hi = slice buf lo hi := by
  unfold slice
  rw [List.take_append_of_le_length (by rw [List.length_take]; omega), List.take_take,
    Nat.min_eq_left hn]

theorem grow_valid (hv : b.Valid) {more : Nat} (hlt : b.writeableBytes < more)
    (hg : b.grows more = true) (hfit : b.writeIndex ≤ b.writeableBytes + more)
    (hm : more < 2 ^ 31) :
    ∃ c, b.makespace more = .ok c ∧ c.Valid ∧ c.unread = b.unread ∧
      c.writeIndex = b.writeIndex := by
  have h1 := hv.read_nonneg
  have h2 := hv.read_le_write
  have h3 := hv.write_le_size
  have hn : sizeT (b.writeableBytes + more) = b.writeableBytes + more :=
    sizeT_natCast (by omega)
  unfold makespace resize
  rw [if_pos hg, hn, ensure_of (by unfold maxSize; omega)]
  simp only [ok_bind]
  have hlen : (b.buffer.take (b.writeableBytes + more) ++
      List.replicate (b.writeableBytes + more - b.buffer.length) (0 : UInt8)).length =
      b.writeableBytes + more := by
    rw [List.length_append, List.length_take, List.length_replicate]
    omega
  refine ⟨_, rfl, valid_mk h1 h2 (by rw [hlen]; omega) hv.write_lt
    (by rw [hlen]; unfold maxSize; omega), ?_, rfl⟩
  dsimp only [unread]
  exact resize_slice (by omega) (by omega)

/-- A sum that does not wrap bounds the free space, and what does not fit behind the unread bytes
has to come from before them. -/
theorem compaction_leftward (hv : b.Valid) {more : Nat} (hlt : b.writeableBytes < more)
    (hg : b.grows more = false) (hm : more + kCheapPrepend < 2 ^ 64) :
    more + kCheapPrepend ≤ (b.buffer.length - b.writeIndex) + b.readIndex ∧
      kCheapPrepend < b.readIndex := by
  have hw := hv.writeable_cast
  have hfree : ¬ (b.buffer.length - b.writeIndex) + b.readIndex < more + kCheapPrepend :=
    mt (hv.grows_iff hm).mpr (by rw [hg]; decide)
  constructor <;> omega

/-- Compaction moves the unread bytes to the front of the storage, leftwards. -/
theorem compact_valid (hv : b.Valid) {more : Nat} (hlt : b.writeableBytes < more)
    (hg : b.grows more = false) (hm : more + kCheapPrepend < 2 ^ 64) :
    ∃ c, b.makespace more = .ok c ∧ c.Valid ∧ c.unread = b.unread ∧
      c.writeIndex = kCheapPrepend + b.readableBytes ∧ c.buffer.length = b.buffer.length ∧
      c.readIndex = kCheapPrepend := by
  have h1 := hv.read_nonneg
  have h2 := hv.read_le_write
  have h3 := hv.write_le_size
  have h4 := hv.write_lt
  have hw := hv.writeable_cast
  have hrd := hv.readable_cast
  obtain ⟨hfree, hk⟩ := compaction_leftward hv hlt hg hm
  have hidx : int32 (kCheapPrepend + b.readableBytes) = kCheapPrepend + b.readableBytes := by
    have : (kCheapPrepend : Int) = 8 := rfl
    exact int32_cast (by omega) (by omega)
  unfold makespace moveRange
  rw [if_neg (by rw [hg]; decide)]
  dsimp only
  rw [hidx, ensure_of ⟨h1, h2, h3⟩]
  simp only [ok_bind]
  rw [ensure_of ⟨by omega, by omega⟩]
  simp only [ok_bind]
  rw [ensure_of (by omega)]
  simp only [ok_bind]
  have hsum : b.readIndex.toNat + (b.writeIndex - b.readIndex).toNat = b.writeIndex.toNat := by
    omega
  have hcopy : copyForward b.buffer b.readIndex.toNat (kCheapPrepend : Int).toNat
      (b.writeIndex - b.readIndex).toNat =
        overwrite b.buffer (kCheapPrepend : Int).toNat
          (slice b.buffer b.readIndex.toNat b.writeIndex.toNat) := by
    rw [← hsum]
    exact copyForward_eq_overwrite (by omega) (by omega)
  have hq : slice b.buffer b.readIndex.toNat b.writeIndex.toNat = b.unread := rfl
  have hql : b.unread.length = b.readableBytes := by
    have := hv.unread_length
    omega
  rw [hcopy, hq]
  have hlen : (overwrite b.buffer (kCheapPrepend : Int).toNat b.unread).length =
      b.buffer.length := length_overwrite (by omega)
  have hcv : Valid ⟨overwrite b.buffer (kCheapPrepend : Int).toNat b.unread, kCheapPrepend,
      kCheapPrepend + b.readableBytes⟩ :=
    valid_mk (by omega) (by omega) (by rw [hlen]; omega) (by omega)
      (by rw [hlen]; exact hv.size_le)
  have hused := hcv.readable_cast
  simp only at hused
  rw [ensure_of (by omega)]
  refine ⟨_, rfl, hcv, ?_, rfl, hlen, rfl⟩
  have hn : ((kCheapPrepend : Int) + b.readableBytes).toNat =
      (kCheapPrepend : Int).toNat + b.unread.length := by omega
  rw [unread, hn]
  exact slice_overwrite_same (by omega)

/-- What a compaction for `len` bytes leaves. -/
structure Compacted (b : Buffer) (len : Nat) (c : Buffer) : Prop where
  valid : c.Valid
  unread : c.unread = b.unread
  readIndex : c.readIndex = kCheapPrepend
  size : c.buffer.length = b.buffer.length
  room : len ≤ c.writeableBytes

/-- When `append` makes space without growing, the unread bytes start behind the prepend area,
and moving them there makes enough room, exactly as long as the test does not wrap. -/
theorem compaction_makes_room (hv : b.Valid) {len : Nat} (hlt : b.writeableBytes < len)
    (hg : b.grows len = false) :
    (kCheapPrepend < b.readIndex ∧ ∃ c, b.makespace len = .ok c ∧ Compacted b len c) ↔
      len + kCheapPrepend < 2 ^ 64 := by
  constructor
  · intro h
    obtain ⟨-, c, -, hc⟩ := h
    have hw := hc.valid.writeable_cast
    have hread := hc.valid.read_nonneg
    have hwrite := hc.valid.read_le_write
    have hsize := hc.valid.size_le
    have hroom := hc.room
    unfold maxSize at hsize
    apply add_kCheapPrepend_lt
    omega
  · intro hsum
    obtain ⟨hfree, hleft⟩ := compaction_leftward hv hlt hg hsum
    obtain ⟨c, hc, hcv, hu, hwrite, hsize, hread⟩ := compact_valid hv hlt hg hsum
    refine ⟨hleft, c, hc, hcv, hu, hread, hsize, ?_⟩
    have hw := hcv.writeable_cast
    have hused := hv.readable_cast
    omega

/-- Ten bytes are wanted where five are free behind the unread bytes and 22 before them. -/
theorem compaction_makes_room_sample :
    ∃ c, makespace ⟨List.replicate 40 0, 30, 35⟩ 10 = .ok c ∧
      Compacted ⟨List.replicate 40 0, 30, 35⟩ 10 c :=
  ((compaction_makes_room (valid_mk (by decide) (by decide) (by decide) (by decide) (by decide))
    (by decide) (by decide)).mpr (by decide)).2

/-- The largest `size_t` wraps in the test, which then finds enough room before the unread byte,
and the byte is copied onto itself. -/
theorem wrapped_length_overlaps :
    ∃ b : Buffer, b.Valid ∧ b.writeableBytes < 2 ^ 64 - 1 ∧ b.grows (2 ^ 64 - 1) = false ∧
      ¬ kCheapPrepend < b.readIndex ∧ b.makespace (2 ^ 64 - 1) = .error .overlap :=
  ⟨⟨List.replicate 16 0, 8, 9⟩,
    valid_mk (by decide) (by decide) (by decide) (by decide) (by decide), by decide +kernel,
    by decide +kernel, by decide, faultOf_eq_some.mp (by decide +kernel)⟩

/-- An `append` that fits extends the unread bytes, unless its assertion fires. -/
theorem append_valid (hv : b.Valid) (hfit : AppendFits b data.length) :
    b.append data = .error (.assertion .append) ∨
      ∃ c, b.append data = .ok c ∧ c.Valid ∧ c.unread = b.unread ++ data ∧
        c.writeIndex = b.place data.length + data.length := by
  obtain ⟨hgrow, hplace⟩ := hfit
  have h0 := hv.read_nonneg
  have h1 := hv.read_le_write
  unfold place at hplace ⊢
  unfold append
  by_cases hlt : b.writeableBytes < data.length
  · rw [if_pos hlt]
    cases hg : b.grows data.length with
    | true =>
      rw [if_neg (by simp [hg])] at hplace ⊢
      obtain ⟨c, hc, hcv, hu, hi⟩ := grow_valid hv hlt hg (hgrow hlt hg) (by omega)
      rw [hc, ← hu, ← hi]
      exact put_valid hcv (by rw [hi]; exact hplace)
    | false =>
      rw [if_pos ⟨hlt, hg⟩] at hplace
      rw [if_pos ⟨hlt, rfl⟩]
      obtain ⟨c, hc, hcv, hu, hi, -⟩ :=
        compact_valid hv hlt hg (add_kCheapPrepend_lt (by omega))
      rw [hc, ← hu, ← hi]
      exact put_valid hcv (by rw [hi]; exact hplace)
  · rw [if_neg hlt]
    rw [if_neg (by tauto)] at hplace ⊢
    exact put_valid hv hplace

theorem append_represents (hr : Represents b q) (hfit : AppendFits b data.length) :
    b.append data = .error (.assertion .append) ∨
      ∃ c, b.append data = .ok c ∧ Represents c (q ++ data) := by
  refine (append_valid hr.toValid hfit).imp_right ?_
  rintro ⟨c, hc, hcv, hu, hi⟩
  refine ⟨c, hc, hcv, ?_, by rw [hu, hr.contents]⟩
  have hplace : kCheapPrepend ≤ b.place data.length := by
    unfold place
    split
    · omega
    · exact hr.cheap_le_write
  omega

/-- Conversely an `append` that extends the unread bytes had fitting input. Otherwise the copy
would write behind a storage that was cut, or the stored index would be smaller than the one
used. -/
theorem appendFits_of_valid (hv : b.Valid) (hd : data.length < 2 ^ 63)
    (hok : b.append data = .ok c) (hc : c.Valid) (hu : c.unread = b.unread ++ data) :
    AppendFits b data.length := by
  have hlen := hc.unread_length
  have hq := hv.unread_length
  rw [hu, List.length_append] at hlen
  have hc0 := hc.read_nonneg
  have hc1 := hc.write_lt
  have hb0 := hv.read_nonneg
  have hb2 := hv.read_le_write
  have hb3 := hv.write_lt
  have hb4 := hv.size_le
  unfold maxSize at hb4
  have hbw := hv.writeable_cast
  have hbr := hv.readable_cast
  unfold append at hok
  obtain ⟨d, hd1, hput⟩ := bind_eq_ok.mp hok
  unfold put writeRange at hput
  obtain ⟨_, hroom, hput⟩ := bind_eq_ok.mp hput
  obtain ⟨buf, hbuf, hput⟩ := bind_eq_ok.mp hput
  obtain ⟨_, hrange, hbuf⟩ := bind_eq_ok.mp hbuf
  rw [ensure_eq_ok] at hrange
  cases hput
  simp only at hlen hc0 hc1
  unfold AppendFits place
  by_cases hlt : b.writeableBytes < data.length
  · rw [if_pos hlt] at hd1
    cases hg : b.grows data.length with
    | true =>
      unfold makespace resize at hd1
      rw [if_pos hg] at hd1
      obtain ⟨nbuf, hn, hd1⟩ := bind_eq_ok.mp hd1
      obtain ⟨_, hmax, hn⟩ := bind_eq_ok.mp hn
      cases hn
      cases hd1
      have hs : (sizeT (b.writeableBytes + data.length) : Int) = b.writeableBytes + data.length :=
        sizeT_cast (by omega) (by omega)
      simp only [List.length_append, List.length_take, List.length_replicate] at hrange hlen hc0 hc1
      rw [if_neg (by simp)]
      exact ⟨fun _ _ => by omega, by omega⟩
    | false =>
      obtain ⟨e, he, hev, heu, hi, -⟩ := compact_valid hv hlt hg (add_kCheapPrepend_lt hd)
      rw [hd1] at he
      cases he
      have hel := hev.unread_length
      rw [heu] at hel
      rw [if_pos ⟨hlt, rfl⟩]
      exact ⟨fun _ h => (by cases h), by omega⟩
  · rw [if_neg hlt] at hd1
    cases hd1
    rw [if_neg (by tauto)]
    exact ⟨fun h => absurd h hlt, by omega⟩

theorem appendFits_of_represents (hr : Represents b q) (hd : data.length < 2 ^ 63)
    (hok : b.append data = .ok c) (hc : Represents c (q ++ data)) :
    AppendFits b data.length :=
  appendFits_of_valid hr.toValid hd hok hc.toValid (by rw [hc.contents, hr.contents])

/-! ## Shrinking -/

/-- The size `shrink` asks for is a `size_t`, and its new write index is an `int`. After a
`prepend` the unread bytes can start below the prepend area, so the index can grow. -/
def ShrinkFits (b : Buffer) (reserve : Nat) : Prop :=
  kCheapPrepend + b.readableBytes + reserve < 2 ^ 64 ∧ kCheapPrepend + b.readableBytes < 2 ^ 31

instance (b : Buffer) (reserve : Nat) : Decidable (ShrinkFits b reserve) :=
  inferInstanceAs (Decidable (_ ∧ _))

theorem shrink_represents (hr : Represents b q) {reserve : Nat} (hfit : ShrinkFits b reserve) :
    b.shrink reserve = .error .lengthError ∨
      ∃ c, b.shrink reserve = .ok c ∧ Represents c q := by
  have h1 := hr.read_nonneg
  have h2 := hr.read_le_write
  have h3 := hr.write_le_size
  have h4 := hr.write_lt
  have hk : (kCheapPrepend : Int) = 8 := rfl
  have hrd := hr.readable_cast
  obtain ⟨hfit, hidx'⟩ := hfit
  unfold shrink vector readRange writeRange
  rw [show (kCheapPrepend + b.readableBytes + reserve : Int) =
    ((kCheapPrepend + b.readableBytes + reserve : Nat) : Int) from by push_cast; rfl,
    sizeT_natCast hfit]
  by_cases hmax : kCheapPrepend + b.readableBytes + reserve ≤ maxSize
  · right
    have hidx : int32 (kCheapPrepend + b.readableBytes) = kCheapPrepend + b.readableBytes :=
      int32_cast (by omega) (by omega)
    have hq : slice b.buffer b.readIndex.toNat b.writeIndex.toNat = q := hr.contents
    have hql : q.length = b.readableBytes := by
      have := hr.unread_length
      rw [hr.contents] at this
      omega
    rw [ensure_of hmax]
    simp only [ok_bind]
    rw [ensure_of ⟨h1, h2, h3⟩]
    simp only [ok_bind]
    rw [hq, ensure_of ⟨by omega, by rw [List.length_replicate]; omega⟩]
    simp only [ok_bind]
    rw [hidx]
    have hlen : (overwrite (List.replicate (kCheapPrepend + b.readableBytes + reserve) 0)
        (kCheapPrepend : Int).toNat q).length = kCheapPrepend + b.readableBytes + reserve := by
      rw [length_overwrite (by rw [List.length_replicate]; omega), List.length_replicate]
    refine ⟨_, rfl, represents_mk (by omega) (by omega) (by rw [hlen]; omega) (by omega)
      (by rw [hlen]; exact hmax) (by omega) ?_⟩
    have hn : ((kCheapPrepend : Int) + b.readableBytes).toNat =
        (kCheapPrepend : Int).toNat + q.length := by omega
    rw [hn]
    exact slice_overwrite_same (by rw [List.length_replicate]; omega)
  · left
    rw [ensure_of_not hmax]
    rfl

/-- A wrapped size leaves no room for the prepend area and the unread bytes. -/
theorem shrinkFits_of_represents (hr : Represents b q) {reserve : Nat} (hres : reserve < 2 ^ 64)
    (hok : b.shrink reserve = .ok c) (hc : Represents c q) : ShrinkFits b reserve := by
  have hlen := hc.unread_length
  have hq := hr.unread_length
  rw [hc.contents] at hlen
  rw [hr.contents] at hq
  have hc1 := hc.write_lt
  have h3 := hr.write_le_size
  have h4 := hr.write_lt
  have hk : (kCheapPrepend : Int) = 8 := rfl
  have hrd := hr.readable_cast
  unfold shrink vector readRange writeRange at hok
  obtain ⟨buf, hbuf, hok⟩ := bind_eq_ok.mp hok
  obtain ⟨_, -, hbuf⟩ := bind_eq_ok.mp hbuf
  obtain ⟨d, hd, hok⟩ := bind_eq_ok.mp hok
  obtain ⟨_, -, hd⟩ := bind_eq_ok.mp hd
  obtain ⟨e, he, hok⟩ := bind_eq_ok.mp hok
  obtain ⟨_, hrange, -⟩ := bind_eq_ok.mp he
  rw [ensure_eq_ok] at hrange
  cases hok
  simp only at hlen hc1
  cases hbuf
  cases hd
  have h1 := hr.read_nonneg
  have h2 := hr.read_le_write
  rw [List.length_replicate, length_slice_of_le (by omega)] at hrange
  unfold sizeT at hrange
  unfold ShrinkFits
  omega

end Summer.Net.Buffer
