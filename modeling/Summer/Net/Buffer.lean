import Summer.Basic
import Summer.Lib.MachineInt
import Summer.Lib.Run
import Summer.Lib.Storage

/-!
# The input and output buffer

`Buffer` is a storage of bytes with two `int` indices into it. Sizes are `size_t`,
so `writeableBytes` wraps when `writeIndex` has passed the end of the storage, and
every sum stored back into an index is reduced to an `int`.
-/
namespace Summer.Net

open Summer.Lib

structure Buffer where
  buffer : Bytes
  readIndex : Int
  writeIndex : Int
  deriving DecidableEq, Repr

namespace Buffer

def kCheapPrepend : Nat := 8
def kInitialSize : Nat := 1024

/-- `max_size()` of a vector of characters. -/
def maxSize : Nat := 2 ^ 63 - 1

/-! ## The vector and the ranges the source copies -/

/-- `std::vector<char>(n)`. -/
def vector (n : Nat) : Except Fault Bytes := do
  ensure (n ≤ maxSize) .lengthError
  .ok (List.replicate n 0)

/-- `std::vector<char>::resize`, which drops what lies past the new size. -/
def resize (buf : Bytes) (n : Nat) : Except Fault Bytes := do
  ensure (n ≤ maxSize) .lengthError
  .ok (buf.take n ++ List.replicate (n - buf.length) 0)

def readRange (buf : Bytes) (lo hi : Int) : Except Fault Bytes := do
  ensure (0 ≤ lo ∧ lo ≤ hi ∧ hi ≤ buf.length) .outOfRange
  .ok (slice buf lo.toNat hi.toNat)

def writeRange (buf : Bytes) (pos : Int) (data : Bytes) : Except Fault Bytes := do
  ensure (0 ≤ pos ∧ pos + data.length ≤ buf.length) .outOfRange
  .ok (overwrite buf pos.toNat data)

/-- `std::copy` of `[lo, hi)` to `dst` inside one storage. -/
def moveRange (buf : Bytes) (lo hi dst : Int) : Except Fault Bytes := do
  ensure (0 ≤ lo ∧ lo ≤ hi ∧ hi ≤ buf.length) .outOfRange
  ensure (0 ≤ dst ∧ dst + (hi - lo) ≤ buf.length) .outOfRange
  ensure (¬ (lo ≤ dst ∧ dst < hi)) .overlap
  .ok (copyForward buf lo.toNat dst.toNat (hi - lo).toNat)

/-! ## The operations -/

/-- A freshly constructed buffer. -/
def init : Buffer where
  buffer := List.replicate (kCheapPrepend + kInitialSize) 0
  readIndex := kCheapPrepend
  writeIndex := kCheapPrepend

def swap (b rbf : Buffer) : Buffer × Buffer :=
  ({ b with buffer := rbf.buffer, readIndex := rbf.readIndex, writeIndex := rbf.writeIndex },
    { rbf with buffer := b.buffer, readIndex := b.readIndex, writeIndex := b.writeIndex })

def readableBytes (b : Buffer) : Nat := sizeT (int32 (b.writeIndex - b.readIndex))

def writeableBytes (b : Buffer) : Nat := sizeT (b.buffer.length - b.writeIndex)

def prependableBytes (b : Buffer) : Nat := sizeT b.readIndex

def retrieve (b : Buffer) (len : Nat) : Except Fault Buffer := do
  ensure (len ≤ b.readableBytes) (.assertion .retrieve)
  .ok { b with readIndex := int32 (b.readIndex + len) }

/-- `retrieve(end)` for the pointer `end = peek() + off`. -/
def retrieveTo (b : Buffer) (off : Int) : Except Fault Buffer := do
  ensure (0 ≤ off) (.assertion .retrieve)
  ensure (b.readIndex + off ≤ b.writeIndex) (.assertion .retrieve)
  .ok { b with readIndex := int32 (b.readIndex + off) }

def retrieveAll (b : Buffer) : Buffer :=
  { b with readIndex := kCheapPrepend, writeIndex := kCheapPrepend }

def retrieveAsString (b : Buffer) : Except Fault (Bytes × Buffer) := do
  let str ← readRange b.buffer b.readIndex (b.readIndex + b.readableBytes)
  .ok (str, b.retrieveAll)

/-- The test of `makespace`: no compaction frees enough room. -/
def grows (b : Buffer) (more : Nat) : Bool :=
  sizeT (b.writeableBytes + sizeT b.readIndex) < sizeT (more + kCheapPrepend)

def makespace (b : Buffer) (more : Nat) : Except Fault Buffer :=
  if b.grows more then do
    -- The new size counts from writeableBytes(), not from writeIndex_.
    let buffer ← resize b.buffer (sizeT (b.writeableBytes + more))
    .ok { b with buffer := buffer }
  else do
    let used := b.readableBytes
    let buffer ← moveRange b.buffer b.readIndex b.writeIndex kCheapPrepend
    let c : Buffer :=
      { buffer := buffer, readIndex := kCheapPrepend, writeIndex := int32 (kCheapPrepend + used) }
    ensure (used = c.readableBytes) (.assertion .makespace)
    .ok c

/-- The end of `append`, once there is room: the assertion, the copy and the index. -/
def put (b : Buffer) (data : Bytes) : Except Fault Buffer := do
  ensure (data.length < b.writeableBytes) (.assertion .append)
  let buffer ← writeRange b.buffer b.writeIndex data
  .ok { b with buffer := buffer, writeIndex := int32 (b.writeIndex + data.length) }

def append (b : Buffer) (data : Bytes) : Except Fault Buffer := do
  let c ← (if b.writeableBytes < data.length then b.makespace data.length else .ok b)
  c.put data

def prepend (b : Buffer) (data : Bytes) : Except Fault Buffer := do
  ensure (data.length < b.prependableBytes) (.assertion .prepend)
  let readIndex := int32 (b.readIndex - data.length)
  let buffer ← writeRange b.buffer readIndex data
  .ok { b with buffer := buffer, readIndex := readIndex }

def shrink (b : Buffer) (reserve : Nat) : Except Fault Buffer := do
  let buf ← vector (sizeT (kCheapPrepend + b.readableBytes + reserve))
  let used := b.readableBytes
  let data ← readRange b.buffer b.readIndex b.writeIndex
  let buf ← writeRange buf kCheapPrepend data
  .ok { buffer := buf, readIndex := kCheapPrepend, writeIndex := int32 (kCheapPrepend + used) }

/-! ## Well-formed buffers -/

/-- The indices are ordered and inside the storage, and the storage is one a vector can hold. -/
structure Valid (b : Buffer) : Prop where
  read_nonneg : 0 ≤ b.readIndex
  read_le_write : b.readIndex ≤ b.writeIndex
  write_le_size : b.writeIndex ≤ b.buffer.length
  write_lt : b.writeIndex < 2 ^ 31
  size_le : b.buffer.length ≤ maxSize

theorem valid_mk {buf : Bytes} {r w : Int} (hr : 0 ≤ r) (hrw : r ≤ w) (hw : w ≤ buf.length)
    (hi : w < 2 ^ 31) (hs : buf.length ≤ maxSize) : Valid ⟨buf, r, w⟩ :=
  ⟨hr, hrw, hw, hi, hs⟩

/-- The unread bytes `[readIndex, writeIndex)`. -/
def unread (b : Buffer) : Bytes := slice b.buffer b.readIndex.toNat b.writeIndex.toNat

/-- `b` holds the queue `q`. No operation moves `writeIndex` below the prepend area. -/
structure Represents (b : Buffer) (q : Bytes) : Prop extends Valid b where
  cheap_le_write : kCheapPrepend ≤ b.writeIndex
  contents : b.unread = q

theorem represents_mk {buf q : Bytes} {r w : Int} (hr : 0 ≤ r) (hrw : r ≤ w)
    (hw : w ≤ buf.length) (hi : w < 2 ^ 31) (hs : buf.length ≤ maxSize) (hc : kCheapPrepend ≤ w)
    (hq : slice buf r.toNat w.toNat = q) : Represents ⟨buf, r, w⟩ q :=
  ⟨valid_mk hr hrw hw hi hs, hc, hq⟩

theorem represents_init : Represents init [] :=
  represents_mk (by decide) (le_refl _) (by rw [List.length_replicate]; decide) (by decide)
    (by rw [List.length_replicate]; decide) (le_refl _) (slice_self _ _)

/-- The test of `makespace` does not wrap for the length of an array. -/
theorem add_kCheapPrepend_lt {more : Nat} (h : more < 2 ^ 63) : more + kCheapPrepend < 2 ^ 64 := by
  unfold kCheapPrepend
  omega

namespace Valid

variable {b : Buffer} (hv : Valid b)

include hv

theorem readable_cast : (b.readableBytes : Int) = b.writeIndex - b.readIndex := by
  have h1 := hv.read_nonneg
  have h2 := hv.read_le_write
  have h3 := hv.write_lt
  unfold readableBytes
  rw [int32_cast (by omega) (by omega), sizeT_cast (by omega) (by omega)]

theorem writeable_cast : (b.writeableBytes : Int) = b.buffer.length - b.writeIndex := by
  have h1 := hv.read_nonneg
  have h2 := hv.read_le_write
  have h3 := hv.write_le_size
  have h4 := hv.size_le
  unfold maxSize at h4
  exact sizeT_cast (by omega) (by omega)

theorem prependable_cast : (b.prependableBytes : Int) = b.readIndex := by
  have h1 := hv.read_nonneg
  have h2 := hv.read_le_write
  have h3 := hv.write_lt
  exact sizeT_cast (by omega) (by omega)

theorem unread_length : (b.unread.length : Int) = b.writeIndex - b.readIndex := by
  have h1 := hv.read_nonneg
  have h2 := hv.read_le_write
  have h3 := hv.write_le_size
  unfold unread
  rw [length_slice_of_le (by omega)]
  omega

theorem grows_iff {more : Nat} (hm : more + kCheapPrepend < 2 ^ 64) :
    b.grows more = true ↔
      (b.buffer.length - b.writeIndex) + b.readIndex < more + kCheapPrepend := by
  have h1 := hv.read_nonneg
  have h2 := hv.read_le_write
  have h3 := hv.write_lt
  have h4 := hv.write_le_size
  have h5 := hv.size_le
  have hw := hv.writeable_cast
  have hr := hv.prependable_cast
  unfold maxSize at h5
  unfold prependableBytes at hr
  have hs := sizeT_cast (x := b.writeableBytes + sizeT b.readIndex) (by omega) (by omega)
  have hk := sizeT_cast (x := more + kCheapPrepend) (by omega) (by omega)
  unfold grows
  rw [decide_eq_true_iff]
  omega

end Valid

end Buffer

end Summer.Net
