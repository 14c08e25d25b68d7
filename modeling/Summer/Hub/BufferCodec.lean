import Summer.Hub.MessageLoop
import Summer.Net.BufferQueue

/-!
# The codec on the input buffer

The message callbacks parse in place: the pointers are into the storage of the input buffer, and
what is parsed is retrieved from it. A pointer is its index in the storage. On a valid buffer the
parser does to the unread bytes what `Summer.Hub.parseMessage` does to a list.
-/
namespace Summer.Net.Buffer

open Summer.Lib
open Summer.Hub (CR LF)

/-! ## The buffer operations the parser uses -/

/-- `findCRLF()`. -/
def findCRLF (b : Buffer) : Except Fault (Option Int) := do
  let bytes ← readRange b.buffer b.readIndex b.writeIndex
  .ok ((searchMark CR LF bytes).map fun i : Nat => b.readIndex + i)

/-- `findCRLF(start)`. -/
def findCRLFFrom (b : Buffer) (start : Int) : Except Fault (Option Int) := do
  ensure (b.readIndex ≤ start) (.assertion .findCRLF)
  ensure (start ≤ b.writeIndex) (.assertion .findCRLF)
  let bytes ← readRange b.buffer start b.writeIndex
  .ok ((searchMark CR LF bytes).map fun i : Nat => start + i)

/-- `std::string::assign(first, last)` on pointers into the storage. -/
def assign (b : Buffer) (first : Int) : Option Int → Except Fault Bytes
  | none => .error .nullPointer
  | some last => readRange b.buffer first last

/-- `retrieve(end)` for a pointer that can be null. -/
def retrieveEnd (b : Buffer) : Option Int → Except Fault Buffer
  | none => .error .nullPointer
  | some last => b.retrieveTo (last - b.readIndex)

/-- The buffer with everything retrieved but the bytes `rest` at the end. -/
def leave (b : Buffer) (rest : Bytes) : Buffer :=
  { b with readIndex := b.writeIndex - rest.length }

variable {b : Buffer}

theorem leave_unread_self (hv : b.Valid) : b.leave b.unread = b := by
  have hu := hv.unread_length
  cases b
  simp only [leave, Buffer.mk.injEq, true_and, and_true]
  simp only at hu
  omega

theorem leave_spec (hv : b.Valid) {rest : Bytes} (hr : rest <:+ b.unread) :
    (b.leave rest).Valid ∧ (b.leave rest).unread = rest := by
  obtain ⟨front, hfront⟩ := hr
  have hlen := hv.unread_length
  rw [← hfront, List.length_append] at hlen
  have h1 := hv.read_nonneg
  refine ⟨valid_mk (by omega) (by omega) hv.write_le_size hv.write_lt hv.size_le, ?_⟩
  have hstart : (b.writeIndex - rest.length).toNat = b.readIndex.toNat + front.length := by omega
  dsimp only [leave, unread]
  rw [hstart, ← drop_slice]
  have hslice : slice b.buffer b.readIndex.toNat b.writeIndex.toNat = front ++ rest := hfront.symm
  rw [hslice, List.drop_left]

theorem slice_unread (hv : b.Valid) {i j : Nat} (hj : j ≤ b.unread.length) :
    slice b.buffer (b.readIndex.toNat + i) (b.readIndex.toNat + j) = slice b.unread i j := by
  have h1 := hv.read_nonneg
  have hlen := hv.unread_length
  have hle : b.readIndex.toNat + j ≤ b.writeIndex.toNat := by omega
  simp only [unread, slice, List.take_drop, List.take_take, List.drop_drop, Nat.min_eq_left hle]

/-- A range of unread bytes. -/
theorem readRange_unread (hv : b.Valid) {i j : Nat} (hij : i ≤ j) (hj : j ≤ b.unread.length) :
    readRange b.buffer (b.readIndex + i) (b.readIndex + j) = .ok (slice b.unread i j) := by
  have h1 := hv.read_nonneg
  have h2 := hv.write_le_size
  have hlen := hv.unread_length
  have hi : (b.readIndex + i).toNat = b.readIndex.toNat + i := by omega
  have hj' : (b.readIndex + j).toNat = b.readIndex.toNat + j := by omega
  rw [readRange, ensure_of ⟨by omega, by omega, by omega⟩, ok_bind, hi, hj', slice_unread hv hj]

theorem write_eq (hv : b.Valid) : b.writeIndex = b.readIndex + b.unread.length := by
  have := hv.unread_length
  omega

theorem findCRLF_eq (hv : b.Valid) :
    b.findCRLF = .ok ((Hub.findCRLF b.unread).map fun i : Nat => b.readIndex + i) := by
  have h := readRange_unread hv (Nat.zero_le _) (Nat.le_refl b.unread.length)
  rw [← write_eq hv, Int.natCast_zero, Int.add_zero] at h
  rw [findCRLF, h, ok_bind, slice, List.drop_zero, List.take_length]
  rfl

theorem findCRLFFrom_eq (hv : b.Valid) {start : Nat} (hs : start ≤ b.unread.length) :
    b.findCRLFFrom (b.readIndex + start) =
      .ok ((searchMark CR LF (b.unread.drop start)).map
        fun i : Nat => b.readIndex + start + i) := by
  have h := readRange_unread hv hs (Nat.le_refl b.unread.length)
  rw [← write_eq hv] at h
  have hlen := hv.unread_length
  rw [findCRLFFrom, ensure_of (by omega), ok_bind, ensure_of (by omega), ok_bind, h, ok_bind,
    slice, List.take_length]

theorem retrieveEnd_eq (hv : b.Valid) {n : Nat} (hn : n ≤ b.unread.length) :
    b.retrieveEnd (some (b.readIndex + n)) = .ok (b.leave (b.unread.drop n)) := by
  have h1 := hv.read_nonneg
  have h2 := hv.write_lt
  have hlen := hv.unread_length
  have hoff : b.readIndex + n - b.readIndex = n := by omega
  rw [retrieveEnd, hoff, retrieveTo, ensure_of (by omega), ok_bind, ensure_of (by omega), ok_bind,
    int32_cast (by omega) (by omega), leave, List.length_drop]
  congr 2
  omega

end Summer.Net.Buffer

namespace Summer.Hub.BufferCodec

open Summer.Lib
open Summer.Net (Buffer)
open Summer.Net.Buffer (readRange)

/-! ## The parser -/

def parseMessage (message : Buffer) (s : Strings) :
    Except Fault (ParseResult × Buffer × Strings) := do
  let crlf ← message.findCRLF
  match crlf with
  | none => .ok (.kContinue, message, s)
  | some crlf => do
    let line ← readRange message.buffer message.readIndex crlf
    let spacePos := message.readIndex + line.idxOf space
    if spacePos ≠ crlf then do
      let cmd ← message.assign message.readIndex (some spacePos)
      let topic ← message.assign (spacePos + 1) (some crlf)
      if cmd = pub then do
        let secCrlf ← message.findCRLFFrom (crlf + 2)
        -- The source tests crlf here, which is not null, and goes on with secCrlf.
        let content ← message.assign (crlf + 2) secCrlf
        let message ← message.retrieveEnd (secCrlf.map (· + 2))
        .ok (.kSuccess, message, ⟨cmd, topic, content⟩)
      else do
        let message ← message.retrieveEnd (some (crlf + 2))
        .ok (.kSuccess, message, { s with cmd := cmd, topic := topic })
    else .ok (.kError, message, s)

/-- What the parser leaves in the buffer is what it leaves of the unread bytes. -/
def onBuffer (b : Buffer) (r : ParseResult × Bytes × Strings) : ParseResult × Buffer × Strings :=
  (r.1, b.leave r.2.1, r.2.2)

theorem parseMessage_eq {b : Buffer} (hv : b.Valid) (s : Strings) :
    parseMessage b s = (Hub.parseMessage b.unread s).map (onBuffer b) := by
  rcases searchMark_cases CR LF b.unread with hnone | ⟨a, rest, hm, ha⟩
  · rw [parseMessage, Buffer.findCRLF_eq hv, findCRLF, hnone, parseMessage_noLine hnone]
    simp only [Option.map_none, ok_bind, Except.map, onBuffer, Buffer.leave_unread_self hv]
  have hfind : Hub.findCRLF b.unread = some a.length := by
    rw [hm]
    exact searchMark_append_mark cr_ne_lf ha rest
  have hlen : a.length + 2 ≤ b.unread.length := by
    rw [hm, List.length_append, List.length_cons, List.length_cons]
    omega
  have hline := Buffer.readRange_unread hv (Nat.zero_le a.length) (by omega)
  rw [Int.natCast_zero, Int.add_zero, slice, List.drop_zero] at hline
  have hsp : (b.unread.take a.length).idxOf space ≤ a.length := by
    have h := List.idxOf_le_length (a := space) (l := b.unread.take a.length)
    rw [List.length_take] at h
    omega
  set sp := (b.unread.take a.length).idxOf space with hspdef
  rw [parseMessage, Buffer.findCRLF_eq hv, Hub.parseMessage, hfind, Option.map_some, ok_bind]
  dsimp only
  rw [hline, ok_bind, ← hspdef]
  by_cases heq : sp = a.length
  · rw [if_neg (by omega), if_neg (by omega)]
    simp only [Except.map, onBuffer, Buffer.leave_unread_self hv]
  · rw [if_pos (by omega), if_pos heq]
    have hcmd := Buffer.readRange_unread hv (Nat.zero_le sp) (by omega)
    rw [Int.natCast_zero, Int.add_zero] at hcmd
    have htopic := Buffer.readRange_unread hv (i := sp + 1) (j := a.length) (by omega) (by omega)
    rw [Int.natCast_add, Int.natCast_one, ← Int.add_assoc] at htopic
    have hret := Buffer.retrieveEnd_eq hv hlen
    have hcrlf : b.readIndex + ((a.length + 2 : Nat) : Int) = b.readIndex + a.length + 2 := by omega
    rw [hcrlf] at hret
    simp only [Buffer.assign, hcmd, htopic, ok_bind, Hub.assign,
      ensure_of (show 0 ≤ sp ∧ sp ≤ b.unread.length by omega),
      ensure_of (show sp + 1 ≤ a.length ∧ a.length ≤ b.unread.length by omega)]
    by_cases hp : slice b.unread 0 sp = pub
    · rw [if_pos hp, if_pos hp]
      have hsec := Buffer.findCRLFFrom_eq hv hlen
      rw [hcrlf] at hsec
      rw [hsec, Hub.findCRLFFrom, ensure_of hlen, ok_bind, ok_bind, ok_bind]
      rcases searchMark_cases CR LF (b.unread.drop (a.length + 2)) with
        hnone | ⟨content, tail, htail, hc⟩
      · rw [hnone]
        rfl
      · have hmark : searchMark CR LF (b.unread.drop (a.length + 2)) = some content.length := by
          rw [htail]
          exact searchMark_append_mark cr_ne_lf hc tail
        have hclen : a.length + 2 + content.length + 2 ≤ b.unread.length := by
          have h := congrArg List.length htail
          rw [List.length_drop, List.length_append, List.length_cons, List.length_cons] at h
          omega
        have hcontent := Buffer.readRange_unread hv (i := a.length + 2)
          (j := a.length + 2 + content.length) (by omega) (by omega)
        have hend := Buffer.retrieveEnd_eq hv hclen
        rw [hcrlf] at hcontent
        have hsecpos : b.readIndex + ((a.length + 2 + content.length : Nat) : Int) =
            b.readIndex + a.length + 2 + content.length := by omega
        have hendpos : b.readIndex + ((a.length + 2 + content.length + 2 : Nat) : Int) =
            b.readIndex + a.length + 2 + content.length + 2 := by omega
        rw [hsecpos] at hcontent
        rw [hendpos] at hend
        rw [hmark]
        simp only [Option.map_some, Hub.retrieve, hcontent, hend, ok_bind,
          ensure_of (show a.length + 2 ≤ a.length + 2 + content.length ∧
            a.length + 2 + content.length ≤ b.unread.length by omega), ensure_of hclen]
        rfl
    · rw [if_neg hp, if_neg hp, hret, Hub.retrieve, ensure_of hlen]
      rfl

/-- The parser retrieves from the front. -/
theorem parseMessage_suffix {m rest : Bytes} {s s' : Strings} {r : ParseResult}
    (h : Hub.parseMessage m s = .ok (r, rest, s')) : rest <:+ m := by
  rcases parseMessage_cases m s with ⟨-, hp⟩ | ⟨a, tail, -, -, -, hp⟩ |
    ⟨w, topic, tail, rfl, -, -, -, hp⟩ | ⟨topic, content, tail, rfl, -, -, hp⟩ |
    ⟨topic, tail, -, -, -, hp⟩
  all_goals
    rw [hp] at h
    cases h
  · exact List.suffix_rfl
  · exact List.suffix_rfl
  · exact ⟨(w ++ space :: topic) ++ [CR, LF], by simp⟩
  · exact ⟨(pub ++ space :: topic) ++ CR :: LF :: (content ++ [CR, LF]), by simp⟩

end Summer.Hub.BufferCodec
