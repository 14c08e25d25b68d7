import Summer.Net.BufferProgram

/-!
# The assertion of append

`append` makes space only if the data is longer than the free space, and then asserts that the
free space is larger than the data. Both `makespace` and the test can leave exactly as much
space as the data needs, or less.
-/
namespace Summer.Net.Buffer

open Summer.Lib BufferProgram

variable {b c : Buffer} {data : Bytes} {len : Nat}

/-- The space left for `append` is larger than the data. -/
def Room (b : Buffer) (len : Nat) : Prop :=
  if len ≤ b.writeableBytes then len < b.writeableBytes
  else if b.grows len = true then
    -- The resize throws, or cuts the storage so far that the free space wraps, or leaves room.
    maxSize < b.writeableBytes + len ∨ b.writeableBytes + len < b.writeIndex ∨
      b.writeIndex < b.writeableBytes
  else len + kCheapPrepend < b.writeableBytes + b.prependableBytes

instance (b : Buffer) (len : Nat) : Decidable (Room b len) := by
  unfold Room
  infer_instance

/-! ## The end of append -/

theorem put_assertion_iff :
    (∃ site, b.put data = .error (.assertion site)) ↔ b.writeableBytes ≤ data.length := by
  unfold put
  by_cases hl : data.length < b.writeableBytes
  · rw [ensure_of hl, ok_bind]
    constructor
    · rintro ⟨site, h⟩
      rcases bind_eq_error.mp h with h | ⟨buf, -, h⟩
      · unfold writeRange at h
        rcases ensure_bind_eq_error.mp h with ⟨-, h⟩ | ⟨-, h⟩
        · cases h
        · cases h
      · cases h
    · intro h
      omega
  · rw [ensure_of_not hl, error_bind]
    exact ⟨fun _ => by omega, fun _ => ⟨.append, rfl⟩⟩

/-! ## Growing -/

/-- A resize that does not throw leaves a storage of the new size. -/
theorem makespace_grows (hv : b.Valid) (hlen : len < 2 ^ 63) (hg : b.grows len = true) :
    (maxSize < b.writeableBytes + len ∧ b.makespace len = .error .lengthError) ∨
      (b.writeableBytes + len ≤ maxSize ∧ ∃ c, b.makespace len = .ok c ∧
        c.writeableBytes = sizeT (b.writeableBytes + len - b.writeIndex)) := by
  have h1 := hv.size_le
  have h2 := hv.writeable_cast
  have h3 := hv.read_nonneg
  have h4 := hv.read_le_write
  have hn : sizeT (b.writeableBytes + len) = b.writeableBytes + len := by
    apply sizeT_natCast
    unfold maxSize at h1
    omega
  unfold makespace resize
  rw [if_pos hg, hn]
  by_cases hmax : b.writeableBytes + len ≤ maxSize
  · right
    refine ⟨hmax, ?_⟩
    rw [ensure_of hmax]
    refine ⟨_, rfl, ?_⟩
    simp only [writeableBytes, List.length_append, List.length_take, List.length_replicate]
    congr 1
    omega
  · left
    rw [ensure_of_not hmax]
    exact ⟨by omega, rfl⟩

/-- Beyond the end of the storage the free space wraps to a size that no data has. -/
theorem sizeT_free_le_iff {w : Int} {free : Nat} (h0 : 0 ≤ w) (hw : w < 2 ^ 31)
    (hlen : len < 2 ^ 63) (hmax : free + len ≤ maxSize) :
    sizeT (free + len - w) ≤ len ↔ w ≤ free + len ∧ free ≤ w := by
  unfold maxSize at hmax
  by_cases hcut : w ≤ free + len
  · have := sizeT_cast (x := free + len - w) (by omega) (by omega)
    omega
  · unfold sizeT
    omega

/-! ## When append aborts -/

theorem append_aborts_iff (hv : b.Valid) (hlen : data.length < 2 ^ 63) :
    (∃ site, b.append data = .error (.assertion site)) ↔ ¬ Room b data.length := by
  have h0 := hv.read_nonneg
  have h1 := hv.read_le_write
  have hw := hv.writeable_cast
  have hr := hv.readable_cast
  have hp := hv.prependable_cast
  unfold append Room
  by_cases hle : data.length ≤ b.writeableBytes
  · rw [if_neg (by omega), if_pos hle, ok_bind, put_assertion_iff]
    omega
  · rw [if_pos (by omega), if_neg hle]
    cases hg : b.grows data.length with
    | true =>
      rw [if_pos rfl]
      rcases makespace_grows hv hlen hg with ⟨hmax, hm⟩ | ⟨hmax, c, hm, hc⟩
      · rw [hm, error_bind]
        constructor
        · rintro ⟨site, h⟩
          cases h
        · intro h
          exact absurd (.inl hmax) h
      · rw [hm, ok_bind, put_assertion_iff, hc,
          sizeT_free_le_iff (by omega) hv.write_lt hlen hmax]
        omega
    | false =>
      obtain ⟨c, hm, hcv, -, hi, hsize, -⟩ :=
        compact_valid hv (by omega) hg (add_kCheapPrepend_lt hlen)
      have hcw := hcv.writeable_cast
      rw [hm, ok_bind, put_assertion_iff, if_neg (by decide)]
      omega

/-- No assertion fails exactly when there is room; and the data has been appended exactly when,
besides, growing did not cut the storage and the new write index is an `int`. -/
theorem append_returns_iff (hv : b.Valid) (data : Chunk) :
    ((∀ site, b.append data.1 ≠ .error (.assertion site)) ↔ Room b data.1.length) ∧
    ((∃ c, b.append data.1 = .ok c ∧ c.Valid ∧ c.unread = b.unread ++ data.1) ↔
      Room b data.1.length ∧ AppendFits b data.1.length) := by
  have habort := append_aborts_iff hv data.2
  constructor
  · rw [← not_exists, habort, not_not]
  · constructor
    · rintro ⟨c, hok, hcv, hu⟩
      refine ⟨?_, appendFits_of_valid hv data.2 hok hcv hu⟩
      by_contra hroom
      obtain ⟨site, herr⟩ := habort.mpr hroom
      rw [hok] at herr
      cases herr
    · rintro ⟨hroom, hfit⟩
      rcases append_valid hv hfit with herr | ⟨c, hok, hcv, hu, -⟩
      · exact absurd hroom (habort.mp ⟨.append, herr⟩)
      · exact ⟨c, hok, hcv, hu⟩

/-- Ten bytes of storage of which two are free, and one byte to append. -/
theorem append_returns_sample :
    ∃ c, append ⟨List.replicate 10 0, 8, 8⟩ [7] = .ok c ∧ c.Valid ∧ c.unread = [7] := by
  have hv : Valid ⟨List.replicate 10 0, 8, 8⟩ :=
    valid_mk (by decide) (by decide) (by decide) (by decide) (by decide)
  exact (append_returns_iff hv ⟨[7], by decide⟩).2.mpr (by decide)

/-- A fresh buffer filled to the last byte; 600 bytes and then 500 in a fresh buffer, for which
the storage grows too little; and a compaction that leaves exactly the two bytes asked for. -/
theorem append_aborts_at_the_boundary :
    init.Valid ∧ init.append (List.replicate 1024 1) = .error (.assertion .append) ∧
      (init.append (List.replicate 600 1) >>= fun b => b.append (List.replicate 500 1)) =
        .error (.assertion .append) ∧
      Valid ⟨List.replicate 12 0, 10, 12⟩ ∧
      append ⟨List.replicate 12 0, 10, 12⟩ [1, 2] = .error (.assertion .append) := by
  refine ⟨represents_init.toValid, ?_, ?_, ?_, ?_⟩
  · exact faultOf_eq_some.mp (by decide +kernel)
  · exact faultOf_eq_some.mp (by decide +kernel)
  · exact valid_mk (by decide) (by decide) (by decide) (by decide) (by decide)
  · exact faultOf_eq_some.mp (by decide)

end Summer.Net.Buffer
