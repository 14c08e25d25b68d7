import Mathlib.Algebra.Order.Ring.Int

/-!
# Fixed-width integer conversions

Values are kept as `Int` and reduced where the machine reduces them: `sizeT` for a
64-bit unsigned size, `int32` and `int64` for two's complement signed results.
-/
namespace Summer.Lib

/-- The 64-bit unsigned value of `x`. -/
def sizeT (x : Int) : Nat := (x % 2 ^ 64).toNat

/-- The 32-bit signed value of `x`. -/
def int32 (x : Int) : Int := x.bmod (2 ^ 32)

/-- The 64-bit signed value of `x`. -/
def int64 (x : Int) : Int := x.bmod (2 ^ 64)

theorem sizeT_cast {x : Int} (h0 : 0 ≤ x) (h1 : x < 2 ^ 64) : (sizeT x : Int) = x := by
  unfold sizeT
  omega

theorem sizeT_natCast {n : Nat} (h : n < 2 ^ 64) : sizeT n = n := by
  unfold sizeT
  omega

theorem int32_cast {x : Int} (h0 : -2 ^ 31 ≤ x) (h1 : x < 2 ^ 31) : int32 x = x := by
  unfold int32
  rw [Int.bmod_def]
  omega

theorem int64_cast {x : Int} (h0 : -2 ^ 63 ≤ x) (h1 : x < 2 ^ 63) : int64 x = x := by
  unfold int64
  rw [Int.bmod_def]
  omega

theorem int32_bounds (x : Int) : -2 ^ 31 ≤ int32 x ∧ int32 x < 2 ^ 31 := by
  rw [int32, Int.bmod_def]
  omega

theorem int64_bounds (x : Int) : -2 ^ 63 ≤ int64 x ∧ int64 x < 2 ^ 63 := by
  rw [int64, Int.bmod_def]
  omega

end Summer.Lib
