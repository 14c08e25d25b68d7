import Mathlib.Data.Nat.Digits.Defs

/-!
# Decimal numerals that are cut off

Numerals of at most `r` digits are told apart by their first `r` characters. The first numeral
that is longer is not: it begins like the one before it in length.
-/
namespace Summer.Lib

/-- `%d` of a number that is not negative, or `%u`. -/
def decimal (n : Nat) : List Char := Nat.toDigits 10 n

theorem decimal_injective : Function.Injective decimal := by
  intro n m h
  have hvalue := congrArg (fun l => Nat.ofDigitChars 10 l 0) h
  simpa only [decimal, Nat.ofDigitChars_ten_toDigits] using hvalue

theorem length_decimal_le_iff {n r : Nat} (hr : 0 < r) : (decimal n).length ≤ r ↔ n < 10 ^ r :=
  Nat.length_toDigits_le_iff (by decide) hr

theorem decimal_mul_ten {n : Nat} (hn : 0 < n) : decimal (10 * n) = decimal n ++ ['0'] :=
  (Nat.toDigits_append_toDigits (d := 0) (by decide) hn (by decide)).symm

theorem decimal_digit {d : Nat} (hd : d < 10) : decimal d = [d.digitChar] :=
  Nat.toDigits_of_lt_base hd

/-- One more digit. -/
theorem decimal_concat {n d : Nat} (hn : 0 < n) (hd : d < 10) :
    decimal (n * 10 + d) = decimal n ++ [d.digitChar] := by
  rw [← decimal_digit hd, Nat.mul_comm]
  exact (Nat.toDigits_append_toDigits (by decide) hn hd).symm

theorem isDigit_of_mem_decimal {n : Nat} {ch : Char} (h : ch ∈ decimal n) : ch.isDigit = true :=
  Nat.isDigit_of_mem_toDigits (by decide) (by decide) h

theorem take_decimal {n r : Nat} (hr : 0 < r) (hn : n < 10 ^ r) :
    (decimal n).take r = decimal n :=
  List.take_of_length_le ((length_decimal_le_iff hr).mpr hn)

/-- The first numeral with more than `r` digits begins with the first one that has `r`. -/
theorem take_decimal_pow {r : Nat} (hr : 0 < r) :
    (decimal (10 ^ r)).take r = (decimal (10 ^ (r - 1))).take r := by
  obtain ⟨k, rfl⟩ := Nat.exists_eq_succ_of_ne_zero (Nat.pos_iff_ne_zero.mp hr)
  have hpos : 0 < 10 ^ k := Nat.pow_pos (by decide)
  have hle : (decimal (10 ^ k)).length ≤ k + 1 :=
    (length_decimal_le_iff hr).mpr (Nat.pow_lt_pow_right (by decide) (Nat.lt_succ_self k))
  have hgt : ¬ (decimal (10 ^ k)).length ≤ k := by
    intro hk
    rcases Nat.eq_zero_or_pos k with rfl | hk0
    · exact absurd hk (by decide)
    · exact absurd ((length_decimal_le_iff hk0).mp hk) (Nat.lt_irrefl _)
  rw [Nat.succ_sub_one, Nat.succ_eq_add_one, Nat.pow_succ, Nat.mul_comm, decimal_mul_ten hpos,
    List.take_append_of_le_length (by omega)]

end Summer.Lib
