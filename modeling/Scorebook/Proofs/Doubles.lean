import Mathlib.Algebra.Group.Int.Defs
import Mathlib.Algebra.Group.Nat.Defs
import Mathlib.Tactic.SplitIfs
import Scorebook.Binary64

/-!
# The total order of doubles

The place of a double in the total order is read off its bits. Two doubles have the same place only
if they are the same double: the two zeros have different places, and although many patterns of bits
stand for no number, a double has only one of them.
-/

namespace Scorebook

namespace Binary64

section Fields

open Float.Model.UnpackedFloat

variable (bits : UInt64)

/-- The magnitude of a double is in its lowest 63 bits. -/
theorem toNat_magnitude : (bits &&& 0x7FFFFFFFFFFFFFFF).toNat = bits.toNat % 2 ^ 63 := by
  rw [UInt64.toNat_and]
  exact Nat.and_two_pow_sub_one_eq_mod _ 63

/-- The fraction of a double is in its lowest 52 bits. -/
theorem toNat_fraction : (bits &&& 0xFFFFFFFFFFFFF).toNat = bits.toNat % 2 ^ 52 := by
  rw [UInt64.toNat_and]
  exact Nat.and_two_pow_sub_one_eq_mod _ 52

/-- The exponent of a double is in the 11 bits above its fraction. -/
theorem toNat_exponent :
    ((bits >>> 52) &&& 0x7FF).toNat = bits.toNat / 2 ^ 52 % 2 ^ 11 := by
  rw [UInt64.toNat_and, UInt64.toNat_shiftRight, Nat.shiftRight_eq_div_pow]
  exact Nat.and_two_pow_sub_one_eq_mod _ 11

/-- The sign of a double is its highest bit. -/
theorem sign_eq_decide : (bits >>> 63 == 1) = decide (2 ^ 63 ≤ bits.toNat) := by
  have hlt := bits.toNat_lt
  rw [Bool.eq_iff_iff, beq_iff_eq, decide_eq_true_eq, ← UInt64.toNat_inj, UInt64.toNat_shiftRight,
    Nat.shiftRight_eq_div_pow]
  simp
  omega

/-- A double is no number exactly if its magnitude is above that of an infinity. -/
theorem ofBits_eq_nan_iff : ofBits bits = nan ↔ 0x7FF0000000000000 < bits.toNat % 2 ^ 63 := by
  unfold ofBits
  simp only [toNat_exponent, toNat_fraction]
  split_ifs
  all_goals simp; omega

/-- The exponent of a valid double is the one read off its bits. -/
theorem toNat_unpackExponent :
    (@unpackExponent .binary64 bits.toBitVec).toNat = bits.toNat / 2 ^ 52 % 2 ^ 11 := by
  simp [unpackExponent, Nat.shiftRight_eq_div_pow]

/-- The fraction of a valid double is the one read off its bits. -/
theorem toNat_unpackMantissa :
    (@unpackMantissa .binary64 bits.toBitVec).toNat = bits.toNat % 2 ^ 52 := by
  simp [unpackMantissa]

end Fields

/-- The bits of a double are valid, which leaves one pattern for a double that is no number. -/
theorem toBitVec_eq_packedNaN {x : Float} (h : ofBits x.toBits = nan) :
    x.toBits.toBitVec = Float.Model.UnpackedFloat.packedNaN .binary64 := by
  have hmagnitude := (ofBits_eq_nan_iff x.toBits).mp h
  refine x.toModel.valid.eq_packedNaN (BitVec.eq_of_toNat_eq ?_) fun hzero => ?_
  · refine (toNat_unpackExponent x.toBits).trans ?_
    change _ = 2 ^ 11 - 1
    omega
  · have hfraction : 0 = x.toBits.toNat % 2 ^ 52 :=
      (congrArg BitVec.toNat hzero).symm.trans (toNat_unpackMantissa x.toBits)
    omega

/-- The place of a double in the total order is its magnitude, counted downwards from minus one if
it is negative. Not-a-number has the place above the infinity. -/
theorem rank_eq (bits : UInt64) : rank bits =
    if 0x7FF0000000000000 < bits.toNat % 2 ^ 63 then 0x7FF0000000000001
    else if 2 ^ 63 ≤ bits.toNat then (2 ^ 63 : ℤ) - bits.toNat - 1
    else bits.toNat := by
  have hlt := bits.toNat_lt
  have hnumber (h : ofBits bits ≠ nan) : rank bits =
      if bits >>> 63 == 1 then -((bits &&& 0x7FFFFFFFFFFFFFFF).toNat : ℤ) - 1
      else (bits &&& 0x7FFFFFFFFFFFFFFF).toNat := by
    unfold rank
    cases hbits : ofBits bits with
    | nan => exact absurd hbits h
    | infinite => rfl
    | finite => rfl
  by_cases hnan : ofBits bits = nan
  · rw [if_pos ((ofBits_eq_nan_iff bits).mp hnan), rank, hnan]
  · rw [if_neg (mt (ofBits_eq_nan_iff bits).mpr hnan), hnumber hnan, sign_eq_decide,
      toNat_magnitude]
    simp only [decide_eq_true_eq]
    split_ifs <;> omega

/-- A double is known by its bits. -/
theorem eq_of_toBits_eq {x y : Float} (h : x.toBits = y.toBits) : x = y := by
  obtain ⟨⟨bits, hvalid⟩⟩ := x
  obtain ⟨⟨others, hvalid'⟩⟩ := y
  obtain rfl : bits = others := h
  rfl

/-- Different doubles have different places in the total order. -/
theorem rank_injective {x y : Float} (h : rank x.toBits = rank y.toBits) : x = y := by
  apply eq_of_toBits_eq
  by_cases hnan : ofBits x.toBits = nan ∧ ofBits y.toBits = nan
  · rw [← UInt64.toBitVec_inj, toBitVec_eq_packedNaN hnan.1, toBitVec_eq_packedNaN hnan.2]
  · rw [← UInt64.toNat_inj]
    rw [ofBits_eq_nan_iff, ofBits_eq_nan_iff] at hnan
    rw [rank_eq, rank_eq] at h
    split_ifs at h <;> omega

end Binary64

end Scorebook
