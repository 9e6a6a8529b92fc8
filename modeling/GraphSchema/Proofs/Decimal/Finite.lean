import Mathlib
import GraphSchema.Decimal.Binary64

/-!
# Finite numbers

A number of the double-precision format is finite unless it has the greatest exponent.  A
single-precision number becomes a finite one exactly if it does not have the greatest exponent of
its own format, since no number of that format is too large for the other one.

**Main statement.**  `Binary64.isFinite_ofBinary32_iff`.
-/

namespace GraphSchema

namespace Binary64

/-- Neither infinite nor undefined: the exponent is not the greatest. -/
def IsFinite (value : Binary64) : Prop := value.exponentField ≠ 2047

instance (value : Binary64) : Decidable value.IsFinite :=
  inferInstanceAs (Decidable (value.exponentField ≠ 2047))

theorem exponentField_ofMagnitude (negative : Bool) {magnitude : Nat} (h : magnitude < 2 ^ 63) :
    (ofMagnitude negative magnitude).exponentField = magnitude / 2 ^ 52 := by
  have hbits : (UInt64.ofNat (magnitude + if negative then 2 ^ 63 else 0)).toNat =
      magnitude + if negative then 2 ^ 63 else 0 := by
    rw [UInt64.toNat_ofNat']
    cases negative <;> simp <;> omega
  show (UInt64.ofNat (magnitude + if negative then 2 ^ 63 else 0)).toNat / 2 ^ 52 % 2 ^ 11 = _
  rw [hbits]
  cases negative <;> simp <;> omega

theorem roundDivEven_le (num den : Nat) : roundDivEven num den ≤ num / den + 1 := by
  rw [roundDivEven]
  split_ifs <;> omega

/-- With an exponent that keeps the digits of `num`, a quotient by `2 ^ 149` has few digits before
the point. -/
theorem quotient_lt {num : Nat} {exponent : Int} (hnum : num ≠ 0)
    (h : (num.log2 : Int) - 149 - 53 ≤ exponent) :
    num * 2 ^ (-exponent).toNat / (2 ^ 149 * 2 ^ exponent.toNat) < 2 ^ 54 := by
  have hlt : num < 2 ^ (num.log2 + 1) := (Nat.log2_lt hnum).mp (Nat.lt_succ_self _)
  rw [Nat.div_lt_iff_lt_mul (by positivity)]
  calc num * 2 ^ (-exponent).toNat
      < 2 ^ (num.log2 + 1) * 2 ^ (-exponent).toNat := by gcongr
    _ = 2 ^ (num.log2 + 1 + (-exponent).toNat) := (pow_add ..).symm
    _ ≤ 2 ^ (54 + (149 + exponent.toNat)) := Nat.pow_le_pow_right (by decide) (by omega)
    _ = 2 ^ 54 * (2 ^ 149 * 2 ^ exponent.toNat) := by rw [pow_add, pow_add]

theorem isFinite_ofMagnitude (negative : Bool) {magnitude : Nat} (h : magnitude < 2047 * 2 ^ 52) :
    (ofMagnitude negative magnitude).IsFinite := by
  rw [IsFinite, exponentField_ofMagnitude negative (by omega)]
  omega

/-- A quotient by `2 ^ 149` is finite if its numerator is below `2 ^ 277`. -/
theorem isFinite_ofRatio (negative : Bool) {num : Nat} (hlog : num.log2 < 277) :
    (ofRatio negative num (Nat.pow 2 149)).IsFinite := by
  have hden : (Nat.pow 2 149).log2 = 149 := by decide +kernel
  unfold ofRatio
  split_ifs with hzero
  · exact isFinite_ofMagnitude negative (by decide)
  · dsimp only
    rw [hden]
    -- whichever exponent is chosen, it lies in a small range
    generalize hexponent : max leastExponent _ = exponent
    have hlow : (num.log2 : Int) - 149 - 53 ≤ exponent := by
      rw [← hexponent]
      split_ifs <;> omega
    have hhigh : exponent ≤ num.log2 - 149 - 52 := by
      rw [← hexponent, leastExponent]
      split_ifs <;> omega
    have hquotient := quotient_lt hzero hlow
    have hsignificand :=
      roundDivEven_le (num * 2 ^ (-exponent).toNat) (2 ^ 149 * 2 ^ exponent.toNat)
    have hmagnitude : (exponent - leastExponent).toNat * 2 ^ 52 +
        roundDivEven (num * 2 ^ (-exponent).toNat) (2 ^ 149 * 2 ^ exponent.toNat) <
        2047 * 2 ^ 52 := by
      have hfield : (exponent - leastExponent).toNat ≤ 1149 := by
        rw [leastExponent]
        omega
      omega
    exact (if_neg (not_le_of_gt hmagnitude)).symm ▸ isFinite_ofMagnitude negative hmagnitude

/-- Widening a single-precision number keeps whether it is finite. -/
theorem isFinite_ofBinary32_iff {bits : UInt32} :
    (ofBinary32 bits).IsFinite ↔ bits.toNat / 2 ^ 23 % 2 ^ 8 ≠ 255 := by
  have hfraction : bits.toNat % 2 ^ 23 < 2 ^ 23 := Nat.mod_lt _ (by decide)
  have hfield : bits.toNat / 2 ^ 23 % 2 ^ 8 < 2 ^ 8 := Nat.mod_lt _ (by decide)
  unfold ofBinary32
  dsimp only [Nat.pow_eq]
  generalize bits.toNat % 2 ^ 23 = fraction at *
  generalize bits.toNat / 2 ^ 23 % 2 ^ 8 = field at *
  split_ifs with hgreatest hleast
  · refine iff_of_false ?_ (not_not_intro hgreatest)
    rw [IsFinite, exponentField_ofMagnitude _ (by omega)]
    omega
  · refine iff_of_true (isFinite_ofRatio _ ?_) hgreatest
    rcases eq_or_ne fraction 0 with rfl | hzero
    · decide
    · have hlog : fraction.log2 < 23 := (Nat.log2_lt hzero).mpr hfraction
      omega
  · refine iff_of_true (isFinite_ofRatio _ ?_) hgreatest
    have hsignificand : (2 ^ 23 + fraction) * 2 ^ (field - 1) < 2 ^ (24 + (field - 1)) := by
      rw [pow_add]
      gcongr
      omega
    have hlog := (Nat.log2_lt (by positivity)).mpr hsignificand
    omega

end Binary64

end GraphSchema
