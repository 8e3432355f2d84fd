import Warband.Proofs.Numeric.Rounding
import Warband.Proofs.Numeric.Storage

/-!
# Products in double precision

A positive number of ordinary size has a significand of 53 bits. The product of two such
numbers is the product of their significands, rounded to 53 bits again, and its whole
part is what is left of the significand when the bits below the point are cut off. A
whole number is one of them, with zeros below the point. So the whole part of a product
comes down to a division of natural numbers.
-/
namespace Warband.Numeric.Double

open Float.Model (UnpackedFloat totalExponent)
open Float.Model.UnpackedFloat

/-- The format of double-precision numbers. -/
abbrev binary : Float.Model.Format := .binary64

/-- A number as its sign, integer significand and exponent. -/
def parts (x : Float) : UnpackedFloat := x.toModel.unpack

theorem parts_mul (x y : Float) :
    parts (x * y) = unpack binary (pack binary (mul binary (parts x) (parts y))) := rfl

/-- A positive number whose significand has all its bits. -/
structure Full (x : Float) (m : Nat) (e : Int) : Prop where
  pos : 0 < m
  log : m.log2 = 52
  parts : parts x = .finite .positive m e pos

/-! ## Rounding -/

theorem targetExponent_eq {m : Nat} {e : Int} {k : Nat} (hlog : m.log2 = 52 + k)
    (he : -1074 ≤ e + k) : binary.targetExponent (totalExponent m e) = e + k := by
  simp only [Float.Model.Format.targetExponent, totalExponent, hlog,
    Float.Model.Format.mantissaBits, Float.Model.Format.minExponent]
  omega

theorem shiftToTargetExponent_eq {m : Nat} {e : Int} {k : Nat} (hlog : m.log2 = 52 + k)
    (he : -1074 ≤ e + k) :
    shiftToTargetExponent binary m e .exact =
      (ExtendedMantissa.ofMantissaAndAccuracy m .exact >>> k, e + k) := by
  have hk : (e + k - e).toNat = k := by omega
  rw [shiftToTargetExponent, targetExponent_eq hlog he, shiftToExponent, hk]

/-- Rounding cuts off the bits that a significand has no room for. -/
theorem roundWithAccuracy_eq (s : Sign) {m r : Nat} {e : Int} {k : Nat} (hlog : m.log2 = 52 + k)
    (he : -1074 ≤ e + k) (hround : roundHalfEven m (2 ^ k) = r) (hpos : 0 < r)
    (hr : r.log2 = 52) :
    roundWithAccuracy binary s m e .exact = .finite s r (e + k) hpos := by
  -- what is rounded is shifted once more, but here it has no bits to spare
  have hagain : shiftToTargetExponent binary r (e + k) .exact =
      (ExtendedMantissa.ofMantissaAndAccuracy r .exact, e + k) :=
    (shiftToTargetExponent_eq (k := 0) hr (by omega)).trans (congrArg (Prod.mk _) (by omega))
  have hexact : (ExtendedMantissa.ofMantissaAndAccuracy r .exact).mantissa = r := rfl
  unfold roundWithAccuracy
  simp only [shiftToTargetExponent_eq hlog he, Single.roundedMantissa_shift, hround, hagain, hexact]
  exact dif_neg hpos.ne'

/-! ## Products -/

namespace Full

variable {x y : Float} {m n : Nat} {e f : Int}

theorem mul (hx : Full x m e) (hy : Full y n f) {k r : Nat} (hlog : (m * n).log2 = 52 + k)
    (hround : roundHalfEven (m * n) (2 ^ k) = r) (hr : r.log2 = 52) (hlow : -1074 ≤ e + f + k)
    (hhigh : e + f + k ≤ 971) : Full (x * y) r (e + f + k) where
  pos := Nat.pos_of_ne_zero fun h => by simp [h] at hr
  log := hr
  parts := by
    have hpos : 0 < r := Nat.pos_of_ne_zero fun h => by simp [h] at hr
    have hmul : Float.Model.UnpackedFloat.mul binary (.finite .positive m e hx.pos)
        (.finite .positive n f hy.pos) = .finite .positive r (e + f + k) hpos :=
      roundWithAccuracy_eq .positive hlog hlow hround hpos hr
    rw [parts_mul, hx.parts, hy.parts, hmul]
    refine unpack_pack_finite binary hpos hr ?_ ?_
    · change 1 ≤ e + f + k + 1023 + 52
      omega
    · change e + f + k + 1023 + 52 + 1 < 2048
      omega

/-- The product of two full significands has one bit more or one bit less than both together. -/
theorem log2_mul (hx : Full x m e) (hy : Full y n f) :
    104 ≤ (m * n).log2 ∧ (m * n).log2 ≤ 105 := by
  obtain ⟨hmlo, hmhi⟩ := (Nat.log2_eq_iff hx.pos.ne').1 hx.log
  obtain ⟨hnlo, hnhi⟩ := (Nat.log2_eq_iff hy.pos.ne').1 hy.log
  have hne : m * n ≠ 0 := (Nat.mul_pos hx.pos hy.pos).ne'
  have hlo : 2 ^ 52 * 2 ^ 52 ≤ m * n := Nat.mul_le_mul hmlo hnlo
  have hhi : m * n < 2 ^ 53 * 2 ^ 53 := Nat.mul_lt_mul'' hmhi hnhi
  rw [← Nat.pow_add] at hlo hhi
  exact ⟨(Nat.le_log2 hne).2 hlo, Nat.lt_succ_iff.1 ((Nat.log2_lt hne).2 hhi)⟩

/-- The whole part drops the bits below the point. -/
theorem toUInt64 (hx : Full x m e) {k : Nat} (he : e = -k) : x.toUInt64.toNat = m / 2 ^ k := by
  have hlt : m < 2 ^ 53 := ((Nat.log2_eq_iff hx.pos.ne').1 hx.log).2
  have hparts : x.toModel.unpack = .finite .positive m e hx.pos := hx.parts
  have hdec : decreaseExponent m e 0 = (m, e) := by
    have hzero : (e - 0).toNat = 0 := by omega
    rw [decreaseExponent, hzero, Nat.shiftLeft_zero, Int.natCast_zero, Int.sub_zero]
  have hk : (0 - e).toNat = k := by omega
  have hint : roundToInt .positive m e = (m / 2 ^ k : Nat) := by
    simp only [roundToInt, hdec, shiftToExponent, hk, Single.shift_eq, Sign.apply]
  have hsize : m / 2 ^ k < UInt64.size := by
    have hle : m / 2 ^ k ≤ m := Nat.div_le_self m _
    change _ < 2 ^ 64
    omega
  change x.toModel.unpack.toUInt64.toNat = _
  rw [hparts]
  change (UInt64.ofNatClamp (roundToInt .positive m e).toNat).toNat = _
  rw [hint, Int.toNat_natCast, UInt64.ofNatClamp, dif_pos hsize]
  rfl

end Full

/-! ## Whole numbers -/

theorem full_one : Full (Float.ofBits 0x3ff0000000000000) (2 ^ 52) (-52) where
  pos := by decide
  log := by decide
  parts := rfl

theorem full_ofUInt64 {n : UInt64} (hpos : 0 < n.toNat) (hlt : n.toNat < 2 ^ 53) :
    Full n.toFloat (n.toNat * 2 ^ (52 - n.toNat.log2)) (n.toNat.log2 - 52) := by
  generalize hm : n.toNat = m at *
  have hlog : m.log2 < 53 := (Nat.log2_lt hpos.ne').2 hlt
  have hscaled : (m * 2 ^ (52 - m.log2)).log2 = 52 := by
    rw [Single.log2_scaled hpos]
    omega
  have hfull : 0 < m * 2 ^ (52 - m.log2) := Nat.mul_pos hpos (Nat.two_pow_pos _)
  have htarget : binary.targetExponent (totalExponent m 0) = m.log2 - 52 := by
    simp only [Float.Model.Format.targetExponent, totalExponent,
      Float.Model.Format.mantissaBits, Float.Model.Format.minExponent]
    omega
  have hdec : decreaseExponent m 0 (m.log2 - 52) =
      (m * 2 ^ (52 - m.log2), (m.log2 : Int) - 52) := by
    have hshift : (0 - ((m.log2 : Int) - 52)).toNat = 52 - m.log2 := by omega
    rw [decreaseExponent, hshift, Nat.shiftLeft_eq]
    exact congrArg (Prod.mk _) (by omega)
  have hround : UnpackedFloat.round binary .positive m 0 =
      .finite .positive (m * 2 ^ (52 - m.log2)) ((m.log2 : Int) - 52) hfull := by
    have hexact := roundHalfEven_mul (m * 2 ^ (52 - m.log2)) Nat.one_pos
    rw [Nat.mul_one] at hexact
    have hstay := roundWithAccuracy_eq .positive (k := 0) (e := (m.log2 : Int) - 52) hscaled
      (by omega) hexact hfull hscaled
    simp only [UnpackedFloat.round, htarget, hdec, hstay]
    congr 1
    omega
  have hcmp : compare (m : Int) 0 = .gt := Int.compare_eq_gt.2 (by omega)
  have hnormal : ofUInt64 binary n = UnpackedFloat.round binary .positive m 0 := by
    rw [ofUInt64, UnpackedFloat.ofNat, ofInt, hm, UnpackedFloat.normalize]
    simp only [hcmp, Int.toNat_natCast]
  refine ⟨hfull, hscaled, ?_⟩
  change unpack binary (pack binary (ofUInt64 binary n)) = _
  rw [hnormal, hround]
  refine unpack_pack_finite binary hfull hscaled ?_ ?_
  · change 1 ≤ (m.log2 : Int) - 52 + 1023 + 52
    omega
  · change (m.log2 : Int) - 52 + 1023 + 52 + 1 < 2048
    omega

/-- A whole number is read as a decimal one, so it is also multiplied by one. -/
theorem full_ofNat {n : Nat} (hpos : 0 < n) (hlt : n < 2 ^ 53) :
    Full (Float.ofNat n) (n * 2 ^ (52 - n.log2)) (n.log2 - 52) := by
  have hnat : n.toUInt64.toNat = n := UInt64.toNat_ofNat_of_lt (hlt.trans (by decide))
  have hlog : n.log2 < 53 := (Nat.log2_lt hpos.ne').2 hlt
  have hscaled : (n * 2 ^ (52 - n.log2)).log2 = 52 := by
    rw [Single.log2_scaled hpos]
    omega
  have hfull : 0 < n * 2 ^ (52 - n.log2) := Nat.mul_pos hpos (Nat.two_pow_pos _)
  have hread : Float.ofNat n = n.toUInt64.toFloat * Float.ofBits 0x3ff0000000000000 := by
    change Float.ofScientific n false 0 = _
    rw [Float.ofScientific, dif_pos ⟨hlt, by decide⟩]
    rfl
  have hword : Full n.toUInt64.toFloat (n * 2 ^ (52 - n.log2)) (n.log2 - 52) := by
    have h := full_ofUInt64 (n := n.toUInt64)
    rw [hnat] at h
    exact h hpos hlt
  have hprod := hword.mul full_one (k := 52) (by rw [Single.log2_scaled hfull, hscaled])
    (roundHalfEven_mul _ (Nat.two_pow_pos 52)) hscaled (by omega) (by omega)
  have hexp : (n.log2 : Int) - 52 + -52 + (52 : Nat) = n.log2 - 52 := by omega
  rwa [← hread, hexp] at hprod

/-! ## Shares -/

/-- The significands of a whole number and of a fraction, multiplied. -/
def product (n m : Nat) : Nat := n * 2 ^ (52 - n.log2) * m

/-- How many bits of a product are rounded off. -/
def surplus (n m : Nat) : Nat := (product n m).log2 - 52

/-- The significand of a rounded product. -/
def share (n m : Nat) : Nat := roundHalfEven (product n m) (2 ^ surplus n m)

/-- The whole part of a whole number times a fraction. -/
theorem toUInt64_share {n m : Nat} {x : Float} (hpos : 0 < n) (hlt : n < 2 ^ 52)
    (hx : Full x m (-53)) (hlog : (share n m).log2 = 52) :
    (Float.ofNat n * x).toUInt64.toNat = share n m / 2 ^ (105 - n.log2 - surplus n m) := by
  have hn := full_ofNat hpos (hlt.trans (by decide))
  have hbits : n.log2 < 52 := (Nat.log2_lt hpos.ne').2 hlt
  obtain ⟨hlo, hhi⟩ : 104 ≤ (product n m).log2 ∧ (product n m).log2 ≤ 105 := hn.log2_mul hx
  have hsurplus : surplus n m = (product n m).log2 - 52 := rfl
  have hfull : Full (Float.ofNat n * x) (share n m) (n.log2 - 52 + -53 + surplus n m) :=
    hn.mul hx (show (product n m).log2 = 52 + surplus n m by omega) rfl hlog (by omega) (by omega)
  exact hfull.toUInt64 (by omega)

end Warband.Numeric.Double
