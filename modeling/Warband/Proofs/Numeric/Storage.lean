import Mathlib

/-!
# Storing a full significand

A binary format stores a finite number by its sign, its biased exponent and the bits of
its significand below the leading one. A number whose significand has all its bits and
whose exponent is in range is read back as it was stored, in every format.
-/
namespace Warband.Numeric

open Float.Model (UnpackedFloat)
open Float.Model.UnpackedFloat

/-- The leading one and the bits below it make up the significand. -/
theorem toNat_leading_append {p m : Nat} (hpos : 0 < m) (hlog : m.log2 = p) :
    (1#1 ++ BitVec.ofNat p m).toNat = m := by
  obtain ⟨hlo, hhi⟩ := (Nat.log2_eq_iff hpos.ne').1 hlog
  have hmod : m % 2 ^ p = m - 2 ^ p := by
    rw [Nat.pow_succ] at hhi
    rw [Nat.mod_eq_sub_mod hlo, Nat.mod_eq_of_lt (by omega)]
  rw [BitVec.toNat_append, BitVec.toNat_ofNat, BitVec.toNat_ofNat, Nat.shiftLeft_eq]
  change 1 * 2 ^ p ||| m % 2 ^ p = m
  rw [Nat.one_mul, Nat.or_comm, Nat.or_two_pow_eq_add_of_lt (Nat.mod_lt m (Nat.two_pow_pos p)),
    hmod, Nat.sub_add_cancel hlo]

theorem unpack_pack_finite (f : Float.Model.Format) {s : Sign} {m : Nat} {e : Int} (hpos : 0 < m)
    (hlog : m.log2 = f.mantissaBitsWithoutImplicit)
    (hlow : 1 ≤ e + f.exponentBias + f.mantissaBitsWithoutImplicit)
    (hhigh : e + f.exponentBias + f.mantissaBitsWithoutImplicit + 1 < 2 ^ f.exponentBits) :
    unpack f (pack f (.finite s m e hpos)) = .finite s m e hpos := by
  generalize hbiased : (e + f.exponentBias + f.mantissaBitsWithoutImplicit).toNat = biased
  have hroom : biased + 1 < 2 ^ f.exponentBits := by
    zify
    omega
  have hval : (BitVec.ofNat f.exponentBits biased).toNat = biased := by
    rw [BitVec.toNat_ofNat, Nat.mod_eq_of_lt (by omega)]
  have hones : BitVec.ofNat f.exponentBits biased ≠ -1#f.exponentBits := by
    intro h
    have hnat := congrArg BitVec.toNat h
    rw [hval, BitVec.toNat_neg, BitVec.toNat_ofNat, Nat.mod_eq_of_lt (a := 1) (by omega),
      Nat.mod_eq_of_lt (by omega)] at hnat
    omega
  have hzero : BitVec.ofNat f.exponentBits biased ≠ 0#f.exponentBits := by
    intro h
    have hnat := congrArg BitVec.toNat h
    rw [hval, BitVec.toNat_ofNat, Nat.zero_mod] at hnat
    omega
  have hexp : (biased : Int) - (f.exponentBias + f.mantissaBitsWithoutImplicit) = e := by omega
  have hfull : m.log2 + 1 = f.mantissaBits := by
    rw [hlog, Float.Model.Format.mantissaBits, Nat.add_comm]
  unfold pack
  simp only [hbiased, if_neg hroom.not_ge, if_pos hfull]
  simp only [unpack, unpackExponent_packComponents, unpackMantissa_packComponents,
    unpackSign_packComponents, Sign.ofBitVec_toBitVec, if_neg hones, if_neg hzero, hval, hexp,
    toNat_leading_append hpos hlog]

end Warband.Numeric
