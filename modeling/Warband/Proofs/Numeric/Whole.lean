import Warband.Proofs.Numeric.Single
import Warband.Proofs.Numeric.Storage

/-!
# Whole numbers in single precision

A significand has 24 bits. A whole number below 2 ^ 24 is stored without a
rounding, and so is the sum of two whole numbers while it stays below that
bound, so a count kept in single precision is exact as long as it is below it.
-/
namespace Warband.Numeric

/-- The rational number that a datum stands for. -/
def Datum.value? : Datum → Option ℚ
  | .finite negative significand exponent =>
      some ((if negative then -1 else 1) * significand * 2 ^ exponent)
  | _ => none

namespace Single

open Float.Model (UnpackedFloat totalExponent)
open Float.Model.UnpackedFloat

/-! ## Values -/

/-- What a number denotes. -/
def meaning : UnpackedFloat → Datum
  | .notANumber => .nan
  | .infinity s => .infinite (s == .negative)
  | .zero s => .finite (s == .negative) 0 Format.single.leastExponent
  | .finite s m e _ => .finite (s == .negative) m e

theorem decode_toNat (b : BitVec 32) :
    Format.single.decode b.toNat = meaning (unpack binary b) := by
  have hlt := b.isLt
  have hsign : (@unpackSign binary b).toNat = b.toNat / 2 ^ 31 % 2 := by
    simp [unpackSign, Nat.shiftRight_eq_div_pow]
  have hfield : (@unpackExponent binary b).toNat = b.toNat % 2 ^ 31 / 2 ^ 23 := by
    simp [unpackExponent, Nat.shiftRight_eq_div_pow]
    omega
  have hfrac : (@unpackMantissa binary b).toNat = b.toNat % 2 ^ 31 % 2 ^ 23 := by
    simp [unpackMantissa]
  have hneg : (Sign.ofBitVec (@unpackSign binary b) == .negative) =
      decide (2 ^ 31 ≤ b.toNat) := by
    unfold Sign.ofBitVec
    split
    · rename_i h
      have h0 := congrArg BitVec.toNat h
      rw [hsign] at h0
      change _ = 0 at h0
      rw [decide_eq_false (by omega)]
      rfl
    · rename_i h
      have h0 : b.toNat / 2 ^ 31 % 2 ≠ 0 := fun h0 => h (BitVec.eq_of_toNat_eq (hsign.trans h0))
      rw [decide_eq_true (by omega)]
      rfl
  have hones : @unpackExponent binary b = -1#8 ↔ b.toNat % 2 ^ 31 / 2 ^ 23 = 255 := by
    rw [← BitVec.toNat_inj, hfield]
    rfl
  have hnone : @unpackExponent binary b = 0#8 ↔ b.toNat % 2 ^ 31 / 2 ^ 23 = 0 := by
    rw [← BitVec.toNat_inj, hfield]
    rfl
  have hblank : @unpackMantissa binary b = 0#23 ↔ b.toNat % 2 ^ 31 % 2 ^ 23 = 0 := by
    rw [← BitVec.toNat_inj, hfrac]
    rfl
  have hfull : (1#1 ++ @unpackMantissa binary b).toNat =
      2 ^ 23 + b.toNat % 2 ^ 31 % 2 ^ 23 := by
    rw [BitVec.toNat_append, Nat.shiftLeft_eq, hfrac]
    change 2 ^ 23 ||| _ = _
    rw [Nat.or_comm, Nat.or_two_pow_eq_add_of_lt (Nat.mod_lt _ (Nat.two_pow_pos 23)), Nat.add_comm]
  have hdecode : Format.single.decode b.toNat =
      if b.toNat % 2 ^ 31 / 2 ^ 23 = 255 then
        if b.toNat % 2 ^ 31 % 2 ^ 23 = 0 then .infinite (decide (2 ^ 31 ≤ b.toNat)) else .nan
      else if b.toNat % 2 ^ 31 / 2 ^ 23 = 0 then
        .finite (decide (2 ^ 31 ≤ b.toNat)) (b.toNat % 2 ^ 31 % 2 ^ 23) (-149)
      else .finite (decide (2 ^ 31 ≤ b.toNat)) (2 ^ 23 + b.toNat % 2 ^ 31 % 2 ^ 23)
        (-149 + ((b.toNat % 2 ^ 31 / 2 ^ 23 : Nat) - 1)) := rfl
  rw [hdecode, ← hneg]
  unfold unpack
  simp only [hones, hnone, hblank, hfield, hfull, hfrac]
  generalize b.toNat % 2 ^ 31 / 2 ^ 23 = field at *
  generalize b.toNat % 2 ^ 31 % 2 ^ 23 = fraction at *
  split
  · split <;> rfl
  · split
    · rename_i hfieldzero
      split
      · rename_i hzero
        rw [hzero]
        rfl
      · rw [hfieldzero]
        rfl
    · have hexp : (-149 : Int) + ((field : Int) - 1) = (field : Int) - (127 + 23) := by omega
      rw [hexp]
      rfl

theorem datum_eq (x : Float32) : x.datum = meaning (parts x) :=
  decode_toNat x.toModel.toBits.toBitVec

/-! ## Rounding a scaled number -/

/-- A positive number below `2 ^ 24` scaled to a full significand. -/
theorem log2_scaled {n : Nat} (hpos : 0 < n) (k : Nat) : (n * 2 ^ k).log2 = n.log2 + k := by
  have hlo := Nat.log2_self_le hpos.ne'
  have hhi : n < 2 ^ (n.log2 + 1) := Nat.lt_log2_self
  refine (Nat.log2_eq_iff (by positivity)).2 ⟨?_, ?_⟩
  · rw [Nat.pow_add]
    exact Nat.mul_le_mul_right _ hlo
  · rw [Nat.add_right_comm, Nat.pow_add]
    exact Nat.mul_lt_mul_of_pos_right hhi (by positivity)

/-- A whole number as it is stored. -/
def whole (n : Nat) : UnpackedFloat :=
  if h : n = 0 then .zero .positive
  else .finite .positive (n * 2 ^ (23 - n.log2)) ((n.log2 : Int) - 23)
    (Nat.mul_pos (Nat.pos_of_ne_zero h) (Nat.two_pow_pos _))

theorem whole_pos {n : Nat} (h : 0 < n) :
    whole n = .finite .positive (n * 2 ^ (23 - n.log2)) ((n.log2 : Int) - 23)
      (Nat.mul_pos h (Nat.two_pow_pos _)) := dif_neg h.ne'

theorem log2_le {n : Nat} (hpos : 0 < n) (hn : n < 2 ^ 24) : n.log2 ≤ 23 := by
  have := (Nat.log2_lt hpos.ne').2 hn
  omega

theorem stored_finite {s : Sign} {m : Nat} {e : Int} (hlog : m.log2 = 23) (hpos : 0 < m)
    (hlow : -126 ≤ e + 23) (hhigh : e + 23 ≤ 127) :
    stored (.finite s m e hpos) = .finite s m e hpos := by
  refine unpack_pack_finite binary hpos hlog ?_ ?_
  · change 1 ≤ e + 127 + 23
    omega
  · change e + 127 + 23 + 1 < 256
    omega

theorem stored_whole {n : Nat} (hn : n < 2 ^ 24) : stored (whole n) = whole n := by
  rcases Nat.eq_zero_or_pos n with rfl | hpos
  · rfl
  · rw [whole_pos hpos]
    have hlog := log2_le hpos hn
    refine stored_finite ?_ _ (by omega) (by omega)
    rw [log2_scaled hpos]
    omega

theorem shift_exact (m k : Nat) :
    ExtendedMantissa.ofMantissaAndAccuracy (m * 2 ^ k) .exact >>> k =
      ExtendedMantissa.ofMantissaAndAccuracy m .exact := by
  induction k generalizing m with
  | zero => rw [Nat.pow_zero, Nat.mul_one]; rfl
  | succ k ih =>
      change ExtendedMantissa.shiftRightOne
        (ExtendedMantissa.ofMantissaAndAccuracy (m * 2 ^ (k + 1)) .exact >>> k) = _
      rw [Nat.pow_succ', ← Nat.mul_assoc, ih]
      simp [ExtendedMantissa.shiftRightOne, ExtendedMantissa.ofMantissaAndAccuracy]

/-- Rounding drops zeros below a full significand. -/
theorem round_scaled (s : Sign) {m : Nat} (hlog : m.log2 = 23) (hpos : 0 < m) {e : Int}
    (he : -149 ≤ e) (k : Nat) :
    round binary s (m * 2 ^ k) (e - k) = .finite s m e hpos := by
  have htarget : ∀ j : Nat, binary.targetExponent (totalExponent (m * 2 ^ j) (e - j)) = e := by
    intro j
    simp only [Float.Model.Format.targetExponent, totalExponent, log2_scaled hpos, hlog,
      Float.Model.Format.mantissaBits, Float.Model.Format.minExponent]
    omega
  have hfirst : shiftToTargetExponent binary (m * 2 ^ k) (e - k) .exact =
      (ExtendedMantissa.ofMantissaAndAccuracy m .exact, e) := by
    have hk : (e - (e - k)).toNat = k := by omega
    rw [shiftToTargetExponent, htarget, shiftToExponent]
    simp only [hk, shift_exact]
    congr 1
    omega
  have hagain : shiftToTargetExponent binary m e .exact =
      (ExtendedMantissa.ofMantissaAndAccuracy m .exact, e) := by
    have h := htarget 0
    simp only [Nat.pow_zero, Nat.mul_one, Int.natCast_zero, Int.sub_zero] at h
    have hzero : (e - e).toNat = 0 := by omega
    rw [shiftToTargetExponent, h, shiftToExponent]
    simp only [hzero]
    exact congrArg₂ Prod.mk rfl (by omega)
  have hdec : decreaseExponent (m * 2 ^ k) (e - k) e = (m * 2 ^ k, e - k) := by
    simp [decreaseExponent]
  have hround : (ExtendedMantissa.ofMantissaAndAccuracy m .exact).roundedMantissa = m := rfl
  have hm : (ExtendedMantissa.ofMantissaAndAccuracy m .exact).mantissa = m := rfl
  unfold UnpackedFloat.round
  simp only [htarget, hdec]
  unfold roundWithAccuracy
  simp only [hfirst, hround, hagain, hm]
  exact dif_neg hpos.ne'

theorem round_whole {n : Nat} (hpos : 0 < n) (hn : n < 2 ^ 24) {k : Nat} (hk : k ≤ n.log2) :
    round binary .positive (n * 2 ^ (23 - k)) ((k : Int) - 23) = whole n := by
  have hlog := log2_le hpos hn
  have hfull : n * 2 ^ (23 - k) = n * 2 ^ (23 - n.log2) * 2 ^ (n.log2 - k) := by
    rw [Nat.mul_assoc, ← Nat.pow_add]
    congr 2
    omega
  have hexp : (k : Int) - 23 = (n.log2 : Int) - 23 - (n.log2 - k : Nat) := by omega
  rw [hfull, hexp, whole_pos hpos]
  refine round_scaled .positive ?_ _ (by omega) _
  rw [log2_scaled hpos]
  omega

theorem add_whole {a b : Nat} (h : a + b < 2 ^ 24) :
    add binary (whole a) (whole b) = whole (a + b) := by
  rcases Nat.eq_zero_or_pos a with rfl | ha
  · rw [Nat.zero_add]
    rcases Nat.eq_zero_or_pos b with rfl | hb
    · rfl
    · rw [whole_pos hb]
      rfl
  rcases Nat.eq_zero_or_pos b with rfl | hb
  · rw [Nat.add_zero, whole_pos ha]
    rfl
  have hla := log2_le ha (by omega)
  have hlb := log2_le hb (by omega)
  let k := min a.log2 b.log2
  have hscale : ∀ {n : Nat}, n.log2 ≤ 23 → k ≤ n.log2 →
      (n * 2 ^ (23 - n.log2)) <<< (((n.log2 : Int) - 23) - ((k : Int) - 23)).toNat =
        n * 2 ^ (23 - k) := by
    intro n hn hk
    rw [Nat.shiftLeft_eq, Nat.mul_assoc, ← Nat.pow_add]
    congr 2
    omega
  have hmin : min ((a.log2 : Int) - 23) ((b.log2 : Int) - 23) = (k : Int) - 23 := by omega
  have hmono : k ≤ (a + b).log2 := by
    have hle : a.log2 ≤ (a + b).log2 := by
      rw [Nat.le_log2 (by omega)]
      have := Nat.log2_self_le ha.ne'
      omega
    omega
  rw [whole_pos ha, whole_pos hb]
  simp only [add, decreaseExponent, Sign.apply, hmin]
  rw [hscale hla (by omega), hscale hlb (by omega)]
  have hsum : ((a * 2 ^ (23 - k) : Nat) : Int) + ((b * 2 ^ (23 - k) : Nat) : Int) =
      (((a + b) * 2 ^ (23 - k) : Nat) : Int) := by
    push_cast
    ring
  rw [hsum]
  have hcmp : compare ((((a + b) * 2 ^ (23 - k) : Nat) : Int)) 0 = .gt :=
    Int.compare_eq_gt.2 (by positivity)
  simp only [UnpackedFloat.normalize, hcmp, Int.toNat_natCast]
  exact round_whole (by omega) h hmono

/-- A number is a whole number of this value. -/
def Counts (x : Float32) (n : Nat) : Prop := parts x = whole n

theorem Counts.add {x y : Float32} {a b : Nat} (hx : Counts x a) (hy : Counts y b)
    (h : a + b < 2 ^ 24) : Counts (x + y) (a + b) := by
  have hx' : parts x = whole a := hx
  have hy' : parts y = whole b := hy
  rw [Counts, parts_add, hx', hy', add_whole h, stored_whole h]

theorem counts_zero : Counts 0 0 := by
  unfold Counts
  rfl

theorem counts_one : Counts 1 1 := by
  unfold Counts
  rfl

theorem counts_two : Counts 2 2 := by
  unfold Counts
  rfl

/-- A whole number below 2 ^ 24 denotes itself. -/
theorem Counts.value {x : Float32} {n : Nat} (h : Counts x n) (hn : n < 2 ^ 24) :
    x.datum.value? = some (n : ℚ) := by
  have hparts : parts x = whole n := h
  rw [datum_eq, hparts]
  rcases Nat.eq_zero_or_pos n with rfl | hpos
  · simp [whole, meaning, Datum.value?]
  · have hlog := log2_le hpos hn
    have hpow : (2 : ℚ) ^ (23 - n.log2) * 2 ^ ((n.log2 : Int) - 23) = 1 := by
      rw [← zpow_natCast, ← zpow_add₀ (by norm_num), Nat.cast_sub hlog]
      simp
    rw [whole_pos hpos]
    change some ((1 : ℚ) * ((n * 2 ^ (23 - n.log2) : Nat) : ℚ) * 2 ^ ((n.log2 : Int) - 23)) = _
    rw [Nat.cast_mul, Nat.cast_pow, Nat.cast_ofNat, one_mul, mul_assoc, hpow, mul_one]

end Single

end Warband.Numeric
