import Warband.Numeric.Decimal
import Warband.Proofs.Numeric.Order

/-!
# Rounding and subtraction

The exact difference of two finite numbers is a whole multiple of the least
positive number. What is stored of it is this multiple rounded to 24 significant
bits, a half to the even neighbour, with the infinities as the ends. Rounding to
a multiple of a power of two keeps the order, and so does going from one power
to the next, since a power of two itself is never rounded. So a number does not
come closer to another one from above by being made larger: subtraction is
monotone in what it subtracts from.
-/
namespace Warband.Numeric

/-! ## Rounded quotients -/

section quotient

variable {a b d : Nat}

theorem roundHalfEven_mul (m : Nat) (hd : 0 < d) : roundHalfEven (m * d) d = m := by
  unfold roundHalfEven
  simp [Nat.mul_div_cancel m hd, hd]

theorem roundHalfEven_mul_mul (a d : Nat) {c : Nat} (hc : 0 < c) :
    roundHalfEven (a * c) (d * c) = roundHalfEven a d := by
  have hless : ∀ p q : Nat, 2 * (p * c) < q * c ↔ 2 * p < q := by
    intro p q
    rw [← Nat.mul_assoc, Nat.mul_lt_mul_right hc]
  have hmore : ∀ p q : Nat, q * c < 2 * (p * c) ↔ q < 2 * p := by
    intro p q
    rw [← Nat.mul_assoc, Nat.mul_lt_mul_right hc]
  simp only [roundHalfEven, Nat.mul_div_mul_right _ _ hc, Nat.mul_mod_mul_right, hless, hmore]

theorem roundHalfEven_mono (h : a ≤ b) (hd : 0 < d) : roundHalfEven a d ≤ roundHalfEven b d := by
  by_contra! hlt
  have hbelow := (roundHalfEven_near a d hd).2
  have habove := (roundHalfEven_near b d hd).1
  have hstep : 2 * d * (roundHalfEven b d + 1) ≤ 2 * d * roundHalfEven a d :=
    Nat.mul_le_mul_left _ hlt
  rw [Nat.mul_add, Nat.mul_one] at hstep
  -- half a unit on either side leaves no room but for equal numbers
  have hsame : a = b := by omega
  rw [hsame] at hlt
  exact Nat.lt_irrefl _ hlt

theorem roundHalfEven_le {m : Nat} (h : a ≤ m * d) (hd : 0 < d) : roundHalfEven a d ≤ m :=
  (roundHalfEven_mono h hd).trans_eq (roundHalfEven_mul m hd)

theorem le_roundHalfEven {m : Nat} (h : m * d ≤ a) (hd : 0 < d) : m ≤ roundHalfEven a d :=
  (roundHalfEven_mul m hd).symm.trans_le (roundHalfEven_mono h hd)

end quotient

/-! ## Rounding to a significand -/

/-- How many low bits of a number a significand has no room for. -/
def excess (n : Nat) : Nat := n.log2 - 23

/-- The nearest significand when the excess is cut off. -/
def significand (n : Nat) : Nat := roundHalfEven n (2 ^ excess n)

/-- A number rounded to 24 significant bits. -/
def rounded (n : Nat) : Nat := significand n * 2 ^ excess n

theorem lt_excess (n : Nat) : n < 2 ^ 24 * 2 ^ excess n := by
  have hlt : n < 2 ^ (n.log2 + 1) := Nat.lt_log2_self
  refine hlt.trans_le ?_
  rw [← Nat.pow_add]
  exact Nat.pow_le_pow_right (by omega) (by unfold excess; omega)

theorem excess_le {n : Nat} (h : excess n ≠ 0) : 2 ^ 23 * 2 ^ excess n ≤ n := by
  have hn : n ≠ 0 := by
    rintro rfl
    exact h rfl
  refine le_trans ?_ (Nat.log2_self_le hn)
  rw [← Nat.pow_add]
  exact Nat.pow_le_pow_right (by omega) (by unfold excess at h ⊢; omega)

theorem excess_mono {a b : Nat} (h : a ≤ b) : excess a ≤ excess b := by
  rcases Nat.eq_zero_or_pos a with rfl | ha
  · exact Nat.zero_le _
  · have hlog : a.log2 ≤ b.log2 := (Nat.le_log2 (by omega)).2 ((Nat.log2_self_le ha.ne').trans h)
    unfold excess
    omega

theorem significand_le (n : Nat) : significand n ≤ 2 ^ 24 :=
  roundHalfEven_le (lt_excess n).le (Nat.two_pow_pos _)

theorem le_significand {n : Nat} (h : excess n ≠ 0) : 2 ^ 23 ≤ significand n :=
  le_roundHalfEven (excess_le h) (Nat.two_pow_pos _)

theorem significand_pos {n : Nat} (h : 0 < n) : 0 < significand n := by
  by_cases hzero : excess n = 0
  · have hexact := roundHalfEven_mul n Nat.one_pos
    rw [Nat.mul_one] at hexact
    rwa [significand, hzero, Nat.pow_zero, hexact]
  · exact lt_of_lt_of_le (by omega) (le_significand hzero)

theorem rounded_mono {a b : Nat} (h : a ≤ b) : rounded a ≤ rounded b := by
  rcases (excess_mono h).eq_or_lt with hsame | hless
  · unfold rounded significand
    rw [hsame]
    exact Nat.mul_le_mul_right _ (roundHalfEven_mono h (Nat.two_pow_pos _))
  · calc rounded a ≤ 2 ^ 24 * 2 ^ excess a := Nat.mul_le_mul_right _ (significand_le a)
      _ = 2 ^ 23 * 2 ^ (excess a + 1) := by ring
      _ ≤ 2 ^ 23 * 2 ^ excess b := Nat.mul_le_mul_left _ (Nat.pow_le_pow_right (by omega) hless)
      _ ≤ rounded b := Nat.mul_le_mul_right _ (le_significand (by omega))

/-- What a significand has room for is not rounded. -/
theorem rounded_mul_two_pow {m : Nat} (h : m < 2 ^ 24) (k : Nat) :
    rounded (m * 2 ^ k) = m * 2 ^ k := by
  rcases Nat.eq_zero_or_pos m with rfl | hpos
  · rw [Nat.zero_mul]
    rfl
  · have hle : excess (m * 2 ^ k) ≤ k := by
      have hlog := Single.log2_le hpos h
      rw [excess, Single.log2_scaled hpos]
      omega
    have hsplit : m * 2 ^ k = m * 2 ^ (k - excess (m * 2 ^ k)) * 2 ^ excess (m * 2 ^ k) := by
      rw [Nat.mul_assoc, ← Nat.pow_add, Nat.sub_add_cancel hle]
    rw [rounded, significand]
    conv_lhs => enter [1, 1]; rw [hsplit]
    rw [roundHalfEven_mul _ (Nat.two_pow_pos _), ← hsplit]

namespace Single

open Float.Model (UnpackedFloat totalExponent)
open Float.Model.UnpackedFloat

/-! ## Shifting a significand -/

/-- Something is left iff it is at least half a unit or leaves something when doubled. -/
theorem half_or_rest {r p : Nat} (h : r < p) : p ≤ 2 * r ∨ 2 * r % p ≠ 0 ↔ r ≠ 0 := by
  constructor
  · rintro (hhalf | hrest) rfl
    · omega
    · exact hrest (Nat.zero_mod p)
  · intro hr
    rcases Nat.lt_or_ge (2 * r) p with hlt | hge
    · rw [Nat.mod_eq_of_lt hlt]
      omega
    · exact .inl hge

/-- What shifting by `n` places leaves of a number: the quotient, whether the rest is at least half
a unit, and whether something else is left. -/
theorem shift_eq (m n : Nat) :
    ExtendedMantissa.ofMantissaAndAccuracy m .exact >>> n =
      ⟨m / 2 ^ n, decide (2 ^ n ≤ 2 * (m % 2 ^ n)), decide (2 * (m % 2 ^ n) % 2 ^ n ≠ 0)⟩ := by
  induction n with
  | zero => simp [Nat.mod_one]; rfl
  | succ n ih =>
      change ExtendedMantissa.shiftRightOne
        (ExtendedMantissa.ofMantissaAndAccuracy m .exact >>> n) = _
      rw [ih, ExtendedMantissa.shiftRightOne]
      have hdiv : m / 2 ^ n / 2 = m / 2 ^ (n + 1) := by
        rw [Nat.div_div_eq_div_mul, Nat.pow_succ]
      have hmod : m % 2 ^ (n + 1) = m % 2 ^ n + 2 ^ n * (m / 2 ^ n % 2) := Nat.mod_pow_succ
      have hlt : m % 2 ^ n < 2 ^ n := Nat.mod_lt _ (Nat.two_pow_pos n)
      have hrest : m % 2 ^ (n + 1) % 2 ^ n = m % 2 ^ n := by
        rw [hmod, Nat.add_mul_mod_self_left, Nat.mod_mod]
      have hpow : 2 ^ (n + 1) = 2 * 2 ^ n := Nat.pow_succ'
      have hround : (m / 2 ^ n % 2 != 0) = decide (2 ^ (n + 1) ≤ 2 * (m % 2 ^ (n + 1))) := by
        rw [hmod, hpow]
        rcases Nat.mod_two_eq_zero_or_one (m / 2 ^ n) with hbit | hbit
        · rw [hbit]
          simpa using hlt
        · rw [hbit]
          simp
      have hsticky : (decide (2 ^ n ≤ 2 * (m % 2 ^ n)) || decide (2 * (m % 2 ^ n) % 2 ^ n ≠ 0)) =
          decide (2 * (m % 2 ^ (n + 1)) % 2 ^ (n + 1) ≠ 0) := by
        rw [← Bool.decide_or, hpow, Nat.mul_mod_mul_left, ← hpow, hrest]
        refine decide_eq_decide.2 ((half_or_rest hlt).trans ?_)
        omega
      rw [hdiv, hround, hsticky]

/-- A shifted significand is rounded half to even. -/
theorem roundedMantissa_shift (m n : Nat) :
    (ExtendedMantissa.ofMantissaAndAccuracy m .exact >>> n).roundedMantissa =
      roundHalfEven m (2 ^ n) := by
  rw [shift_eq]
  have hlt : m % 2 ^ n < 2 ^ n := Nat.mod_lt _ (Nat.two_pow_pos n)
  unfold roundHalfEven
  simp only
  rcases Nat.lt_trichotomy (2 * (m % 2 ^ n)) (2 ^ n) with hless | hhalf | hmore
  · have hbit : decide (2 ^ n ≤ 2 * (m % 2 ^ n)) = false := by simpa using hless
    rw [if_pos hless, hbit]
    cases decide (2 * (m % 2 ^ n) % 2 ^ n ≠ 0) <;> rfl
  · have hbit : decide (2 ^ n ≤ 2 * (m % 2 ^ n)) = true := by simpa using hhalf.ge
    have hrest : decide (2 * (m % 2 ^ n) % 2 ^ n ≠ 0) = false := by simp [hhalf]
    rw [if_neg (by omega), if_neg (by omega), hbit, hrest]
    change m / 2 ^ n + m / 2 ^ n % 2 = _
    split <;> omega
  · have hbit : decide (2 ^ n ≤ 2 * (m % 2 ^ n)) = true := by simpa using hmore.le
    have hrest : decide (2 * (m % 2 ^ n) % 2 ^ n ≠ 0) = true := by
      rw [Nat.mod_eq_sub_mod hmore.le, Nat.mod_eq_of_lt (by omega)]
      simpa using Nat.sub_ne_zero_of_lt hmore
    rw [if_neg (by omega), if_pos hmore, hbit, hrest]
    rfl

/-! ## Rounding to the format -/

/-- The exponent that a number is rounded to, told by its magnitude. -/
theorem targetExponent_eq {m : Nat} (hm : 0 < m) {e : Int} (he : -149 ≤ e) :
    binary.targetExponent (totalExponent m e) = (excess (magnitude m e) : Int) - 149 := by
  rw [excess, magnitude, log2_scaled hm]
  simp only [Float.Model.Format.targetExponent, totalExponent, Float.Model.Format.mantissaBits,
    Float.Model.Format.minExponent]
  omega

/-- A significand of at most 24 bits stays, and the least one beyond them moves on by a place. -/
theorem shift_significand {r : Nat} (hr : r ≤ 2 ^ 24) (hpos : 0 < r) {e : Int} (he : -149 ≤ e)
    (hfull : e = -149 ∨ 2 ^ 23 ≤ r) :
    ∃ m f, shiftToTargetExponent binary r e .exact =
        (ExtendedMantissa.ofMantissaAndAccuracy m .exact, f) ∧
      0 < m ∧ Normal m f ∧ magnitude m f = magnitude r e := by
  have hexcess : excess (magnitude r e) = r.log2 + (e + 149).toNat - 23 := by
    rw [excess, magnitude, log2_scaled hpos]
  rw [shiftToTargetExponent, targetExponent_eq hpos he, hexcess, shiftToExponent]
  rcases hr.lt_or_eq with hlt | rfl
  · have hlog := log2_le hpos hlt
    have hstay : ((r.log2 + (e + 149).toNat - 23 : Nat) - 149 - e).toNat = 0 := by omega
    rw [hstay]
    exact ⟨r, e, congrArg (Prod.mk _) (by simp), hpos, ⟨hlt, he, hfull⟩, rfl⟩
  · have hmove : (((2 ^ 24).log2 + (e + 149).toNat - 23 : Nat) - 149 - e).toNat = 1 := by
      rw [Nat.log2_two_pow]
      omega
    have hnext : (e + 1 + 149).toNat = (e + 149).toNat + 1 := by omega
    rw [hmove]
    refine ⟨2 ^ 23, e + 1, congrArg₂ Prod.mk (shift_exact (2 ^ 23) 1) rfl, by omega,
      ⟨by omega, by omega, .inr le_rfl⟩, ?_⟩
    rw [magnitude, magnitude, hnext]
    ring

/-- Moving a number to a lower exponent leaves its magnitude. -/
theorem magnitude_shiftLeft {m k : Nat} {e : Int} (h : -149 ≤ e - k) :
    magnitude (m <<< k) (e - k) = magnitude m e := by
  have hexp : (e + 149).toNat = k + (e - k + 149).toNat := by omega
  rw [magnitude, magnitude, Nat.shiftLeft_eq, hexp, Nat.pow_add, Nat.mul_assoc]

/-- Rounding finds the normal form of the rounded magnitude. -/
theorem round_eq (s : Sign) {m : Nat} (hm : 0 < m) {e : Int} (he : -149 ≤ e) :
    ∃ n f, ∃ hn : 0 < n, round binary s m e = .finite s n f hn ∧ Normal n f ∧
      magnitude n f = rounded (magnitude m e) := by
  let size := magnitude m e
  let target : Int := (excess size : Int) - 149
  let k := (e - target).toNat
  have hlow : -149 ≤ e - k := by omega
  have hsame : magnitude (m <<< k) (e - k) = size := magnitude_shiftLeft hlow
  have hpos : 0 < m <<< k := by
    rw [Nat.shiftLeft_eq]
    exact Nat.mul_pos hm (Nat.two_pow_pos k)
  have hfirst : shiftToTargetExponent binary (m <<< k) (e - k) .exact =
      (ExtendedMantissa.ofMantissaAndAccuracy (m <<< k) .exact >>> (target - (e - k)).toNat,
        target) := by
    rw [shiftToTargetExponent, targetExponent_eq hpos hlow, hsame, shiftToExponent]
    exact congrArg (Prod.mk _) (by omega)
  have hround : roundHalfEven (m <<< k) (2 ^ (target - (e - k)).toNat) = significand size := by
    have hden : excess size = (target - (e - k)).toNat + (e - k + 149).toNat := by omega
    rw [significand, hden, ← hsame, magnitude, Nat.pow_add,
      roundHalfEven_mul_mul _ _ (Nat.two_pow_pos _)]
  have hfull : target = -149 ∨ 2 ^ 23 ≤ significand size := by
    by_cases hzero : excess size = 0
    · exact .inl (by omega)
    · exact .inr (le_significand hzero)
  obtain ⟨n, f, hagain, hn, hnormal, hmag⟩ := shift_significand (significand_le size)
    (significand_pos (magnitude_pos hm e)) (e := target) (by omega) hfull
  have hrounded : magnitude (significand size) target = rounded size := by
    have hexp : (target + 149).toNat = excess size := by omega
    rw [magnitude, hexp, rounded]
  refine ⟨n, f, hn, ?_, hnormal, hmag.trans hrounded⟩
  have htarget : binary.targetExponent (totalExponent m e) = target := targetExponent_eq hm he
  have hdec : decreaseExponent m e target = (m <<< k, e - k) := rfl
  have hexact : (ExtendedMantissa.ofMantissaAndAccuracy n .exact).mantissa = n := rfl
  unfold UnpackedFloat.round
  simp only [htarget, hdec]
  unfold roundWithAccuracy
  simp only [hfirst, roundedMantissa_shift, hround, hagain, hexact]
  exact dif_neg hn.ne'

/-! ## Storing -/

theorem stored_infinity (s : Sign) : stored (.infinity s) = .infinity s := by
  cases s <;> rfl

theorem stored_zero (s : Sign) : stored (.zero s) = .zero s := by
  cases s <;> rfl

/-- A number that is too small for a full significand is stored as it is. -/
theorem stored_subnormal {s : Sign} {m : Nat} (hpos : 0 < m) (hm : m < 2 ^ 23) :
    stored (.finite s m (-149) hpos) = .finite s m (-149) hpos := by
  have hlog : m.log2 + 1 ≠ binary.mantissaBits := by
    have := (Nat.log2_lt hpos.ne').2 hm
    change m.log2 + 1 ≠ 24
    omega
  have hfit : ¬ 2 ^ binary.exponentBits ≤
      ((-149 : Int) + binary.exponentBias + binary.mantissaBitsWithoutImplicit).toNat + 1 := by
    decide
  have hval : (BitVec.ofNat 23 m).toNat = m := by
    rw [BitVec.toNat_ofNat]
    exact Nat.mod_eq_of_lt hm
  have hne : BitVec.ofNat 23 m ≠ 0#23 := by
    intro h
    have := congrArg BitVec.toNat h
    rw [hval] at this
    exact hpos.ne' this
  unfold stored pack
  simp only [if_neg hfit, if_neg hlog]
  simp only [unpack, unpackExponent_packComponents, unpackMantissa_packComponents,
    unpackSign_packComponents, Sign.ofBitVec_toBitVec]
  rw [if_neg (by decide), if_pos trivial, dif_neg hne]
  congr 1

theorem stored_normal {s : Sign} {m : Nat} {e : Int} (hpos : 0 < m) (h : Normal m e)
    (he : e ≤ 104) : stored (.finite s m e hpos) = .finite s m e hpos := by
  have hleast := h.least
  rcases Nat.lt_or_ge m (2 ^ 23) with hsmall | hfull
  · obtain rfl := h.full.resolve_right (by omega)
    exact stored_subnormal hpos hsmall
  · have hlog : m.log2 = 23 := (Nat.log2_eq_iff hpos.ne').2 ⟨hfull, h.bits⟩
    exact stored_finite hlog hpos (by omega) (by omega)

theorem stored_storable {u : UnpackedFloat} (h : Storable u) : stored u = u := by
  cases u with
  | notANumber => rfl
  | infinity s => exact stored_infinity s
  | zero s => exact stored_zero s
  | finite s m e hpos => exact stored_normal hpos h.1 h.2

/-- A number with too great an exponent is stored as an infinity. -/
theorem stored_overflow {s : Sign} {m : Nat} {e : Int} (hpos : 0 < m) (he : 104 < e) :
    stored (.finite s m e hpos) = .infinity s := by
  have hfit : 2 ^ binary.exponentBits ≤
      (e + binary.exponentBias + binary.mantissaBitsWithoutImplicit).toNat + 1 := by
    change 256 ≤ (e + 127 + 23).toNat + 1
    omega
  unfold stored pack
  simp only [if_pos hfit]
  exact stored_infinity s

/-- Storing cuts the height off at the infinities. -/
theorem height_stored {s : Sign} {m : Nat} {e : Int} (hpos : 0 < m) (h : Normal m e) :
    height (stored (.finite s m e hpos)) = s.apply (min (magnitude m e) ceiling : Nat) := by
  rcases lt_or_ge 104 e with hbig | hsmall
  · have hfull := h.full.resolve_left (by omega)
    have hpow : 2 ^ 254 ≤ 2 ^ (e + 149).toNat := Nat.pow_le_pow_right (by omega) (by omega)
    have hle : ceiling ≤ magnitude m e :=
      calc ceiling = 2 ^ 23 * 2 ^ 254 := by unfold ceiling; ring
        _ ≤ magnitude m e := Nat.mul_le_mul hfull hpow
    rw [stored_overflow hpos hbig, Nat.min_eq_right hle]
    rfl
  · rw [stored_normal hpos h hsmall, Nat.min_eq_left (magnitude_lt_ceiling h hsmall).le]
    rfl

/-! ## Exact results -/

/-- What is stored of an exact result: its height is rounded and cut off at the infinities. -/
def settle (d : Int) : Int := d.sign * (min (rounded d.natAbs) ceiling : Nat)

theorem rounded_zero : rounded 0 = 0 := rfl

theorem settle_zero : settle 0 = 0 := by rw [settle, Int.sign_zero, Int.zero_mul]

theorem settle_natCast (n : Nat) : settle n = (min (rounded n) ceiling : Nat) := by
  rcases Nat.eq_zero_or_pos n with rfl | hpos
  · simp [settle, rounded_zero]
  · rw [settle, Int.sign_natCast_of_ne_zero hpos.ne', one_mul, Int.natAbs_natCast]

theorem settle_neg (d : Int) : settle (-d) = -settle d := by
  rw [settle, settle, Int.sign_neg, Int.natAbs_neg, Int.neg_mul]

theorem settle_apply (s : Sign) (n : Nat) :
    settle (s.apply n) = s.apply (min (rounded n) ceiling : Nat) := by
  cases s with
  | positive => exact settle_natCast n
  | negative => exact (settle_neg n).trans (congrArg _ (settle_natCast n))

theorem settle_mono {a b : Int} (h : a ≤ b) : settle a ≤ settle b := by
  have hnat : ∀ {m n : Nat}, m ≤ n → settle m ≤ settle n := by
    intro m n hmn
    have hround := rounded_mono hmn
    rw [settle_natCast, settle_natCast]
    omega
  have hpos : ∀ n : Nat, 0 ≤ settle n := fun n => settle_natCast n ▸ Int.natCast_nonneg _
  obtain ⟨m, rfl | rfl⟩ := a.eq_nat_or_neg <;> obtain ⟨n, rfl | rfl⟩ := b.eq_nat_or_neg
  · exact hnat (by omega)
  · obtain rfl : m = 0 := by omega
    obtain rfl : n = 0 := by omega
    rfl
  · rw [settle_neg]
    exact (Int.neg_nonpos_of_nonneg (hpos m)).trans (hpos n)
  · rw [settle_neg, settle_neg]
    exact Int.neg_le_neg (hnat (by omega))

/-- A number that can be stored is stored as it is. -/
theorem settle_height {u : UnpackedFloat} (h : Storable u) (hfin : u.isFinite) :
    settle (height u) = height u := by
  cases u with
  | notANumber => cases hfin
  | infinity s => cases hfin
  | zero s => exact settle_zero
  | finite s m e hpos =>
      have hlt := magnitude_lt_ceiling h.1 h.2
      have hexact : rounded (magnitude m e) = magnitude m e := rounded_mul_two_pow h.1.bits _
      rw [height, settle_apply, hexact, Nat.min_eq_left hlt.le]

theorem height_stored_round (s : Sign) {m : Nat} (hpos : 0 < m) {e : Int} (he : -149 ≤ e) :
    height (stored (round binary s m e)) = settle (s.apply (magnitude m e)) := by
  obtain ⟨n, f, hn, hround, hnormal, hmag⟩ := round_eq s hpos he
  rw [hround, height_stored hn hnormal, hmag, settle_apply]

theorem natCast_magnitude (n : Nat) (e : Int) :
    ((magnitude n e : Nat) : Int) = n * 2 ^ (e + 149).toNat := by
  rw [magnitude, Nat.cast_mul, Nat.cast_pow, Nat.cast_ofNat]

/-- An exact sum is rounded and stored. -/
theorem height_stored_normalize (d : Int) {e : Int} (he : -149 ≤ e) (s : Sign) :
    height (stored (UnpackedFloat.normalize binary d e s)) = settle (d * 2 ^ (e + 149).toNat) := by
  rcases lt_trichotomy d 0 with hneg | rfl | hpos
  · have hmag : Sign.negative.apply (magnitude (-d).toNat e) = d * 2 ^ (e + 149).toNat := by
      change -((magnitude (-d).toNat e : Nat) : Int) = _
      rw [natCast_magnitude, Int.toNat_of_nonneg (by omega)]
      ring
    rw [UnpackedFloat.normalize, Int.compare_eq_lt.2 hneg]
    simp only
    rw [height_stored_round .negative (by omega) he, hmag]
  · rw [UnpackedFloat.normalize, Int.compare_eq_eq.2 rfl]
    simp only
    rw [stored_zero, Int.zero_mul]
    rfl
  · have hmag : Sign.positive.apply (magnitude d.toNat e) = d * 2 ^ (e + 149).toNat := by
      change ((magnitude d.toNat e : Nat) : Int) = _
      rw [natCast_magnitude, Int.toNat_of_nonneg hpos.le]
    rw [UnpackedFloat.normalize, Int.compare_eq_gt.2 hpos]
    simp only
    rw [height_stored_round .positive (by omega) he, hmag]

theorem apply_mul (s : Sign) (n p : Int) : s.apply n * p = s.apply (n * p) := by
  cases s with
  | positive => rfl
  | negative => exact Int.neg_mul n p

/-- A significand that has been moved to a lower exponent, told by its magnitude. -/
theorem shiftLeft_mul {m : Nat} {e low : Int} (hlow : -149 ≤ low) (h : low ≤ e) :
    ((m <<< (e - low).toNat : Nat) : Int) * 2 ^ (low + 149).toNat = magnitude m e := by
  have hexp : e - (e - low).toNat = low := by omega
  have hmag : magnitude (m <<< (e - low).toNat) (e - (e - low).toNat) = magnitude m e :=
    magnitude_shiftLeft (by omega)
  rw [← hmag, hexp, natCast_magnitude]

/-- The difference of two finite numbers is their exact difference as it is stored. -/
theorem height_sub {u v : UnpackedFloat} (hu : Storable u) (hv : Storable v) (hfu : u.isFinite)
    (hfv : v.isFinite) : height (stored (sub binary u v)) = settle (height u - height v) := by
  cases u with
  | notANumber => cases hfu
  | infinity s => cases hfu
  | zero s =>
      cases v with
      | notANumber => cases hfv
      | infinity t => cases hfv
      | zero t =>
          have hzero : ∃ r, sub binary (.zero s) (.zero t) = .zero r := by
            cases s <;> cases t <;> exact ⟨_, rfl⟩
          obtain ⟨r, hr⟩ := hzero
          rw [hr, stored_zero]
          exact settle_zero.symm
      | finite t n f hn =>
          have hneg : height (.finite (-t) n f hn) = 0 - height (.finite t n f hn) := by
            rw [Int.zero_sub]
            cases t with
            | negative => exact (Int.neg_neg _).symm
            | positive => rfl
          change height (stored (.finite (-t) n f hn)) = settle (0 - height _)
          rw [stored_storable (u := .finite (-t) n f hn) hv, ← hneg]
          exact (settle_height (u := .finite (-t) n f hn) hv rfl).symm
  | finite s m e hm =>
      cases v with
      | notANumber => cases hfv
      | infinity t => cases hfv
      | zero t =>
          change height (stored (.finite s m e hm)) = settle (height _ - 0)
          rw [stored_storable hu, Int.sub_zero, settle_height hu hfu]
      | finite t n f hn =>
          have hlow : -149 ≤ min e f := le_min hu.1.least hv.1.least
          change height (stored (UnpackedFloat.normalize binary
            (s.apply (m <<< (e - min e f).toNat : Nat) - t.apply (n <<< (f - min e f).toNat : Nat))
            (min e f) .positive)) = _
          rw [height_stored_normalize _ hlow, Int.sub_mul, apply_mul, apply_mul,
            shiftLeft_mul hlow (min_le_left e f), shiftLeft_mul hlow (min_le_right e f)]
          rfl

/-! ## Subtraction is monotone -/

variable {x y t a : Float32}

theorem altitude_sub (hx : x.isFinite) (ht : t.isFinite) :
    altitude (x - t) = settle (altitude x - altitude t) := by
  rw [altitude, parts_sub]
  exact height_sub (storable_parts x) (storable_parts t) hx ht

/-- An infinity taken from another number leaves the opposite one. -/
theorem parts_sub_infinity {s : Sign} (hx : x.isNaN = false) (hne : parts x ≠ .infinity s)
    (ht : parts t = .infinity s) : parts (x - t) = .infinity (-s) := by
  have hnan := parts_ne_notANumber hx
  rw [parts_sub, ht]
  cases hparts : parts x with
  | notANumber => exact absurd hparts hnan
  | infinity r =>
      rw [hparts] at hne
      cases r <;> cases s <;> first | rfl | exact absurd rfl hne
  | zero r => exact stored_infinity _
  | finite r m e hm => exact stored_infinity _

/-- An infinity taken from itself leaves nothing. -/
theorem isNaN_infinity_sub {s : Sign} (hx : parts x = .infinity s) (ht : parts t = .infinity s) :
    (x - t).isNaN := by
  rw [isNaN_iff, parts_sub, sign?_stored, hx, ht]
  cases s <;> rfl

/-- A finite number taken from an infinity leaves the infinity. -/
theorem parts_infinity_sub {s : Sign} (hx : parts x = .infinity s) (ht : t.isFinite) :
    parts (x - t) = .infinity s := by
  have hfin : (parts t).isFinite := ht
  rw [parts_sub, hx]
  cases hparts : parts t with
  | notANumber => rw [hparts] at hfin; cases hfin
  | infinity r => rw [hparts] at hfin; cases hfin
  | zero r => exact stored_infinity s
  | finite r m e hm => exact stored_infinity s

theorem isNaN_sub (hx : x.isNaN = false) (ht : t.isFinite) : (x - t).isNaN = false := by
  rw [Bool.eq_false_iff, Ne, isNaN_iff]
  rcases finite_or_infinite hx with ⟨hfin, -⟩ | ⟨hinf, -⟩ | ⟨hinf, -⟩
  · rw [parts_sub, sign?_stored]
    exact sign?_sub hfin ht
  · rw [parts_infinity_sub hinf ht]
    exact Option.some_ne_none _
  · rw [parts_infinity_sub hinf ht]
    exact Option.some_ne_none _

theorem altitude_sub_mono (hx : x.isNaN = false) (hy : y.isNaN = false) (ht : t.isFinite)
    (h : altitude x ≤ altitude y) : altitude (x - t) ≤ altitude (y - t) := by
  have hlow := (altitude_bounds (isNaN_sub hy ht)).1
  have hhigh := (altitude_bounds (isNaN_sub hx ht)).2
  rcases finite_or_infinite hx with ⟨hfinx, hbx⟩ | ⟨hinfx, hax⟩ | ⟨hinfx, hax⟩
  · rcases finite_or_infinite hy with ⟨hfiny, -⟩ | ⟨-, hay⟩ | ⟨hinfy, -⟩
    · rw [altitude_sub hfinx ht, altitude_sub hfiny ht]
      exact settle_mono (by omega)
    · omega
    · exact hhigh.trans_eq (congrArg height (parts_infinity_sub hinfy ht)).symm
  · exact (congrArg height (parts_infinity_sub hinfx ht)).trans_le hlow
  · rcases finite_or_infinite hy with ⟨-, hby⟩ | ⟨-, hay⟩ | ⟨hinfy, -⟩
    · omega
    · have hceiling : 0 < ceiling := by decide
      omega
    · exact hhigh.trans_eq (congrArg height (parts_infinity_sub hinfy ht)).symm

/-- What lies below a number less an infinity lies below a greater number less the same infinity. -/
theorem lt_sub_infinity {s : Sign} (ht : parts t = .infinity s) (h : a < x - t) (hle : x ≤ y) :
    a < y - t := by
  obtain ⟨ha, hdiff, hbelow⟩ := lt_iff_altitude.1 h
  obtain ⟨hx, hy, hxy⟩ := le_iff_altitude.1 hle
  have hne : parts x ≠ .infinity s := by
    intro hinf
    have hnone := isNaN_infinity_sub hinf ht
    rw [hdiff] at hnone
    cases hnone
  have hleft : altitude (x - t) = (-s).apply ceiling :=
    congrArg height (parts_sub_infinity hx hne ht)
  cases s with
  | positive =>
      -- nothing lies below the negative infinity
      have hlow := (altitude_bounds ha).1
      change altitude (x - t) = -ceiling at hleft
      omega
  | negative =>
      have hney : parts y ≠ .infinity .negative := by
        intro hinf
        have hay : altitude y = -ceiling := congrArg height hinf
        rcases finite_or_infinite hx with ⟨-, hbx⟩ | ⟨hinfx, -⟩ | ⟨-, hax⟩
        · omega
        · exact hne hinfx
        · have hceiling : 0 < ceiling := by decide
          omega
      have hparts := parts_sub_infinity hy hney ht
      have hright : altitude (y - t) = altitude (x - t) := (congrArg height hparts).trans hleft.symm
      refine lt_iff_altitude.2 ⟨ha, ?_, hright ▸ hbelow⟩
      rw [Bool.eq_false_iff, Ne, isNaN_iff, hparts]
      exact Option.some_ne_none _

/-- A number that lies below a difference lies below it still when the number that is taken from is
greater. -/
theorem lt_sub_of_le (h : a < x - t) (hle : x ≤ y) : a < y - t := by
  obtain ⟨ha, hdiff, hbelow⟩ := lt_iff_altitude.1 h
  obtain ⟨hx, hy, hxy⟩ := le_iff_altitude.1 hle
  by_cases ht : t.isFinite
  · exact lt_iff_altitude.2 ⟨ha, isNaN_sub hy ht, hbelow.trans_le (altitude_sub_mono hx hy ht hxy)⟩
  · cases hparts : parts t with
    | notANumber =>
        have hnone : (x - t).isNaN := by
          rw [isNaN_iff, parts_sub, sign?_stored, hparts]
          cases parts x <;> rfl
        rw [hdiff] at hnone
        cases hnone
    | infinity s => exact lt_sub_infinity hparts h hle
    | zero s => exact absurd (congrArg UnpackedFloat.isFinite hparts) ht
    | finite s m e hm => exact absurd (congrArg UnpackedFloat.isFinite hparts) ht

end Single

end Warband.Numeric
