import Warband.Proofs.Numeric.Whole

/-!
# The order of single-precision numbers

Every finite number is a whole multiple of the least positive one, so numbers
have heights: a finite one its multiple, an infinity a bound that no finite
number reaches. Of two numbers with a full significand the one with the greater
exponent is the greater one, so comparing them part by part is comparing their
heights. So the order of the numbers other than NaN is total and transitive,
with the two zeros at one height.
-/
namespace Warband.Numeric.Single

open Float.Model (UnpackedFloat)
open Float.Model.UnpackedFloat

/-! ## Normal form -/

/-- A significand of at most 24 bits that has all of them unless the exponent is the least one. -/
structure Normal (m : Nat) (e : Int) : Prop where
  bits : m < 2 ^ 24
  least : -149 ≤ e
  full : e = -149 ∨ 2 ^ 23 ≤ m

/-- A number that a bit pattern can hold. -/
def Storable : UnpackedFloat → Prop
  | .finite _ m e _ => Normal m e ∧ e ≤ 104
  | _ => True

theorem storable_unpack (b : BitVec 32) : Storable (unpack binary b) := by
  have hdecode := decode_toNat b
  cases hu : unpack binary b with
  | finite s m e h =>
      rw [hu] at hdecode
      have hread : Format.single.decode b.toNat =
          if b.toNat % 2 ^ 31 / 2 ^ 23 = 255 then
            if b.toNat % 2 ^ 31 % 2 ^ 23 = 0 then .infinite (decide (2 ^ 31 ≤ b.toNat)) else .nan
          else if b.toNat % 2 ^ 31 / 2 ^ 23 = 0 then
            .finite (decide (2 ^ 31 ≤ b.toNat)) (b.toNat % 2 ^ 31 % 2 ^ 23) (-149)
          else .finite (decide (2 ^ 31 ≤ b.toNat)) (2 ^ 23 + b.toNat % 2 ^ 31 % 2 ^ 23)
            (-149 + ((b.toNat % 2 ^ 31 / 2 ^ 23 : Nat) - 1)) := rfl
      rw [hread] at hdecode
      split at hdecode
      · split at hdecode <;> cases hdecode
      · split at hdecode
        · obtain ⟨-, rfl, rfl⟩ := Datum.finite.inj hdecode
          refine ⟨⟨?_, ?_, ?_⟩, ?_⟩ <;> omega
        · obtain ⟨-, rfl, rfl⟩ := Datum.finite.inj hdecode
          refine ⟨⟨?_, ?_, ?_⟩, ?_⟩ <;> omega
  | _ => trivial

theorem storable_parts (x : Float32) : Storable (parts x) := storable_unpack _

/-! ## Heights -/

/-- How many times the least positive number a finite number is, signs left aside. -/
def magnitude (m : Nat) (e : Int) : Nat := m * 2 ^ (e + 149).toNat

/-- The magnitude of an infinity, which no finite number reaches. -/
def ceiling : Nat := 2 ^ 24 * 2 ^ 253

def height : UnpackedFloat → Int
  | .infinity s => s.apply ceiling
  | .finite s m e _ => s.apply (magnitude m e)
  | _ => 0

theorem magnitude_pos {m : Nat} (h : 0 < m) (e : Int) : 0 < magnitude m e :=
  Nat.mul_pos h (Nat.two_pow_pos _)

theorem magnitude_lt_ceiling {m : Nat} {e : Int} (h : Normal m e) (he : e ≤ 104) :
    magnitude m e < ceiling := by
  have hpow : 2 ^ (e + 149).toNat ≤ 2 ^ 253 := Nat.pow_le_pow_right (by omega) (by omega)
  calc magnitude m e < 2 ^ 24 * 2 ^ (e + 149).toNat :=
        Nat.mul_lt_mul_of_pos_right h.bits (Nat.two_pow_pos _)
    _ ≤ ceiling := Nat.mul_le_mul_left _ hpow

/-- The greater exponent makes the greater number. -/
theorem magnitude_lt_of_exponent {m n : Nat} {e f : Int} (hm : Normal m e) (hn : Normal n f)
    (h : e < f) : magnitude m e < magnitude n f := by
  have hleast := hm.least
  have hfull : 2 ^ 23 ≤ n := hn.full.resolve_left (by omega)
  have hpow : 2 ^ ((e + 149).toNat + 1) ≤ 2 ^ (f + 149).toNat :=
    Nat.pow_le_pow_right (by omega) (by omega)
  calc magnitude m e < 2 ^ 24 * 2 ^ (e + 149).toNat :=
        Nat.mul_lt_mul_of_pos_right hm.bits (Nat.two_pow_pos _)
    _ = 2 ^ 23 * 2 ^ ((e + 149).toNat + 1) := by ring
    _ ≤ magnitude n f := Nat.mul_le_mul hfull hpow

/-- Comparing exponents first and significands next is comparing magnitudes. -/
theorem compare_magnitude {m n : Nat} {e f : Int} (hm : Normal m e) (hn : Normal n f) :
    (compare e f).then (compare m n) = compare (magnitude m e) (magnitude n f) := by
  rcases lt_trichotomy e f with hlt | rfl | hgt
  · rw [compare_lt_iff_lt.2 hlt, compare_lt_iff_lt.2 (magnitude_lt_of_exponent hm hn hlt)]
    rfl
  · rw [compare_eq_iff_eq.2 rfl, magnitude, magnitude, ← cmp_eq_compare, ← cmp_eq_compare]
    exact (cmp_mul_pos_right (Nat.two_pow_pos _) m n).symm
  · rw [compare_gt_iff_gt.2 hgt, compare_gt_iff_gt.2 (magnitude_lt_of_exponent hn hm hgt)]
    rfl

/-- A finite number lies strictly between the infinities. -/
theorem height_bounds {u : UnpackedFloat} (hu : Storable u) (hfin : u.isFinite) :
    -(ceiling : Int) < height u ∧ height u < ceiling := by
  have hceiling : 0 < ceiling := by decide
  cases u with
  | notANumber => cases hfin
  | infinity s => cases hfin
  | zero s => exact ⟨by simp only [height]; omega, by simp only [height]; omega⟩
  | finite s m e hm =>
      have hlt := magnitude_lt_ceiling hu.1 hu.2
      cases s <;> simp only [height, Sign.apply] <;> omega

/-- A sign keeps or turns around the order of two magnitudes. -/
theorem compare_apply (s : Sign) (a b : Nat) :
    compare (s.apply a) (s.apply b) =
      match s with
      | .positive => compare a b
      | .negative => (compare a b).swap := by
  have hcast : compare (a : Int) (b : Int) = compare a b := by
    rw [← cmp_eq_compare, ← cmp_eq_compare]
    exact Nat.strictMono_cast.cmp_map_eq a b
  cases s with
  | positive => exact hcast
  | negative =>
      simp only
      rw [← hcast, Int.compare_swap, ← cmp_eq_compare, ← cmp_eq_compare]
      exact StrictAnti.cmp_map_eq (fun _ _ h => Int.neg_lt_neg h) (a : Int) b

/-- Two numbers compare like their heights. -/
theorem compare_height {u v : UnpackedFloat} (hu : Storable u) (hv : Storable v)
    (hsu : sign? u ≠ none) (hsv : sign? v ≠ none) :
    u.compare v = some (compare (height u) (height v)) := by
  have hlt : ∀ {a b : Int}, a < b → some Ordering.lt = some (compare a b) :=
    fun h => congrArg some (Int.compare_eq_lt.2 h).symm
  have hgt : ∀ {a b : Int}, b < a → some Ordering.gt = some (compare a b) :=
    fun h => congrArg some (Int.compare_eq_gt.2 h).symm
  have heq : ∀ {a b : Int}, a = b → some Ordering.eq = some (compare a b) :=
    fun h => congrArg some (Int.compare_eq_eq.2 h).symm
  have hceiling : 0 < ceiling := by decide
  have hbounds : ∀ {s : Sign} {m : Nat} {e : Int} {h : 0 < m}, Storable (.finite s m e h) →
      0 < magnitude m e ∧ magnitude m e < ceiling :=
    fun {_ _ _ h} hm => ⟨magnitude_pos h _, magnitude_lt_ceiling hm.1 hm.2⟩
  rcases u with (_ | _) | _ | _ | ⟨_ | _, m, e, hm⟩ <;>
    rcases v with (_ | _) | _ | _ | ⟨_ | _, n, f, hn⟩
  any_goals first | exact absurd rfl hsu | exact absurd rfl hsv | exact heq rfl
  case finite.negative.finite.negative =>
    change some ((compare e f).then (compare m n)).swap = _
    rw [compare_magnitude hu.1 hv.1, height, height, compare_apply]
  case finite.positive.finite.positive =>
    change some ((compare e f).then (compare m n)) = _
    rw [compare_magnitude hu.1 hv.1, height, height, compare_apply]
  -- the signs or the kinds differ
  all_goals
    try have hbu := hbounds hu
    try have hbv := hbounds hv
    first
    | exact hlt (by simp only [height, Sign.apply]; omega)
    | exact hgt (by simp only [height, Sign.apply]; omega)

/-! ## The order -/

/-- The height of a number. -/
def altitude (x : Float32) : Int := height (parts x)

theorem compare_parts {x y : Float32} (hx : x.isNaN = false) (hy : y.isNaN = false) :
    (parts x).compare (parts y) = some (compare (altitude x) (altitude y)) := by
  refine compare_height (storable_parts x) (storable_parts y) ?_ ?_
  · rw [Ne, ← isNaN_iff, hx]
    exact Bool.false_ne_true
  · rw [Ne, ← isNaN_iff, hy]
    exact Bool.false_ne_true

theorem isNaN_of_compare {x y : Float32} (h : (parts x).compare (parts y) ≠ none) :
    x.isNaN = false ∧ y.isNaN = false := by
  rw [Ne, compare_eq_none_iff, not_or, ← isNaN_iff, ← isNaN_iff] at h
  simpa using h

theorem lt_iff_altitude {x y : Float32} :
    x < y ↔ x.isNaN = false ∧ y.isNaN = false ∧ altitude x < altitude y := by
  rw [lt_iff]
  constructor
  · intro h
    obtain ⟨hx, hy⟩ := isNaN_of_compare (h ▸ Option.some_ne_none _)
    rw [compare_parts hx hy, Option.some_inj, Int.compare_eq_lt] at h
    exact ⟨hx, hy, h⟩
  · rintro ⟨hx, hy, h⟩
    rw [compare_parts hx hy, Int.compare_eq_lt.2 h]

theorem le_iff_altitude {x y : Float32} :
    x ≤ y ↔ x.isNaN = false ∧ y.isNaN = false ∧ altitude x ≤ altitude y := by
  rw [le_iff]
  constructor
  · intro h
    have hsome : (parts x).compare (parts y) ≠ none := fun hnone => by simp [hnone] at h
    obtain ⟨hx, hy⟩ := isNaN_of_compare hsome
    rw [compare_parts hx hy, Option.any_some, Int.isLE_compare] at h
    exact ⟨hx, hy, h⟩
  · rintro ⟨hx, hy, h⟩
    rw [compare_parts hx hy, Option.any_some, Int.isLE_compare]
    exact h

theorem le_trans {x y z : Float32} (hxy : x ≤ y) (hyz : y ≤ z) : x ≤ z := by
  obtain ⟨hx, -, hxy⟩ := le_iff_altitude.1 hxy
  obtain ⟨-, hz, hyz⟩ := le_iff_altitude.1 hyz
  exact le_iff_altitude.2 ⟨hx, hz, hxy.trans hyz⟩

theorem le_of_lt {x y : Float32} (h : x < y) : x ≤ y := by
  obtain ⟨hx, hy, hlt⟩ := lt_iff_altitude.1 h
  exact le_iff_altitude.2 ⟨hx, hy, hlt.le⟩

theorem lt_of_lt_of_le {x y z : Float32} (hxy : x < y) (hyz : y ≤ z) : x < z := by
  obtain ⟨hx, -, hlt⟩ := lt_iff_altitude.1 hxy
  obtain ⟨-, hz, hle⟩ := le_iff_altitude.1 hyz
  exact lt_iff_altitude.2 ⟨hx, hz, hlt.trans_le hle⟩

/-! ## The ends of the order -/

section ends

variable {x : Float32}

theorem parts_ne_notANumber (h : x.isNaN = false) : parts x ≠ .notANumber := by
  rintro hx
  rw [Bool.eq_false_iff, Ne, isNaN_iff, hx] at h
  exact h rfl

/-- A number is finite or one of the two infinities. -/
theorem finite_or_infinite (h : x.isNaN = false) :
    (x.isFinite ∧ -(ceiling : Int) < altitude x ∧ altitude x < ceiling) ∨
      (parts x = .infinity .negative ∧ altitude x = -ceiling) ∨
      (parts x = .infinity .positive ∧ altitude x = ceiling) := by
  have hstorable := storable_parts x
  have hnan := parts_ne_notANumber h
  have hfinite : x.isFinite = (parts x).isFinite := rfl
  rw [hfinite]
  unfold altitude
  cases hx : parts x with
  | notANumber => exact absurd hx hnan
  | infinity s =>
      cases s with
      | negative => exact .inr (.inl ⟨rfl, rfl⟩)
      | positive => exact .inr (.inr ⟨rfl, rfl⟩)
  | zero s => exact .inl ⟨rfl, height_bounds (hx ▸ hstorable) rfl⟩
  | finite s m e hm => exact .inl ⟨rfl, height_bounds (hx ▸ hstorable) rfl⟩

theorem altitude_bounds (h : x.isNaN = false) :
    -(ceiling : Int) ≤ altitude x ∧ altitude x ≤ ceiling := by
  rcases finite_or_infinite h with ⟨-, hx⟩ | ⟨-, hx⟩ | ⟨-, hx⟩ <;> omega

theorem altitude_infinity : altitude .infinity = ceiling := by
  have hparts : parts .infinity = .infinity .positive := by rfl
  rw [altitude, hparts]
  rfl

/-- No number that is not infinite reaches infinity. -/
theorem not_infinity_le (h : x.isInf = false) : ¬ Float32.infinity ≤ x := by
  intro hle
  obtain ⟨-, hx, hbound⟩ := le_iff_altitude.1 hle
  have hinf : x.isInf = (parts x).isInf := rfl
  rw [hinf] at h
  rw [altitude_infinity] at hbound
  rcases finite_or_infinite hx with ⟨-, -, hlt⟩ | ⟨hparts, -⟩ | ⟨hparts, -⟩
  · omega
  · rw [hparts] at h
    cases h
  · rw [hparts] at h
    cases h

/-- A square that is infinite is the positive infinity. -/
theorem infinity_le_square (h : (x * x).isInf) : Float32.infinity ≤ x * x := by
  have hinf : (x * x).isInf = (parts (x * x)).isInf := rfl
  rw [hinf] at h
  have hx : sign? (parts x) ≠ none := by
    intro hnone
    have hparts : parts x = .notANumber := by
      cases hx : parts x <;> first | rfl | (rw [hx] at hnone; cases hnone)
    rw [parts_mul, hparts] at h
    cases h
  have hsign := sign?_square hx
  rw [← sign?_stored, ← parts_mul] at hsign
  cases hparts : parts (x * x) with
  | infinity s =>
      rw [hparts] at hsign
      obtain rfl : s = .positive := Option.some.inj hsign
      refine le_iff_altitude.2 ⟨by decide +kernel, ?_, ?_⟩
      · rw [Bool.eq_false_iff, Ne, isNaN_iff, hparts]
        exact Option.some_ne_none _
      · rw [altitude_infinity, altitude, hparts]
        exact le_refl _
  | notANumber => rw [hparts] at h; cases h
  | zero s => rw [hparts] at h; cases h
  | finite s m e hm => rw [hparts] at h; cases h

end ends

/-! ## Choosing and sorting -/

/-- The smaller of two numbers is in a range iff one of them is. -/
theorem smaller_le_iff {x y r : Float32} : x.smaller y ≤ r ↔ x ≤ r ∨ y ≤ r := by
  unfold Float32.smaller
  split
  · rename_i hx
    refine ⟨.inr, fun h => h.resolve_left fun hle => ?_⟩
    rw [(le_iff_altitude.1 hle).1] at hx
    cases hx
  · rename_i hx
    split
    · rename_i hlt
      obtain ⟨hy, -, hbelow⟩ := lt_iff_altitude.1 hlt
      refine ⟨.inr, fun h => h.elim (fun hle => ?_) id⟩
      obtain ⟨-, hr, hle⟩ := le_iff_altitude.1 hle
      exact le_iff_altitude.2 ⟨hy, hr, hbelow.le.trans hle⟩
    · rename_i hlt
      refine ⟨.inl, fun h => h.elim id fun hle => ?_⟩
      obtain ⟨hy, -, -⟩ := le_iff_altitude.1 hle
      rcases not_lt_iff.1 hlt with hxy | hnan | hnan
      · exact le_trans hxy hle
      · rw [hy] at hnan
        cases hnan
      · exact absurd hnan hx

/-- One number comes before another one in sorting unless the other one is at most as great. -/
theorem precedes_eq_false_iff {x y : Float32} :
    y.precedes x = false ↔ y.isNaN ∨ x.isNaN = false ∧ altitude x ≤ altitude y := by
  unfold Float32.precedes
  cases hy : y.isNaN with
  | true => exact iff_of_true rfl (.inl rfl)
  | false =>
      cases hx : x.isNaN with
      | true => exact iff_of_false (by simp) (by simp)
      | false =>
          have hlt : y < x ↔ altitude y < altitude x :=
            lt_iff_altitude.trans ⟨fun h => h.2.2, fun h => ⟨hy, hx, h⟩⟩
          rw [if_neg Bool.false_ne_true, Bool.false_or, decide_eq_false_iff_not, hlt, Int.not_lt]
          exact ⟨fun h => .inr ⟨rfl, h⟩, fun h => h.elim (fun hnan => by cases hnan) And.right⟩

end Warband.Numeric.Single
