import Mathlib
import Warband.Geometry

/-!
# Single precision

A single-precision operation takes its operands apart, finds the exact result
and stores it in 32 bits. Storing may round and may overflow to an infinity, but
it never loses the sign of a result and never turns a number into NaN. So what
is known of the sign of an exact result is known of the stored one: the squared
distance of two points with finite coordinates is never NaN.

NaN is also the only reason for which of two numbers neither is less than or
equal to the other.
-/
namespace Warband.Numeric.Single

open Float.Model (UnpackedFloat totalExponent)
open Float.Model.UnpackedFloat

/-- The format of single-precision numbers. -/
abbrev binary : Float.Model.Format := .binary32

/-- What is left of the exact result of an operation once it is stored. -/
def stored (u : UnpackedFloat) : UnpackedFloat := unpack binary (pack binary u)

/-- A number as its sign, integer significand and exponent. -/
def parts (x : Float32) : UnpackedFloat := x.toModel.unpack

theorem parts_add (x y : Float32) : parts (x + y) = stored (add binary (parts x) (parts y)) := rfl

theorem parts_sub (x y : Float32) : parts (x - y) = stored (sub binary (parts x) (parts y)) := rfl

theorem parts_mul (x y : Float32) : parts (x * y) = stored (mul binary (parts x) (parts y)) := rfl

/-! ## Signs -/

/-- The sign of a number, none of NaN. -/
def sign? : UnpackedFloat → Option Sign
  | .notANumber => none
  | .infinity s => some s
  | .zero s => some s
  | .finite s .. => some s

theorem isNaN_iff {x : Float32} : x.isNaN ↔ sign? (parts x) = none := by
  change (parts x).isNaN = true ↔ _
  cases parts x <;> simp [UnpackedFloat.isNaN, sign?]

/-- A pattern whose exponent field is not all ones, or whose fraction is zero, has a sign. -/
theorem sign?_unpack_components (s : Sign) (e : BitVec 8) (m : BitVec 23)
    (h : e = -1#8 → m = 0#23) :
    sign? (unpack binary (packComponents binary s e m)) = some s := by
  simp only [unpack, unpackExponent_packComponents, unpackMantissa_packComponents,
    unpackSign_packComponents, Sign.ofBitVec_toBitVec]
  split
  · rename_i he
    rw [if_pos (h he)]
    rfl
  · split
    · split <;> rfl
    · rfl

theorem sign?_stored (u : UnpackedFloat) : sign? (stored u) = sign? u := by
  cases u with
  | notANumber => rfl
  | infinity s => exact sign?_unpack_components s _ _ fun _ => rfl
  | zero s => exact sign?_unpack_components s _ _ fun _ => rfl
  | finite s m e hm =>
      unfold stored pack
      simp only
      split
      · exact sign?_unpack_components s _ _ fun _ => rfl
      · rename_i hfit
        split
        · refine sign?_unpack_components s _ _ fun hones => absurd hones fun hones => ?_
          have hval := congrArg BitVec.toNat hones
          simp at hval hfit
          omega
        · exact sign?_unpack_components s _ _ fun hones => absurd hones (by decide)

theorem sign?_roundWithAccuracy (s : Sign) (m : Nat) (e : Int) (a : Accuracy) :
    sign? (roundWithAccuracy binary s m e a) = some s := by
  unfold roundWithAccuracy
  simp only
  split <;> rfl

theorem sign?_round (s : Sign) (m : Nat) (e : Int) : sign? (round binary s m e) = some s :=
  sign?_roundWithAccuracy s _ _ .exact

theorem sign?_sub {u v : UnpackedFloat} (hu : u.isFinite) (hv : v.isFinite) :
    sign? (sub binary u v) ≠ none := by
  have hnorm : ∀ (m e : Int) (s : Sign), sign? (UnpackedFloat.normalize binary m e s) ≠ none := by
    intro m e s
    unfold UnpackedFloat.normalize
    split
    · simp [sign?_round]
    · simp [sign?]
    · simp [sign?_round]
  cases u <;> cases v <;> simp only [UnpackedFloat.isFinite, Bool.false_eq_true] at hu hv
  · rename_i s t
    cases s <;> cases t <;> exact Option.some_ne_none _
  · exact Option.some_ne_none _
  · exact Option.some_ne_none _
  · exact hnorm _ _ _

theorem sign?_square {u : UnpackedFloat} (hu : sign? u ≠ none) :
    sign? (mul binary u u) = some .positive := by
  have hsq : ∀ s : Sign, s * s = .positive := by
    intro s
    cases s <;> rfl
  cases u with
  | notANumber => simp [sign?] at hu
  | infinity s => simp [mul, sign?, hsq]
  | zero s => simp [mul, sign?, hsq]
  | finite s m e h =>
      rw [← hsq s]
      exact sign?_roundWithAccuracy _ _ _ _

theorem sign?_add {u v : UnpackedFloat} (hu : sign? u = some .positive)
    (hv : sign? v = some .positive) : sign? (add binary u v) = some .positive := by
  cases u <;> cases v <;>
    simp only [sign?, reduceCtorEq, Option.some.injEq] at hu hv <;> subst hu hv
  any_goals rfl
  rename_i m e hm n f hn
  simp only [add, decreaseExponent, Sign.apply]
  have hpos : 0 < m <<< (e - min e f).toNat := by
    rw [Nat.shiftLeft_eq]
    positivity
  generalize m <<< (e - min e f).toNat = p at hpos ⊢
  generalize n <<< (f - min e f).toNat = q
  have hcmp : compare ((p : Int) + (q : Int)) 0 = .gt := Int.compare_eq_gt.2 (by omega)
  simp only [UnpackedFloat.normalize, hcmp]
  exact sign?_round _ _ _

/-- The squared distance of two points with finite coordinates may be infinite but is a number. -/
theorem isNaN_horizontalDistanceSq {a b : Position} (hax : a.x.isFinite) (haz : a.z.isFinite)
    (hbx : b.x.isFinite) (hbz : b.z.isFinite) : (a.horizontalDistanceSq b).isNaN = false := by
  have hsquare : ∀ {x y : Float32}, x.isFinite → y.isFinite →
      sign? (parts ((x - y) * (x - y))) = some .positive := by
    intro x y hx hy
    rw [parts_mul, sign?_stored]
    refine sign?_square ?_
    rw [parts_sub, sign?_stored]
    exact sign?_sub hx hy
  have hsum : sign? (parts (a.horizontalDistanceSq b)) = some .positive := by
    rw [Position.horizontalDistanceSq, parts_add, sign?_stored]
    exact sign?_add (hsquare hax hbx) (hsquare haz hbz)
  rw [Bool.eq_false_iff, Ne, isNaN_iff, hsum]
  exact Option.some_ne_none _

/-! ## Order -/

theorem lt_iff {x y : Float32} : x < y ↔ (parts x).compare (parts y) = some .lt := by
  have hlt : x < y ↔ decide (x.toModel < y.toModel) = true := Iff.rfl
  rw [hlt, decide_eq_true_iff]
  change ((parts x).compare (parts y) == some .lt) = true ↔ _
  exact beq_iff_eq

theorem le_iff {x y : Float32} : x ≤ y ↔ ((parts x).compare (parts y)).any (·.isLE) := by
  have hle : x ≤ y ↔ decide (x.toModel ≤ y.toModel) = true := Iff.rfl
  rw [hle, decide_eq_true_iff]
  rfl

theorem compare_swap (u v : UnpackedFloat) :
    v.compare u = (u.compare v).map Ordering.swap := by
  have hexp : ∀ (a b : Int) (m n : Nat),
      (compare b a).then (compare n m) = ((compare a b).then (compare m n)).swap := by
    intro a b m n
    rw [Ordering.swap_then, Int.compare_swap, Nat.compare_swap]
  cases u with
  | notANumber => cases v <;> rfl
  | infinity s => cases s <;> rcases v with (_ | _) | _ | _ | ⟨_ | _⟩ <;> rfl
  | zero s => rcases v with (_ | _) | _ | _ | ⟨_ | _⟩ <;> rfl
  | finite s m e _ =>
      cases v with
      | finite t n f _ =>
          cases s <;> cases t
          · exact congrArg some (congrArg Ordering.swap (hexp e f m n))
          · rfl
          · rfl
          · exact congrArg some (hexp e f m n)
      | infinity t => cases s <;> cases t <;> rfl
      | notANumber => cases s <;> rfl
      | zero t => cases s <;> rfl

theorem compare_eq_none_iff {u v : UnpackedFloat} :
    u.compare v = none ↔ sign? u = none ∨ sign? v = none := by
  rcases u with (_ | _) | _ | _ | ⟨_ | _⟩ <;> rcases v with (_ | _) | _ | _ | ⟨_ | _⟩ <;>
    simp [UnpackedFloat.compare, sign?]

/-- One number is not less than another one iff the other is at most as great, or one of them is
NaN. -/
theorem not_lt_iff {x y : Float32} : ¬ x < y ↔ y ≤ x ∨ x.isNaN ∨ y.isNaN := by
  have hnone : (parts x).compare (parts y) = none ↔ x.isNaN ∨ y.isNaN := by
    rw [compare_eq_none_iff, isNaN_iff, isNaN_iff]
  rw [lt_iff, le_iff, compare_swap (parts x) (parts y), ← hnone]
  cases (parts x).compare (parts y) with
  | none => simp
  | some o => cases o <;> simp

/-- What is not greater than another number is a number. -/
theorem isNaN_of_le {x y : Float32} (h : x ≤ y) : y.isNaN = false := by
  rw [le_iff] at h
  rw [Bool.eq_false_iff, ne_eq, isNaN_iff]
  intro hnone
  rw [compare_eq_none_iff.2 (.inr hnone)] at h
  cases h

theorem isNaN_square {x : Float32} (h : x.isNaN = false) : (x * x).isNaN = false := by
  rw [Bool.eq_false_iff, ne_eq, isNaN_iff] at h ⊢
  rw [parts_mul, sign?_stored, sign?_square h]
  exact Option.some_ne_none _

end Warband.Numeric.Single
