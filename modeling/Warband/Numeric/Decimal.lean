import Warband.Numeric.Binary

/-!
# Decimal text

Two ways to write a number in decimal. Fixed places round the exact value,
halves to the even neighbour. The shortest form takes the coarsest decimal grid
that has a point reading back as the number, and of the two grid neighbours the
nearer one, the upper one on an exact tie. Neither ever rounds twice: both work
on the exact significand.
-/
namespace Warband.Numeric

-- powers are those of the core library, whatever else is in scope
attribute [local instance (high)] instPowNat

/-- The quotient rounded to the nearest integer, a half to the even neighbour. -/
def roundHalfEven (num den : Nat) : Nat :=
  let q := num / den
  let r := num % den
  if 2 * r < den then q
  else if den < 2 * r then q + 1
  else if q % 2 = 0 then q else q + 1

/-- The rounded quotient is within half a unit of the exact one. -/
theorem roundHalfEven_near (num den : Nat) (h : 0 < den) :
    2 * num ≤ 2 * den * roundHalfEven num den + den ∧
      2 * den * roundHalfEven num den ≤ 2 * num + den := by
  have hdiv := Nat.div_add_mod num den
  have hmod := Nat.mod_lt num h
  have hone : den * (num / den + 1) = den * (num / den) + den := by rw [Nat.mul_add, Nat.mul_one]
  simp only [Nat.mul_assoc]
  unfold roundHalfEven
  simp only
  split
  · omega
  · split
    · rw [hone]; omega
    · split
      · omega
      · rw [hone]; omega

/-- A nonnegative power of two or ten with an integer exponent, as the pair of
its numerator and denominator. -/
def powerParts (base : Nat) (e : Int) : Nat × Nat :=
  if 0 ≤ e then (base ^ e.toNat, 1) else (1, base ^ (-e).toNat)

/-- The decimal digits of `n`, padded on the left with zeros to `width`. -/
def padDigits (width n : Nat) : String :=
  let digits := toString n
  String.ofList (List.replicate (width - digits.length) '0') ++ digits

def signText (negative : Bool) : String := if negative then "-" else ""

/-- `n` units of the `places`-th decimal place, written in full. -/
def pointText (places n : Nat) : String :=
  if places = 0 then toString n
  else toString (n / 10 ^ places) ++ "." ++ padDigits places (n % 10 ^ places)

namespace Datum

/-- A number with exactly `places` decimal places. -/
def fixed (places : Nat) : Datum → String
  | .nan => "NaN"
  | .infinite negative => signText negative ++ "inf"
  | .finite negative significand exponent =>
    let (num, den) := powerParts 2 exponent
    signText negative ++ pointText places (roundHalfEven (significand * num * 10 ^ places) den)

end Datum

/-- A decimal number `digits * 10 ^ scale`. -/
structure Decimal where
  digits : Nat
  scale : Int
deriving DecidableEq, Repr

/-- The real numbers that read back as one finite number, in quarters of its
last place: from `low` to `high` quarters of `2 ^ exponent`, the ends included
when `closed`. -/
structure Neighbourhood where
  low : Nat
  value : Nat
  high : Nat
  exponent : Int
  closed : Bool
deriving DecidableEq, Repr

/-- The lower half of the interval is narrower where the significand is the
least one of its binade and a smaller binade exists. -/
def Format.neighbourhood (f : Format) (significand : Nat) (exponent : Int) : Neighbourhood where
  low := if significand = 2 ^ f.fractionBits ∧ exponent ≠ f.leastExponent
    then 4 * significand - 1 else 4 * significand - 2
  value := 4 * significand
  high := 4 * significand + 2
  exponent := exponent - 2
  closed := significand % 2 = 0

namespace Neighbourhood

/-- Numerators of the three bounds and the common denominator, in units of
`10 ^ scale`. -/
def onGrid (n : Neighbourhood) (scale : Int) : Nat × Nat × Nat × Nat :=
  let (two, half) := powerParts 2 n.exponent
  let (tenth, ten) := powerParts 10 (-scale)
  (n.low * two * tenth, n.value * two * tenth, n.high * two * tenth, half * ten)

/-- The nearest point of the grid `10 ^ scale` that reads back as the number. -/
def nearestOnGrid? (n : Neighbourhood) (scale : Int) : Option Nat :=
  let (low, value, high, den) := n.onGrid scale
  let inside (c : Nat) : Bool :=
    if n.closed then low ≤ c * den && c * den ≤ high else low < c * den && c * den < high
  let below := value / den
  let above := below + 1
  match inside below, inside above with
  | false, false => none
  | true, false => some below
  | false, true => some above
  | true, true => if value - below * den < above * den - value then some below else some above

/-- Tries ever finer grids, at most `fuel` of them. -/
def searchGrids (n : Neighbourhood) : Nat → Int → Decimal
  | 0, scale => ⟨0, scale⟩
  | fuel + 1, scale =>
    match n.nearestOnGrid? scale with
    | some digits => ⟨digits, scale⟩
    | none => n.searchGrids fuel (scale - 1)

/-- The first grid is coarser than the number, and the finest needed one has at
most seventeen digits below its leading one. -/
def shortest (n : Neighbourhood) : Decimal :=
  n.searchGrids 24 ((((n.value.log2 : Int) + 1 + n.exponent) * 30103) / 100000 + 2)

end Neighbourhood

/-- The decimal with the fewest digits that reads back as the given positive
number. -/
def Format.shortest (f : Format) (significand : Nat) (exponent : Int) : Decimal :=
  (f.neighbourhood significand exponent).shortest

namespace Decimal

/-- Positional text without an exponent; an integer has no point. -/
def positional (d : Decimal) : String :=
  if 0 ≤ d.scale then toString (d.digits * 10 ^ d.scale.toNat)
  else pointText (-d.scale).toNat d.digits

/-- One leading digit, the others behind a point, and a power of ten. -/
def scientific (d : Decimal) : String :=
  let text := (toString d.digits).toList
  let power := d.scale + (text.length - 1 : Nat)
  let tail := text.drop 1
  String.ofList (text.take 1) ++ (if tail.isEmpty then "" else "." ++ String.ofList tail)
    ++ "e" ++ toString power

end Decimal

namespace Datum

/-- The shortest decimal that reads back, positional at every magnitude. -/
def plainText (f : Format) : Datum → String
  | .nan => "NaN"
  | .infinite negative => signText negative ++ "inf"
  | .finite negative significand exponent =>
    signText negative ++
      if significand = 0 then "0" else (f.shortest significand exponent).positional

/-- The shortest decimal that reads back, with a point in every positional form
and an exponent for magnitudes below `10 ^ -4` or from `10 ^ 16` on. -/
def inspectText (f : Format) : Datum → String
  | .nan => "NaN"
  | .infinite negative => signText negative ++ "inf"
  | .finite negative significand exponent =>
    signText negative ++
      if significand = 0 then "0.0" else
        let d := f.shortest significand exponent
        let power := d.scale + ((toString d.digits).length - 1 : Nat)
        if power < -4 ∨ 16 ≤ power then d.scientific
        else if 0 ≤ d.scale then d.positional ++ ".0" else d.positional

end Datum

end Warband.Numeric
