/-!
# Binary interchange formats

A floating-point number is read here as what its bit pattern denotes: a sign
together with an exact integer significand and a power of two, or one of the
two special kinds. Everything that must be exact about numbers outside the
arithmetic itself, decimal text and the total order, starts from this reading
and continues in integers.
-/
namespace Warband.Numeric

-- powers are those of the core library, whatever else is in scope
attribute [local instance (high)] instPowNat

/-- A binary format is fixed by the widths of its fraction and exponent fields. -/
structure Format where
  fractionBits : Nat
  exponentBits : Nat
deriving DecidableEq, Repr

namespace Format

def single : Format := ⟨23, 8⟩

def double : Format := ⟨52, 11⟩

/-- The weight of the sign bit. -/
def signWeight (f : Format) : Nat := 2 ^ (f.fractionBits + f.exponentBits)

/-- The exponent of the unit in the last place of the subnormal numbers. -/
def leastExponent (f : Format) : Int :=
  2 - 2 ^ (f.exponentBits - 1) - f.fractionBits

end Format

/-- The meaning of a bit pattern. A finite number is
`significand * 2 ^ exponent`, negated if `negative`. -/
inductive Datum where
  | nan
  | infinite (negative : Bool)
  | finite (negative : Bool) (significand : Nat) (exponent : Int)
deriving DecidableEq, Repr

/-- Reads a bit pattern. The hidden bit is present exactly when the exponent
field is not zero. -/
def Format.decode (f : Format) (bits : Nat) : Datum :=
  let negative := decide (f.signWeight ≤ bits)
  let magnitude := bits % f.signWeight
  let field := magnitude / 2 ^ f.fractionBits
  let fraction := magnitude % 2 ^ f.fractionBits
  if field = 2 ^ f.exponentBits - 1 then
    if fraction = 0 then .infinite negative else .nan
  else if field = 0 then .finite negative fraction f.leastExponent
  else .finite negative (2 ^ f.fractionBits + fraction) (f.leastExponent + (field - 1))

/-- The position of a bit pattern in the total order of its format: negative
patterns descend, and both zeros and all NaN patterns have places of their own. -/
def Format.rank (f : Format) (bits : Nat) : Int :=
  if bits < f.signWeight then bits else (f.signWeight : Int) - 1 - bits

/-- Distinct patterns have distinct ranks, so the order of ranks is total and
antisymmetric on patterns. -/
theorem Format.rank_injective (f : Format) {a b : Nat} (h : f.rank a = f.rank b) : a = b := by
  unfold Format.rank at h
  split at h <;> split at h <;> omega

end Warband.Numeric

namespace Float32

/-- The exact value of a single-precision number. -/
def datum (x : Float32) : Warband.Numeric.Datum :=
  Warband.Numeric.Format.single.decode x.toBits.toNat

end Float32
