import Warband.Numeric.Binary

/-!
# Comparing single-precision numbers

Plain comparisons are false on NaN, so the larger and the smaller of two
numbers, and bringing a number into a range, need a decision about NaN of their
own. The larger and the smaller ignore a NaN beside a number; a range leaves NaN
alone. Sorting needs a total order: by distance NaN comes last, by rank every
bit pattern has its place.
-/
namespace Float32

/-- The larger number; a NaN loses against any number. -/
def larger (x y : Float32) : Float32 :=
  if x.isNaN then y else if x < y then y else x

/-- The smaller number; a NaN loses against any number. -/
def smaller (x y : Float32) : Float32 :=
  if x.isNaN then y else if y < x then y else x

/-- Brings a number into `[low, high]`; NaN stays NaN. -/
def within (x low high : Float32) : Float32 :=
  if x < low then low else if high < x then high else x

/-- The place of a number in the total order of bit patterns. -/
def rank (x : Float32) : Int :=
  Warband.Numeric.Format.single.rank x.toBits.toNat

/-- Strictly before in an order that puts NaN after every number and does not
tell the zeros apart. -/
def precedes (x y : Float32) : Bool :=
  if x.isNaN then false else y.isNaN || x < y

/-- Positive infinity. -/
def infinity : Float32 := ofBits 0x7f800000

def negInfinity : Float32 := ofBits 0xff800000

/-- Half a turn in radians. -/
def halfTurn : Float32 := ofBits 0x40490fdb

/-- A full turn in radians. -/
def tau : Float32 := ofBits 0x40c90fdb

end Float32
