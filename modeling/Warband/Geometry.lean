import Warband.Numeric.Comparison
import Warband.Numeric.Decimal

/-!
# Positions and headings

A position has a height `y` above the horizontal `x`/`z` plane, on which all
tactical distances are measured. A heading is a unit direction on that plane; a
direction too short to have a reliable bearing gives none. All arithmetic is in
single precision, one rounding per operation.
-/
namespace Warband

structure Position where
  x : Float32
  y : Float32
  z : Float32

namespace Position

def origin : Position := ⟨0, 0, 0⟩

instance : Inhabited Position := ⟨origin⟩

/-- Squared distance on the horizontal plane. -/
def horizontalDistanceSq (a b : Position) : Float32 :=
  let dx := a.x - b.x
  let dz := a.z - b.z
  dx * dx + dz * dz

def horizontalDistance (a b : Position) : Float32 :=
  (a.horizontalDistanceSq b).sqrt

/-- Squared distance in space. -/
def distanceSq (a b : Position) : Float32 :=
  let dx := a.x - b.x
  let dy := a.y - b.y
  let dz := a.z - b.z
  dx * dx + dy * dy + dz * dz

def distance (a b : Position) : Float32 :=
  (a.distanceSq b).sqrt

/-- No component is NaN or infinite. -/
def isFinite (a : Position) : Bool :=
  a.x.isFinite && a.y.isFinite && a.z.isFinite

/-- Moves a position on the horizontal plane. -/
def offset (a : Position) (dx dz : Float32) : Position :=
  ⟨a.x + dx, a.y, a.z + dz⟩

/-- The three components with one decimal place each. -/
def text (a : Position) : String :=
  "(" ++ a.x.datum.fixed 1 ++ ", " ++ a.y.datum.fixed 1 ++ ", " ++ a.z.datum.fixed 1 ++ ")"

@[simp] theorem offset_y (a : Position) (dx dz : Float32) : (a.offset dx dz).y = a.y := rfl

end Position

structure Heading where
  x : Float32
  z : Float32

namespace Heading

/-- The heading of a bot that has not turned yet: no direction at all. -/
def zero : Heading := ⟨0, 0⟩

instance : Inhabited Heading := ⟨zero⟩

/-- The least squared length of a vector that has a direction. -/
def leastLengthSq : Float32 := 1e-4

/-- Normalises a vector whose squared length is at least `leastSq`. An
undefined length is too short. -/
def ofVectorFrom? (leastSq dx dz : Float32) : Option Heading :=
  let lengthSq := dx * dx + dz * dz
  if leastSq ≤ lengthSq then
    let length := lengthSq.sqrt
    some ⟨dx / length, dz / length⟩
  else none

def ofVector? (dx dz : Float32) : Option Heading :=
  ofVectorFrom? leastLengthSq dx dz

/-- The direction from one position to another. -/
def between? (start goal : Position) : Option Heading :=
  ofVector? (goal.x - start.x) (goal.z - start.z)

/-- The direction at a bearing in radians, measured from the `x` axis. -/
def ofAngle (angle : Float32) : Heading := ⟨angle.cos, angle.sin⟩

def angle (h : Heading) : Float32 := Float32.atan2 h.z h.x

/-- A quarter turn to the left. -/
def left (h : Heading) : Heading := ⟨-h.z, h.x⟩

def reversed (h : Heading) : Heading := ⟨-h.x, -h.z⟩

end Heading

end Warband
