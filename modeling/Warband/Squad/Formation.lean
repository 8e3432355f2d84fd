import Warband.Geometry
import Warband.Named
import Warband.Settings.Basic

/-!
# Marching order

Followers keep formation behind a moving boss: in single file where the way is
narrow, side by side where it is open. How fast a follower walks depends on its
squared distance from its place.
-/
namespace Warband

inductive Formation where
  | column
  | spread
deriving DecidableEq, Repr

instance : Named Formation where
  all := [.column, .spread]
  name
    | .column => "Column"
    | .spread => "Spread"

inductive Pace where
  | sprint
  | walk
  | matchBoss
  | slowApproach
deriving DecidableEq, Repr

instance : Named Pace where
  all := [.sprint, .walk, .matchBoss, .slowApproach]
  name
    | .sprint => "Sprint"
    | .walk => "Walk"
    | .matchBoss => "MatchBoss"
    | .slowApproach => "SlowApproach"

namespace Formation

/-- A boss that moved less than this has no heading. -/
def leastMovement : Float32 := 0.1

/-- The heading of a boss between two of its positions. -/
def heading? (previous current : Position) : Option Heading :=
  Heading.ofVectorFrom? (leastMovement * leastMovement) (current.x - previous.x)
    (current.z - previous.z)

/-- Single file on a way narrower than the switching width. -/
def select (width switchWidth : Float32) : Formation :=
  if width < switchWidth then column else spread

/-- The place of the follower at an index of a column. -/
def columnPoint (boss : Position) (h : Heading) (spacing : Float32) (i : Nat) : Position :=
  let back := spacing * Float32.ofNat (i + 1)
  boss.offset (-h.x * back) (-h.z * back)

/-- The place of the follower at an index of a line of `count`. -/
def spreadPoint (boss : Position) (h : Heading) (spacing : Float32) (count i : Nat) : Position :=
  let centre := (Float32.ofNat count - 1) / 2
  let lateral := (Float32.ofNat i - centre) * spacing
  boss.offset (-h.x * spacing + h.left.x * lateral) (-h.z * spacing + h.left.z * lateral)

/-- The places of `count` followers. -/
def points (f : Formation) (boss : Position) (h : Heading) (spacing : Float32) (count : Nat) :
    List Position :=
  (List.range count).map <| match f with
    | column => columnPoint boss h spacing
    | spread => spreadPoint boss h spacing count

/-- The formation behind a moving boss and the places in it. `width` tells how
wide the way is at a position across a heading. A standing boss has none. -/
def march? (previous boss : Position) (width : Position → Heading → Float32)
    (s : FormationSettings) (count : Nat) : Option (Formation × List Position) :=
  (heading? previous boss).map fun h =>
    let f := select (width boss h) s.switchWidth
    (f, f.points boss h s.spacing count)

end Formation

/-- The squared distances at which the pace changes. -/
structure PaceThresholds where
  catchUpSq : Float32
  matchSpeedSq : Float32
  slowApproachSq : Float32

namespace PaceThresholds

def ofSettings (s : FormationSettings) : PaceThresholds where
  catchUpSq := s.catchUpDistance * s.catchUpDistance
  matchSpeedSq := s.matchSpeedDistance * s.matchSpeedDistance
  slowApproachSq := s.slowApproachDistance * s.slowApproachDistance

/-- The pace at a squared distance from one's place. -/
def pace (t : PaceThresholds) (distanceSq : Float32) : Pace :=
  if t.catchUpSq < distanceSq then .sprint
  else if t.matchSpeedSq < distanceSq then .walk
  else if t.slowApproachSq < distanceSq then .matchBoss
  else .slowApproach

end PaceThresholds

end Warband
