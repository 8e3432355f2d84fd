import Warband.Numeric.Choice
import Warband.Random.Generator
import Warband.Settings.Basic

/-!
# The worth of quests

A quest is worth more the closer it is and the more it is desired, each with
some randomness, and less the farther it leads away from the exit.
-/
namespace Warband

open Numeric Warband.Random

structure Quest where
  /-- Distance to the nearest point of the quest. -/
  minDistance : Float32 := 0
  /-- Nominally from zero to a hundred. -/
  desirability : Float32 := 0
  activeForPlayer : Bool := false
  /-- Degrees between the direction of the quest and that of the exit. -/
  exfilAngle : Float32 := 0

namespace Quest

/-- A number between minus and plus the amplitude, from a unit draw. -/
def symmetric (unit amplitude : Float32) : Float32 := (unit * 2 - 1) * amplitude

/-- Zero up to the greatest free angle, then rising to one at a half turn. With
no room to rise it stays zero. -/
def exfilPenalty (angle maxAngle : Float32) : Float32 :=
  let room := 180 - maxAngle
  if angle ≤ maxAngle ∨ room ≤ 0 then 0 else ((angle - maxAngle) / room).smaller 1

/-- The share of the greatest distance that is left, jittered; one if the
greatest distance is not positive, and then nothing is drawn. -/
def closeness (q : Quest) (maxDistance : Float32) (s : QuestSettings) (g : Generator) :
    Float32 × Generator :=
  if 0 < maxDistance then
    let (unit, g) := g.unit
    let jitter := symmetric unit s.distanceRandomness / 100 * maxDistance
    (1 - (q.minDistance + jitter) / maxDistance, g)
  else (1, g)

def desire (q : Quest) (s : QuestSettings) (g : Generator) : Float32 × Generator :=
  let multiplier := if q.activeForPlayer then s.activeQuestMultiplier else 1
  let (unit, g) := g.unit
  ((q.desirability * multiplier + symmetric unit s.desirabilityRandomness) / 100, g)

def score (q : Quest) (maxDistance : Float32) (s : QuestSettings) (g : Generator) :
    Float32 × Generator :=
  let (near, g) := q.closeness maxDistance s g
  let (want, g) := q.desire s g
  (near * s.distanceWeighting + want * s.desirabilityWeighting
    - exfilPenalty q.exfilAngle s.maxExfilAngle * s.exfilDirectionWeighting, g)

/-- Scores quests one after the other with one generator. -/
def scores (maxDistance : Float32) (s : QuestSettings) :
    List Quest → Generator → List Float32 × Generator
  | [], g => ([], g)
  | q :: quests, g =>
    let (x, g) := q.score maxDistance s g
    let (rest, g) := scores maxDistance s quests g
    (x :: rest, g)

/-- The index of the highest score; undefined scores are left out. -/
def highest? (scores : List Float32) : Option Nat :=
  (firstBest? (·.1) (scores.zipIdx.filter fun (x, _) => !x.isNaN)).map (·.2)

end Quest

end Warband
