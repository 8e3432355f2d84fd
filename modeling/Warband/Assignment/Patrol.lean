import Warband.Geometry
import Warband.Numeric.Choice
import Warband.Random.Generator
import Warband.Settings.Basic

/-!
# Choosing a patrol route

A route accepts bots of some range of aggression during some part of the raid.
Among the routes that accept it a bot prefers a close one that suits its
aggression; a small jitter from the bot's own seed breaks ties.
-/
namespace Warband

open Numeric Warband.Random

structure Route where
  waypoints : List Position := []
  minAggression : Float32 := 0
  maxAggression : Float32 := 1
  minRaidTime : Float32 := 0
  maxRaidTime : Float32 := 1

/-- The bot that is looking for a route. -/
structure Chooser where
  position : Position := .origin
  aggression : Float32
  /-- The part of the raid that is over. -/
  raidTime : Float32
  seed : UInt64 := 0

namespace Route

def proximityWeight : Float32 := 0.6

def aggressionWeight : Float32 := 0.4

/-- The least distance that proximity is measured by. -/
def leastDistance : Float32 := Float32.ofBits 0x34000000

def accepts (r : Route) (aggression raidTime : Float32) : Bool :=
  !r.waypoints.isEmpty && (r.minAggression ≤ aggression && aggression ≤ r.maxAggression)
    && (r.minRaidTime ≤ raidTime && raidTime ≤ r.maxRaidTime)

/-- The distance to the nearest waypoint. -/
def distance (r : Route) (position : Position) : Float32 :=
  (r.waypoints.map (·.horizontalDistance position)).foldl Float32.smaller .infinity

/-- One in the middle of the range of aggression, zero at its ends. -/
def fit (r : Route) (aggression : Float32) : Float32 :=
  let half := (r.maxAggression - r.minAggression) / 2
  if half ≤ 0 then 1
  else (1 - (aggression - (r.minAggression + half)).abs / half).within 0 1

def proximity (r : Route) (position : Position) (s : PatrolSettings) : Float32 :=
  1 - (r.distance position / s.maxWaypointDistance.larger leastDistance).smaller 1

/-- A number in `[0, 1)` that depends on a seed and the index of a route. -/
def jitter (seed : UInt64) (index : Nat) : Float32 :=
  (Generator.ofSeed (seed ^^^ (UInt64.ofNat index * 0x9E3779B97F4A7C15))).unit.1

/-- The score of the route at an index, if it accepts the bot. -/
def score? (r : Route) (index : Nat) (c : Chooser) (s : PatrolSettings) : Option Float32 :=
  if r.accepts c.aggression c.raidTime then
    some (proximityWeight * r.proximity c.position s + aggressionWeight * r.fit c.aggression
      + jitter c.seed index * s.jitterScale)
  else none

/-- The index of the best route that accepts the bot. -/
def select? (routes : List Route) (c : Chooser) (s : PatrolSettings) : Option Nat :=
  let scored := routes.zipIdx.filterMap fun (r, i) => (r.score? i c s).map (·, i)
  (firstBest? (·.1) scored).map (·.2)

end Route

end Warband
