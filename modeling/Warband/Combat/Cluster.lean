import Warband.Combat.Log

/-!
# Clusters of events

Nearby events are one fight. The events of the log are taken in storage order:
each joins the first cluster whose seed is not too far away, and an event that
no cluster takes becomes the seed of a new one while there is room. Distances
are measured to the seed, not to the moving mean, so the order of the slots
alone decides who joins whom.
-/
namespace Warband.Combat

structure Cluster where
  position : Position := .origin
  intensity : Float32 := 0
  memberCount : Nat := 0
  latestTime : Time := 0
  hasBoss : Bool := false

/-- A cluster that may still grow: its seed, the sum of its members' positions
and what else is known of them. -/
structure Draft where
  seed : Position
  sum : Position
  members : Nat
  intensity : Float32
  latest : Time
  boss : Bool

namespace Draft

/-- An event counts one, an explosion two more. -/
def raise (intensity : Float32) (kind : EventKind) : Float32 :=
  if kind = .explosion then intensity + 1 + 2 else intensity + 1

def ofSeed (e : Event) : Draft where
  seed := e.position
  sum := e.position
  members := 1
  intensity := raise 0 e.kind
  latest := e.time.larger e.time
  boss := e.isBoss

/-- The draft takes an event unless the event is farther from the seed than the
radius. -/
def takes (radiusSq : Float32) (d : Draft) (e : Event) : Bool :=
  !decide (radiusSq < e.position.horizontalDistanceSq d.seed)

def absorb (d : Draft) (e : Event) : Draft where
  seed := d.seed
  sum := ⟨d.sum.x + e.position.x, d.sum.y + e.position.y, d.sum.z + e.position.z⟩
  members := d.members + 1
  intensity := raise d.intensity e.kind
  latest := d.latest.larger e.time
  boss := d.boss || e.isBoss

/-- The mean position of the members. -/
def mean (d : Draft) : Position :=
  let n := Float32.ofNat d.members
  ⟨d.sum.x / n, d.sum.y / n, d.sum.z / n⟩

def finish (d : Draft) : Cluster where
  position := d.mean
  intensity := d.intensity
  memberCount := d.members
  latestTime := d.latest
  hasBoss := d.boss

/-- Gives an event to the first draft that takes it. Without one it seeds a new
draft, of which there may be `room` more. -/
def place (radiusSq : Float32) : Nat → List Draft → Event → List Draft
  | 0, [], _ => []
  | _ + 1, [], e => [ofSeed e]
  | room, d :: ds, e =>
    if d.takes radiusSq e then d.absorb e :: ds else d :: place radiusSq (room - 1) ds e

end Draft

/-- The clusters of a list of events, at most `limit` of them. -/
def clustersOf (radiusSq : Float32) (limit : Nat) (events : List Event) : List Cluster :=
  (events.foldl (Draft.place radiusSq limit) []).map Draft.finish

/-- The clusters of the live events of a log other than deaths. -/
def Log.clusters (l : Log) (now : Time) (maxAge radiusSq : Float32) (limit : Nat) :
    List Cluster :=
  clustersOf radiusSq limit (l.slots.toList.filter (·.clusters now maxAge))

end Warband.Combat
