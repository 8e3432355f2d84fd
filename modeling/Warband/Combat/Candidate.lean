import Warband.Combat.Cluster
import Warband.Settings.Basic

/-!
# Objectives that fights give rise to

A cluster that is hot enough is worth investigating, as a building to clear when
a building marker is close to it. A death leaves a body to check. Clusters come
first, then bodies, and the list is cut at a limit.
-/
namespace Warband.Combat

inductive CandidateKind where
  | firefight
  | corpse
  | buildingClear
deriving DecidableEq, Repr

instance : Named CandidateKind where
  all := [.firefight, .corpse, .buildingClear]
  name
    | .firefight => "Firefight"
    | .corpse => "Corpse"
    | .buildingClear => "BuildingClear"

structure Candidate where
  kind : CandidateKind
  position : Position
  intensity : Float32
  time : Time

/-- Some marker lies within the squared distance of the point. -/
def markerNear (markers : List Position) (radiusSq : Float32) (point : Position) : Bool :=
  markers.any fun marker => marker.horizontalDistanceSq point ≤ radiusSq

namespace Candidate

def ofCluster (markers : List Position) (radiusSq : Float32) (c : Cluster) : Candidate where
  kind := if markerNear markers radiusSq c.position then .buildingClear else .firefight
  position := c.position
  intensity := c.intensity
  time := c.latestTime

def ofDeath (e : Event) : Candidate where
  kind := .corpse
  position := e.position
  intensity := e.power
  time := e.time

end Candidate

def candidates (clusters : List Cluster) (deaths : List Event) (markers : List Position)
    (settings : CombatSettings) (limit : Nat) : List Candidate :=
  let radiusSq := settings.buildingClearRadius * settings.buildingClearRadius
  let hot := clusters.filter fun c => settings.firefightMinIntensity ≤ c.intensity
  (hot.map (Candidate.ofCluster markers radiusSq) ++ deaths.map Candidate.ofDeath).take limit

end Warband.Combat
