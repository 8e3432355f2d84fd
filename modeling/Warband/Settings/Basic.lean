/-!
# Settings

The numbers a host may tune, grouped by the part of the library that reads
them. Every setting has a default; distances are in metres, durations in
seconds, angles in degrees.
-/
namespace Warband

/-- The event log and what is derived from it. -/
structure CombatSettings where
  capacity : Nat := 128
  maxEventAge : Float32 := 120
  clusterRadius : Float32 := 50
  maxClusters : Nat := 8
  bossZoneRadius : Float32 := 75
  bossZoneDecay : Float32 := 120
  /-- A cluster below this intensity is no objective. -/
  firefightMinIntensity : Float32 := 3
  /-- A fight this close to a building marker is about the building. -/
  buildingClearRadius : Float32 := 20

/-- The geometry of a squad around its objective. -/
structure SquadSettings where
  maxMembers : Nat := 6
  guardRadius : Float32 := 8
  flankDistance : Float32 := 15
  overwatchDistance : Float32 := 25
  escortDistance : Float32 := 5
  escortLateralOffset : Float32 := 2
  arrivalRadius : Float32 := 5
  strategyCount : Nat := 4

/-- The marching order behind a moving boss. -/
structure FormationSettings where
  spacing : Float32 := 3
  switchWidth : Float32 := 6
  catchUpDistance : Float32 := 30
  matchSpeedDistance : Float32 := 15
  slowApproachDistance : Float32 := 5

/-- Who hears the leader, and how precisely. -/
structure CommunicationSettings where
  range : Float32 := 35
  trustedCount : Nat := 2
  /-- Standard deviation of a relayed position at the lowest coordination. -/
  baseNoise : Float32 := 5
  defaultCoordination : UInt8 := 3

/-- The worth of loot. -/
structure LootSettings where
  minItemValue : Float32 := 5000
  valueCap : Float32 := 100000
  distancePenaltyPerMeter : Float32 := 0.005
  maxDistancePenalty : Float32 := 0.4
  objectiveBonus : Float32 := 0.15
  objectiveBonusRadius : Float32 := 30
  gearUpgradeBonus : Float32 := 0.3
  cooldown : Float32 := 15
  gearSwapEnabled : Bool := true

/-- The worth of quests. -/
structure QuestSettings where
  distanceWeighting : Float32 := 1
  desirabilityWeighting : Float32 := 1
  exfilDirectionWeighting : Float32 := 1
  /-- In percent of the greatest distance. -/
  distanceRandomness : Float32 := 30
  desirabilityRandomness : Float32 := 20
  activeQuestMultiplier : Float32 := 1.5
  maxExfilAngle : Float32 := 90

/-- The choice of a patrol route. -/
structure PatrolSettings where
  maxWaypointDistance : Float32 := 300
  jitterScale : Float32 := 1e-4

/-- The timing of single bots' behaviour. -/
structure BehaviorSettings where
  vultureSilentDistance : Float32 := 60
  vultureAmbushDistance : Float32 := 25
  vultureAmbushDuration : Float32 := 30
  vultureMaxDuration : Float32 := 180
  roomClearDuration : Float32 := 8
  cornerPauseDuration : Float32 := 1.5
  lookMinInterval : Float32 := 3
  lookMaxInterval : Float32 := 8
  lookEventRange : Float32 := 60

structure Settings where
  combat : CombatSettings := {}
  squad : SquadSettings := {}
  formation : FormationSettings := {}
  communication : CommunicationSettings := {}
  loot : LootSettings := {}
  quest : QuestSettings := {}
  patrol : PatrolSettings := {}
  behavior : BehaviorSettings := {}

instance : Inhabited Settings := ⟨{}⟩

/-- No squad ever has more members than this, whatever the settings say. -/
def maxSquadSize : Nat := 6

end Warband
