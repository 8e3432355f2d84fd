import Warband.Settings.Basic

/-!
# Settings by name

Outside the library settings are known by a section name and a field name. This
table ties each pair of names to the setting it reads and writes, with the kind
of value that the setting takes. Readers and writers of whole configurations go
through the table and list fields in its order.
-/
namespace Warband.Settings

/-- One setting: its name, how to read it and how to write it. -/
inductive Field where
  | number (name : String) (get : Settings → Float32) (set : Float32 → Settings → Settings)
  | count (name : String) (get : Settings → Nat) (set : Nat → Settings → Settings)
  | level (name : String) (get : Settings → UInt8) (set : UInt8 → Settings → Settings)
  | flag (name : String) (get : Settings → Bool) (set : Bool → Settings → Settings)

def Field.name : Field → String
  | number name .. | count name .. | level name .. | flag name .. => name

def combatFields : List Field :=
  [ .count "capacity" (·.combat.capacity) fun v s => { s with combat.capacity := v },
    .number "max_event_age" (·.combat.maxEventAge) fun v s => { s with combat.maxEventAge := v },
    .number "cluster_radius" (·.combat.clusterRadius) fun v s =>
      { s with combat.clusterRadius := v },
    .count "max_clusters" (·.combat.maxClusters) fun v s => { s with combat.maxClusters := v },
    .number "boss_zone_radius" (·.combat.bossZoneRadius) fun v s =>
      { s with combat.bossZoneRadius := v },
    .number "boss_zone_decay" (·.combat.bossZoneDecay) fun v s =>
      { s with combat.bossZoneDecay := v },
    .number "firefight_min_intensity" (·.combat.firefightMinIntensity) fun v s =>
      { s with combat.firefightMinIntensity := v },
    .number "building_clear_radius" (·.combat.buildingClearRadius) fun v s =>
      { s with combat.buildingClearRadius := v } ]

def squadFields : List Field :=
  [ .count "max_members" (·.squad.maxMembers) fun v s => { s with squad.maxMembers := v },
    .number "guard_radius" (·.squad.guardRadius) fun v s => { s with squad.guardRadius := v },
    .number "flank_distance" (·.squad.flankDistance) fun v s => { s with squad.flankDistance := v },
    .number "overwatch_distance" (·.squad.overwatchDistance) fun v s =>
      { s with squad.overwatchDistance := v },
    .number "escort_distance" (·.squad.escortDistance) fun v s =>
      { s with squad.escortDistance := v },
    .number "escort_lateral_offset" (·.squad.escortLateralOffset) fun v s =>
      { s with squad.escortLateralOffset := v },
    .number "arrival_radius" (·.squad.arrivalRadius) fun v s => { s with squad.arrivalRadius := v },
    .count "strategy_count" (·.squad.strategyCount) fun v s => { s with squad.strategyCount := v } ]

def formationFields : List Field :=
  [ .number "spacing" (·.formation.spacing) fun v s => { s with formation.spacing := v },
    .number "switch_width" (·.formation.switchWidth) fun v s =>
      { s with formation.switchWidth := v },
    .number "catch_up_distance" (·.formation.catchUpDistance) fun v s =>
      { s with formation.catchUpDistance := v },
    .number "match_speed_distance" (·.formation.matchSpeedDistance) fun v s =>
      { s with formation.matchSpeedDistance := v },
    .number "slow_approach_distance" (·.formation.slowApproachDistance) fun v s =>
      { s with formation.slowApproachDistance := v } ]

def communicationFields : List Field :=
  [ .number "range" (·.communication.range) fun v s => { s with communication.range := v },
    .count "trusted_count" (·.communication.trustedCount) fun v s =>
      { s with communication.trustedCount := v },
    .number "base_noise" (·.communication.baseNoise) fun v s =>
      { s with communication.baseNoise := v },
    .level "default_coordination" (·.communication.defaultCoordination) fun v s =>
      { s with communication.defaultCoordination := v } ]

def lootFields : List Field :=
  [ .number "min_item_value" (·.loot.minItemValue) fun v s => { s with loot.minItemValue := v },
    .number "value_cap" (·.loot.valueCap) fun v s => { s with loot.valueCap := v },
    .number "distance_penalty_per_meter" (·.loot.distancePenaltyPerMeter) fun v s =>
      { s with loot.distancePenaltyPerMeter := v },
    .number "max_distance_penalty" (·.loot.maxDistancePenalty) fun v s =>
      { s with loot.maxDistancePenalty := v },
    .number "objective_bonus" (·.loot.objectiveBonus) fun v s =>
      { s with loot.objectiveBonus := v },
    .number "objective_bonus_radius" (·.loot.objectiveBonusRadius) fun v s =>
      { s with loot.objectiveBonusRadius := v },
    .number "gear_upgrade_bonus" (·.loot.gearUpgradeBonus) fun v s =>
      { s with loot.gearUpgradeBonus := v },
    .number "cooldown" (·.loot.cooldown) fun v s => { s with loot.cooldown := v },
    .flag "gear_swap_enabled" (·.loot.gearSwapEnabled) fun v s =>
      { s with loot.gearSwapEnabled := v } ]

def questFields : List Field :=
  [ .number "distance_weighting" (·.quest.distanceWeighting) fun v s =>
      { s with quest.distanceWeighting := v },
    .number "desirability_weighting" (·.quest.desirabilityWeighting) fun v s =>
      { s with quest.desirabilityWeighting := v },
    .number "exfil_direction_weighting" (·.quest.exfilDirectionWeighting) fun v s =>
      { s with quest.exfilDirectionWeighting := v },
    .number "distance_randomness" (·.quest.distanceRandomness) fun v s =>
      { s with quest.distanceRandomness := v },
    .number "desirability_randomness" (·.quest.desirabilityRandomness) fun v s =>
      { s with quest.desirabilityRandomness := v },
    .number "desirability_active_quest_multiplier" (·.quest.activeQuestMultiplier) fun v s =>
      { s with quest.activeQuestMultiplier := v },
    .number "max_exfil_angle" (·.quest.maxExfilAngle) fun v s =>
      { s with quest.maxExfilAngle := v } ]

def patrolFields : List Field :=
  [ .number "max_waypoint_distance" (·.patrol.maxWaypointDistance) fun v s =>
      { s with patrol.maxWaypointDistance := v },
    .number "jitter_scale" (·.patrol.jitterScale) fun v s => { s with patrol.jitterScale := v } ]

def behaviorFields : List Field :=
  [ .number "vulture_silent_distance" (·.behavior.vultureSilentDistance) fun v s =>
      { s with behavior.vultureSilentDistance := v },
    .number "vulture_ambush_distance" (·.behavior.vultureAmbushDistance) fun v s =>
      { s with behavior.vultureAmbushDistance := v },
    .number "vulture_ambush_duration" (·.behavior.vultureAmbushDuration) fun v s =>
      { s with behavior.vultureAmbushDuration := v },
    .number "vulture_max_duration" (·.behavior.vultureMaxDuration) fun v s =>
      { s with behavior.vultureMaxDuration := v },
    .number "room_clear_duration" (·.behavior.roomClearDuration) fun v s =>
      { s with behavior.roomClearDuration := v },
    .number "corner_pause_duration" (·.behavior.cornerPauseDuration) fun v s =>
      { s with behavior.cornerPauseDuration := v },
    .number "look_min_interval" (·.behavior.lookMinInterval) fun v s =>
      { s with behavior.lookMinInterval := v },
    .number "look_max_interval" (·.behavior.lookMaxInterval) fun v s =>
      { s with behavior.lookMaxInterval := v },
    .number "look_event_range" (·.behavior.lookEventRange) fun v s =>
      { s with behavior.lookEventRange := v } ]

/-- All sections with their fields. -/
def sections : List (String × List Field) :=
  [("combat", combatFields),
   ("squad", squadFields),
   ("formation", formationFields),
   ("communication", communicationFields),
   ("loot", lootFields),
   ("quest", questFields),
   ("patrol", patrolFields),
   ("behavior", behaviorFields)]

/-- Reading a setting just written gives the value written. -/
def Field.Faithful : Field → Prop
  | number _ get set => ∀ v s, get (set v s) = v
  | count _ get set => ∀ v s, get (set v s) = v
  | level _ get set => ∀ v s, get (set v s) = v
  | flag _ get set => ∀ v s, get (set v s) = v

/-- Every field of the table reads back what it writes. -/
theorem faithful_of_mem : ∀ x ∈ sections, ∀ f ∈ x.2, f.Faithful := by
  simp [sections, combatFields, squadFields, formationFields, communicationFields, lootFields,
    questFields, patrolFields, behaviorFields, Field.Faithful]

end Warband.Settings
