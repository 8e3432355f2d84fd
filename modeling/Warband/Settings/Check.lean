import Warband.Error
import Warband.Numeric.Comparison
import Warband.Numeric.Decimal
import Warband.Settings.Basic

/-!
# Acceptable settings

Settings are acceptable when the event log can hold an event, a squad can hold a
member and no more than the fixed maximum, the listed distances and durations
are not negative, and the default coordination is one of the five levels. The
first violation is reported.
-/
namespace Warband.Settings

/-- The settings that must not be negative, in the order they are checked. -/
def nonNegative (s : Settings) : List (String × Float32) :=
  [("combat.max_event_age", s.combat.maxEventAge),
   ("combat.cluster_radius", s.combat.clusterRadius),
   ("squad.guard_radius", s.squad.guardRadius),
   ("squad.flank_distance", s.squad.flankDistance),
   ("squad.overwatch_distance", s.squad.overwatchDistance),
   ("formation.spacing", s.formation.spacing),
   ("communication.range", s.communication.range),
   ("loot.cooldown", s.loot.cooldown)]

/-- The complaint about a value that is not at least zero, NaN included. -/
def negativeReason (name : String) (value : Float32) : String :=
  name ++ " must be >= 0 (got " ++ value.datum.plainText .single ++ ")"

/-- The first reason to refuse the settings. -/
def violation? (s : Settings) : Option String :=
  if s.combat.capacity = 0 then some "combat.capacity must be > 0"
  else if s.squad.maxMembers = 0 ∨ maxSquadSize < s.squad.maxMembers then
    some ("squad.max_members must be in 1..=" ++ toString maxSquadSize)
  else match s.nonNegative.find? fun (_, value) => !decide (0 ≤ value) with
    | some (name, value) => some (negativeReason name value)
    | none =>
      if s.communication.defaultCoordination < 1 ∨ 5 < s.communication.defaultCoordination then
        some "communication.default_coordination must be in 1..=5"
      else none

def check (s : Settings) : Except Error Unit :=
  match s.violation? with
  | some reason => .error (.badSetting reason)
  | none => .ok ()

/-- Settings that pass the check. -/
def Acceptable (s : Settings) : Prop := s.violation? = none

theorem check_eq_ok_iff (s : Settings) : s.check = .ok () ↔ s.Acceptable := by
  unfold check Acceptable
  cases s.violation? <;> simp

theorem Acceptable.capacity_pos {s : Settings} (h : s.Acceptable) : 0 < s.combat.capacity := by
  unfold Acceptable violation? at h
  split at h
  · simp at h
  · omega

theorem Acceptable.maxMembers_le {s : Settings} (h : s.Acceptable) :
    0 < s.squad.maxMembers ∧ s.squad.maxMembers ≤ maxSquadSize := by
  unfold Acceptable violation? at h
  split at h
  · simp at h
  · split at h
    · simp at h
    · omega

/-- What must not be negative is a number and not negative. -/
theorem Acceptable.le_of_nonNegative {s : Settings} (h : s.Acceptable) {name : String}
    {value : Float32} (hvalue : (name, value) ∈ s.nonNegative) : 0 ≤ value := by
  unfold Acceptable violation? at h
  split at h
  · simp at h
  · split at h
    · simp at h
    · split at h
      · simp at h
      · rename_i hnone
        simpa using List.find?_eq_none.1 hnone _ hvalue

end Warband.Settings
