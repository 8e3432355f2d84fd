import Warband.Identity
import Warband.Named

/-!
# Sensors

Five facts about a bot that its group can ask for, and the time at which it last
began to want loot.
-/
namespace Warband

inductive Sensor where
  | inCombat
  | suspicious
  | canQuest
  | canSprintToObjective
  | wantsToLoot
deriving DecidableEq, Repr

instance : Named Sensor where
  all := [.inCombat, .suspicious, .canQuest, .canSprintToObjective, .wantsToLoot]
  name
    | .inCombat => "InCombat"
    | .suspicious => "Suspicious"
    | .canQuest => "CanQuest"
    | .canSprintToObjective => "CanSprintToObjective"
    | .wantsToLoot => "WantsToLoot"

structure Sensors where
  inCombat : Bool := false
  suspicious : Bool := false
  canQuest : Bool := false
  canSprintToObjective : Bool := true
  wantsToLoot : Bool := false
  lastLootTime : Time := 0

namespace Sensors

/-- The sensors of a bot that nothing has been reported of. -/
def initial : Sensors := {}

instance : Inhabited Sensors := ⟨initial⟩

def get (s : Sensors) : Sensor → Bool
  | .inCombat => s.inCombat
  | .suspicious => s.suspicious
  | .canQuest => s.canQuest
  | .canSprintToObjective => s.canSprintToObjective
  | .wantsToLoot => s.wantsToLoot

def set (s : Sensors) (sensor : Sensor) (value : Bool) : Sensors :=
  match sensor with
  | .inCombat => { s with inCombat := value }
  | .suspicious => { s with suspicious := value }
  | .canQuest => { s with canQuest := value }
  | .canSprintToObjective => { s with canSprintToObjective := value }
  | .wantsToLoot => { s with wantsToLoot := value }

/-- Writes a sensor as reported at `now`. Beginning to want loot is timed. -/
def report (s : Sensors) (sensor : Sensor) (value : Bool) (now : Time) : Sensors :=
  let written := s.set sensor value
  if sensor = .wantsToLoot ∧ value then { written with lastLootTime := now } else written

/-- Nothing has been reported. A negative zero time counts as zero, an undefined
time never does. -/
def isInitial (s : Sensors) : Bool :=
  !s.inCombat && !s.suspicious && !s.canQuest && s.canSprintToObjective && !s.wantsToLoot
    && s.lastLootTime == 0

@[simp] theorem get_set_same (s : Sensors) (sensor : Sensor) (value : Bool) :
    (s.set sensor value).get sensor = value := by
  cases sensor <;> rfl

theorem get_set_ne (s : Sensors) {sensor other : Sensor} (value : Bool) (h : other ≠ sensor) :
    (s.set sensor value).get other = s.get other := by
  cases sensor <;> cases other <;> simp_all [get, set]

end Sensors

end Warband
