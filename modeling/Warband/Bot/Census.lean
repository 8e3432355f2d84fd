import Warband.Bot.Basic

/-!
# Group sensors and head counts

A bot's group is its boss, or the bot itself without one, together with that
leader's followers. Head counts are over bots that are active and awake.
-/
namespace Warband.Census

/-- The sensor of a live bot is set. -/
def reads (bots : Bots) (sensor : Sensor) (id : BotId) : Bool :=
  (bots.get? id).any (·.sensors.get sensor)

def bossReads (bots : Bots) (id : BotId) (sensor : Sensor) : Bool :=
  ((bots.get? id).bind (·.boss)).any (reads bots sensor)

def anyFollowerReads (bots : Bots) (id : BotId) (sensor : Sensor) : Bool :=
  (bots.get? id).any (·.followers.any (reads bots sensor))

/-- The boss of a live bot, if it is live, or the bot itself. -/
def groupLeader? (bots : Bots) (id : BotId) : Option BotId :=
  (bots.get? id).map fun b => (b.boss.filter bots.contains).getD id

def groupReads (bots : Bots) (id : BotId) (sensor : Sensor) : Bool :=
  match groupLeader? bots id with
  | some leader => reads bots sensor leader || anyFollowerReads bots leader sensor
  | none => false

/-- The number of bots that are awake and satisfy a condition. -/
def countAwake (bots : Bots) (p : Bot → Bool) : Nat :=
  bots.entries.countP fun e => e.record.isAwake && p e.record

def active (bots : Bots) : Nat := countAwake bots fun _ => true

def ofClass (bots : Bots) (c : BotClass) : Nat := countAwake bots (·.botClass == c)

def withStatus (bots : Bots) (s : MovementStatus) : Nat := countAwake bots (·.movement.status == s)

def stuck (bots : Bots) : Nat := countAwake bots (·.movement.stuckPhase != .none)

def sprinting (bots : Bots) : Nat := countAwake bots (·.movement.isSprinting)

/-- Inactive bots whose sensors are not as at the beginning. -/
def staleSensors (bots : Bots) : Nat :=
  bots.entries.countP fun e => !e.record.isActive && !e.record.sensors.isInitial

/-- Gives stale sensors back their initial values. -/
def resetSensors (bots : Bots) : Bots :=
  bots.map fun _ b =>
    if !b.isActive && !b.sensors.isInitial then { b with sensors := .initial } else b

end Warband.Census
