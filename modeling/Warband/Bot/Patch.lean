import Warband.Bot.Basic

/-!
# What the host writes directly

Between ticks the host may overwrite the reported part of a bot's record. A
patch names the fields to write; links, handles and host ids are out of its
reach.
-/
namespace Warband

structure Patch where
  isActive : Option Bool := none
  isSleeping : Option Bool := none
  botClass : Option BotClass := none
  position : Option Position := none
  facing : Option Heading := none
  movement : Option Movement := none
  sensors : Option Sensors := none
  wandering : Option Wandering := none
  raidTime : Option Float32 := none
  indoor : Option Bool := none
  approachingLoot : Option Bool := none

namespace Patch

/-- Writes the flag that a bot without a squad does not have. -/
def membership (p : Patch) (m : Membership) : Membership :=
  { m with approachingLoot := p.approachingLoot.getD m.approachingLoot }

def apply (p : Patch) (b : Bot) : Bot :=
  let written : Bot := { b with
    isActive := p.isActive.getD b.isActive
    isSleeping := p.isSleeping.getD b.isSleeping
    botClass := p.botClass.getD b.botClass
    position := p.position.getD b.position
    facing := p.facing.getD b.facing
    movement := p.movement.getD b.movement
    sensors := p.sensors.getD b.sensors
    wandering := p.wandering.getD b.wandering
    raidTime := p.raidTime.getD b.raidTime
    membership := b.membership.map p.membership }
  written.setIndoor (p.indoor.getD b.behavior.roomClear.indoor)

@[simp] theorem boss_apply (p : Patch) (b : Bot) : (p.apply b).boss = b.boss := rfl

@[simp] theorem followers_apply (p : Patch) (b : Bot) : (p.apply b).followers = b.followers := rfl

@[simp] theorem squad?_apply (p : Patch) (b : Bot) : (p.apply b).squad? = b.squad? := by
  cases h : b.membership <;>
    simp [apply, Bot.squad?, Bot.setIndoor, Bot.modifyBehavior, membership, h]

end Patch

end Warband
