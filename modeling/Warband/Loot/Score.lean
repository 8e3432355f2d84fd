import Warband.Loot.Item

/-!
# How much an item is wanted

A score between zero and one: half of it for value, less a penalty for distance,
plus bonuses for loot near the objective and for better gear, all scaled down
right after the last looting. In combat nothing is wanted, and neither is an
item that is no upgrade and is worth too little or does not fit.
-/
namespace Warband.Loot

/-- What the score of an item depends on beside the item and the loadout. -/
structure Circumstances where
  position : Position := .origin
  objective : Option Position := none
  inCombat : Bool := false
  lastLootTime : Time := 0
  now : Time := 0

namespace Score

/-- The share of the score that comes from value. -/
def valueWeight : Float32 := 0.5

/-- The least value cap, so that the division is defined. -/
def leastCap : Float32 := Float32.ofBits 0x34000000

/-- An item that is worth looking at. -/
def eligible (item : Item) (loadout : Loadout) (s : LootSettings) : Bool :=
  loadout.upgradedBy item || !(loadout.freeSpace < item.size || item.value < s.minItemValue)

def valueTerm (item : Item) (s : LootSettings) : Float32 :=
  (item.value / s.valueCap.larger leastCap).within 0 1 * valueWeight

def distancePenalty (item : Item) (c : Circumstances) (s : LootSettings) : Float32 :=
  (c.position.distance item.position * s.distancePenaltyPerMeter).smaller s.maxDistancePenalty

def objectiveTerm (item : Item) (c : Circumstances) (s : LootSettings) : Float32 :=
  match c.objective with
  | some o =>
    if o.distanceSq item.position ≤ s.objectiveBonusRadius * s.objectiveBonusRadius
    then s.objectiveBonus else 0
  | none => 0

def gearTerm (item : Item) (loadout : Loadout) (s : LootSettings) : Float32 :=
  if loadout.upgradedBy item then s.gearUpgradeBonus else 0

/-- Rises from zero right after looting to one when the cooldown is over. -/
def recovery (sinceLast cooldown : Float32) : Float32 :=
  if cooldown ≤ 0 then 1 else (sinceLast / cooldown).within 0 1

/-- An undefined score counts as zero, any other is brought into `[0, 1]`. -/
def settle (raw : Float32) : Float32 :=
  if raw.isNaN then 0 else raw.within 0 1

end Score

open Score in
def score (item : Item) (loadout : Loadout) (c : Circumstances) (s : LootSettings) : Float32 :=
  if c.inCombat || !eligible item loadout s then 0
  else settle ((valueTerm item s - distancePenalty item c s + objectiveTerm item c s
    + gearTerm item loadout s) * recovery (c.now - c.lastLootTime) s.cooldown)

/-- The score at a price from a price list, or at the item's own value. -/
def scorePriced (price : LootId → Option Float32) (item : Item) (loadout : Loadout)
    (c : Circumstances) (s : LootSettings) : Float32 :=
  score { item with value := (price item.id).getD item.value } loadout c s

end Warband.Loot
