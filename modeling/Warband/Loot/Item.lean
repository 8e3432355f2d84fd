import Warband.Geometry
import Warband.Identity
import Warband.Named
import Warband.Settings.Basic

/-!
# Items, gear and what to do with them

An item is gear for one slot of a loadout or goes into the inventory. Gear is an
upgrade when it is strictly better than what is worn, by the measure of its
slot. An upgrade is swapped in if swapping is enabled; anything else has to be
worth enough and to fit.
-/
namespace Warband.Loot

structure Rig where
  gridSize : Nat := 0
  /-- Means something only for an armored rig. -/
  armorClass : Nat := 0
  armored : Bool := false
deriving DecidableEq, Repr

inductive ItemKind where
  | plain
  | armor (armorClass : Nat)
  /-- Weapons compare by value. -/
  | weapon
  | backpack (gridSize : Nat)
  | rig (rig : Rig)
deriving DecidableEq, Repr

structure Item where
  id : LootId
  position : Position
  value : Float32
  /-- Inventory cells. -/
  size : Nat
  kind : ItemKind

structure Loadout where
  armorClass : Nat := 0
  weaponValue : Float32 := 0
  backpackGrid : Nat := 0
  rig : Rig := {}
  /-- Free inventory cells. -/
  freeSpace : Nat := 0

def armorUpgrade (current candidate : Nat) : Bool := current < candidate

def weaponUpgrade (current candidate : Float32) : Bool := current < candidate

def backpackUpgrade (current candidate : Nat) : Bool := current < candidate

/-- An armored rig replaces an unarmored one if it is at least as good in both
measures, and another armored one by class first and size second. Unarmored rigs
compare by size and never replace armored ones. -/
def rigUpgrade (current candidate : Rig) : Bool :=
  match current.armored, candidate.armored with
  | false, true =>
    current.armorClass ≤ candidate.armorClass && current.gridSize ≤ candidate.gridSize
  | true, true =>
    current.armorClass < candidate.armorClass ||
      (candidate.armorClass == current.armorClass && current.gridSize < candidate.gridSize)
  | false, false => current.gridSize < candidate.gridSize
  | true, false => false

/-- The item is better than what the loadout has in its slot. -/
def Loadout.upgradedBy (l : Loadout) (item : Item) : Bool :=
  match item.kind with
  | .armor armorClass => armorUpgrade l.armorClass armorClass
  | .weapon => weaponUpgrade l.weaponValue item.value
  | .backpack gridSize => backpackUpgrade l.backpackGrid gridSize
  | .rig rig => rigUpgrade l.rig rig
  | .plain => false

inductive Plan where
  | pickup
  | swap
  | skip
deriving DecidableEq, Repr

instance : Named Plan where
  all := [.pickup, .swap, .skip]
  name
    | .pickup => "Pickup"
    | .swap => "Swap"
    | .skip => "Skip"

/-- What a bot does with an item in front of it. -/
def plan (item : Item) (loadout : Loadout) (s : LootSettings) : Plan :=
  if loadout.upgradedBy item then
    if s.gearSwapEnabled then .swap else .skip
  else if item.value < s.minItemValue then .skip
  else if item.size ≤ loadout.freeSpace then .pickup
  else .skip

end Warband.Loot
