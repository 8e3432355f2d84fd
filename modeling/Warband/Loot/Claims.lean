import Warband.Identity
import Warband.Table

/-!
# Claims on loot

An item has at most one claimant. Claims are kept both ways, by item and by bot,
so that everything a bot holds can be released at once; the items of a bot are
listed in the order it claimed them.
-/
namespace Warband.Loot

structure Claims where
  owners : Table LootId BotId
  held : Table BotId (List LootId)

namespace Claims

def empty : Claims := ⟨.empty, .empty⟩

instance : Inhabited Claims := ⟨empty⟩

def owner? (c : Claims) (item : LootId) : Option BotId := c.owners.find? item

/-- The items of a bot in claim order. -/
def ofBot (c : Claims) (bot : BotId) : List LootId := (c.held.find? bot).getD []

/-- Somebody else holds the item. -/
def heldByOther (c : Claims) (item : LootId) (bot : BotId) : Bool :=
  match c.owner? item with
  | some owner => owner ≠ bot
  | none => false

def size (c : Claims) : Nat := c.owners.size

/-- Replaces the items of a bot; a bot without items is not listed. -/
def setHeld (held : Table BotId (List LootId)) (bot : BotId) (items : List LootId) :
    Table BotId (List LootId) :=
  if items.isEmpty then held.erase bot else held.insert bot items

/-- Claims an item. A free item is granted, an item of one's own stays granted,
an item of another bot is denied. -/
def claim (c : Claims) (bot : BotId) (item : LootId) : Bool × Claims :=
  match c.owner? item with
  | some owner => (owner = bot, c)
  | none =>
    (true, ⟨c.owners.insert item bot, setHeld c.held bot (c.ofBot bot ++ [item])⟩)

/-- Releases an item that the bot holds. -/
def release (c : Claims) (bot : BotId) (item : LootId) : Bool × Claims :=
  if c.owner? item = some bot then
    (true, ⟨c.owners.erase item, setHeld c.held bot ((c.ofBot bot).filter (· ≠ item))⟩)
  else (false, c)

/-- Releases everything a bot holds and says how much that was. -/
def releaseAll (c : Claims) (bot : BotId) : Nat × Claims :=
  let items := c.ofBot bot
  (items.length, ⟨items.foldl Table.erase c.owners, c.held.erase bot⟩)

/-- Drops every claim. -/
def clear (_ : Claims) : Claims := empty

@[simp] theorem owner?_empty (item : LootId) : empty.owner? item = none := rfl

@[simp] theorem ofBot_empty (bot : BotId) : empty.ofBot bot = [] := rfl

theorem find?_setHeld (held : Table BotId (List LootId)) (bot other : BotId)
    (items : List LootId) :
    ((setHeld held bot items).find? other).getD [] =
      if other = bot then items else (held.find? other).getD [] := by
  unfold setHeld
  split
  · rename_i h
    rw [Table.find?_erase]
    split <;> simp_all
  · rw [Table.find?_insert]
    split <;> simp

/-- A claim that is denied or already held changes nothing. -/
theorem claim_of_owner? {c : Claims} {item : LootId} {owner : BotId} (bot : BotId)
    (h : c.owner? item = some owner) : c.claim bot item = (decide (owner = bot), c) := by
  simp [claim, h]

/-- Exactly the items that nobody else holds can be claimed. -/
theorem claim_granted_iff (c : Claims) (bot : BotId) (item : LootId) :
    (c.claim bot item).1 = true ↔ c.heldByOther item bot = false := by
  unfold claim heldByOther
  cases c.owner? item <;> simp

end Claims

end Warband.Loot
