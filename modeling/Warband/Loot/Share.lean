import Warband.Loot.Claims
import Warband.Loot.Item
import Warband.Numeric.Choice

/-!
# Looting as a squad

The leader of a squad shares what it has found. It picks first, and its
followers may pick among the rest while they are in reach and nothing more
urgent keeps them: the leader loots or holds, or they have arrived where they
were sent.
-/
namespace Warband.Loot

open Numeric

/-- An item of a scan, as far as the squad needs to know it. -/
structure Shared where
  id : LootId
  position : Position
  value : Float32

def Item.shared (item : Item) : Shared := ⟨item.id, item.position, item.value⟩

structure Share where
  items : List Shared := []
  /-- What the leader has picked from this scan. -/
  bossTarget : Option LootId := none

namespace Share

/-- The most items of one scan that are shared. -/
def capacity : Nat := 8

/-- Shares the first items of a new scan in place of the old one. -/
def publish (scan : List Item) : Share :=
  ⟨(scan.take capacity).map Item.shared, none⟩

def forgetTarget (s : Share) : Share := { s with bossTarget := none }

/-- The items that a bot could claim. -/
def free (s : Share) (claims : Claims) (bot : BotId) : List Shared :=
  s.items.filter fun item => !claims.heldByOther item.id bot

/-- The leader claims the most valuable item that nobody else holds. -/
def claimForBoss (s : Share) (claims : Claims) (boss : BotId) : Option LootId × Share × Claims :=
  match firstBest? Shared.value (s.free claims boss) with
  | none => (none, s, claims)
  | some pick =>
    let (granted, claims) := claims.claim boss pick.id
    if granted then (some pick.id, { s with bossTarget := some pick.id }, claims)
    else (none, s, claims)

/-- A follower claims the most valuable item that is not the leader's and that
nobody else holds. -/
def claimForFollower (s : Share) (claims : Claims) (follower : BotId) :
    Option Shared × Claims :=
  let choices := (s.free claims follower).filter fun item => some item.id ≠ s.bossTarget
  match firstBest? Shared.value choices with
  | none => (none, claims)
  | some pick =>
    let (granted, claims) := claims.claim follower pick.id
    (if granted then some pick else none, claims)

theorem heldByOther_of_mem_free {s : Share} {claims : Claims} {bot : BotId} {item : Shared}
    (h : item ∈ s.free claims bot) : claims.heldByOther item.id bot = false := by
  simpa using (List.mem_filter.1 h).2

/-- A leader is granted what it picks. -/
theorem claimForBoss_eq (s : Share) (claims : Claims) (boss : BotId) :
    s.claimForBoss claims boss =
      match firstBest? Shared.value (s.free claims boss) with
      | none => (none, s, claims)
      | some pick =>
        (some pick.id, { s with bossTarget := some pick.id }, (claims.claim boss pick.id).2) := by
  unfold claimForBoss
  cases h : firstBest? Shared.value (s.free claims boss) with
  | none => rfl
  | some pick =>
    have hfree := heldByOther_of_mem_free (mem_of_firstBest? h)
    simp only [(claims.claim_granted_iff boss pick.id).2 hfree, if_true]

/-- A follower is granted what it picks. -/
theorem claimForFollower_eq (s : Share) (claims : Claims) (follower : BotId) :
    s.claimForFollower claims follower =
      match firstBest? Shared.value
        ((s.free claims follower).filter fun item => some item.id ≠ s.bossTarget) with
      | none => (none, claims)
      | some pick => (some pick, (claims.claim follower pick.id).2) := by
  unfold claimForFollower
  dsimp only
  cases h : firstBest? Shared.value
    ((s.free claims follower).filter fun item => some item.id ≠ s.bossTarget) with
  | none => rfl
  | some pick =>
    have hfree := heldByOther_of_mem_free (List.mem_filter.1 (mem_of_firstBest? h)).1
    simp only [(claims.claim_granted_iff follower pick.id).2 hfree, if_true]

end Share

/-- What decides whether a follower may leave for loot. -/
structure FollowerCheck where
  inCombat : Bool := false
  position : Position := .origin
  bossPosition : Position := .origin
  bossLooting : Bool := false
  bossHolding : Bool := false
  tacticalPosition : Option Position := none

namespace FollowerCheck

/-- A follower this close to its tactical position has arrived. -/
def arrivedRadius : Float32 := 5

def arrived (c : FollowerCheck) : Bool :=
  match c.tacticalPosition with
  | some t => t.horizontalDistanceSq c.position ≤ arrivedRadius * arrivedRadius
  | none => false

/-- Farther from the leader than the range; an undefined distance is not. -/
def outOfRange (c : FollowerCheck) (range : Float32) : Bool :=
  range * range < c.position.horizontalDistanceSq c.bossPosition

def mayLoot (c : FollowerCheck) (range : Float32) : Bool :=
  !c.inCombat && !c.outOfRange range && (c.bossLooting || c.bossHolding || c.arrived)

end FollowerCheck

/-- The index of the best scored item that nobody else holds. Items and scores
are read in pairs; unscored items and items with an undefined score are left
out. -/
def selectBest (claims : Claims) (bot : BotId) (ids : List LootId) (scores : List Float32) :
    Option Nat :=
  let choices := (ids.zip scores).zipIdx.filter fun ((item, score), _) =>
    !claims.heldByOther item bot && !score.isNaN
  (firstBest? (fun c => c.1.2) choices).map (·.2)

end Warband.Loot
