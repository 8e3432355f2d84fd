import Warband.Mind.Tick
import Warband.Proofs.Roster.View

/-!
# Items and their claimants

Claims are kept by item and by bot. The two tables agree when a bot owns exactly
the items it is listed with. Granting, releasing and releasing everything keep
this, and what they say about other bots stays the same.
-/
namespace Warband.Loot.Claims

/-- Both tables tell the same of who owns what. -/
def Agree (c : Claims) : Prop :=
  ∀ item bot, c.owner? item = some bot ↔ item ∈ c.ofBot bot

theorem agree_empty : empty.Agree := by
  intro item bot
  simp

theorem owner?_claim (c : Claims) (bot : BotId) (item other : LootId) :
    (c.claim bot item).2.owner? other =
      if c.owner? item = none ∧ other = item then some bot else c.owner? other := by
  cases h : c.owner? item with
  | some owner => simp [claim_of_owner? bot h]
  | none =>
      simp only [claim, h, true_and]
      exact Table.find?_insert ..

/-- Whoever claims an item that nobody else holds owns it afterwards. -/
theorem owner?_claim_self {c : Claims} {bot : BotId} {item : LootId}
    (h : c.heldByOther item bot = false) : (c.claim bot item).2.owner? item = some bot := by
  rw [owner?_claim]
  unfold heldByOther at h
  cases howner : c.owner? item with
  | none => simp
  | some owner => simpa [howner] using h

theorem ofBot_claim (c : Claims) (bot other : BotId) (item : LootId) :
    (c.claim bot item).2.ofBot other =
      if c.owner? item = none ∧ other = bot then c.ofBot bot ++ [item] else c.ofBot other := by
  cases h : c.owner? item with
  | some owner => simp [claim_of_owner? bot h]
  | none =>
      simp only [claim, h, true_and]
      exact find?_setHeld ..

theorem owner?_release (c : Claims) (bot : BotId) (item other : LootId) :
    (c.release bot item).2.owner? other =
      if c.owner? item = some bot ∧ other = item then none else c.owner? other := by
  unfold release
  by_cases h : c.owner? item = some bot
  · simp only [h, if_true, true_and]
    exact Table.find?_erase ..
  · simp [h]

theorem ofBot_release (c : Claims) (bot other : BotId) (item : LootId) :
    (c.release bot item).2.ofBot other =
      if c.owner? item = some bot ∧ other = bot then (c.ofBot bot).filter (· ≠ item)
      else c.ofBot other := by
  unfold release
  by_cases h : c.owner? item = some bot
  · simp only [h, if_true, true_and]
    exact find?_setHeld ..
  · simp [h]

theorem find?_foldl_erase (items : List LootId) (t : Table LootId BotId) (item : LootId) :
    (items.foldl Table.erase t).find? item = if item ∈ items then none else t.find? item := by
  induction items generalizing t with
  | nil => simp
  | cons i items ih =>
      rw [List.foldl_cons, ih, Table.find?_erase]
      by_cases h₁ : item ∈ items <;> by_cases h₂ : item = i <;> simp [h₁, h₂]

theorem ofBot_releaseAll (c : Claims) (bot other : BotId) :
    (c.releaseAll bot).2.ofBot other = if other = bot then [] else c.ofBot other := by
  unfold releaseAll ofBot
  dsimp only
  rw [Table.find?_erase]
  split <;> rfl

namespace Agree

variable {c : Claims}

/-- No two bots hold the same item. -/
theorem sole (h : c.Agree) {item : LootId} {a b : BotId} (ha : item ∈ c.ofBot a)
    (hb : item ∈ c.ofBot b) : a = b :=
  Option.some.inj (((h item a).2 ha).symm.trans ((h item b).2 hb))

theorem owner?_releaseAll (h : c.Agree) (bot : BotId) (item : LootId) :
    (c.releaseAll bot).2.owner? item =
      if c.owner? item = some bot then none else c.owner? item := by
  have hfound : (c.releaseAll bot).2.owner? item =
      if item ∈ c.ofBot bot then none else c.owner? item := find?_foldl_erase ..
  rw [hfound]
  by_cases hin : item ∈ c.ofBot bot
  · rw [if_pos hin, if_pos ((h item bot).2 hin)]
  · rw [if_neg hin, if_neg fun howned => hin ((h item bot).1 howned)]

theorem claim (h : c.Agree) (bot : BotId) (item : LootId) : (c.claim bot item).2.Agree := by
  intro other b
  have hold := h other b
  rw [owner?_claim, ofBot_claim]
  by_cases hfree : c.owner? item = none
  · by_cases h₁ : other = item
    · subst h₁
      by_cases h₂ : b = bot
      · simp [hfree, h₂]
      · rw [hfree] at hold
        simp [hfree, h₂, Ne.symm h₂, ← hold]
    · by_cases h₂ : b = bot <;> simp_all
  · simp [hfree, hold]

theorem release (h : c.Agree) (bot : BotId) (item : LootId) : (c.release bot item).2.Agree := by
  intro other b
  have hold := h other b
  rw [owner?_release, ofBot_release]
  by_cases howned : c.owner? item = some bot
  · by_cases h₁ : other = item
    · subst h₁
      by_cases h₂ : b = bot
      · simp [howned, h₂]
      · rw [howned] at hold
        simp [howned, h₂, ← hold, Ne.symm h₂]
    · by_cases h₂ : b = bot <;> simp_all
  · simp [howned, hold]

theorem releaseAll (h : c.Agree) (bot : BotId) : (c.releaseAll bot).2.Agree := by
  intro item b
  rw [h.owner?_releaseAll, ofBot_releaseAll]
  have hold := h item b
  by_cases h₁ : b = bot
  · subst h₁
    by_cases h₂ : c.owner? item = some b <;> simp [h₂]
  · by_cases h₂ : c.owner? item = some bot
    · rw [h₂] at hold
      simp [h₁, h₂, ← hold, Ne.symm h₁]
    · simp [h₁, h₂, hold]

end Agree

/-! ## What claims keep -/

/-- What every request of a bot keeps. -/
structure Stable (P : Claims → Prop) : Prop where
  claim : ∀ {c : Claims} (bot : BotId) (item : LootId), P c → P (c.claim bot item).2
  release : ∀ {c : Claims} (bot : BotId) (item : LootId), P c → P (c.release bot item).2
  releaseAll : ∀ {c : Claims} (bot : BotId), P c → P (c.releaseAll bot).2

theorem stable_agree : Stable Agree where
  claim bot item h := h.claim bot item
  release bot item h := h.release bot item
  releaseAll bot h := h.releaseAll bot

end Warband.Loot.Claims

namespace Warband

open Loot

/-! ## Claims in a tick -/

namespace Loot.Claims.Stable

variable {P : Claims → Prop} (hP : Stable P) {c : Claims}
include hP

theorem claimForBoss (h : P c) (s : Share) (boss : BotId) : P (s.claimForBoss c boss).2.2 := by
  rw [Share.claimForBoss_eq]
  split
  · exact h
  · rename_i pick _
    exact hP.claim boss pick.id h

theorem claimForFollower (h : P c) (s : Share) (follower : BotId) :
    P (s.claimForFollower c follower).2 := by
  rw [Share.claimForFollower_eq]
  split
  · exact h
  · rename_i pick _
    exact hP.claim follower pick.id h

theorem releaseInactive (bots : Bots) (h : P c) : P (Mind.releaseInactive bots c).2 := by
  unfold Mind.releaseInactive
  generalize bots.entries = entries
  generalize (0 : Nat) = count
  induction entries generalizing c count with
  | nil => exact h
  | cons e entries ih =>
      rw [List.foldl_cons]
      dsimp only
      split
      · exact ih h count
      · exact ih (hP.releaseAll e.id h) _

theorem bossTurn (h : P c) (s : Share) (boss : BotId) : P (Mind.bossTurn s c boss).2.2 := by
  unfold Mind.bossTurn
  dsimp only
  split
  · exact h
  · exact hP.claimForBoss h _ boss

theorem followerTurn (bots : Bots) (range : Float32) (s : Squad) (boss : Bot)
    {state : Nat × Claims} (h : P state.2) (id : BotId) :
    P (Mind.followerTurn bots range s boss state id).2 := by
  unfold Mind.followerTurn
  split
  · exact h
  · split
    · exact hP.claimForFollower h s.share id
    · exact h

theorem followerTurns (bots : Bots) (range : Float32) (s : Squad) (boss : Bot)
    (ids : List BotId) {state : Nat × Claims} (h : P state.2) :
    P (ids.foldl (Mind.followerTurn bots range s boss) state).2 := by
  induction ids generalizing state with
  | nil => exact h
  | cons id ids ih => exact ih (hP.followerTurn bots range s boss h id)

theorem lootTurn (bots : Bots) (range : Float32) (s : Squad) {state : Nat × Claims}
    (h : P state.2) : P (Mind.lootTurn bots range s state).2.2 := by
  unfold Mind.lootTurn
  split
  case isFalse => exact h
  split
  · exact h
  · rename_i id boss _
    exact hP.followerTurns bots range _ boss _ (hP.bossTurn h s.share id)

theorem shareLoot {m : Mind} (h : P m.claims) : P m.shareLoot.2.claims :=
  Roster.sweep_induction (P := fun state : Nat × Claims => P state.2) (s := (0, m.claims)) h
    fun _ s _ _ hstate => hP.lootTurn m.bots m.settings.communication.range s hstate

end Loot.Claims.Stable

/-- Maintenance takes everything from the inactive bots, and from no other. -/
theorem Loot.Claims.ofBot_releaseInactive (bots : Bots) (c : Claims) (b : BotId) :
    (Mind.releaseInactive bots c).2.ofBot b =
      if (bots.get? b).any (!·.isActive) then [] else c.ofBot b := by
  rw [← bots.any_entries]
  unfold Mind.releaseInactive
  generalize bots.entries = entries
  generalize (0 : Nat) = count
  induction entries generalizing c count with
  | nil => rfl
  | cons e entries ih =>
      rw [List.foldl_cons, List.any_cons]
      dsimp only
      cases hactive : e.record.isActive with
      | true => simp [ih]
      | false =>
          simp only [Bool.false_eq_true, if_false, ih, ofBot_releaseAll]
          by_cases hb : b = e.id
          · simp [hb]
          · simp [hb, Ne.symm hb]

end Warband
