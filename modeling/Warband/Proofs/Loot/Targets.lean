import Warband.Assignment.Quest
import Warband.Loot.Share
import Warband.Proofs.Claims
import Warband.Proofs.Numeric.Choice

/-!
# Selected targets

A bot selects the first of the greatest scores among the items that nobody else
holds, and a quest is selected by the same rule without the claims. NaN is left
out before the scan, so it never is at the front and the selection is exact.

A selected item is free or the bot's own, hence its claim is granted. Claims are
not lost while bots go on selecting, so an item that one bot has claimed is out
of bounds for all others, however many turns they take.
-/
namespace Warband

open Numeric

/-! ## Selections -/

namespace Quest

/-- The scores that are numbers. -/
def Numbered (scores : List Float32) : Row := fun i x => scores[i]? = some x ∧ x.isNaN = false

theorem rowOf_numbered (scores : List Float32) :
    rowOf (Option.guard fun c : Float32 × Nat => !c.1.isNaN) (·.1) scores.zipIdx =
      Numbered scores := by
  funext i x
  rw [rowOf_guard_iff]
  refine propext ⟨?_, ?_⟩
  · rintro ⟨c, hc, hnumber, rfl⟩
    exact ⟨(getElem?_zipIdx_eq_some.1 hc).1, by simpa using hnumber⟩
  · rintro ⟨hx, hnumber⟩
    exact ⟨(x, i), getElem?_zipIdx_eq_some.2 ⟨hx, rfl⟩, by rw [hnumber]; rfl, rfl⟩

theorem selects_highest? (scores : List Float32) :
    Selects (Numbered scores) (highest? scores) := by
  refine Settles.selects ?_ fun i x hx => hx.2
  rw [← rowOf_numbered]
  exact settles_firstBest?_zipIdx _ _ scores

end Quest

namespace Loot

/-- The scores of the items that a bot may select: numbers, of items that nobody
else holds. -/
def Selectable (c : Claims) (bot : BotId) (ids : List LootId) (scores : List Float32) : Row :=
  fun i x => scores[i]? = some x ∧ x.isNaN = false ∧
    ∃ item, ids[i]? = some item ∧ c.heldByOther item bot = false

variable {c : Claims} {bot : BotId} {ids : List LootId} {scores : List Float32}

theorem rowOf_selectable (c : Claims) (bot : BotId) (ids : List LootId) (scores : List Float32) :
    rowOf (Option.guard fun e : (LootId × Float32) × Nat =>
        !c.heldByOther e.1.1 bot && !e.1.2.isNaN) (·.1.2) (ids.zip scores).zipIdx =
      Selectable c bot ids scores := by
  funext i x
  rw [rowOf_guard_iff]
  refine propext ⟨?_, ?_⟩
  · rintro ⟨e, he, hopen, rfl⟩
    obtain ⟨hitem, hscore⟩ := List.getElem?_zip_eq_some.1 (getElem?_zipIdx_eq_some.1 he).1
    simp only [Bool.and_eq_true, Bool.not_eq_true'] at hopen
    exact ⟨hscore, hopen.2, e.1.1, hitem, hopen.1⟩
  · rintro ⟨hscore, hnumber, item, hitem, hfree⟩
    refine ⟨((item, x), i), getElem?_zipIdx_eq_some.2 ⟨?_, rfl⟩, by rw [hfree, hnumber]; rfl, rfl⟩
    exact List.getElem?_zip_eq_some.2 ⟨hitem, hscore⟩

theorem selects_selectBest (c : Claims) (bot : BotId) (ids : List LootId)
    (scores : List Float32) :
    Selects (Selectable c bot ids scores) (selectBest c bot ids scores) := by
  refine Settles.selects ?_ fun i x hx => hx.2.1
  rw [← rowOf_selectable]
  exact settles_firstBest?_zipIdx _ _ (ids.zip scores)

/-- A selected item is one that nobody else holds. -/
theorem exists_item_of_selectBest {i : Nat} (h : selectBest c bot ids scores = some i) :
    ∃ item, ids[i]? = some item ∧ c.heldByOther item bot = false := by
  obtain ⟨x, hx⟩ := ((selects_selectBest c bot ids scores).some_iff i).1 h
  exact hx.stands.2.2

/-! ## Turns -/

/-- The turn of a bot, with the items it knows of and its scores for them. -/
structure Bid where
  bot : BotId
  ids : List LootId
  scores : List Float32

/-- What came of a turn. -/
structure Attempt where
  bot : BotId
  item : LootId
  granted : Bool

namespace Bid

/-- The item that a bot selects. -/
def target? (b : Bid) (c : Claims) : Option LootId :=
  (selectBest c b.bot b.ids b.scores).bind (b.ids[·]?)

/-- A bot selects an item and claims it. -/
def take (b : Bid) (c : Claims) : Option Attempt × Claims :=
  match b.target? c with
  | none => (none, c)
  | some item => (some ⟨b.bot, item, (c.claim b.bot item).1⟩, (c.claim b.bot item).2)

/-- Bots take their turns one after the other. -/
def takeTurns (c : Claims) : List Bid → List Attempt
  | [] => []
  | b :: bids => (b.take c).1.toList ++ takeTurns (b.take c).2 bids

variable {b : Bid} {bids : List Bid} {a : Attempt} {item : LootId} {owner : BotId}

theorem heldByOther_of_target? (h : b.target? c = some item) :
    c.heldByOther item b.bot = false := by
  obtain ⟨i, hi, hitem⟩ := Option.bind_eq_some_iff.1 h
  obtain ⟨item', hitem', hfree⟩ := exists_item_of_selectBest hi
  rw [hitem] at hitem'
  cases hitem'
  exact hfree

/-- An attempt is granted, and the bot owns the item from then on. -/
theorem of_take (h : (b.take c).1 = some a) :
    a.bot = b.bot ∧ a.granted = true ∧ c.heldByOther a.item b.bot = false ∧
      (b.take c).2.owner? a.item = some b.bot := by
  unfold take at h ⊢
  cases htarget : b.target? c with
  | none =>
      rw [htarget] at h
      cases h
  | some item =>
      rw [htarget] at h
      cases h
      have hfree := heldByOther_of_target? htarget
      exact ⟨rfl, (c.claim_granted_iff b.bot item).2 hfree, hfree, Claims.owner?_claim_self hfree⟩

/-- A turn takes nothing from anybody. -/
theorem owner?_take (b : Bid) (h : c.owner? item = some owner) :
    (b.take c).2.owner? item = some owner := by
  unfold take
  split
  · exact h
  · rename_i other _
    rw [Claims.owner?_claim, if_neg, h]
    rintro ⟨hfree, rfl⟩
    rw [hfree] at h
    cases h

/-- Who owns an item is the only one to attempt it. -/
theorem bot_of_owner? (h : c.owner? item = some owner) (ha : a ∈ takeTurns c bids)
    (hitem : a.item = item) : a.bot = owner := by
  induction bids generalizing c with
  | nil => cases ha
  | cons b bids ih =>
      rcases List.mem_append.1 ha with hnow | hlater
      · obtain ⟨hbot, -, hfree, -⟩ := of_take (Option.mem_toList.1 hnow)
        rw [hitem, Claims.heldByOther, h] at hfree
        exact hbot.trans (not_not.1 (of_decide_eq_false hfree)).symm
      · exact ih (owner?_take b h) hlater

theorem granted_of_mem (ha : a ∈ takeTurns c bids) : a.granted = true := by
  induction bids generalizing c with
  | nil => cases ha
  | cons b bids ih =>
      rcases List.mem_append.1 ha with hnow | hlater
      · exact (of_take (Option.mem_toList.1 hnow)).2.1
      · exact ih hlater

/-- An item that was attempted before is attempted by the same bot only. -/
theorem pairwise_takeTurns (c : Claims) (bids : List Bid) :
    (takeTurns c bids).Pairwise fun a a' => a.item = a'.item → a.bot = a'.bot := by
  induction bids generalizing c with
  | nil => exact .nil
  | cons b bids ih =>
      refine List.pairwise_append.2 ⟨?_, ih (b.take c).2, fun a ha a' ha' hitem => ?_⟩
      · cases (b.take c).1 with
        | none => exact .nil
        | some a => exact List.pairwise_singleton _ a
      · obtain ⟨hbot, -, -, howned⟩ := of_take (Option.mem_toList.1 ha)
        rw [hbot, bot_of_owner? howned ha' hitem.symm]

end Bid

/-- Selection is exact, with claims and without. A selected item is there and its
claim is granted, and of the items that bots select and claim in turn none is
ever granted to two of them. -/
theorem selections_are_deconflicted (c : Claims) :
    (∀ bot ids scores,
      Selects (Selectable c bot ids scores) (selectBest c bot ids scores) ∧
        ∀ i, selectBest c bot ids scores = some i →
          ∃ item, ids[i]? = some item ∧ (c.claim bot item).1 = true ∧
            (c.claim bot item).2.owner? item = some bot) ∧
      (∀ scores, Selects (Quest.Numbered scores) (Quest.highest? scores)) ∧
      ∀ bids, (∀ a ∈ Bid.takeTurns c bids, a.granted = true) ∧
        (Bid.takeTurns c bids).Pairwise fun a a' => a.item = a'.item → a.bot = a'.bot := by
  refine ⟨fun bot ids scores => ⟨selects_selectBest c bot ids scores, fun i hi => ?_⟩,
    Quest.selects_highest?, fun bids =>
      ⟨fun a => Bid.granted_of_mem, Bid.pairwise_takeTurns c bids⟩⟩
  obtain ⟨item, hitem, hfree⟩ := exists_item_of_selectBest hi
  exact ⟨item, hitem, (c.claim_granted_iff bot item).2 hfree, Claims.owner?_claim_self hfree⟩

end Loot

end Warband
