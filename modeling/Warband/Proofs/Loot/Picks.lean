import Warband.Loot.Share
import Warband.Proofs.Claims
import Warband.Proofs.Numeric.Choice

/-!
# Picks of a squad

A leader picks from the first items of its scan, and so do its followers, except
for the leader's own target. What somebody else holds is out of bounds for both.
The pick is the foremost of the items on offer, and it is claimed; if there is
none on offer nothing is claimed.

There is one exception. The scan does not leave out undefined values, and an item
with the value NaN that is the first on offer is picked whatever the others are
worth.
-/
namespace Warband.Loot

open Numeric

/-- The values of the items of a scan that are shared and may be picked. -/
def Offered (scan : List Item) (may : Item → Prop) : Row := fun i x =>
  i < Share.capacity ∧ ∃ item, scan[i]? = some item ∧ may item ∧ item.value = x

/-- What came of a pick from a scan. -/
structure PickedFrom (scan : List Item) (may : Item → Prop) (c : Claims) (bot : BotId)
    (pick : Option LootId) (c' : Claims) : Prop where
  none_iff : pick = none ↔ ∀ i x, ¬ Offered scan may i x
  idle : pick = none → c' = c
  claimed : ∀ id, pick = some id → c' = (c.claim bot id).2 ∧ c'.owner? id = some bot ∧
    ∃ i item, scan[i]? = some item ∧ item.id = id ∧ Settles (Offered scan may) (some i)

variable {scan : List Item} {may : Item → Prop} {c : Claims} {bot : BotId} {p : Shared → Bool}

theorem getElem?_items_publish {i : Nat} {s : Shared} :
    (Share.publish scan).items[i]? = some s ↔
      i < Share.capacity ∧ ∃ item, scan[i]? = some item ∧ item.shared = s := by
  rw [Share.publish, List.getElem?_map, Option.map_eq_some_iff, List.getElem?_take]
  split
  · rename_i hi
    simp [hi]
  · rename_i hi
    simp [hi]

theorem rowOf_publish (hmay : ∀ item : Item, p item.shared = true ↔ may item) :
    rowOf (Option.guard p) Shared.value (Share.publish scan).items = Offered scan may := by
  funext i x
  rw [rowOf_guard_iff]
  refine propext ⟨?_, ?_⟩
  · rintro ⟨s, hs, hp, rfl⟩
    obtain ⟨hi, item, hitem, rfl⟩ := getElem?_items_publish.1 hs
    exact ⟨hi, item, hitem, (hmay item).1 hp, rfl⟩
  · rintro ⟨hi, item, hitem, hm, rfl⟩
    exact ⟨item.shared, getElem?_items_publish.2 ⟨hi, item, hitem, rfl⟩, (hmay item).2 hm, rfl⟩

/-- A choice among the shared items settles on a place of the scan. -/
theorem settles_of_choice (hmay : ∀ item : Item, p item.shared = true ↔ may item) {pick : Shared}
    (h : firstBest? Shared.value ((Share.publish scan).items.filter p) = some pick) :
    ∃ i item, scan[i]? = some item ∧ item.shared = pick ∧ may item ∧
      Settles (Offered scan may) (some i) := by
  obtain ⟨i, hi, hp, hpick⟩ := exists_of_firstBest?_filter h
  obtain ⟨-, item, hitem, rfl⟩ := getElem?_items_publish.1 hi
  rw [rowOf_publish hmay] at hpick
  refine ⟨i, item, hitem, rfl, (hmay item).1 hp, .of (fun k hk => ?_) fun hnone => nomatch hnone⟩
  cases hk
  exact ⟨_, hpick⟩

/-- A choice among free items that is claimed at once. -/
theorem pickedFrom_of_choice (hmay : ∀ item : Item, p item.shared = true ↔ may item)
    (hfree : ∀ item, may item → c.heldByOther item.id bot = false) {choice : Option Shared}
    (h : firstBest? Shared.value ((Share.publish scan).items.filter p) = choice) :
    PickedFrom scan may c bot (choice.map (·.id))
      (choice.elim c fun pick => (c.claim bot pick.id).2) := by
  cases choice with
  | none =>
      rw [firstBest?_filter_eq_none, rowOf_publish hmay] at h
      exact ⟨iff_of_true rfl h, fun _ => rfl, fun _ hid => nomatch hid⟩
  | some pick =>
      obtain ⟨i, item, hitem, rfl, hm, hsettles⟩ := settles_of_choice hmay h
      obtain ⟨x, hx, -⟩ := hsettles.picked i rfl
      refine ⟨iff_of_false (fun hnone => nomatch hnone) fun hempty => hempty i x hx.stands,
        (fun hnone => nomatch hnone), fun id hid => ?_⟩
      cases hid
      exact ⟨rfl, Claims.owner?_claim_self (hfree item hm), i, item, hitem, rfl, hsettles⟩

/-- A leader picks from what nobody else holds, and a follower from the same
without the target of the leader. -/
theorem picks_of_scan (scan : List Item) (target : Option LootId) (c : Claims) (bot : BotId) :
    let s : Share := { Share.publish scan with bossTarget := target }
    PickedFrom scan (fun item => c.heldByOther item.id bot = false) c bot
        (s.claimForBoss c bot).1 (s.claimForBoss c bot).2.2 ∧
      PickedFrom scan (fun item => c.heldByOther item.id bot = false ∧ target ≠ some item.id) c bot
        ((s.claimForFollower c bot).1.map (·.id)) (s.claimForFollower c bot).2 := by
  intro s
  constructor
  · have hmay : ∀ item : Item, (!c.heldByOther item.shared.id bot) = true ↔
        c.heldByOther item.id bot = false := fun item => by
      rw [Bool.not_eq_true']
      rfl
    rw [s.claimForBoss_eq c bot]
    cases h : firstBest? Shared.value (s.free c bot) with
    | none => exact pickedFrom_of_choice hmay (fun _ => id) h
    | some pick => exact pickedFrom_of_choice hmay (fun _ => id) h
  · have hmay : ∀ item : Item,
        (decide (some item.shared.id ≠ s.bossTarget) && !c.heldByOther item.shared.id bot) = true ↔
          c.heldByOther item.id bot = false ∧ target ≠ some item.id := fun item => by
      rw [Bool.and_eq_true, Bool.not_eq_true', decide_eq_true_eq]
      exact ⟨fun h => ⟨h.2, Ne.symm h.1⟩, fun h => ⟨Ne.symm h.2, h.1⟩⟩
    rw [s.claimForFollower_eq c bot, Share.free, List.filter_filter]
    split
    · rename_i h
      exact pickedFrom_of_choice hmay (fun _ => And.left) h
    · rename_i pick h
      exact pickedFrom_of_choice hmay (fun _ => And.left) h

/-- An item of undefined value at the front of a scan is picked, although the one
behind it has a value. -/
theorem pick_of_undefined_value :
    let scan : List Item := [⟨1, .origin, .nan, 1, .plain⟩, ⟨2, .origin, 10, 1, .plain⟩]
    let free := fun item : Item => Claims.empty.heldByOther item.id ⟨0⟩ = false
    ((Share.publish scan).claimForBoss .empty ⟨0⟩).1 = some 1 ∧ Offered scan free 1 10 ∧
      ∀ x, ¬ Foremost (Offered scan free) 0 x := by
  intro scan free
  have hbehind : Offered scan free 1 10 := ⟨by decide, _, rfl, rfl, rfl⟩
  refine ⟨by decide +kernel, hbehind, fun x hx => ?_⟩
  obtain ⟨-, item, hitem, -, rfl⟩ := hx.stands
  cases hitem
  exact absurd (hx.isNaN_eq_false hbehind (by decide +kernel)) (by decide +kernel)

end Warband.Loot
