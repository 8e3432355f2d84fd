import Warband.Loot.Score

/-!
# Wanted items

The score of an item says whether a bot goes for it, the plan what it does in
front of it. Both draw the same line for items that are no upgrade: they have to
be worth enough and to fit. An upgrade is wanted whatever it is worth, and taken
unless swapping is disabled, which the score does not look at. So of the items
with a positive score a bot leaves none but the upgrades that it may not swap in.
-/
namespace Warband.Loot

variable {item : Item} {loadout : Loadout} {c : Circumstances} {s : LootSettings}

/-- An item without a chance has no positive score. -/
theorem eligible_of_score_pos (h : 0 < score item loadout c s) :
    Score.eligible item loadout s = true := by
  unfold score at h
  split at h
  · exact absurd h (by decide +kernel)
  · rename_i hchance
    simpa using (Bool.or_eq_false_iff.1 ((Bool.not_eq_true _).mp hchance)).2

theorem plan_of_upgrade (h : loadout.upgradedBy item = true) :
    plan item loadout s = if s.gearSwapEnabled then .swap else .skip := by
  rw [plan, if_pos h]

/-- An item that is no upgrade is picked up iff it has a chance of a score. -/
theorem plan_of_no_upgrade (h : loadout.upgradedBy item = false) :
    plan item loadout s = if Score.eligible item loadout s then .pickup else .skip := by
  unfold plan Score.eligible
  rw [h, if_neg Bool.false_ne_true, Bool.false_or]
  by_cases hvalue : item.value < s.minItemValue
  · simp [hvalue]
  · by_cases hsize : item.size ≤ loadout.freeSpace
    · simp [hvalue, hsize]
    · simp [hvalue, hsize]

/-- A bot leaves an item with a positive score iff it is an upgrade and swapping is
disabled. -/
theorem skip_iff_of_score_pos (h : 0 < score item loadout c s) :
    plan item loadout s = .skip ↔
      loadout.upgradedBy item = true ∧ s.gearSwapEnabled = false := by
  cases hupgrade : loadout.upgradedBy item with
  | true => simp [plan_of_upgrade hupgrade]
  | false => simp [plan_of_no_upgrade hupgrade, eligible_of_score_pos h]

/-- An armored rig of equal measures is swapped in, though it is worth nothing and
does not fit. -/
theorem skip_iff_of_armored_rig :
    let item : Item := ⟨9, .origin, 0, 20, .rig ⟨8, 2, true⟩⟩
    let loadout : Loadout := { rig := ⟨8, 2, false⟩, freeSpace := 4 }
    let c : Circumstances := { lastLootTime := -100 }
    0 < score item loadout c {} ∧
      (plan item loadout {} = .skip ↔
        loadout.upgradedBy item = true ∧ ({} : LootSettings).gearSwapEnabled = false) := by
  intro item loadout c
  have hscore : 0 < score item loadout c {} := by decide +kernel
  exact ⟨hscore, skip_iff_of_score_pos hscore⟩

/-- With swapping disabled a larger backpack has a positive score and is left. -/
theorem skip_of_wanted_backpack :
    let item : Item := ⟨9, .origin, 50000, 1, .backpack 30⟩
    let loadout : Loadout := { backpackGrid := 20, freeSpace := 4 }
    let c : Circumstances := { lastLootTime := -100 }
    let s : LootSettings := { gearSwapEnabled := false }
    0 < score item loadout c s ∧ plan item loadout s = .skip := by
  decide +kernel

end Warband.Loot
