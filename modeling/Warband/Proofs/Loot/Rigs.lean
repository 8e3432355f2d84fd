import Mathlib.Data.List.Chain
import Mathlib.Data.Prod.Lex
import Warband.Proofs.Loot.Appraisal

/-!
# Worn rigs

Upgrades are not transitive: a larger unarmored rig may give up class, and an armored
rig of its measures need not be an upgrade of what was worn before. Yet every upgrade
adds to the worth of a rig, that is to armor, then to the class of an armored rig, then
to the size. So a chain of upgrades never comes back, and a bot that changes its rig
only for an upgrade never wears a rig again that it has given up, whatever is offered
to it and whatever else it carries.
-/
namespace Warband.Loot

/-! ## Worth -/

namespace Rig

/-- The class that an upgrade has to keep up with. -/
def protection (r : Rig) : Nat := if r.armored then r.armorClass else 0

/-- Armor counts most, then the protection it gives, then the size. -/
def worth (r : Rig) : Bool ×ₗ ℕ ×ₗ ℕ := toLex (r.armored, toLex (r.protection, r.gridSize))

variable {a b : Rig}

theorem worth_lt_iff : a.worth < b.worth ↔
    a.armored < b.armored ∨ a.armored = b.armored ∧
      (a.protection < b.protection ∨ a.protection = b.protection ∧ a.gridSize < b.gridSize) := by
  rw [worth, worth, Prod.Lex.toLex_lt_toLex, Prod.Lex.toLex_lt_toLex]

end Rig

variable {a b : Rig}

theorem worth_lt_of_upgrade (h : rigUpgrade a b = true) : a.worth < b.worth := by
  rw [Rig.worth_lt_iff]
  unfold rigUpgrade at h
  cases ha : a.armored <;> cases hb : b.armored <;> rw [ha, hb] at h
  case false.true => exact .inl (by decide)
  case false.false =>
    have hsize : a.gridSize < b.gridSize := of_decide_eq_true h
    simp [Rig.protection, ha, hb, hsize]
  case true.true =>
    simp only [Bool.or_eq_true, Bool.and_eq_true, decide_eq_true_eq, beq_iff_eq] at h
    refine .inr ⟨rfl, ?_⟩
    rw [Rig.protection, Rig.protection, if_pos ha, if_pos hb]
    exact h.imp_right fun ⟨hclass, hsize⟩ => ⟨hclass.symm, hsize⟩
  case true.false => cases h

/-- A larger rig of a lower class is an upgrade, and so is an armored one of the same
measures; but not of the first. -/
example : rigUpgrade ⟨4, 5, false⟩ ⟨6, 0, false⟩ ∧ rigUpgrade ⟨6, 0, false⟩ ⟨6, 0, true⟩ ∧
    ¬ rigUpgrade ⟨4, 5, false⟩ ⟨6, 0, true⟩ := by decide

/-- A chain of upgrades. -/
abbrev Upgrades (rigs : List Rig) : Prop := rigs.IsChain fun a b => rigUpgrade a b = true

theorem worth_lt_of_upgrades {first : Rig} {rest : List Rig} (h : Upgrades (first :: rest)) :
    ∀ later ∈ rest, first.worth < later.worth := by
  induction rest generalizing first with
  | nil => exact fun _ hlater => nomatch hlater
  | cons next rest ih =>
      obtain ⟨hnext, hrest⟩ := List.isChain_cons_cons.1 h
      intro later hlater
      rcases List.mem_cons.1 hlater with rfl | hlater
      · exact worth_lt_of_upgrade hnext
      · exact (worth_lt_of_upgrade hnext).trans (ih hrest later hlater)

/-! ## Offers -/

/-- An item in front of a bot, with all that the bot carries and the settings of the
moment. The rig that it wears is not up to the host. -/
structure Offer where
  item : Item
  loadout : Loadout
  settings : LootSettings

/-- The rig that a bot wears after an offer: a rig that it swaps in, or the one it wore. -/
def Offer.rigAfter (o : Offer) (worn : Rig) : Rig :=
  match plan o.item { o.loadout with rig := worn } o.settings, o.item.kind with
  | .swap, .rig r => r
  | _, _ => worn

/-- The rigs that a bot wears in turn, one after each offer. -/
def wornRigs (worn : Rig) : List Offer → List Rig
  | [] => [worn]
  | o :: offers => worn :: wornRigs (o.rigAfter worn) offers

theorem upgradedBy_of_swap {item : Item} {loadout : Loadout} {s : LootSettings}
    (h : plan item loadout s = .swap) : loadout.upgradedBy item = true := by
  by_contra hno
  rw [plan_of_no_upgrade (Bool.eq_false_of_not_eq_true hno)] at h
  split at h <;> cases h

/-- A bot keeps its rig or changes it for an upgrade. -/
theorem Offer.rigAfter_cases (o : Offer) (worn : Rig) :
    o.rigAfter worn = worn ∨ rigUpgrade worn (o.rigAfter worn) = true := by
  unfold Offer.rigAfter
  split
  · rename_i r hswap hkind
    have hup := upgradedBy_of_swap hswap
    rw [Loadout.upgradedBy, hkind] at hup
    exact .inr hup
  · exact .inl rfl

theorem worth_of_mem_wornRigs {worn later : Rig} {offers : List Offer}
    (h : later ∈ wornRigs worn offers) : later = worn ∨ worn.worth < later.worth := by
  induction offers generalizing worn with
  | nil => exact .inl (List.mem_singleton.1 h)
  | cons o offers ih =>
      rcases List.mem_cons.1 h with rfl | h
      · exact .inl rfl
      · rcases o.rigAfter_cases worn with hsame | hup
        · exact ih (hsame ▸ h)
        · rcases ih h with rfl | hlt
          · exact .inr (worth_lt_of_upgrade hup)
          · exact .inr ((worth_lt_of_upgrade hup).trans hlt)

theorem pairwise_wornRigs (worn : Rig) (offers : List Offer) :
    (wornRigs worn offers).Pairwise fun a b => b = a ∨ a.worth < b.worth := by
  induction offers generalizing worn with
  | nil => exact List.pairwise_singleton _ worn
  | cons o offers ih =>
      refine List.pairwise_cons.2 ⟨fun later hlater => ?_, ih (o.rigAfter worn)⟩
      have hworn : later ∈ wornRigs worn (o :: offers) := List.mem_cons_of_mem _ hlater
      exact worth_of_mem_wornRigs hworn

/-- Upgrades lead away from a rig for good. However long a chain of them is, no later
rig is the first one or is upgraded by it; and of the rigs that a bot wears in turn, one
that was changed for another is never worn again. -/
theorem rigs_never_return :
    (∀ first rest, Upgrades (first :: rest) →
      ∀ later ∈ rest, later ≠ first ∧ rigUpgrade later first = false) ∧
      ∀ worn offers a b c, [a, b, c].Sublist (wornRigs worn offers) → b ≠ a → c ≠ a := by
  refine ⟨fun first rest h later hlater => ?_, fun worn offers a b c h hgiven hback => ?_⟩
  · have hlt := worth_lt_of_upgrades h later hlater
    refine ⟨fun hsame => hlt.ne (congrArg Rig.worth hsame.symm), ?_⟩
    exact Bool.eq_false_of_not_eq_true fun hup => hlt.asymm (worth_lt_of_upgrade hup)
  · obtain ⟨ha, hrest⟩ := List.pairwise_cons.1 ((pairwise_wornRigs worn offers).sublist h)
    have hab : a.worth < b.worth := (ha b List.mem_cons_self).resolve_left hgiven
    rcases (List.pairwise_cons.1 hrest).1 c List.mem_cons_self with rfl | hbc
    · exact hgiven hback
    · exact (hab.trans hbc).ne (congrArg Rig.worth hback.symm)

end Warband.Loot
