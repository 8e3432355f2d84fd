import Warband.Proofs.Looting
import Warband.Proofs.Session.Departure

/-!
# Claims in a session

Few moves touch the claims: the host claims or releases an item, a bot is
dropped, or a tick takes from the inactive and lets the squads loot. A tick gives
to live bots only, and a bot that is dropped loses everything first. The host's
own claim is the exception. It is granted to any handle whatever, a dead one
included, and then the item stays with the handle and goes to the bot that gets
the handle next.
-/
namespace Warband

open Loot

namespace Call

def isClaim : Call → Bool
  | .claim _ _ => true
  | _ => false

def isTick : Call → Bool
  | .tick _ _ => true
  | _ => false

end Call

namespace Mind

variable {β : Type} {π : Bot → β} {settings : Settings} {m m' m₁ : Mind} {past : List Mind}

/-! ## Before the loot phase -/

theorem maintain_ok {r : Report} (h : m.maintain = .ok (r, m')) :
    Roster.Kept (·.isActive) m.bots m'.bots ∧
      m'.claims = (releaseInactive m'.bots m.claims).2 ∧
      m'.squads = m.squads.map fun _ => forgetLostTarget m'.bots := by
  obtain ⟨⟨n, bots⟩, hsep, h⟩ := bind_eq_ok.1 h
  have hkept : Roster.Kept (·.isActive) m.bots bots :=
    (Links.Edit.cleanup hsep).kept.comp (·.isActive)
  cases h
  exact ⟨hkept.trans (kept_resetSensors fun _ _ => rfl), rfl, rfl⟩

/-- The phases before the loot phase take everything from the inactive bots. -/
theorem ofBot_beforeLoot {now : Time} (h : m.beforeLoot now = .ok m₁) (b : BotId) :
    m₁.claims.ofBot b = if (m.bots.get? b).any (!·.isActive) then [] else m.claims.ofBot b := by
  obtain ⟨r, m₀, hmaintain, rfl⟩ := beforeLoot_ok h
  obtain ⟨hkept, hclaims, -⟩ := maintain_ok hmaintain
  have hactive : (m₀.bots.get? b).any (!·.isActive) = (m.bots.get? b).any (!·.isActive) :=
    hkept.any (!·) b
  have hsame : (m₀.surveyCombat now).commandSquads.2.claims =
      (releaseInactive m₀.bots m.claims).2 := hclaims
  rw [← hactive, ← Claims.ofBot_releaseInactive, hsame]

theorem contains_beforeLoot {now : Time} (h : m.beforeLoot now = .ok m₁) (b : BotId) :
    m₁.bots.contains b = m.bots.contains b := by
  obtain ⟨bots, hedit, hcalm⟩ := calm_beforeLoot h
  rw [hcalm.bots.contains, hedit.kept.contains]

theorem stable_beforeLoot {P : Claims → Prop} (hP : Claims.Stable P) {now : Time}
    (h : m.beforeLoot now = .ok m₁) (hm : P m.claims) : P m₁.claims := by
  obtain ⟨r, m₀, hmaintain, rfl⟩ := beforeLoot_ok h
  obtain ⟨-, hclaims, -⟩ := maintain_ok hmaintain
  have hreleased : P m₀.claims := hclaims ▸ hP.releaseInactive m₀.bots hm
  exact hreleased

/-! ## What moves do to claims -/

/-- Nothing is claimed, and something may be given up. -/
inductive Cede (m : Mind) : Mind → Prop
  | same {m' : Mind} : m'.claims = m.claims → Cede m m'
  | release {m' : Mind} (bot : BotId) (item : LootId) :
      m'.claims = (m.claims.release bot item).2 → Cede m m'
  | drop {id : BotId} {m' : Mind} : m.dropBot id = .ok m' → Cede m m'

/-- All that a move does to the claims. -/
inductive Stir (m : Mind) : Mind → Prop
  | claim (bot : BotId) (item : LootId) : Stir m (m.claim bot item).2
  | tick {now : Time} {elapsed : Metrics.Duration} {r : Report} {m' : Mind} :
      m.tick now elapsed = .ok (r, m') → Stir m m'
  | cede {m' : Mind} : Cede m m' → Stir m m'

theorem claims_modifyBot (m : Mind) (id : BotId) (f : Bot → Bot) :
    (m.modifyBot id f).2.claims = m.claims := by
  unfold modifyBot
  split <;> rfl

theorem claims_setObjective (m : Mind) (squad : SquadId) (p : Position) (now : Time)
    (duration : Float32) : (m.setObjective squad p now duration).2.claims = m.claims := by
  unfold setObjective
  split <;> rfl

theorem claims_setAction (m : Mind) (squad : SquadId) (action : Action) :
    (m.setAction squad action).2.claims = m.claims := by
  unfold setAction
  split <;> rfl

theorem claims_publishScan (m : Mind) (squad : SquadId) (scan : List Item) :
    (m.publishScan squad scan).2.claims = m.claims := by
  unfold publishScan
  split <;> rfl

theorem cede_of_call {c : Call} {a : Answer} (h : m.call c = .ok (a, m'))
    (hclaim : c.isClaim = false) (htick : c.isTick = false) : Cede m m' := by
  cases c with
  | claim => cases hclaim
  | tick => cases htick
  | release bot item =>
      cases h
      exact .release bot item rfl
  | deregister hostId =>
      obtain ⟨⟨r, m₁⟩, hrun, h⟩ := bind_eq_ok.1 h
      cases h
      cases r with
      | error e => exact .same (deregister_error hrun ▸ rfl)
      | ok id => exact .drop (deregister_ok hrun).2
  -- the claims are not touched by the others
  | register hostId botClass =>
      obtain ⟨⟨id, m₁⟩, hrun, h⟩ := bind_eq_ok.1 h
      obtain ⟨bots, -, rfl⟩ := register_ok hrun
      cases h
      exact .same rfl
  | assignBoss follower boss =>
      obtain ⟨⟨ok, m₁⟩, hrun, h⟩ := bind_eq_ok.1 h
      obtain ⟨⟨ok, bots⟩, -, hrun⟩ := bind_eq_ok.1 hrun
      cases hrun
      cases h
      exact .same rfl
  | createSquad hostId =>
      obtain ⟨⟨id, m₁⟩, hrun, h⟩ := bind_eq_ok.1 h
      obtain ⟨squads, -, rfl⟩ := createSquad_ok hrun
      cases h
      exact .same rfl
  | join squad bot =>
      obtain ⟨⟨r, m₁⟩, hrun, h⟩ := bind_eq_ok.1 h
      obtain ⟨squads, bots, -, rfl⟩ := join_ok hrun
      cases h
      exact .same rfl
  | move bot | sense bot | temper bot | startVulture bot | setIndoor bot | patch bot =>
      cases h
      exact .same (claims_modifyBot m bot _)
  | disband | leave | recordEvent | addMarker =>
      cases h
      exact .same rfl
  | setObjective =>
      cases h
      exact .same (claims_setObjective ..)
  | setAction =>
      cases h
      exact .same (claims_setAction ..)
  | publishScan =>
      cases h
      exact .same (claims_publishScan ..)

theorem Move.stir (h : Move π m m') : Stir m m' := by
  cases h with
  | @call c _ _ h =>
      cases c with
      | claim bot item =>
          cases h
          exact .claim bot item
      | tick now elapsed =>
          obtain ⟨⟨r, m₁⟩, hrun, h⟩ := bind_eq_ok.1 h
          cases h
          exact .tick hrun
      | _ => exact .cede (cede_of_call h rfl rfl)
  | write | relink => exact .cede (.same rfl)

theorem Stir.stable {P : Claims → Prop} (hP : Claims.Stable P) (h : Stir m m')
    (hm : P m.claims) : P m'.claims := by
  cases h with
  | claim bot item => exact hP.claim bot item hm
  | tick h =>
      obtain ⟨m₁, hbefore, -, hclaims, -, -⟩ := tick_ok h
      exact hclaims ▸ hP.shareLoot (stable_beforeLoot hP hbefore hm)
  | cede h =>
      cases h with
      | same h => exact h ▸ hm
      | release bot item h => exact h ▸ hP.release bot item hm
      | drop h =>
          obtain ⟨-, -, -, -, hclaims, -⟩ := dropBot_ok h
          exact hclaims ▸ hP.releaseAll _ hm

/-- What every request keeps holds in every session. -/
theorem History.stable {P : Claims → Prop} (hP : Claims.Stable P) (hempty : P .empty)
    (h : History π settings (m :: past)) : P m.claims := by
  generalize hs : m :: past = states at h
  induction h generalizing m past with
  | start hm =>
      cases hs
      rw [start_ok hm]
      exact hempty
  | move _ hmove ih =>
      cases hs
      exact hmove.stir.stable hP (ih rfl)

/-! ## Owners are live -/

theorem contains_dropBot {id b : BotId} (h : m.dropBot id = .ok m') (hb : b ≠ id) :
    m'.bots.contains b = m.bots.contains b := by
  obtain ⟨bots, hsep, -, -, -, hbots⟩ := dropBot_ok h
  rw [← contains_parted hsep]
  rcases hbots with ⟨gone, hremove⟩ | ⟨-, hsame⟩
  · rw [Roster.contains_eq_isSome, Roster.get?_remove? hremove, if_neg hb,
      Roster.contains_eq_isSome]
  · rw [hsame]

/-- Bots go only when they are dropped. -/
theorem Edit.live (h : Edit π m m') :
    (∀ b, m.bots.contains b → m'.bots.contains b) ∨ ∃ id, m.dropBot id = .ok m' := by
  cases h with
  | calm h => exact .inl fun b hb => by rwa [h.bots.contains]
  | write id hf => exact .inl fun b hb => by rwa [Roster.contains_modify]
  | relink hlinks h => exact .inl fun b hb => by rwa [h.bots.contains, hlinks.kept.contains]
  | register h =>
      obtain ⟨bots, hadopt, rfl⟩ := register_ok h
      refine .inl fun b hb => ?_
      rw [Roster.contains_eq_isSome] at hb
      change (bots.modify _ _).contains b
      rw [Roster.contains_modify, Roster.contains_eq_isSome, Roster.get?_adopt hadopt]
      split
      · rfl
      · exact hb
  | drop _ h => exact .inr ⟨_, h⟩
  | createSquad h =>
      obtain ⟨squads, -, rfl⟩ := createSquad_ok h
      exact .inl fun _ => id
  | disband squad =>
      refine .inl fun b hb => ?_
      have hkept := Enrollment.kept_disband m.squads m.bots squad
      exact (hkept.contains b).trans hb
  | join h =>
      obtain ⟨squads, bots, hjoin, rfl⟩ := join_ok h
      refine .inl fun b hb => ?_
      exact ((Enrollment.kept_join hjoin).contains b).trans hb
  | leave bot =>
      refine .inl fun b hb => ?_
      exact ((Enrollment.kept_leave m.squads m.bots bot).contains b).trans hb

/-- Whoever owns an item after a tick owned it before or is live. -/
theorem owner_of_tick {now : Time} {elapsed : Metrics.Duration} {r : Report}
    (h : m.tick now elapsed = .ok (r, m')) (ha : m.claims.Agree) {item : LootId} {b : BotId}
    (howned : m'.claims.owner? item = some b) :
    m.claims.owner? item = some b ∨ m.bots.contains b := by
  obtain ⟨m₁, hbefore, -, hclaims, -, -⟩ := tick_ok h
  have ha₁ := stable_beforeLoot Claims.stable_agree hbefore ha
  rw [hclaims] at howned
  rcases owner_of_shareLoot ha₁ howned with hheld | hactive
  · rw [ha₁, ofBot_beforeLoot hbefore] at hheld
    split at hheld
    · cases hheld
    · exact .inl ((ha item b).2 hheld)
  · obtain ⟨record, hget, -⟩ := (Option.any_eq_true ..).1 hactive
    exact .inr (contains_beforeLoot hbefore b ▸ Roster.contains_of_get? hget)

/-- Whoever owns an item when something may have been given up owned it before. -/
theorem Cede.owner? (h : Cede m m') (ha : m.claims.Agree) {item : LootId} {b : BotId}
    (howned : m'.claims.owner? item = some b) : m.claims.owner? item = some b := by
  cases h with
  | same h => exact h ▸ howned
  | release bot loot h =>
      rw [h, Claims.owner?_release] at howned
      split at howned
      · cases howned
      · exact howned
  | drop h =>
      obtain ⟨-, -, -, -, hclaims, -⟩ := dropBot_ok h
      rw [hclaims, ha.owner?_releaseAll] at howned
      split at howned
      · cases howned
      · exact howned

/-- A dropped bot owns nothing. -/
theorem ne_of_dropBot {id b : BotId} {item : LootId} (h : m.dropBot id = .ok m')
    (ha : m.claims.Agree) (howned : m'.claims.owner? item = some b) : b ≠ id := by
  obtain ⟨-, -, -, -, hclaims, -⟩ := dropBot_ok h
  rw [hclaims, ha.owner?_releaseAll] at howned
  split at howned
  · cases howned
  · rename_i hother
    rintro rfl
    exact hother howned

/-- Whoever owns an item after a move owned it before or is live, and it stays
live in the move. The exception is a free item that the host claims. -/
theorem Move.owner? (h : Move π m m') (ha : m.claims.Agree) {item : LootId} {b : BotId}
    (howned : m'.claims.owner? item = some b) :
    m.claims.owner? item = none ∧ m' = (m.claim b item).2 ∨
      (m.claims.owner? item = some b ∨ m.bots.contains b) ∧
        (m.bots.contains b → m'.bots.contains b) := by
  have hstays : m.bots.contains b → m'.bots.contains b := fun hlive => by
    rcases h.edit.live with hkept | ⟨id, hdrop⟩
    · exact hkept b hlive
    · rwa [contains_dropBot hdrop (ne_of_dropBot hdrop ha howned)]
  cases h.stir with
  | claim bot loot =>
      have hclaimed : (m.claims.claim bot loot).2.owner? item = some b := howned
      rw [Claims.owner?_claim] at hclaimed
      split at hclaimed
      · rename_i hfree
        obtain ⟨hnone, rfl⟩ := hfree
        cases hclaimed
        exact .inl ⟨hnone, rfl⟩
      · exact .inr ⟨.inl hclaimed, hstays⟩
  | tick h => exact .inr ⟨owner_of_tick h ha howned, hstays⟩
  | cede h => exact .inr ⟨.inl (h.owner? ha howned), hstays⟩

/-! ## Strays -/

/-- An item that the host claimed for a handle of no live bot, and that has been
held for this handle in all states since. -/
inductive Stray (item : LootId) (bot : BotId) : List Mind → Prop
  | claimed {m : Mind} {past : List Mind} : m.bots.contains bot = false →
      m.claims.owner? item = none → Stray item bot ((m.claim bot item).2 :: m :: past)
  | held {m : Mind} {past : List Mind} : m.claims.owner? item = some bot →
      Stray item bot past → Stray item bot (m :: past)

theorem live_or_stray (h : History π settings (m :: past)) {item : LootId} {b : BotId}
    (howned : m.claims.owner? item = some b) :
    m.bots.contains b ∨ Stray item b (m :: past) := by
  generalize hs : m :: past = states at h
  induction h generalizing m past with
  | start hm =>
      cases hs
      rw [start_ok hm] at howned
      cases howned
  | @move m₀ _ past₀ hold hmove ih =>
      cases hs
      rcases hmove.owner? hold.agree howned with ⟨hfree, rfl⟩ | ⟨hbefore, hstays⟩
      · cases hlive : m₀.bots.contains b with
        | true => exact .inl hlive
        | false => exact .inr (.claimed hlive hfree)
      · have hlast : m₀.bots.contains b ∨ Stray item b (m₀ :: past₀) := by
          rcases hbefore with howned₀ | hlive
          · exact ih howned₀ rfl
          · exact .inl hlive
        exact hlast.imp hstays (.held howned)

theorem exists_register (m : Mind) (hostId : HostId) (botClass : BotClass) :
    ∃ id m', m.register hostId botClass = .ok (id, m') := by
  obtain ⟨bots, hadopt⟩ := m.bots.adopt_ok hostId {}
  have hlive : bots.contains (m.bots.add ({} : Bot)).1 := by
    rw [Roster.contains_eq_isSome, Roster.get?_adopt hadopt, if_pos rfl]
    rfl
  simp only [register, hadopt, bind, Except.bind, Roster.update_of_contains _ hlive, pure,
    Except.pure]
  exact ⟨_, _, rfl⟩

/-- A new bot gets a handle that was dead, and the claims stay as they are. -/
theorem dead_of_register {hostId : HostId} {botClass : BotClass} {id : BotId}
    (h : m.register hostId botClass = .ok (id, m')) :
    m.bots.contains id = false ∧ m'.claims = m.claims := by
  obtain ⟨bots, hadopt, rfl⟩ := register_ok h
  refine ⟨?_, rfl⟩
  rw [Roster.contains_eq_isSome, Roster.get?_of_adopt hadopt]
  rfl

/-- In every session an item belongs to a live bot, unless the host claimed it
for a handle of no live bot and it has been held for the handle ever since. So a
bot that is registered starts with nothing but such strays. -/
theorem claims_of_history (h : History π settings (m :: past)) :
    (∀ item bot, m.claims.owner? item = some bot →
        m.bots.contains bot ∨ Stray item bot (m :: past)) ∧
      ∀ hostId botClass, ∃ id m', m.register hostId botClass = .ok (id, m') ∧
        ∀ item ∈ m'.claims.ofBot id, Stray item id (m :: past) := by
  refine ⟨fun item bot => live_or_stray h, fun hostId botClass => ?_⟩
  obtain ⟨id, m', hrun⟩ := exists_register m hostId botClass
  obtain ⟨hdead, hclaims⟩ := dead_of_register hrun
  refine ⟨id, m', hrun, fun item hitem => ?_⟩
  rw [hclaims, ← h.agree] at hitem
  refine (live_or_stray h hitem).resolve_left ?_
  rw [hdead]
  exact Bool.false_ne_true

/-- The leader of a squad owns what it looted, and a dead handle owns what the
host claimed for it. -/
theorem claims_of_leader_and_stray :
    let m := (fresh {} (.ofSeed 1)).after [.register 7 .unknown, .createSquad 5,
      .join ⟨0⟩ ⟨0⟩, .publishScan ⟨0⟩ [⟨3, .origin, 30, 1, .plain⟩], .claim ⟨1⟩ 5, .tick 1 ⟨0⟩]
    m.claims.owner? 3 = some ⟨0⟩ ∧ m.bots.contains ⟨0⟩ = true ∧
      m.bots.contains ⟨1⟩ = false ∧ ∃ past, History Bot.post {} (m :: past) ∧
        Stray 5 ⟨1⟩ (m :: past) ∧
        ∃ id m', m.register 8 .unknown = .ok (id, m') ∧
          ∀ item ∈ m'.claims.ofBot id, Stray item id (m :: past) := by
  intro m
  obtain ⟨past, h⟩ : ∃ past, History Bot.post {} (m :: past) := (History.start rfl).after _
  obtain ⟨howners, hregister⟩ := claims_of_history h
  have hdead : m.bots.contains ⟨1⟩ = false := by decide +kernel
  have howned : m.claims.owner? 5 = some ⟨1⟩ := by decide +kernel
  have hstray : Stray 5 ⟨1⟩ (m :: past) :=
    (howners 5 ⟨1⟩ howned).resolve_left (by rw [hdead]; exact Bool.false_ne_true)
  exact ⟨by decide +kernel, by decide +kernel, hdead, past, h, hstray, hregister 8 .unknown⟩

/-- A claim for a dead handle is inherited by the bot that gets the handle. -/
theorem claim_inherited :
    let m := (fresh {} (.ofSeed 1)).after [.claim ⟨0⟩ 5]
    (∃ past, History Bot.post {} (m :: past)) ∧
      m.claims.owner? 5 = some ⟨0⟩ ∧ m.bots.contains ⟨0⟩ = false ∧
      ∃ m', m.register 7 .unknown = .ok (⟨0⟩, m') ∧ m'.claims.ofBot ⟨0⟩ = [5] := by
  intro m
  exact ⟨(History.start rfl).after _, by decide +kernel, by decide +kernel, _, rfl,
    by decide +kernel⟩

end Mind

end Warband
