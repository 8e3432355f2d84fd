import Warband.Proofs.Claims.Ledger
import Warband.Proofs.Session.Claims
import Warband.Proofs.Session.Enrollment

/-!
# Looting in a session

The loot phase of a tick guards against a second item in two ways. A follower
that holds something is passed over. A leader is passed over only while it holds
the pick of its squad, and the pick is forgotten with every new scan and when
the squad changes hands. So a bot that leads may add to what it holds, once for
each time it is found without its pick, and it may pick what it holds already.
The report of the tick counts such a pick, though nothing is claimed by it.
-/
namespace Warband

open Loot

/-- Who picks for a squad, and what it has picked. -/
def Squad.stake (s : Squad) : Option BotId × Share := (s.leader, s.share)

namespace Mind

variable {β : Type} {π : Bot → β} {settings : Settings} {m m' m₁ : Mind} {past : List Mind}

/-! ## Leaders and picks before the loot phase -/

theorem stake_squadTurn (m : Mind) (s : Squad) (pass : SquadPass) :
    (m.squadTurn s pass).1.stake = s.stake := by
  unfold squadTurn Squad.refresh
  split
  · dsimp only
    split <;> rfl
  · rfl

theorem leader_forgetLostTarget (bots : Bots) (s : Squad) :
    (forgetLostTarget bots s).leader = s.leader := by
  unfold forgetLostTarget
  split <;> rfl

/-- A squad with an active leader keeps its pick. -/
theorem forgetLostTarget_of_active {bots : Bots} {s : Squad} {l : BotId}
    (hl : s.leader = some l) (hactive : (bots.get? l).any (·.isActive)) :
    forgetLostTarget bots s = s := by
  unfold forgetLostTarget
  rw [hl, if_pos]
  exact hactive

/-- A squad that has an active leader when the loot phase begins had this leader
and the same share before the tick. -/
theorem stake_beforeLoot {now : Time} (h : m.beforeLoot now = .ok m₁) {s : SquadId} {q : Squad}
    {l : BotId} (hq : m₁.squads.get? s = some q) (hl : q.leader = some l)
    (hactive : (m₁.bots.get? l).any (·.isActive)) :
    ∃ q₀, m.squads.get? s = some q₀ ∧ q₀.stake = q.stake := by
  obtain ⟨r, m₀, hmaintain, rfl⟩ := beforeLoot_ok h
  obtain ⟨-, -, hsquads⟩ := maintain_ok hmaintain
  have hkept : Roster.Kept Squad.stake m₀.squads (m₀.surveyCombat now).commandSquads.2.squads :=
    .sweep fun _ s pass => stake_squadTurn _ s pass
  have hcivil : Roster.Kept (·.isActive) m₀.bots (m₀.surveyCombat now).commandSquads.2.bots :=
    (kept_commandSquads (m₀.surveyCombat now)).comp (·.isActive)
  have hactive₀ : (m₀.bots.get? l).any (·.isActive) := (hcivil.any id l).symm.trans hactive
  obtain ⟨q₁, hq₁, hstake⟩ := hkept.exists_get? hq
  rw [hsquads, Roster.get?_map] at hq₁
  obtain ⟨q₀, hq₀, rfl⟩ := Option.map_eq_some_iff.1 hq₁
  have hl₀ : q₀.leader = some l := by
    rw [← leader_forgetLostTarget m₀.bots q₀, ← hl]
    exact congrArg Prod.fst hstake
  rw [forgetLostTarget_of_active hl₀ hactive₀] at hstake
  exact ⟨q₀, hq₀, hstake⟩

theorem enrolled_beforeLoot {now : Time} (h : m.beforeLoot now = .ok m₁) (hc : m.Enrolled) :
    m₁.Enrolled := by
  obtain ⟨bots, hlinks, hcalm⟩ := calm_beforeLoot h
  have hedit : Edit Bot.post m m₁ := .relink hlinks hcalm
  exact (hedit.enrolled hc).1

/-! ## How much a bot comes to hold -/

/-- The bot holds something, and it leads a squad without holding its pick. -/
def leadsUnpicked (m : Mind) (b : BotId) : Bool :=
  !(m.claims.ofBot b).isEmpty &&
    m.squads.entries.any fun e => e.record.leader = some b && !e.record.share.picked m.claims b

theorem Cede.length_le (h : Cede m m') (b : BotId) :
    (m'.claims.ofBot b).length ≤ (m.claims.ofBot b).length := by
  cases h with
  | same h => exact Nat.le_of_eq (by rw [h])
  | release bot item h =>
      rw [h, Claims.ofBot_release]
      split
      · rename_i hfreed
        rw [hfreed.2]
        exact List.length_filter_le ..
      · exact Nat.le_refl _
  | drop h =>
      obtain ⟨-, -, -, -, hclaims, -⟩ := dropBot_ok h
      rw [hclaims, Claims.ofBot_releaseAll]
      split
      · exact Nat.zero_le _
      · exact Nat.le_refl _

/-- Whoever may get an item in the loot phase of a tick held nothing before the
phase, or held the same before the tick and led without its pick. -/
theorem leadsUnpicked_of_mayTake {now : Time} (h : m.beforeLoot now = .ok m₁)
    (ha : m.claims.Agree) {b : BotId} (hmay : m₁.MayTake b) (hheld : m₁.claims.ofBot b ≠ []) :
    m.leadsUnpicked b := by
  have hsame : m₁.claims.ofBot b = m.claims.ofBot b := by
    rw [ofBot_beforeLoot h] at hheld ⊢
    split
    · rename_i hinactive
      rw [if_pos hinactive] at hheld
      exact absurd rfl hheld
    · rfl
  obtain ⟨e, he, ⟨-, hempty, -⟩ | ⟨hl, hpicked, hactive⟩⟩ := hmay
  · exact absurd hempty hheld
  · obtain ⟨q₀, hq₀, hstake⟩ := stake_beforeLoot h (Roster.get?_of_mem_entries he) hl hactive
    obtain ⟨e₀, he₀, rfl⟩ := Roster.get?_eq_some_iff.1 hq₀
    have hl₀ : e₀.record.leader = some b := (congrArg Prod.fst hstake).trans hl
    have hshare : e₀.record.share = e.record.share := congrArg Prod.snd hstake
    have ha₁ := stable_beforeLoot Claims.stable_agree h ha
    rw [Share.picked_congr ha ha₁ hsame, ← hshare] at hpicked
    unfold leadsUnpicked
    rw [Bool.and_eq_true, List.any_eq_true]
    refine ⟨by simpa [← hsame] using hheld, e₀, (Roster.entryAt?_eq_some_iff.1 he₀).1, ?_⟩
    simp [hl₀, hpicked]

/-- In a tick a bot comes to hold one item at most, or one more than it held if
it led without its pick. -/
theorem length_of_tick {now : Time} {elapsed : Metrics.Duration} {r : Report}
    (h : m.tick now elapsed = .ok (r, m')) (hc : m.Enrolled) (ha : m.claims.Agree) (b : BotId) :
    (m'.claims.ofBot b).length ≤
      if m.leadsUnpicked b then (m.claims.ofBot b).length + 1
      else max (m.claims.ofBot b).length 1 := by
  obtain ⟨m₁, hbefore, -, hclaims, -, -⟩ := tick_ok h
  have ha₁ := stable_beforeLoot Claims.stable_agree hbefore ha
  have hshares := shares_shareLoot (enrolled_beforeLoot hbefore hc) ha₁
  have hle : (m₁.claims.ofBot b).length ≤ (m.claims.ofBot b).length := by
    rw [ofBot_beforeLoot hbefore]
    split
    · exact Nat.zero_le _
    · exact Nat.le_refl _
  rw [hclaims]
  rcases hshares.gains b with hsame | ⟨hmay, item, hitem⟩
  · rw [hsame]
    split <;> omega
  · rw [hitem, List.length_append, List.length_singleton]
    by_cases hheld : m₁.claims.ofBot b = []
    · rw [hheld, List.length_nil]
      split <;> omega
    · rw [if_pos (leadsUnpicked_of_mayTake hbefore ha hmay hheld)]
      omega

/-! ## Sessions without claims of the host -/

/-- A session in which the host claims nothing itself: its states, the newest
first, and those of them in which a tick began. -/
inductive Forage (π : Bot → β) (settings : Settings) : List Mind → List Mind → Prop
  | start {g : Random.Generator} {m : Mind} : Mind.start settings g = .ok m →
      Forage π settings [m] []
  | call {m m' : Mind} {past ticks : List Mind} {c : Call} {a : Answer} :
      Forage π settings (m :: past) ticks → c.isClaim = false → m.call c = .ok (a, m') →
      Forage π settings (m' :: m :: past) (if c.isTick then m :: ticks else ticks)
  | write {m : Mind} {past ticks : List Mind} (id : BotId) {f : Bot → Bot} :
      Forage π settings (m :: past) ticks → (∀ b, π (f b) = π b) →
      Forage π settings ({ m with bots := m.bots.modify id f } :: m :: past) ticks
  | relink {m : Mind} {past ticks : List Mind} {bots : Bots} :
      Forage π settings (m :: past) ticks → Links.Edit m.bots bots →
      Forage π settings ({ m with bots := bots } :: m :: past) ticks

variable {ticks : List Mind}

theorem Forage.history {states : List Mind} (h : Forage π settings states ticks) :
    History π settings states := by
  induction h with
  | start hm => exact .start hm
  | call _ _ hcall ih => exact .move ih (.call hcall)
  | write id _ hf ih => exact .move ih (.write id hf)
  | relink _ hlinks ih => exact .move ih (.relink hlinks)

/-- However long the session, a bot holds one item at most beside one for each
tick that found it leading without its pick while it held something. -/
theorem length_of_forage (h : Forage Bot.post settings (m :: past) ticks) (b : BotId) :
    (m.claims.ofBot b).length ≤ ticks.countP (·.leadsUnpicked b) + 1 := by
  generalize hs : m :: past = states at h
  induction h generalizing m past with
  | start hm =>
      cases hs
      rw [start_ok hm]
      exact Nat.zero_le _
  | @call m₀ _ past₀ ticks c a hold hclaim hcall ih =>
      cases hs
      have hlast : (m₀.claims.ofBot b).length ≤ ticks.countP (·.leadsUnpicked b) + 1 := ih rfl
      cases htick : c.isTick with
      | false =>
          have hle := (cede_of_call hcall hclaim htick).length_le b
          simp only [Bool.false_eq_true, if_false]
          omega
      | true =>
          cases c <;> cases htick
          obtain ⟨⟨r, m₁⟩, hrun, hcall⟩ := bind_eq_ok.1 hcall
          cases hcall
          have hle := length_of_tick hrun hold.history.enrolled hold.history.agree b
          simp only [if_true, List.countP_cons]
          split at hle
          · rename_i hunpicked
            rw [if_pos hunpicked]
            omega
          · omega
  | @write m₀ _ ticks id _ _ _ ih | @relink m₀ _ ticks _ _ _ ih =>
      cases hs
      have hlast : (m₀.claims.ofBot b).length ≤ ticks.countP (·.leadsUnpicked b) + 1 := ih rfl
      exact hlast

/-- The states in which the ticks of a list of calls begin, the newest first. -/
def ticking (m : Mind) : List Call → List Mind
  | [] => []
  | c :: cs =>
    match m.call c with
    | .ok (_, m') => m'.ticking cs ++ if c.isTick then [m] else []
    | .error _ => []

theorem Forage.run {calls : List Call} {answers : List Answer}
    (h : Forage π settings (m :: past) ticks) (hfree : ∀ c ∈ calls, c.isClaim = false)
    (hrun : m.run calls = .ok (answers, m')) :
    ∃ past', Forage π settings (m' :: past') (m.ticking calls ++ ticks) := by
  induction calls generalizing m past ticks answers with
  | nil =>
      cases hrun
      exact ⟨past, h⟩
  | cons c calls ih =>
      obtain ⟨⟨a, m₁⟩, hcall, hrun⟩ := bind_eq_ok.1 hrun
      obtain ⟨⟨as, m₂⟩, hrest, hrun⟩ := bind_eq_ok.1 hrun
      cases hrun
      have hnext := h.call (hfree c List.mem_cons_self) hcall
      obtain ⟨past', hend⟩ := ih hnext (fun c hc => hfree c (List.mem_cons_of_mem _ hc)) hrest
      have hticks : m.ticking (c :: calls) ++ ticks =
          m₁.ticking calls ++ if c.isTick then m :: ticks else ticks := by
        simp only [ticking, hcall]
        split <;> simp
      exact ⟨past', hticks ▸ hend⟩

/-- A session that answers a list of calls goes on, if no call of it is a claim. -/
theorem Forage.after {calls : List Call} (h : Forage π settings (m :: past) ticks)
    (hfree : calls.all (!·.isClaim)) (hok : (m.run calls).isOk) :
    ∃ past', Forage π settings (m.after calls :: past') (m.ticking calls ++ ticks) := by
  have hclaims : ∀ c ∈ calls, c.isClaim = false := by simpa using hfree
  unfold Mind.after
  cases hrun : m.run calls with
  | error fault =>
      rw [hrun] at hok
      cases hok
  | ok r => exact h.run hclaims hrun

theorem items_of_new_scan :
    let calls : List Call := [.register 7 .unknown, .createSquad 5, .join ⟨0⟩ ⟨0⟩,
      .publishScan ⟨0⟩ [⟨1, .origin, 30, 1, .plain⟩], .tick 1 ⟨0⟩,
      .publishScan ⟨0⟩ [⟨2, .origin, 20, 1, .plain⟩], .tick 2 ⟨0⟩]
    let m := (fresh {} (.ofSeed 1)).after calls
    let ticks := (fresh {} (.ofSeed 1)).ticking calls
    m.claims.ofBot ⟨0⟩ = [1, 2] ∧ ticks.countP (·.leadsUnpicked ⟨0⟩) = 1 ∧
      (∃ past, Forage Bot.post {} (m :: past) ticks) ∧
      (m.claims.ofBot ⟨0⟩).length ≤ ticks.countP (·.leadsUnpicked ⟨0⟩) + 1 := by
  intro calls m ticks
  obtain ⟨past, h⟩ : ∃ past, Forage Bot.post {} (m :: past) (ticks ++ []) :=
    (Forage.start rfl).after rfl (by decide +kernel)
  rw [List.append_nil] at h
  exact ⟨by decide +kernel, by decide +kernel, ⟨past, h⟩, length_of_forage h ⟨0⟩⟩

/-- A follower that takes over its squad picks once more, whatever it holds. -/
theorem items_of_heir :
    let m := (fresh {} (.ofSeed 1)).after [.register 7 .unknown, .register 8 .unknown,
      .createSquad 5, .join ⟨0⟩ ⟨0⟩, .join ⟨0⟩ ⟨1⟩, .sense ⟨0⟩ .wantsToLoot true 0,
      .publishScan ⟨0⟩ [⟨1, .origin, 30, 1, .plain⟩, ⟨2, .origin, 20, 1, .plain⟩],
      .tick 1 ⟨0⟩, .deregister 7, .tick 2 ⟨0⟩]
    (∃ past ticks, Forage Bot.post {} (m :: past) ticks) ∧ m.claims.ofBot ⟨1⟩ = [2, 1] := by
  intro m
  obtain ⟨past, h⟩ : ∃ past, Forage Bot.post {} (m :: past) _ :=
    (Forage.start rfl).after rfl (by decide +kernel)
  exact ⟨⟨past, _, h⟩, by decide +kernel⟩

/-! ## What a tick reports -/

/-- A tick takes nothing from anybody in its loot phase, and it reports what was
gained in the phase together with the leaders that picked what they held. -/
theorem report_of_tick (h : History Bot.post settings (m :: past)) (now : Time)
    (elapsed : Metrics.Duration) :
    ∃ r m' m₁, m.tick now elapsed = .ok (r, m') ∧ m.beforeLoot now = .ok m₁ ∧
      m'.claims = m₁.shareLoot.2.claims ∧
      (∀ item b, m₁.claims.owner? item = some b → m'.claims.owner? item = some b) ∧
      m'.claims.size = m₁.claims.size + (m₁.claims.gained m'.claims).length ∧
      r.lootClaims = (m₁.claims.gained m'.claims).length + m₁.repicks m' := by
  obtain ⟨r, m', htick⟩ := exists_tick m now elapsed
  obtain ⟨m₁, hbefore, hreport, hclaims, hsquads, -⟩ := tick_ok htick
  have ha₁ := stable_beforeLoot Claims.stable_agree hbefore h.agree
  have ht₁ := stable_beforeLoot Claims.stable_tidy hbefore
    (h.stable Claims.stable_tidy Claims.tidy_empty)
  have hshares := shares_shareLoot (enrolled_beforeLoot hbefore h.enrolled) ha₁
  have hkept : ∀ item b, m₁.claims.owner? item = some b → m'.claims.owner? item = some b := by
    intro item b howned
    rw [hclaims]
    exact hshares.gains.owner? ha₁ hshares.agree howned
  have hsize : m'.claims.size = m₁.claims.size + (m₁.claims.gained m'.claims).length := by
    refine Claims.size_eq_add_gained ht₁ ?_ hkept
    rw [hclaims]
    exact Claims.stable_tidy.shareLoot ht₁
  have hrepicks : m₁.repicks m' = m₁.repicks m₁.shareLoot.2 := by
    unfold repicks
    rw [hsquads]
  have hcount := hshares.count
  rw [← hreport, ← hclaims, ← hrepicks, hsize] at hcount
  exact ⟨r, m', m₁, htick, hbefore, hclaims, hkept, hsize, by omega⟩

theorem report_of_leader_and_follower :
    let m := (fresh {} (.ofSeed 1)).after [.register 7 .unknown, .createSquad 5, .join ⟨0⟩ ⟨0⟩,
      .sense ⟨0⟩ .wantsToLoot true 0, .publishScan ⟨0⟩ [⟨1, .origin, 30, 1, .plain⟩],
      .tick 1 ⟨0⟩, .register 8 .unknown, .join ⟨0⟩ ⟨1⟩,
      .publishScan ⟨0⟩ [⟨1, .origin, 30, 1, .plain⟩, ⟨2, .origin, 20, 1, .plain⟩]]
    (∃ past, History Bot.post {} (m :: past)) ∧
      ∃ r m' m₁, m.tick 2 ⟨0⟩ = .ok (r, m') ∧ m.beforeLoot 2 = .ok m₁ ∧
        m₁.claims.gained m'.claims = [2] ∧ m₁.repicks m' = 1 ∧
        r.lootClaims = (m₁.claims.gained m'.claims).length + m₁.repicks m' := by
  intro m
  obtain ⟨past, h⟩ : ∃ past, History Bot.post {} (m :: past) := (History.start rfl).after _
  obtain ⟨r, m', m₁, htick, hbefore, -, -, -, hreport⟩ := report_of_tick h 2 ⟨0⟩
  have hrun : ((m.beforeLoot 2).toOption.bind fun m₁ => (m.tick 2 ⟨0⟩).toOption.map fun p =>
      (m₁.claims.gained p.2.claims, m₁.repicks p.2)) = some ([2], 1) := by decide +kernel
  rw [hbefore, htick] at hrun
  obtain ⟨hgained, hrepicks⟩ := Prod.mk.inj (Option.some.inj hrun)
  exact ⟨⟨past, h⟩, r, m', m₁, htick, hbefore, hgained, hrepicks, hreport⟩

/-- After the same scan once more, a tick reports a claim and claims nothing. -/
theorem report_of_same_scan :
    let m := (fresh {} (.ofSeed 1)).after [.register 7 .unknown, .createSquad 5, .join ⟨0⟩ ⟨0⟩,
      .publishScan ⟨0⟩ [⟨1, .origin, 30, 1, .plain⟩], .tick 1 ⟨0⟩,
      .publishScan ⟨0⟩ [⟨1, .origin, 30, 1, .plain⟩]]
    (∃ past, History Bot.post {} (m :: past)) ∧
      ∃ r m' m₁, m.tick 2 ⟨0⟩ = .ok (r, m') ∧ m.beforeLoot 2 = .ok m₁ ∧ r.lootClaims = 1 ∧
        m₁.claims.gained m'.claims = [] ∧ m'.claims.size = m₁.claims.size := by
  intro m
  obtain ⟨r, m', htick⟩ := exists_tick m 2 ⟨0⟩
  obtain ⟨m₁, hbefore, -⟩ := tick_ok htick
  have hrun : ((m.beforeLoot 2).toOption.bind fun m₁ => (m.tick 2 ⟨0⟩).toOption.map fun p =>
      (p.1.lootClaims, m₁.claims.gained p.2.claims, decide (p.2.claims.size = m₁.claims.size))) =
        some (1, [], true) := by decide +kernel
  rw [hbefore, htick] at hrun
  obtain ⟨hreport, hrest⟩ := Prod.mk.inj (Option.some.inj hrun)
  obtain ⟨hgained, hsize⟩ := Prod.mk.inj hrest
  exact ⟨(History.start rfl).after _, r, m', m₁, htick, hbefore, hreport, hgained,
    of_decide_eq_true hsize⟩

end Mind

end Warband
