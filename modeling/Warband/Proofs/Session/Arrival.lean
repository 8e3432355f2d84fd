import Warband.Proofs.Session.Earshot

/-!
# Followers that have arrived

A follower is free to loot while its leader loots or holds. While the leader does
neither, the follower is to have arrived: it has a place to be at and is close to
it. How close is a constant of the looting rules. The settings have an arrival
radius of their own, and its default is the same number, but no rule reads it.
So under settings with another radius a follower counts as arrived at a distance
that these settings do not name.
-/
namespace Warband

open Loot

/-- The bot is to be at a place and is within a radius of it. -/
def Bot.ArrivedWithin (b : Bot) (radius : Float32) : Prop :=
  ∃ place, b.membership.bind (·.assigned?) = some place ∧
    place.horizontalDistanceSq b.position ≤ radius * radius

instance (b : Bot) (radius : Float32) : Decidable (b.ArrivedWithin radius) :=
  decidable_of_iff ((b.membership.bind (·.assigned?)).any fun place =>
    place.horizontalDistanceSq b.position ≤ radius * radius) (by
      simp [Bot.ArrivedWithin, Option.any_eq_true])

namespace Loot.FollowerCheck

variable {c : FollowerCheck} {range : Float32}

theorem arrived_iff : c.arrived ↔ ∃ t, c.tacticalPosition = some t ∧
    t.horizontalDistanceSq c.position ≤ arrivedRadius * arrivedRadius := by
  unfold arrived
  cases c.tacticalPosition <;> simp

/-- With a leader that neither loots nor holds, a follower that may loot has
arrived. -/
theorem arrived_of_mayLoot (h : c.mayLoot range) (hlooting : c.bossLooting = false)
    (hholding : c.bossHolding = false) : c.arrived := by
  unfold mayLoot at h
  rw [hlooting, hholding, Bool.false_or, Bool.false_or] at h
  exact (Bool.and_eq_true_iff.1 h).2

theorem mayLoot_of_arrived (h : c.arrived) (hcalm : c.inCombat = false)
    (hrange : c.outOfRange range = false) : c.mayLoot range := by
  simp [mayLoot, h, hcalm, hrange]

end Loot.FollowerCheck

namespace Mind

open Claims

variable {bots : Bots} {range : Float32} {q : Squad} {boss b : Bot}

/-- The leader of a squad neither loots nor holds. -/
structure Marches (bots : Bots) (q : Squad) (boss : Bot) : Prop where
  leads : ∃ l, q.leader = some l ∧ bots.get? l = some boss
  looting : boss.sensors.wantsToLoot = false
  holding : q.objective.state ≠ .wait

/-- All that a follower needs to loot but to have arrived: there is a scan, the
leader and the follower are active and out of combat, and the follower is not out
of range. -/
structure Ready (range : Float32) (q : Squad) (boss b : Bot) : Prop where
  items : q.share.items ≠ []
  leader : boss.isActive ∧ boss.sensors.inCombat = false
  follower : b.isActive ∧ b.sensors.inCombat = false
  near : ¬ range * range < b.position.horizontalDistanceSq boss.position

theorem arrived_followerCheck :
    (followerCheck q boss b).arrived ↔ b.ArrivedWithin FollowerCheck.arrivedRadius :=
  FollowerCheck.arrived_iff

theorem arrivedWithin_of_mayLoot (hmarch : Marches bots q boss)
    (h : (followerCheck q boss b).mayLoot range) :
    b.ArrivedWithin FollowerCheck.arrivedRadius := by
  have hholding : (followerCheck q boss b).bossHolding = false := decide_eq_false hmarch.holding
  rw [← arrived_followerCheck]
  exact FollowerCheck.arrived_of_mayLoot h hmarch.looting hholding

theorem mayLoot_of_ready (hready : Ready range q boss b)
    (h : b.ArrivedWithin FollowerCheck.arrivedRadius) :
    (followerCheck q boss b).mayLoot range := by
  have hrange : (followerCheck q boss b).outOfRange range = false := decide_eq_false hready.near
  exact FollowerCheck.mayLoot_of_arrived (arrived_followerCheck.2 h) hready.follower.2 hrange

variable {settings : Settings} {m m' m₁ : Mind} {past : List Mind}

/-- What a follower of a marching leader was given, it was given for having
arrived. -/
theorem arrived_of_granted (ha : m.claims.Agree) (hc : m.Enrolled) {id : SquadId}
    (hq : m.squads.get? id = some q) (hmarch : Marches m.bots q boss) {f : BotId}
    (hf : f ∈ q.followers) (hb : m.bots.get? f = some b) {item : LootId}
    (howned : m.shareLoot.2.claims.owner? item = some f) (hnew : m.claims.owner? item ≠ some f) :
    b.ArrivedWithin FollowerCheck.arrivedRadius := by
  have hreceives := (owner_or_receives_of_shareLoot ha howned).resolve_left hnew
  obtain ⟨l, boss', hlead, hgiven⟩ := given_of_receives hc hq hf hreceives
  obtain ⟨hl, hboss', -, -⟩ := get?_of_lootLeader? hlead
  obtain ⟨l', hl', hboss⟩ := hmarch.leads
  rw [hl, Option.some.injEq] at hl'
  rw [← hl', hboss', Option.some.injEq] at hboss
  obtain ⟨record, hrecord, -, hmay⟩ := hgiven.may
  rw [hb, Option.some.injEq] at hrecord
  rw [hboss, ← hrecord] at hmay
  exact arrivedWithin_of_mayLoot hmarch hmay

/-- A follower that has arrived and meets all else comes away with something,
unless there is nothing left for it. -/
theorem provided_of_arrived (ha : m.claims.Agree) (hduty : OnDuty m.shareLoot.2.squads)
    {id : SquadId} (hq : m.squads.get? id = some q) (hmarch : Marches m.bots q boss) {f : BotId}
    (hf : f ∈ q.followers) (hb : m.bots.get? f = some b)
    (hready : Ready m.settings.communication.range q boss b)
    (harrived : b.ArrivedWithin FollowerCheck.arrivedRadius) :
    m.shareLoot.2.claims.ofBot f ≠ [] ∨ ∃ q', m.shareLoot.2.squads.get? id = some q' ∧
      ∀ item ∈ q.share.items,
        q'.share.bossTarget = some item.id ∨ m.shareLoot.2.claims.Taken item.id f := by
  obtain ⟨q', hq', hsame⟩ := (kept_unpicked_shareLoot m).exists_get?_after hq
  have hfollowers : q'.followers = q.followers := (congrArg Squad.followers hsame :)
  have hleader : q'.leader = q.leader := congrArg (·.leader) hsame
  have hitems : q'.share.items = q.share.items := congrArg (·.share.items) hsame
  have hcheck : followerCheck q' boss b = followerCheck q boss b :=
    (congrArg (fun s => followerCheck s boss b) hsame :)
  obtain ⟨l, hl, hboss⟩ := hmarch.leads
  have hdue : Due m.bots q' l boss := by
    refine ⟨hduty id q' hq', ?_, ?_⟩
    · rw [hitems]
      exact hready.items
    · apply lootLeader?_of_get? _ hboss hready.leader.1 hready.leader.2
      rw [hleader, hl]
  have hprovided : Provided m.bots m.settings.communication.range q' boss m.shareLoot.2.claims f :=
    (settled_shareLoot ha hq' hdue).followers f (hfollowers ▸ hf)
  have hmay : (followerCheck q' boss b).mayLoot m.settings.communication.range := by
    rw [hcheck]
    exact mayLoot_of_ready hready harrived
  apply (hprovided b hb hready.follower.1 hmay).imp_right
  intro hnone
  exact ⟨q', hq', hitems ▸ hnone⟩

/-- In a tick of a session, whatever the settings say, a follower of a leader that
neither loots nor holds is given an item only if it is within five of the place it
is to be at; and one that is, and meets all else, comes away with something unless
there is nothing left for it. -/
theorem arrived_of_tick (h : History Bot.post settings (m :: past)) (now : Time)
    (elapsed : Metrics.Duration) :
    ∃ r m' m₁, m.tick now elapsed = .ok (r, m') ∧ m.beforeLoot now = .ok m₁ ∧
      ∀ id q boss, m₁.squads.get? id = some q → Marches m₁.bots q boss →
        ∀ f ∈ q.followers, ∀ b, m₁.bots.get? f = some b →
          (∀ item, m'.claims.owner? item = some f → m₁.claims.owner? item ≠ some f →
            b.ArrivedWithin 5) ∧
          (b.ArrivedWithin 5 → Ready settings.communication.range q boss b →
            m'.claims.ofBot f ≠ [] ∨ ∃ q', m'.squads.get? id = some q' ∧
              ∀ item ∈ q.share.items,
                q'.share.bossTarget = some item.id ∨ m'.claims.Taken item.id f) := by
  obtain ⟨r, m', htick⟩ := exists_tick m now elapsed
  obtain ⟨m₁, hbefore, hclaims, hsquads, hsettings, -⟩ := tick_standing htick
  refine ⟨r, m', m₁, htick, hbefore, ?_⟩
  intro id q boss hq hmarch f hf b hb
  have ha := stable_beforeLoot Claims.stable_agree hbefore h.agree
  have hduty : OnDuty m₁.shareLoot.2.squads := hsquads ▸ onDuty_tick htick h.onDuty
  rw [hclaims, hsquads]
  constructor
  · intro item howned hnew
    exact arrived_of_granted ha (enrolled_beforeLoot hbefore h.enrolled) hq hmarch hf hb howned hnew
  · intro harrived hready
    rw [← h.settings_eq, ← hsettings] at hready
    exact provided_of_arrived ha hduty hq hmarch hf hb hready harrived

/-- The follower stands at its place beside the leader. -/
theorem arrived_of_follower_in_place :
    let m := (fresh {} (.ofSeed 1)).after [.register 7 .unknown, .register 8 .unknown,
      .createSquad 5, .join ⟨0⟩ ⟨0⟩, .join ⟨0⟩ ⟨1⟩, .setAction ⟨0⟩ .moveToObjective,
      .setObjective ⟨0⟩ ⟨0, 0, 20⟩ 0 60, .move ⟨1⟩ ⟨-2, 0, -5⟩ ⟨1, 0⟩,
      .publishScan ⟨0⟩ [⟨1, .origin, 30, 1, .plain⟩, ⟨2, .origin, 20, 1, .plain⟩]]
    (∃ past, History Bot.post {} (m :: past)) ∧
      ∃ r m' m₁ q boss b, m.tick 1 ⟨0⟩ = .ok (r, m') ∧ m.beforeLoot 1 = .ok m₁ ∧
        m₁.squads.get? ⟨0⟩ = some q ∧ Marches m₁.bots q boss ∧ ⟨1⟩ ∈ q.followers ∧
        m₁.bots.get? ⟨1⟩ = some b ∧ m'.claims.owner? 2 = some ⟨1⟩ ∧
        m₁.claims.owner? 2 ≠ some ⟨1⟩ ∧ b.ArrivedWithin 5 := by
  intro m
  obtain ⟨past, h⟩ : ∃ past, History Bot.post {} (m :: past) := (History.start rfl).after _
  obtain ⟨r, m', m₁, htick, hbefore, harrived⟩ := arrived_of_tick h 1 ⟨0⟩
  have hrun : (m.tick 1 ⟨0⟩).toOption.map (·.2.claims.owner? 2) = some (some ⟨1⟩) := by
    decide +kernel
  have hready : (m.beforeLoot 1).toOption.map (fun m₁ =>
      ((m₁.squads.get? ⟨0⟩).map fun q => (q.leader, q.followers, q.objective.state),
        (m₁.bots.get? ⟨0⟩).map (·.sensors.wantsToLoot), m₁.bots.contains ⟨1⟩,
        m₁.claims.owner? 2)) =
      some (some (some ⟨0⟩, [⟨1⟩], .active), some false, true, none) := by decide +kernel
  rw [htick] at hrun
  rw [hbefore] at hready
  have howned : m'.claims.owner? 2 = some ⟨1⟩ := Option.some.inj hrun
  obtain ⟨hsquad, hready⟩ := Prod.mk.inj (Option.some.inj hready)
  obtain ⟨hboss, hready⟩ := Prod.mk.inj hready
  obtain ⟨hlive, hfree⟩ := Prod.mk.inj hready
  obtain ⟨q, hq, hlists⟩ := Option.map_eq_some_iff.1 hsquad
  obtain ⟨hleader, hlists⟩ := Prod.mk.inj hlists
  obtain ⟨hfollowers, hstate⟩ := Prod.mk.inj hlists
  obtain ⟨boss, hboss, hlooting⟩ := Option.map_eq_some_iff.1 hboss
  obtain ⟨b, hb⟩ := Roster.contains_iff.1 hlive
  have hmarch : Marches m₁.bots q boss := ⟨⟨⟨0⟩, hleader, hboss⟩, hlooting, by simp [hstate]⟩
  have hin : ⟨1⟩ ∈ q.followers := hfollowers ▸ List.mem_singleton_self _
  have hnew : m₁.claims.owner? 2 ≠ some ⟨1⟩ := by
    rw [hfree]
    exact Option.some_ne_none _ ∘ Eq.symm
  exact ⟨⟨past, h⟩, r, m', m₁, q, boss, b, htick, hbefore, hq, hmarch, hin, hb, howned, hnew,
    (harrived ⟨0⟩ q boss hq hmarch ⟨1⟩ hin b hb).1 2 howned hnew⟩

/-- The arrival radius is six, and the follower is less than six from its place
and meets all else. An item is left over, and the follower gets nothing. -/
theorem nothing_for_follower_within_radius :
    let settings : Settings := { squad := { arrivalRadius := 6 } }
    let m := (fresh settings (.ofSeed 1)).after [.register 7 .unknown, .register 8 .unknown,
      .createSquad 5, .join ⟨0⟩ ⟨0⟩, .join ⟨0⟩ ⟨1⟩, .setAction ⟨0⟩ .moveToObjective,
      .setObjective ⟨0⟩ ⟨0, 0, 20⟩ 0 60,
      .publishScan ⟨0⟩ [⟨1, .origin, 30, 1, .plain⟩, ⟨2, .origin, 20, 1, .plain⟩]]
    (∃ past, History Bot.post settings (m :: past)) ∧
      ∃ r m' m₁ q boss b, m.tick 1 ⟨0⟩ = .ok (r, m') ∧ m.beforeLoot 1 = .ok m₁ ∧
        m₁.squads.get? ⟨0⟩ = some q ∧ Marches m₁.bots q boss ∧ ⟨1⟩ ∈ q.followers ∧
        m₁.bots.get? ⟨1⟩ = some b ∧ b.ArrivedWithin settings.squad.arrivalRadius ∧
        Ready settings.communication.range q boss b ∧ (∃ item ∈ q.share.items, item.id = 2) ∧
        m'.claims.owner? 2 = none ∧ m'.claims.ofBot ⟨1⟩ = [] := by
  intro settings m
  have hcheck : settings.check = .ok () := by decide +kernel
  have hstart : start settings (.ofSeed 1) = .ok (fresh settings (.ofSeed 1)) :=
    bind_eq_ok.2 ⟨(), hcheck, rfl⟩
  obtain ⟨r, m', htick⟩ := exists_tick m 1 ⟨0⟩
  obtain ⟨m₁, hbefore, -⟩ := tick_ok htick
  have hrun : (m.tick 1 ⟨0⟩).toOption.map (fun p =>
      (p.2.claims.owner? 2, p.2.claims.ofBot ⟨1⟩)) = some (none, []) := by decide +kernel
  have hlists : (m.beforeLoot 1).toOption.bind (fun m₁ => (m₁.squads.get? ⟨0⟩).map fun q =>
      (q.leader, q.followers, q.objective.state, q.share.items.map (·.id))) =
      some (some ⟨0⟩, [⟨1⟩], .active, [1, 2]) := by decide +kernel
  have hgates : (m.beforeLoot 1).toOption.bind (fun m₁ => (m₁.bots.get? ⟨0⟩).bind fun boss =>
      (m₁.bots.get? ⟨1⟩).map fun b => ((boss.sensors.wantsToLoot, boss.isActive,
        boss.sensors.inCombat), (b.isActive, b.sensors.inCombat,
        decide (settings.communication.range * settings.communication.range <
          b.position.horizontalDistanceSq boss.position)),
        decide (b.ArrivedWithin settings.squad.arrivalRadius))) =
      some ((false, true, false), (true, false, false), true) := by decide +kernel
  rw [htick] at hrun
  rw [hbefore] at hlists hgates
  obtain ⟨hfree, hnone⟩ := Prod.mk.inj (Option.some.inj hrun)
  obtain ⟨q, hq, hlists⟩ := Option.map_eq_some_iff.1 hlists
  obtain ⟨hleader, hlists⟩ := Prod.mk.inj hlists
  obtain ⟨hfollowers, hlists⟩ := Prod.mk.inj hlists
  obtain ⟨hstate, hitems⟩ := Prod.mk.inj hlists
  obtain ⟨_, hsame, hgates⟩ := Option.bind_eq_some_iff.1 hgates
  cases hsame
  obtain ⟨boss, hboss, hgates⟩ := Option.bind_eq_some_iff.1 hgates
  obtain ⟨b, hb, hgates⟩ := Option.map_eq_some_iff.1 hgates
  simp only [Prod.mk.injEq] at hgates
  obtain ⟨⟨hlooting, hbossActive, hbossCalm⟩, ⟨hactive, hcalm, hnear⟩, harrived⟩ := hgates
  have hmarch : Marches m₁.bots q boss := ⟨⟨⟨0⟩, hleader, hboss⟩, hlooting, by simp [hstate]⟩
  have hitem : ∃ item ∈ q.share.items, item.id = 2 := List.mem_map.1 (hitems ▸ by simp)
  have hready : Ready settings.communication.range q boss b := by
    refine ⟨?_, ⟨hbossActive, hbossCalm⟩, ⟨hactive, hcalm⟩, of_decide_eq_false hnear⟩
    obtain ⟨item, hin, -⟩ := hitem
    exact List.ne_nil_of_mem hin
  exact ⟨(History.start hstart).after _, r, m', m₁, q, boss, b, htick, hbefore, hq, hmarch,
    hfollowers ▸ List.mem_singleton_self _, hb, of_decide_eq_true harrived, hready, hitem, hfree,
    hnone⟩

end Mind

end Warband
