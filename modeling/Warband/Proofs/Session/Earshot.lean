import Warband.Proofs.Numeric.Single
import Warband.Proofs.Session.Picks

/-!
# Followers that loot

A follower is given items in the turn of its own squad and in no other. It is
active, it does not fight and it holds nothing; its leader is active and does not
fight either; and what it is given is shared in its squad, free, and not what the
leader has picked.

A follower is sent back when it is farther from its leader than the range. That is
less than to let it loot only within the range: where a coordinate is not a
number, neither is the distance, and a distance that is not a number is not
greater than anything. Every follower with finite coordinates that loots is
within range of a leader with finite coordinates.
-/
namespace Warband

open Loot Numeric

theorem Loot.Share.mem_items_of_claimForFollower {s : Share} {c : Claims} {follower : BotId}
    {pick : Shared} (h : (s.claimForFollower c follower).1 = some pick) : pick ∈ s.items := by
  rw [claimForFollower_eq] at h
  split at h
  · cases h
  · rename_i choice hchoice
    cases h
    exact List.mem_of_mem_filter (List.mem_of_mem_filter (mem_of_firstBest? hchoice))

/-- A squad without its leader's pick. -/
def Squad.unpicked (q : Squad) : Squad := { q with share := q.share.forgetTarget }

namespace Mind

open Claims

variable {bots : Bots} {range : Float32} {s : Squad} {b : BotId} {item : LootId}
  {c c' : Claims}

/-! ## Who is given an item -/

/-- What is to be so for a follower to be given an item. -/
structure Given (bots : Bots) (range : Float32) (c : Claims) (s : Squad) (boss : Bot) (b : BotId)
    (item : LootId) : Prop where
  idle : c.ofBot b = []
  free : c.owner? item = none
  shared : ∃ x ∈ s.share.items, x.id = item
  may : ∃ record, bots.get? b = some record ∧ record.isActive ∧
    (followerCheck s boss record).mayLoot range

theorem Given.of_extends {boss : Bot} (h : Given bots range c' s boss b item)
    (hext : Extends c c') (ha : c.Agree) (ha' : c'.Agree) : Given bots range c s boss b item where
  idle := hext.idle ha ha' h.idle
  free := hext.free h.free
  shared := h.shared
  may := h.may

theorem owner_of_followerTurn {boss : Bot} {state : Nat × Claims} (ha : state.2.Agree)
    {id : BotId} (h : (followerTurn bots range s boss state id).2.owner? item = some b) :
    state.2.owner? item = some b ∨ b = id ∧ Given bots range state.2 s boss b item := by
  unfold followerTurn at h
  split at h
  · exact .inl h
  · rename_i record hrecord
    obtain ⟨hget, hactive⟩ := Option.filter_eq_some_iff.1 hrecord
    split at h
    · rename_i hboth
      obtain ⟨hempty, hmay⟩ := Bool.and_eq_true_iff.1 hboth
      have hidle : state.2.ofBot id = [] := List.isEmpty_iff.1 hempty
      rcases s.share.claimForFollower_cases ha hidle with heq | ⟨pick, hfree, heq⟩
      · rw [heq] at h
        exact .inl h
      · have hshared := Share.mem_items_of_claimForFollower (congrArg Prod.fst heq)
        rw [heq] at h
        dsimp only at h
        rw [owner?_claim] at h
        split at h
        · rename_i hnew
          obtain ⟨-, rfl⟩ := hnew
          cases h
          exact .inr ⟨rfl, hidle, hfree, ⟨pick, hshared, rfl⟩, record, hget, hactive, hmay⟩
        · exact .inl h
    · exact .inl h

theorem owner_of_followerTurns {boss : Bot} (ids : List BotId) {state : Nat × Claims}
    (ha : state.2.Agree)
    (h : (ids.foldl (followerTurn bots range s boss) state).2.owner? item = some b) :
    state.2.owner? item = some b ∨ b ∈ ids ∧ Given bots range state.2 s boss b item := by
  induction ids generalizing state with
  | nil => exact .inl h
  | cons id ids ih =>
      have ha' := stable_agree.followerTurn bots range s boss ha id
      have hext : Extends state.2 (followerTurn bots range s boss state id).2 :=
        extends_followerTurns bots range s boss [id] state ha
      rcases ih ha' h with hbefore | ⟨hin, hgiven⟩
      · rcases owner_of_followerTurn ha hbefore with hfirst | ⟨rfl, hgiven⟩
        · exact .inl hfirst
        · exact .inr ⟨List.mem_cons_self, hgiven⟩
      · exact .inr ⟨List.mem_cons_of_mem _ hin, hgiven.of_extends hext ha ha'⟩

/-- An item that changes hands in the turn of a squad goes to the leader or is given to a
follower. -/
theorem owner_of_lootTurn {state : Nat × Claims} (ha : state.2.Agree)
    (h : (lootTurn bots range s state).2.2.owner? item = some b) :
    state.2.owner? item = some b ∨ s.leader = some b ∨
      b ∈ s.followers ∧ ∃ l boss, lootLeader? bots s = some (l, boss) ∧
        Given bots range state.2 s boss b item := by
  rcases lootTurn_cases bots range s state with heq | ⟨id, boss, hlead, s', hs', heq⟩
  · rw [heq] at h
    exact .inl h
  · rw [heq] at h
    have ha' := stable_agree.bossTurn ha s.share id
    have hboss := (bossTurn_gains s.share state.2 id).1
    rcases owner_of_followerTurns s.followers ha' h with hpicked | ⟨hin, hgiven⟩
    · rcases hboss.owner_or ha ha' hpicked with hbefore | ⟨rfl, -⟩
      · exact .inl hbefore
      · exact .inr (.inl (lootLeader?_eq_some hlead).1)
    · have hgiven := hgiven.of_extends (hboss.extends ha ha') ha ha'
      refine .inr (.inr ⟨hin, id, boss, hlead, hgiven.idle, hgiven.free, ?_, ?_⟩)
      · have hitems := items_bossTurn s.share state.2 id
        simpa [hs', hitems] using hgiven.shared
      · simpa [hs', followerCheck] using hgiven.may

/-- Who may get an item in the loot phase: a leader, or a follower that is given it. -/
def Receives (m : Mind) (b : BotId) (item : LootId) : Prop :=
  ∃ id s, m.squads.get? id = some s ∧ (s.leader = some b ∨ b ∈ s.followers ∧
    ∃ l boss, lootLeader? m.bots s = some (l, boss) ∧
      Given m.bots m.settings.communication.range m.claims s boss b item)

variable {m : Mind}

theorem owner_or_receives_of_shareLoot (ha : m.claims.Agree)
    (h : m.shareLoot.2.claims.owner? item = some b) :
    m.claims.owner? item = some b ∨ m.Receives b item := by
  have hpass : m.shareLoot.2.claims.Agree ∧ Extends m.claims m.shareLoot.2.claims ∧
      ∀ item b, m.shareLoot.2.claims.owner? item = some b →
        m.claims.owner? item = some b ∨ m.Receives b item := by
    refine Roster.sweep_induction (P := fun state : Nat × Claims => state.2.Agree ∧
      Extends m.claims state.2 ∧ ∀ item b, state.2.owner? item = some b →
        m.claims.owner? item = some b ∨ m.Receives b item)
      (s := (0, m.claims)) ⟨ha, .refl _, fun _ _ => .inl⟩ fun id s hs state hstate => ?_
    obtain ⟨hagree, hext, howner⟩ := hstate
    refine ⟨stable_agree.lootTurn m.bots m.settings.communication.range s hagree,
      hext.trans (extends_lootTurn _ _ s hagree), fun item b howned => ?_⟩
    rcases owner_of_lootTurn hagree howned with hbefore | hleads | ⟨hin, l, boss, hlead, hgiven⟩
    · exact howner item b hbefore
    · exact .inr ⟨id, s, hs, .inl hleads⟩
    · exact .inr ⟨id, s, hs, .inr ⟨hin, l, boss, hlead, hgiven.of_extends hext ha hagree⟩⟩
  exact hpass.2.2 item b h

/-- The loot phase changes nothing of a squad but its leader's pick. -/
theorem kept_unpicked_shareLoot (m : Mind) :
    Roster.Kept Squad.unpicked m.squads m.shareLoot.2.squads := by
  refine .sweep fun _ q state => ?_
  rcases lootTurn_cases m.bots m.settings.communication.range q state with
    heq | ⟨id, boss, -, q', rfl, heq⟩
  · rw [heq]
  · rw [heq]
    simp only [Squad.unpicked, Share.forgetTarget, items_bossTurn]

/-- Squads come out of the loot phase with the lists and the items they had. -/
theorem kept_items_shareLoot (m : Mind) :
    Roster.Kept (fun q : Squad => (q.ranks, q.share.items)) m.squads m.shareLoot.2.squads :=
  (kept_unpicked_shareLoot m).comp fun q => (q.ranks, q.share.items)

/-! ## Near enough -/

/-- A place is in range of the leader's, or their distance is not a number; it is one for places
with finite coordinates. -/
structure Near (range : Float32) (p leader : Position) : Prop where
  le_or_undefined : p.horizontalDistanceSq leader ≤ range * range ∨
    (p.horizontalDistanceSq leader).isNaN
  le_of_finite : p.isFinite → leader.isFinite → p.horizontalDistanceSq leader ≤ range * range

theorem near_of_not_outOfRange {check : FollowerCheck} (h : check.outOfRange range = false)
    (hrange : range.isNaN = false) : Near range check.position check.bossPosition := by
  have hcases : check.position.horizontalDistanceSq check.bossPosition ≤ range * range ∨
      (check.position.horizontalDistanceSq check.bossPosition).isNaN := by
    have hnotFar : ¬ range * range < check.position.horizontalDistanceSq check.bossPosition := by
      simpa [FollowerCheck.outOfRange] using h
    rcases Single.not_lt_iff.1 hnotFar with hle | hnan | hnan
    · exact .inl hle
    · rw [Single.isNaN_square hrange] at hnan
      cases hnan
    · exact .inr hnan
  refine ⟨hcases, fun hp hleader => hcases.resolve_right ?_⟩
  simp only [Position.isFinite, Bool.and_eq_true] at hp hleader
  rw [Single.isNaN_horizontalDistanceSq hp.1.1 hp.2 hleader.1.1 hleader.2]
  exact Bool.false_ne_true

/-! ## Ticks in a session -/

/-- What is so of a follower of a squad and an item that it was given. -/
structure Earned (bots : Bots) (range : Float32) (c : Claims) (q : Squad) (b : BotId)
    (item : LootId) : Prop where
  idle : c.ofBot b = []
  free : c.owner? item = none
  shared : ∃ x ∈ q.share.items, x.id = item
  target : q.share.bossTarget ≠ some item
  near : ∃ record l boss, bots.get? b = some record ∧ record.isActive ∧
    record.sensors.inCombat = false ∧ q.leader = some l ∧ bots.get? l = some boss ∧
    boss.isActive ∧ boss.sensors.inCombat = false ∧ Near range record.position boss.position

theorem get?_of_lootLeader? {l : BotId} {boss : Bot} (h : lootLeader? bots s = some (l, boss)) :
    s.leader = some l ∧ bots.get? l = some boss ∧ boss.isActive ∧
      boss.sensors.inCombat = false := by
  unfold lootLeader? at h
  split at h
  · rename_i leader hleader
    obtain ⟨record, hrecord, heq⟩ := Option.map_eq_some_iff.1 h
    cases heq
    obtain ⟨hget, hready⟩ := Option.filter_eq_some_iff.1 hrecord
    obtain ⟨hactive, hcalm⟩ := Bool.and_eq_true_iff.1 hready
    exact ⟨hleader, hget, hactive, by simpa using hcalm⟩
  · cases h

/-- A follower of a squad receives items in its own squad, and not as its leader. -/
theorem given_of_receives (hc : m.Enrolled) {id : SquadId} {q : Squad}
    (hq : m.squads.get? id = some q) (hb : b ∈ q.followers) (h : m.Receives b item) :
    ∃ l boss, lootLeader? m.bots q = some (l, boss) ∧
      Given m.bots m.settings.communication.range m.claims q boss b item := by
  have hin : b ∈ Enrollment.members m.squads id :=
    Enrollment.members_of_get? hq ▸ List.mem_of_mem_filter hb
  have hnot : q.leader ≠ some b := fun hleads => by
    simpa [hleads] using List.of_mem_filter hb
  obtain ⟨other, s, hs, hreceives⟩ := h
  have hin' : b ∈ Enrollment.members m.squads other := by
    rcases hreceives with hleads | ⟨hfollows, -⟩
    · refine (hc.squadOf_iff b other).1 (hc.squadOf_leader ?_)
      rw [Enrollment.leaderOf_of_get? hs, hleads]
    · exact Enrollment.members_of_get? hs ▸ List.mem_of_mem_filter hfollows
  rw [← hc.squadOf_iff] at hin hin'
  obtain rfl : id = other := Option.some.inj (hin.symm.trans hin')
  obtain rfl : q = s := Option.some.inj (hq.symm.trans hs)
  rcases hreceives with hleads | ⟨-, hgiven⟩
  · exact absurd hleads hnot
  · exact hgiven

variable {settings : Settings} {past : List Mind}

/-- In the loot phase of a tick a follower gets an item only if it is active, does not fight and
holds nothing, the item is shared, free and not the leader's, and the follower is near its leader,
who is active and does not fight. -/
theorem earned_of_tick (h : History Bot.post settings (m :: past)) (now : Time)
    (elapsed : Metrics.Duration) :
    ∃ r m' m₁, m.tick now elapsed = .ok (r, m') ∧ m.beforeLoot now = .ok m₁ ∧
      ∀ id q, m'.squads.get? id = some q → ∀ b ∈ q.followers, ∀ item,
        m'.claims.owner? item = some b → m₁.claims.owner? item ≠ some b →
          Earned m₁.bots settings.communication.range m₁.claims q b item := by
  obtain ⟨r, m', htick⟩ := exists_tick m now elapsed
  obtain ⟨m₁, hbefore, hclaims, hsquads, hsettings, -⟩ := tick_standing htick
  refine ⟨r, m', m₁, htick, hbefore, fun id q hq b hb item howned hnew => ?_⟩
  have ha₁ := stable_beforeLoot Claims.stable_agree hbefore h.agree
  have hlisted : ("communication.range", settings.communication.range) ∈ settings.nonNegative := by
    simp [Settings.nonNegative]
  have hrange : settings.communication.range.isNaN = false :=
    Single.isNaN_of_le (h.acceptable.le_of_nonNegative hlisted)
  rw [hclaims] at howned
  rw [hsquads] at hq
  obtain ⟨q₁, hq₁, hsame⟩ := (kept_items_shareLoot m₁).exists_get? hq
  obtain ⟨hranks, hitems⟩ := Prod.mk.inj hsame
  obtain ⟨hmembers, hleader⟩ := Prod.mk.inj hranks
  have hb₁ : b ∈ q₁.followers := by
    rwa [Squad.followers, hmembers, hleader]
  have hreceives := (owner_or_receives_of_shareLoot ha₁ howned).resolve_left hnew
  obtain ⟨l, boss, hlead, hgiven⟩ :=
    given_of_receives (enrolled_beforeLoot hbefore h.enrolled) hq₁ hb₁ hreceives
  rw [hsettings, h.settings_eq] at hgiven
  obtain ⟨hl, hboss, hbossActive, hbossCalm⟩ := get?_of_lootLeader? hlead
  obtain ⟨record, hrecord, hactive, hmay⟩ := hgiven.may
  obtain ⟨x, hx, rfl⟩ := hgiven.shared
  have hx' : x ∈ q.share.items := hitems ▸ hx
  have hboth : (followerCheck q₁ boss record).inCombat = false ∧
      (followerCheck q₁ boss record).outOfRange settings.communication.range = false := by
    simpa using (Bool.and_eq_true_iff.1 hmay).1
  have hdue : Due m₁.bots q l boss := by
    refine ⟨onDuty_tick htick h.onDuty id q (hsquads ▸ hq), List.ne_nil_of_mem hx', ?_⟩
    exact lootLeader?_of_get? (hleader ▸ hl) hboss hbossActive hbossCalm
  refine ⟨hgiven.idle, hgiven.free, ⟨x, hx', rfl⟩, fun htarget => ?_,
    record, l, boss, hrecord, hactive, hboth.1, hleader ▸ hl, hboss, hbossActive, hbossCalm,
    near_of_not_outOfRange hboth.2 hrange⟩
  have hpicked := (settled_shareLoot ha₁ hq hdue).target _ htarget
  rw [hpicked] at howned
  cases howned
  simpa [hl] using List.of_mem_filter hb₁

/-- The follower stands by its leader. -/
theorem earned_of_follower_at_hand :
    let m := (fresh {} (.ofSeed 1)).after [.register 7 .unknown, .register 8 .unknown,
      .createSquad 5, .join ⟨0⟩ ⟨0⟩, .join ⟨0⟩ ⟨1⟩, .sense ⟨0⟩ .wantsToLoot true 0,
      .move ⟨1⟩ ⟨3, 0, 4⟩ ⟨1, 0⟩,
      .publishScan ⟨0⟩ [⟨1, .origin, 30, 1, .plain⟩, ⟨2, .origin, 20, 1, .plain⟩]]
    (∃ past, History Bot.post {} (m :: past)) ∧
      ∃ r m' m₁ q, m.tick 1 ⟨0⟩ = .ok (r, m') ∧ m.beforeLoot 1 = .ok m₁ ∧
        m'.squads.get? ⟨0⟩ = some q ∧ ⟨1⟩ ∈ q.followers ∧ m'.claims.owner? 2 = some ⟨1⟩ ∧
        Earned m₁.bots ({} : Settings).communication.range m₁.claims q ⟨1⟩ 2 := by
  intro m
  obtain ⟨past, h⟩ : ∃ past, History Bot.post {} (m :: past) := (History.start rfl).after _
  obtain ⟨r, m', m₁, htick, hbefore, hearned⟩ := earned_of_tick h 1 ⟨0⟩
  have hrun : (m.tick 1 ⟨0⟩).toOption.map (fun p =>
      ((p.2.squads.get? ⟨0⟩).map (·.followers), p.2.claims.owner? 2)) =
      some (some [⟨1⟩], some ⟨1⟩) := by decide +kernel
  have hfree : (m.beforeLoot 1).toOption.map (·.claims.owner? 2) = some none := by decide +kernel
  rw [htick] at hrun
  rw [hbefore] at hfree
  obtain ⟨hsquad, howned⟩ := Prod.mk.inj (Option.some.inj hrun)
  obtain ⟨q, hq, hfollowers⟩ := Option.map_eq_some_iff.1 hsquad
  have hin : ⟨1⟩ ∈ q.followers := hfollowers ▸ List.mem_singleton_self _
  have hfree : m₁.claims.owner? 2 = none := Option.some.inj hfree
  have hnew : m₁.claims.owner? 2 ≠ some ⟨1⟩ := by
    rw [hfree]
    exact Option.some_ne_none _ ∘ Eq.symm
  exact ⟨⟨past, h⟩, r, m', m₁, q, htick, hbefore, hq, hin, howned,
    hearned ⟨0⟩ q hq ⟨1⟩ hin 2 howned hnew⟩

/-- The follower is nowhere. It is given an item all the same. -/
theorem loot_of_follower_nowhere :
    let m := (fresh {} (.ofSeed 1)).after [.register 7 .unknown, .register 8 .unknown,
      .createSquad 5, .join ⟨0⟩ ⟨0⟩, .join ⟨0⟩ ⟨1⟩, .sense ⟨0⟩ .wantsToLoot true 0,
      .move ⟨1⟩ ⟨.ofBits 0x7fc00000, 0, 0⟩ ⟨1, 0⟩,
      .publishScan ⟨0⟩ [⟨1, .origin, 30, 1, .plain⟩, ⟨2, .origin, 20, 1, .plain⟩]]
    (∃ past, History Bot.post {} (m :: past)) ∧
      ∃ r m' m₁ q record boss, m.tick 1 ⟨0⟩ = .ok (r, m') ∧ m.beforeLoot 1 = .ok m₁ ∧
        m'.squads.get? ⟨0⟩ = some q ∧ q.leader = some ⟨0⟩ ∧ ⟨1⟩ ∈ q.followers ∧
        m₁.claims.owner? 2 = none ∧ m'.claims.owner? 2 = some ⟨1⟩ ∧
        m₁.bots.get? ⟨0⟩ = some boss ∧ m₁.bots.get? ⟨1⟩ = some record ∧
        ¬ record.position.horizontalDistanceSq boss.position ≤
          ({} : Settings).communication.range * ({} : Settings).communication.range := by
  intro m
  obtain ⟨r, m', htick⟩ := exists_tick m 1 ⟨0⟩
  obtain ⟨m₁, hbefore, -⟩ := tick_ok htick
  have hrun : (m.tick 1 ⟨0⟩).toOption.map (fun p =>
      ((p.2.squads.get? ⟨0⟩).map fun q => (q.leader, q.followers), p.2.claims.owner? 2)) =
      some (some (some ⟨0⟩, [⟨1⟩]), some ⟨1⟩) := by decide +kernel
  have hfar : (m.beforeLoot 1).toOption.map (fun m₁ => (m₁.claims.owner? 2,
      (m₁.bots.get? ⟨0⟩).bind fun boss => (m₁.bots.get? ⟨1⟩).map fun record =>
        decide (record.position.horizontalDistanceSq boss.position ≤
          ({} : Settings).communication.range * ({} : Settings).communication.range))) =
      some (none, some false) := by decide +kernel
  rw [htick] at hrun
  rw [hbefore] at hfar
  obtain ⟨hsquad, howned⟩ := Prod.mk.inj (Option.some.inj hrun)
  obtain ⟨q, hq, hlists⟩ := Option.map_eq_some_iff.1 hsquad
  obtain ⟨hleader, hfollowers⟩ := Prod.mk.inj hlists
  obtain ⟨hfree, hdistance⟩ := Prod.mk.inj (Option.some.inj hfar)
  obtain ⟨boss, hboss, hdistance⟩ := Option.bind_eq_some_iff.1 hdistance
  obtain ⟨record, hrecord, hdistance⟩ := Option.map_eq_some_iff.1 hdistance
  exact ⟨(History.start rfl).after _, r, m', m₁, q, record, boss, htick, hbefore, hq, hleader,
    hfollowers ▸ List.mem_singleton_self _, hfree, howned, hboss, hrecord,
    of_decide_eq_false hdistance⟩

end Mind

end Warband
