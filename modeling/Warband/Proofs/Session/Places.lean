import Warband.Proofs.Session.Departure

/-!
# Places of leaders

A leader is sent nowhere, so it has a place only if it brought one with it. When
a leader leaves, the member that takes over keeps its record but for the role,
and with it the place it was sent to as a follower. Nothing takes this place
away while it leads: a new objective dismisses the followers alone.
-/
namespace Warband

open Enrollment

namespace Bot

/-- The bot is still to be at a place. -/
def isPlaced (b : Bot) : Bool := b.membership.any (·.hasPosition)

/-- The squad of a bot, whether it leads, and whether it is still to be at a
place. -/
def station (b : Bot) : Option (SquadId × Bool × Bool) :=
  b.membership.map fun m => (m.squad, m.role = .leader, m.hasPosition)

theorem helm_eq_station (b : Bot) :
    b.helm = b.station.map fun p => (p.1, if p.2.1 then some p.2.2 else none) := by
  cases hm : b.membership <;> simp [helm, station, hm]

theorem post_eq_station (b : Bot) : b.post = b.station.map fun p => (p.1, p.2.1) := by
  cases hm : b.membership <;> simp [post, station, hm]

end Bot

def placed (bots : Bots) (id : BotId) : Bool := (bots.get? id).any (·.isPlaced)

/-! ## Places under single edits -/

theorem placed_congr {bots bots' : Bots} (h : Roster.Kept Bot.isPlaced bots bots') (id : BotId) :
    placed bots' id = placed bots id := h.any (·) id

/-- What keeps the helms keeps the place of a bot that leads. -/
theorem placed_of_leader {bots bots' : Bots} (h : Roster.Kept Bot.helm bots bots') {id : BotId}
    (hid : roleOf bots id = some .leader) : placed bots' id = placed bots id := by
  have hhelm : ∀ r : Bot, r.membership.map (·.role) = some .leader →
      r.helm.any (fun p => p.2.any (·)) = r.isPlaced := by
    intro r hr
    obtain ⟨m, hm, hrole⟩ := Option.map_eq_some_iff.1 hr
    simp [Bot.helm, Bot.isPlaced, hm, hrole]
  have hid' : roleOf bots' id = some .leader := by
    rwa [roleOf_leader_iff_view, (kept_post_of_helm h).view, ← roleOf_leader_iff_view]
  have hsame := h.any (fun o => o.any fun p => p.2.any (·)) id
  unfold placed
  cases hr : bots.get? id with
  | none => simp [roleOf, hr] at hid
  | some r =>
      cases hr' : bots'.get? id with
      | none => simp [roleOf, hr'] at hid'
      | some r' =>
          rw [roleOf_of_get? hr] at hid
          rw [roleOf_of_get? hr'] at hid'
          simpa [hr, hr', hhelm r hid, hhelm r' hid'] using hsame

theorem placed_leave {squads : Squads} {bots : Bots} {bot id : BotId} (hne : id ≠ bot) :
    placed (leave squads bots bot).2.2 id = placed bots id := by
  unfold placed
  rw [get?_leave, Option.any_map]
  congr 1
  funext r
  by_cases hheir : heir? squads bots bot = some id
  · cases hm : r.membership <;> simp [hne, hheir, Bot.isPlaced, Bot.modifyMembership, hm]
  · simp [hne, hheir]

theorem placed_enroll {bots : Bots} {bot : BotId} {m : Membership} (hm : m.hasPosition = false)
    (id : BotId) :
    placed (bots.modify bot fun b => { b with membership := some m }) id =
      if id = bot then false else placed bots id := by
  unfold placed
  rw [Roster.get?_modify]
  split
  · cases bots.get? id <;> simp [Bot.isPlaced, hm]
  · rfl

theorem placed_forgetSquad {squad : SquadId} {bots : Bots} {id : BotId}
    (hid : squadOf bots id ≠ some squad) (ids : List BotId) :
    placed (ids.foldl (forgetSquad squad) bots) id = placed bots id := by
  unfold squadOf at hid
  unfold placed
  rw [get?_forgetSquad]
  cases hr : bots.get? id with
  | none => rfl
  | some r =>
      have hother : r.squad? ≠ some squad := by simpa [hr] using hid
      simp [hother]

theorem get?_dismissFollowers (s : Squad) (bots : Bots) (id : BotId) :
    (s.dismissFollowers bots).get? id = (bots.get? id).map fun b =>
      if id ∈ s.followers then b.modifyMembership .dismiss else b := by
  unfold Squad.dismissFollowers
  generalize s.followers = ids
  induction ids generalizing bots with
  | nil => simp
  | cons other ids ih =>
      rw [List.foldl_cons, ih, Roster.get?_modify]
      by_cases hid : id = other
      · subst hid
        cases hr : bots.get? id with
        | none => simp
        | some r => cases hm : r.membership <;> simp [Bot.modifyMembership, Membership.dismiss, hm]
      · simp [hid]

theorem placed_dismissFollowers (s : Squad) (bots : Bots) (id : BotId) :
    placed (s.dismissFollowers bots) id = (id ∉ s.followers && placed bots id) := by
  unfold placed
  rw [get?_dismissFollowers, Option.any_map]
  cases hr : bots.get? id with
  | none => simp
  | some r =>
      by_cases hin : id ∈ s.followers
      · cases hm : r.membership <;>
          simp [hin, Bot.isPlaced, Bot.modifyMembership, Membership.dismiss, hm]
      · simp [hin]

namespace Mind

variable {settings : Settings} {m m' : Mind} {past : List Mind}

/-! ## From one state to the next -/

/-- Whoever leads a squad has a place exactly if it had one before in the same
squad. -/
def Hands (m m' : Mind) : Prop :=
  ∀ s b, leaderOf m'.squads s = some b →
    placed m'.bots b = (squadOf m.bots b = some s && placed m.bots b)

/-- Where the leaders come from their own squads, their places are all there is
to see. -/
theorem hands_of_stay (h : ∀ s b, leaderOf m'.squads s = some b →
    squadOf m.bots b = some s ∧ placed m'.bots b = placed m.bots b) : Hands m m' := fun s b hb => by
  obtain ⟨hown, hplaced⟩ := h s b hb
  rw [hplaced, hown]
  simp

theorem hands_of_helm (hc : m.Enrolled) (hbots : Roster.Kept Bot.helm m.bots m'.bots)
    (hsquads : Roster.Kept Squad.ranks m.squads m'.squads) : Hands m m' := by
  refine hands_of_stay fun s b hb => ?_
  rw [leaderOf_eq_view, hsquads.view, ← leaderOf_eq_view] at hb
  have hown := hc.squadOf_leader hb
  exact ⟨hown, placed_of_leader hbots ((hc.role_iff b s ((hc.squadOf_iff b s).1 hown)).2 hb)⟩

theorem hands_register {hostId : HostId} {botClass : BotClass} {id : BotId}
    (h : m.register hostId botClass = .ok (id, m')) (hc : m.Enrolled) : Hands m m' := by
  obtain ⟨bots, hadopt, rfl⟩ := register_ok h
  refine hands_of_stay fun s b hb => ⟨hc.squadOf_leader hb, ?_⟩
  have hnew : placed bots b = placed m.bots b :=
    Roster.reading_adopt hadopt (Option.any Bot.isPlaced) rfl b
  have hwrite : Roster.Kept Bot.isPlaced bots
      (bots.modify id fun b => { b with botClass := botClass }) := .modify fun _ => rfl
  exact (placed_congr hwrite b).trans hnew

theorem hands_dropBot {id : BotId} (h : m.dropBot id = .ok m') (hc : m.Enrolled) :
    Hands m m' := by
  obtain ⟨bots, hsep, -, hsquads, -, hbots⟩ := dropBot_ok h
  have hkept := (Links.rewritten_separate hsep).kept
  have hc' := hc.unlinked hkept
  refine hands_of_stay fun s b hb => ?_
  rw [hsquads] at hb
  obtain ⟨hne, hown⟩ := hc'.squadOf_of_leads_after hb
  refine ⟨(squadOf_congr (kept_post_of_unlinked hkept) b).symm.trans hown, ?_⟩
  have hleft : placed (Enrollment.leave m.squads bots id).2.2 b = placed m.bots b :=
    (placed_leave hne).trans (placed_congr (hkept.comp Bot.isPlaced) b)
  rw [← hleft]
  rcases hbots with ⟨gone, hremove⟩ | ⟨-, hsame⟩
  · unfold placed
    rw [Roster.get?_remove? hremove, if_neg hne]
  · rw [hsame]

theorem hands_leave (hc : m.Enrolled) (bot : BotId) : Hands m (m.leave bot).2 := by
  refine hands_of_stay fun s b hb => ?_
  obtain ⟨hne, hown⟩ := Consistent.squadOf_of_leads_after hc hb
  exact ⟨hown, placed_leave hne⟩

theorem hands_disband (hc : m.Enrolled) (squad : SquadId) : Hands m (m.disband squad).2 := by
  refine hands_of_stay fun s b hb => ?_
  unfold Mind.disband at hb ⊢
  cases hs : m.squads.get? squad with
  | none =>
      rw [disband_of_dead m.bots hs] at hb ⊢
      exact ⟨hc.squadOf_leader hb, rfl⟩
  | some q =>
      obtain ⟨squads, hrun, hget⟩ := disband_of_live m.bots hs
      rw [hrun] at hb ⊢
      simp only [leaderOf, hget] at hb
      split at hb
      · cases hb
      · rename_i hother
        have hown := hc.squadOf_leader hb
        refine ⟨hown, placed_forgetSquad ?_ _⟩
        rw [hown]
        exact fun heq => hother (Option.some.inj heq)

theorem hands_join {squad : SquadId} {bot : BotId} {r : Except Error Unit}
    (h : m.join squad bot = .ok (r, m')) (hc : m.Enrolled) : Hands m m' := by
  obtain ⟨squads, bots, hjoin, rfl⟩ := join_ok h
  rcases join_cases m.squads m.bots squad bot m.settings.squad.maxMembers with
    ⟨answer, hrun⟩ | ⟨q, q', -, hq, hout, -, hq', hrun⟩
  · rw [hjoin] at hrun
    cases hrun
    exact hands_of_helm hc (.refl _) (.refl _)
  · rw [hjoin] at hrun
    cases hrun
    intro s b hb
    change leaderOf ((Enrollment.leave m.squads m.bots bot).2.1.modify squad (enroll bot)) s =
      some b at hb
    change placed ((Enrollment.leave m.squads m.bots bot).2.2.modify bot _) b = _
    rw [leaderOf_enroll hq'] at hb
    rw [placed_enroll rfl]
    by_cases hbot : b = bot
    · -- the bot was not on the list it joins, and it is off all others
      subst hbot
      have hother : squadOf m.bots b ≠ some s := by
        intro hown
        split at hb
        · rename_i hs
          rw [hc.squadOf_iff, hs, members_of_get? hq] at hown
          exact hout hown
        · exact (Consistent.squadOf_of_leads_after hc hb).1 rfl
      simp [hother]
    · have hlead : leaderOf (Enrollment.leave m.squads m.bots bot).2.1 s = some b := by
        split at hb
        · rename_i hs
          rw [hs, leaderOf_of_get? hq']
          cases hl : q'.leader <;> simp_all
        · exact hb
      obtain ⟨hne, hown⟩ := Consistent.squadOf_of_leads_after hc hlead
      rw [if_neg hne, placed_leave hne, hown]
      simp

/-- Every edit hands the places of leaders on. -/
theorem Edit.hands (h : Edit Bot.station m m') (hc : m.Enrolled) : Hands m m' := by
  cases h with
  | calm h => exact hands_of_helm hc (h.helms _ hc) h.squads
  | write id hf =>
      refine hands_of_helm hc (.modify fun b => ?_) (.refl _)
      rw [Bot.helm_eq_station, hf, ← Bot.helm_eq_station]
  | @relink bots _ hlinks h =>
      have hlinked : Roster.Kept Bot.helm m.bots bots := hlinks.kept.comp Bot.helm
      have hcalm := h.helms _ (hc.unlinked hlinks.kept)
      exact hands_of_helm hc (hlinked.trans hcalm) h.squads
  | register h => exact hands_register h hc
  | drop _ h => exact hands_dropBot h hc
  | createSquad h =>
      obtain ⟨squads, hadopt, rfl⟩ := createSquad_ok h
      refine hands_of_stay fun s b hb => ⟨hc.squadOf_leader ?_, rfl⟩
      have hsame := Roster.reading_adopt hadopt (·.bind (·.leader)) rfl s
      exact hsame.symm.trans hb
  | disband squad => exact hands_disband hc squad
  | join h => exact hands_join h hc
  | leave bot => exact hands_leave hc bot

/-! ## Heirs -/

/-- A bot that took over a squad while it was still to be at a place, and has led
the squad in all states since. -/
inductive Heir (s : SquadId) (b : BotId) : List Mind → Prop
  | promoted {m m' : Mind} {past : List Mind} : squadOf m.bots b = some s →
      leaderOf m.squads s ≠ some b → placed m.bots b → leaderOf m'.squads s = some b →
      Heir s b (m' :: m :: past)
  | leads {m : Mind} {past : List Mind} : leaderOf m.squads s = some b → Heir s b past →
      Heir s b (m :: past)

theorem Heir.leaderOf {s : SquadId} {b : BotId} (h : Heir s b (m :: past)) :
    leaderOf m.squads s = some b := by
  cases h with
  | promoted _ _ _ hlead => exact hlead
  | leads hlead _ => exact hlead

theorem History.posts (h : History Bot.station settings (m :: past)) :
    History Bot.post settings (m :: past) :=
  h.mono fun b b' hb => by rw [Bot.post_eq_station, hb, ← Bot.post_eq_station]

/-- A leader has a place exactly if it is an heir. -/
theorem placed_leader_iff (h : History Bot.station settings (m :: past)) {s : SquadId} {b : BotId}
    (hlead : leaderOf m.squads s = some b) : placed m.bots b ↔ Heir s b (m :: past) := by
  generalize hs : m :: past = states at h
  induction h generalizing m past with
  | start hm =>
      cases hs
      rw [start_ok hm] at hlead
      cases hlead
  | @move m₀ _ past₀ hold hmove ih =>
      cases hs
      have hc := hold.posts.enrolled
      rw [hmove.edit.hands hc s b hlead]
      by_cases hbefore : leaderOf m₀.squads s = some b
      · -- it led before, with the place it has now
        rw [hc.squadOf_leader hbefore]
        simp only [decide_true, Bool.true_and, ih hbefore rfl]
        constructor
        · exact .leads hlead
        · intro hheir
          cases hheir with
          | promoted _ hnot => exact absurd hbefore hnot
          | leads _ hheir => exact hheir
      · -- it leads now for the first time
        rw [Bool.and_eq_true, decide_eq_true_eq]
        constructor
        · intro hmember
          exact .promoted hmember.1 hbefore hmember.2 hlead
        · intro hheir
          cases hheir with
          | promoted hown _ hplaced _ => exact ⟨hown, hplaced⟩
          | leads _ hheir => exact absurd hheir.leaderOf hbefore

/-! ## New objectives -/

/-- A live squad is sent off: its followers are dismissed, and its list stays. -/
theorem call_setObjective {s : SquadId} {q : Squad} (hq : m.squads.get? s = some q)
    (p : Position) (now : Time) (duration : Float32) :
    ∃ v m', m.call (.setObjective s p now duration) = .ok (.version v, m') ∧
      m'.bots = q.dismissFollowers m.bots ∧ members m'.squads s = q.members := by
  have hcall : m.call (.setObjective s p now duration) =
      .ok (.ofResult .version (m.setObjective s p now duration).1,
        (m.setObjective s p now duration).2) := rfl
  simp only [setObjective, hq] at hcall
  refine ⟨_, _, hcall, rfl, ?_⟩
  simp [members, hq]

/-- In every session a new objective leaves no member of the squad with a place,
but for a leader that is an heir to its place. -/
theorem placed_of_setObjective (h : History Bot.station settings (m :: past)) {s : SquadId}
    (hs : m.squads.contains s) (p : Position) (now : Time) (duration : Float32) :
    ∃ v m', m.call (.setObjective s p now duration) = .ok (.version v, m') ∧
      ∀ b ∈ members m'.squads s,
        (placed m'.bots b ↔ leaderOf m.squads s = some b ∧ Heir s b (m :: past)) := by
  obtain ⟨q, hq⟩ := Roster.contains_iff.1 hs
  obtain ⟨v, m', hcall, hbots, hmembers⟩ := call_setObjective hq p now duration
  refine ⟨v, m', hcall, fun b hb => ?_⟩
  rw [hmembers] at hb
  rw [hbots, placed_dismissFollowers, leaderOf_of_get? hq, Bool.and_eq_true, decide_eq_true_eq]
  have hfollower : b ∉ q.followers ↔ q.leader = some b := by
    simp only [Squad.followers, List.mem_filter, hb, true_and, decide_eq_true_eq, not_not]
    exact eq_comm
  rw [hfollower]
  refine and_congr_right fun hlead => placed_leader_iff h ?_
  rw [leaderOf_of_get? hq, hlead]

/-- The follower that was sent to a place is dismissed. -/
theorem placed_of_second_objective :
    let m := (fresh {} (.ofSeed 1)).after [.register 7 .unknown, .register 8 .unknown,
      .createSquad 5, .join ⟨0⟩ ⟨0⟩, .join ⟨0⟩ ⟨1⟩, .setAction ⟨0⟩ .moveToObjective,
      .setObjective ⟨0⟩ ⟨0, 0, 20⟩ 0 60, .tick 1 ⟨0⟩]
    placed m.bots ⟨1⟩ = true ∧
      ∃ past v m', History Bot.station {} (m :: past) ∧
        m.call (.setObjective ⟨0⟩ ⟨300, 0, 300⟩ 2 60) = .ok (.version v, m') ∧
        members m'.squads ⟨0⟩ = [⟨0⟩, ⟨1⟩] ∧
        ∀ b ∈ members m'.squads ⟨0⟩,
          (placed m'.bots b ↔ leaderOf m.squads ⟨0⟩ = some b ∧ Heir ⟨0⟩ b (m :: past)) := by
  intro m
  obtain ⟨past, h⟩ : ∃ past, History Bot.station {} (m :: past) := (History.start rfl).after _
  have hlive : m.squads.contains ⟨0⟩ = true := by decide +kernel
  obtain ⟨v, m', hcall, hplaced⟩ := placed_of_setObjective h hlive ⟨300, 0, 300⟩ 2 60
  have hrun : (m.call (.setObjective ⟨0⟩ ⟨300, 0, 300⟩ 2 60)).toOption.map (fun p =>
      members p.2.squads ⟨0⟩) = some [⟨0⟩, ⟨1⟩] := by decide +kernel
  rw [hcall] at hrun
  exact ⟨by decide +kernel, past, v, m', h, hcall, Option.some.inj hrun, hplaced⟩

/-- A follower that takes over its squad keeps its old place under the new
objective. -/
theorem placed_of_heir :
    let m := (fresh {} (.ofSeed 1)).after [.register 7 .unknown, .register 8 .unknown,
      .createSquad 5, .join ⟨0⟩ ⟨0⟩, .join ⟨0⟩ ⟨1⟩, .setAction ⟨0⟩ .moveToObjective,
      .setObjective ⟨0⟩ ⟨0, 0, 20⟩ 0 60, .tick 1 ⟨0⟩, .leave ⟨0⟩]
    (∃ past, History Bot.station {} (m :: past)) ∧
      ∃ v m', m.call (.setObjective ⟨0⟩ ⟨300, 0, 300⟩ 2 60) = .ok (.version v, m') ∧
        ⟨1⟩ ∈ members m'.squads ⟨0⟩ ∧ placed m'.bots ⟨1⟩ = true := by
  intro m
  have hlive : m.squads.contains ⟨0⟩ = true := by decide +kernel
  obtain ⟨q, hq⟩ := Roster.contains_iff.1 hlive
  obtain ⟨v, m', hcall, -⟩ := call_setObjective hq ⟨300, 0, 300⟩ 2 60
  have hrun : (m.call (.setObjective ⟨0⟩ ⟨300, 0, 300⟩ 2 60)).toOption.map (fun p =>
      (members p.2.squads ⟨0⟩, placed p.2.bots ⟨1⟩)) = some ([⟨1⟩], true) := by decide +kernel
  rw [hcall] at hrun
  obtain ⟨hmembers, hplaced⟩ := Prod.mk.inj (Option.some.inj hrun)
  refine ⟨(History.start rfl).after _, v, m', hcall, ?_, hplaced⟩
  rw [hmembers]
  exact List.mem_singleton_self _

end Mind

end Warband
