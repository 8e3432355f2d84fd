import Warband.Mind.Tick
import Warband.Proofs.Enrollment.Moves

/-!
# Orders and roles

The turns of the squads write roles and places to the records of followers. A
follower is ordered any role but the leader's, so no turn changes who leads or
sends a leader anywhere, and as a turn writes to no list either, posts and ranks
stay what they were.
-/
namespace Warband

open Warband.Random

/-- What orders to followers leave of a membership: the squad, and of a leader
whether it is still to be at a place. -/
def Bot.helm (b : Bot) : Option (SquadId × Option Bool) :=
  b.membership.map fun m => (m.squad, if m.role = .leader then some m.hasPosition else none)

theorem Bot.post_eq_helm (b : Bot) : b.post = b.helm.map fun p => (p.1, p.2.isSome) := by
  cases hm : b.membership with
  | none => simp [Bot.post, Bot.helm, hm]
  | some m => by_cases hlead : m.role = .leader <;> simp [Bot.post, Bot.helm, hm, hlead]

theorem kept_post_of_helm {bots bots' : Bots} (h : Roster.Kept Bot.helm bots bots') :
    Roster.Kept Bot.post bots bots' := by
  have hpost : Bot.post = fun b : Bot => b.helm.map fun p => (p.1, p.2.isSome) :=
    funext Bot.post_eq_helm
  rw [hpost]
  exact h.comp _

/-! ## Ordered roles -/

theorem Action.ne_leader_of_mem_roles {a : Action} {count : Nat} {role : Role}
    (h : role ∈ a.roles count) : role ≠ .leader := by
  obtain ⟨i, -, rfl⟩ := List.mem_map.1 h
  cases a <;> unfold Pattern.role <;> split <;> simp [Action.pattern]

theorem Layout.combatRole_ne_leader {role : Role} (h : role ≠ .leader) :
    combatRole role ≠ .leader := by
  cases role <;> simp_all [combatRole]

theorem Squad.ne_leader_of_mem_arrange {situation : Situation} {objective leader : Position}
    {settings : SquadSettings} {count : Nat} {place : Role × Position}
    (h : place ∈ arrange situation objective leader settings count) : place.1 ≠ .leader := by
  unfold arrange at h
  split at h
  · obtain ⟨role, hrole, heq⟩ := List.mem_map.1 (List.of_mem_zip h).1
    rw [← heq]
    exact Layout.combatRole_ne_leader (Action.ne_leader_of_mem_roles hrole)
  · exact Action.ne_leader_of_mem_roles (List.of_mem_zip h).1

theorem Squad.mem_followers_of_mem_activeFollowers {s : Squad} {bots : Bots}
    {f : BotId × Position} (h : f ∈ s.activeFollowers bots) : f.1 ∈ s.followers := by
  obtain ⟨id, hid, hf⟩ := List.mem_filterMap.1 (List.mem_of_mem_take h)
  obtain ⟨b, -, rfl⟩ := Option.map_eq_some_iff.1 hf
  exact hid

/-- Only followers are given orders, and none of them is to lead. -/
theorem Squad.of_mem_orders {s : Squad} {bots : Bots} {situation : Situation}
    {objective leader : Position} {settings : SquadSettings} {comm : CommunicationSettings}
    {o : Order} (h : o ∈ s.orders bots situation objective leader settings comm) :
    o.bot ∈ s.followers ∧ o.role ≠ .leader := by
  obtain ⟨⟨⟨follower, place⟩, tier⟩, hin, rfl⟩ := List.mem_map.1 h
  obtain ⟨hf, hp⟩ := List.of_mem_zip (List.of_mem_zip hin).1
  exact ⟨mem_followers_of_mem_activeFollowers hf, ne_leader_of_mem_arrange hp⟩

/-- What is delivered are the orders that were given. -/
theorem Order.fst_mem_of_mem_deliver {noise : Float32} {coordination : UInt8} {os : List Order}
    {g : Generator} {d : Order × Option Position}
    (h : d ∈ (Order.deliver noise coordination os g).1) : d.1 ∈ os := by
  induction os generalizing g with
  | nil => simp [Order.deliver] at h
  | cons o os ih =>
      rcases List.mem_cons.1 h with rfl | h
      · exact List.mem_cons_self
      · exact List.mem_cons_of_mem _ (ih h)

/-! ## What writing roles keeps -/

theorem kept_modifyMembership (bots : Bots) (id : BotId) (f : Membership → Membership) :
    Roster.Kept Bot.civil bots (bots.modify id (·.modifyMembership f)) := .modify fun _ => rfl

/-- Who does not lead may be given any role but the leader's, and any place. -/
theorem kept_helm_modifyMembership {bots : Bots} {id : BotId} {f : Membership → Membership}
    (hid : Enrollment.roleOf bots id ≠ some .leader) (hsquad : ∀ m, (f m).squad = m.squad)
    (hrole : ∀ m, (f m).role ≠ .leader) :
    Roster.Kept Bot.helm bots (bots.modify id (·.modifyMembership f)) := by
  refine .modify_of fun b hb => ?_
  rw [Enrollment.roleOf_of_get? hb] at hid
  cases hm : b.membership with
  | none => simp [Bot.helm, Bot.modifyMembership, hm]
  | some m =>
      have hnot : m.role ≠ .leader := by simpa [hm] using hid
      simp [Bot.helm, Bot.modifyMembership, hm, hsquad, hrole, hnot]

theorem roleOf_ne_leader_of_kept {bots bots' : Bots} (h : Roster.Kept Bot.helm bots bots')
    {id : BotId} (hid : Enrollment.roleOf bots id ≠ some .leader) :
    Enrollment.roleOf bots' id ≠ some .leader := by
  rwa [ne_eq, Enrollment.roleOf_leader_iff_view, (kept_post_of_helm h).view,
    ← Enrollment.roleOf_leader_iff_view]

/-- Some bots do not lead. -/
def Followers (bots : Bots) (ids : List BotId) : Prop :=
  ∀ id ∈ ids, Enrollment.roleOf bots id ≠ some .leader

theorem Enrollment.Consistent.followers {limit : Nat} {squads : Squads} {bots : Bots}
    (h : Consistent limit squads bots) {id : SquadId} {s : Squad} (hs : squads.get? id = some s) :
    Followers bots s.followers := fun _ hb => h.roleOf_follower hs hb

namespace Squad

theorem kept_dismissFollowers (s : Squad) (bots : Bots) :
    Roster.Kept Bot.civil bots (s.dismissFollowers bots) :=
  .foldl fun id _ bots' _ => kept_modifyMembership bots' id _

theorem kept_helm_dismissFollowers {s : Squad} {bots : Bots} (h : Followers bots s.followers) :
    Roster.Kept Bot.helm bots (s.dismissFollowers bots) :=
  .foldl fun id hid _ hkept =>
    kept_helm_modifyMembership (roleOf_ne_leader_of_kept hkept (h id hid)) (fun _ => rfl)
      fun _ => by simp [Membership.dismiss]

theorem kept_carryOut (deliveries : List (Order × Option Position)) (bots : Bots) :
    Roster.Kept Bot.civil bots (deliveries.foldl Order.carryOut bots) :=
  .foldl fun d _ bots' _ => kept_modifyMembership bots' d.1.bot _

theorem kept_helm_carryOut {deliveries : List (Order × Option Position)} {bots : Bots}
    (h : ∀ d ∈ deliveries, Enrollment.roleOf bots d.1.bot ≠ some .leader ∧ d.1.role ≠ .leader) :
    Roster.Kept Bot.helm bots (deliveries.foldl Order.carryOut bots) := by
  refine .foldl fun d hd bots' hkept => ?_
  obtain ⟨hbot, hrole⟩ := h d hd
  refine kept_helm_modifyMembership (roleOf_ne_leader_of_kept hkept hbot) (fun m => ?_) fun m => ?_
  · cases d.2 <;> rfl
  · cases d.2 with
    | none => simp [Membership.dismiss]
    | some p => exact hrole

theorem kept_refresh (s : Squad) (bots : Bots) (situation : Situation) (settings : SquadSettings)
    (comm : CommunicationSettings) (g : Generator) :
    Roster.Kept Bot.civil bots (s.refresh bots situation settings comm g).bots := by
  unfold refresh
  split
  · exact kept_carryOut ..
  · exact kept_dismissFollowers ..

theorem kept_helm_refresh {s : Squad} {bots : Bots} (h : Followers bots s.followers)
    (situation : Situation) (settings : SquadSettings) (comm : CommunicationSettings)
    (g : Generator) :
    Roster.Kept Bot.helm bots (s.refresh bots situation settings comm g).bots := by
  unfold refresh
  split
  · refine kept_helm_carryOut fun d hd => ?_
    obtain ⟨hbot, hrole⟩ := of_mem_orders (Order.fst_mem_of_mem_deliver hd)
    exact ⟨h d.1.bot hbot, hrole⟩
  · exact kept_helm_dismissFollowers h

theorem ranks_refresh (s : Squad) (bots : Bots) (situation : Situation) (settings : SquadSettings)
    (comm : CommunicationSettings) (g : Generator) :
    (s.refresh bots situation settings comm g).squad.ranks = s.ranks := by
  unfold refresh
  split <;> rfl

end Squad

/-! ## The turns of the squads -/

namespace Mind

theorem ranks_squadTurn (m : Mind) (s : Squad) (pass : SquadPass) :
    (m.squadTurn s pass).1.ranks = s.ranks := by
  unfold squadTurn
  split
  · exact Squad.ranks_refresh ..
  · rfl

theorem kept_squadTurn (m : Mind) (s : Squad) (pass : SquadPass) :
    Roster.Kept Bot.civil pass.bots (m.squadTurn s pass).2.bots := by
  unfold squadTurn
  split
  · exact Squad.kept_refresh ..
  · exact .refl _

theorem kept_helm_squadTurn (m : Mind) {s : Squad} {pass : SquadPass}
    (h : Followers pass.bots s.followers) :
    Roster.Kept Bot.helm pass.bots (m.squadTurn s pass).2.bots := by
  unfold squadTurn
  split
  · have hsame : Followers pass.bots (s.vote pass.bots).followers := h
    exact Squad.kept_helm_refresh hsame ..
  · exact .refl _

/-- The records after the turns of all squads. -/
theorem bots_commandSquads (m : Mind) :
    m.commandSquads.2.bots =
      (m.squads.sweep (fun _ => squadTurn m) ⟨m.bots, m.generator, 0, 0⟩).2.bots := rfl

theorem kept_commandSquads (m : Mind) : Roster.Kept Bot.civil m.bots m.commandSquads.2.bots := by
  rw [bots_commandSquads]
  exact Roster.sweep_induction (P := fun pass : SquadPass => Roster.Kept Bot.civil m.bots pass.bots)
    (s := ⟨m.bots, m.generator, 0, 0⟩) (.refl m.bots)
    fun _ s _ pass hkept => hkept.trans (kept_squadTurn m s pass)

/-- With lists and records in agreement, the turns change no post and send no
leader anywhere. -/
theorem kept_helm_commandSquads {m : Mind} {limit : Nat}
    (h : Enrollment.Consistent limit m.squads m.bots) :
    Roster.Kept Bot.helm m.bots m.commandSquads.2.bots := by
  rw [bots_commandSquads]
  refine Roster.sweep_induction (P := fun pass : SquadPass => Roster.Kept Bot.helm m.bots pass.bots)
    (s := ⟨m.bots, m.generator, 0, 0⟩) (.refl m.bots)
    fun _ s hs pass hkept => hkept.trans (kept_helm_squadTurn m fun id hid => ?_)
  exact roleOf_ne_leader_of_kept hkept (h.followers hs id hid)

theorem kept_squads_commandSquads (m : Mind) :
    Roster.Kept Squad.ranks m.squads m.commandSquads.2.squads :=
  .sweep fun _ s pass => ranks_squadTurn m s pass

end Mind

end Warband
