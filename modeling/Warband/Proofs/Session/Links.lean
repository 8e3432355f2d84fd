import Warband.Proofs.Session

/-!
# The graph of bosses in a session

In every state of a session the links are the edges of a partial function from
bots to their bosses, read at both ends. This holds whatever the host writes
beside the links. In such a state every operation on links rewires exactly the
edges it is to rewire.
-/
namespace Warband

namespace Links

/-- The links of live bots, told by their records. -/
structure Graph (bots : Bots) : Prop where
  boss_iff : ∀ a b r q, bots.get? a = some r → bots.get? b = some q →
    (r.boss = some b ↔ a ∈ q.followers)
  nodup : ∀ b q, bots.get? b = some q → q.followers.Nodup
  boss_live : ∀ a r b, bots.get? a = some r → r.boss = some b → bots.contains b ∧ b ≠ a
  follower_live : ∀ b q a, bots.get? b = some q → a ∈ q.followers → bots.contains a

theorem Consistent.graph {bots : Bots} (h : Consistent bots) : Graph bots where
  boss_iff a b r q hr hq := by
    rw [← boss?_of_get? hr, ← followers_of_get? hq]
    exact h.boss?_iff a b
  nodup b q hq := followers_of_get? hq ▸ h.nodup b
  boss_live a r b hr hb := by
    rw [← boss?_of_get? hr] at hb
    refine ⟨h.contains_boss hb, ?_⟩
    rintro rfl
    exact h.ne b hb
  follower_live b q a hq ha := h.contains_follower (followers_of_get? hq ▸ ha)

theorem consistent_empty : Consistent .empty where
  boss?_iff a b := by simp [boss?, followers]
  nodup b := by simp [followers]
  ne a := by simp [boss?]

/-- What is left of the edges of a bot that was separated: none. -/
theorem Restricts.isolated {bots bots' : Bots} {id : BotId}
    (h : Restricts (fun a b => a ≠ id && b ≠ id) bots bots') :
    Links.boss? bots' id = none ∧ Links.followers bots' id = [] := by
  rw [h.boss?, h.followers]
  constructor
  · cases Links.boss? bots id <;> simp [Option.filter]
  · simp

end Links

namespace Mind

variable {settings : Settings} {m m' : Mind} {past : List Mind}

theorem links_dropBot {id : BotId} (h : m.dropBot id = .ok m')
    (hc : Links.Consistent m.bots) : Links.Consistent m'.bots := by
  obtain ⟨bots, hsep, -, -, -, hbots⟩ := dropBot_ok h
  obtain ⟨bots', hrun, hr⟩ := Links.separate_restricts hc id
  rw [hsep] at hrun
  cases hrun
  have hleft := kept_ties_of_civil (Enrollment.kept_leave m.squads bots id)
  have hc' := (hr.consistent hc).congr hleft.view
  rcases hbots with ⟨gone, hremove⟩ | ⟨-, hsame⟩
  · refine hc'.remove hremove ?_ ?_
    · rw [Links.boss?_congr hleft.view]
      exact hr.isolated.1
    · rw [Links.followers_congr hleft.view]
      exact hr.isolated.2
  · rw [hsame]
    exact hc'

theorem Edit.links (h : Edit Bot.ties m m') (hc : Links.Consistent m.bots) :
    Links.Consistent m'.bots := by
  cases h with
  | calm h => exact hc.congr h.bots.view
  | write id hf => exact hc.congr (Roster.view_modify_of fun b _ => hf b)
  | relink hlinks h => exact (hlinks.consistent hc).congr h.bots.view
  | register h =>
      obtain ⟨bots, hadopt, rfl⟩ := register_ok h
      exact (hc.adopt hadopt rfl rfl).congr (Roster.view_modify_of fun _ _ => rfl)
  | drop _ h => exact links_dropBot h hc
  | createSquad h =>
      obtain ⟨squads, -, rfl⟩ := createSquad_ok h
      exact hc
  | disband squad =>
      exact hc.congr (kept_ties_of_civil (Enrollment.kept_disband m.squads m.bots squad)).view
  | join h =>
      obtain ⟨squads, bots, hjoin, rfl⟩ := join_ok h
      exact hc.congr (kept_ties_of_civil (Enrollment.kept_join hjoin)).view
  | leave bot =>
      exact hc.congr (kept_ties_of_civil (Enrollment.kept_leave m.squads m.bots bot)).view

theorem History.links (h : History Bot.ties settings (m :: past)) : Links.Consistent m.bots :=
  h.invariant (P := fun m => Links.Consistent m.bots) (fun _ => Links.consistent_empty)
    fun _ _ hc hedit => hedit.links hc

/-- The links of a session are those of a partial function. Assigning a boss
replaces the edge of the follower or is refused, detaching a bot deletes its
edge, and separating a bot deletes the edges that touch it. -/
theorem boss_graph_of_history (h : History Bot.ties settings (m :: past)) :
    Links.Graph m.bots ∧
      (∀ follower boss, ∃ ok bots', Links.assignBoss m.bots follower boss = .ok (ok, bots') ∧
        (ok = true ↔ follower ≠ boss ∧ m.bots.contains follower ∧ m.bots.contains boss) ∧
        if ok then
          Links.Rewires
            (fun a b => if a = follower then b = boss else Links.boss? m.bots a = some b)
            m.bots bots'
        else bots' = m.bots) ∧
      (∀ follower,
        (Links.removeBoss m.bots follower).1 = (Links.boss? m.bots follower).isSome ∧
        Links.Rewires (fun a b => Links.boss? m.bots a = some b ∧ a ≠ follower) m.bots
          (Links.removeBoss m.bots follower).2) ∧
      ∀ id, ∃ bots', Links.separate m.bots id = .ok bots' ∧
        Links.Rewires (fun a b => Links.boss? m.bots a = some b ∧ a ≠ id ∧ b ≠ id)
          m.bots bots' := by
  have hc := h.links
  refine ⟨hc.graph, fun follower boss => ?_, fun follower => ⟨?_, ?_⟩, fun id => ?_⟩
  · by_cases hlive : follower ≠ boss ∧ m.bots.contains follower ∧ m.bots.contains boss
    · obtain ⟨bots', hrun, hr⟩ := Links.assignBoss_rewires hc hlive.1 hlive.2.1 hlive.2.2
      exact ⟨true, bots', hrun, ⟨fun _ => hlive, fun _ => rfl⟩, hr⟩
    · exact ⟨false, m.bots, Links.assignBoss_refused hlive, by simpa using hlive, rfl⟩
  · cases hb : Links.boss? m.bots follower with
    | none => rw [Links.removeBoss_eq_self hb]; rfl
    | some boss => rw [Links.removeBoss_eq hb]; rfl
  · simpa using (Links.removeBoss_restricts hc follower).rewires hc
  · obtain ⟨bots', hrun, hr⟩ := Links.separate_restricts hc id
    exact ⟨bots', hrun, by simpa using hr.rewires hc⟩

theorem boss_graph_of_chain :
    let m := (fresh {} (.ofSeed 1)).after [.register 7 .unknown, .register 8 .unknown,
      .register 9 .unknown, .assignBoss ⟨1⟩ ⟨0⟩, .assignBoss ⟨2⟩ ⟨0⟩, .assignBoss ⟨0⟩ ⟨2⟩,
      .tick 1 ⟨0⟩]
    Links.followers m.bots ⟨0⟩ = [⟨1⟩, ⟨2⟩] ∧ Links.followers m.bots ⟨2⟩ = [⟨0⟩] ∧
      Links.Graph m.bots ∧ ∃ bots', Links.separate m.bots ⟨0⟩ = .ok bots' ∧
        Links.Rewires (fun a b => Links.boss? m.bots a = some b ∧ a ≠ ⟨0⟩ ∧ b ≠ ⟨0⟩)
          m.bots bots' := by
  intro m
  obtain ⟨past, h⟩ : ∃ past, History Bot.ties {} (m :: past) := (History.start rfl).after _
  obtain ⟨hgraph, -, -, hseparate⟩ := boss_graph_of_history h
  exact ⟨by decide +kernel, by decide +kernel, hgraph, hseparate ⟨0⟩⟩

end Mind

end Warband
