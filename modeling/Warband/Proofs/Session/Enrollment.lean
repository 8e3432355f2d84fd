import Warband.Proofs.Session

/-!
# Squads in a session

In every state of a session the lists of the squads and the records of the bots
agree, whatever the host writes beside the squads and the leader's role. How
long a bot has been in a squad can be read off the states of the session. A move
puts at most one bot at the end of a list and keeps the others in their order,
so lists go by seniority, and the leader of a squad is its oldest member.
-/
namespace Warband

namespace Enrollment

/-- The lists of the squads and the records of the bots agree, told by the
records. -/
structure Agreement (limit : Nat) (squads : Squads) (bots : Bots) : Prop where
  squad_iff : ∀ b r, bots.get? b = some r → ∀ s,
    r.squad? = some s ↔ ∃ q, squads.get? s = some q ∧ b ∈ q.members
  nodup : ∀ s q, squads.get? s = some q → q.members.Nodup
  live : ∀ s q, squads.get? s = some q → ∀ b ∈ q.members, bots.contains b
  length_le : ∀ s q, squads.get? s = some q → q.members.length ≤ limit
  leader_eq : ∀ s q, squads.get? s = some q → q.leader = q.members.head?
  role_iff : ∀ s q, squads.get? s = some q → ∀ b ∈ q.members, ∀ r, bots.get? b = some r →
    (r.membership.map (·.role) = some .leader ↔ q.leader = some b)

theorem mem_members_iff {squads : Squads} {s : SquadId} {b : BotId} :
    b ∈ members squads s ↔ ∃ q, squads.get? s = some q ∧ b ∈ q.members := by
  constructor
  · exact exists_of_mem_members
  · rintro ⟨q, hq, hb⟩
    rwa [members_of_get? hq]

theorem Consistent.agreement {limit : Nat} {squads : Squads} {bots : Bots}
    (h : Consistent limit squads bots) : Agreement limit squads bots where
  squad_iff b r hr s := by
    rw [← squadOf_of_get? hr, h.squadOf_iff, mem_members_iff]
  nodup s q hq := members_of_get? hq ▸ h.nodup s
  live s q hq b hb := h.contains_member (mem_members_iff.2 ⟨q, hq, hb⟩)
  length_le s q hq := members_of_get? hq ▸ h.length_le s
  leader_eq s q hq := by
    rw [← leaderOf_of_get? hq, ← members_of_get? hq]
    exact h.leaderOf_eq s
  role_iff s q hq b hb r hr := by
    rw [← roleOf_of_get? hr, ← leaderOf_of_get? hq]
    exact h.role_iff b s (mem_members_iff.2 ⟨q, hq, hb⟩)

theorem consistent_empty (limit : Nat) : Consistent limit .empty .empty where
  squadOf_iff b s := by simp [squadOf, members]
  nodup s := by simp [members]
  length_le s := by simp [members]
  leaderOf_eq s := by simp [leaderOf, members]
  role_iff b s h := by simp [members] at h

/-- Every list loses some bots, and at most one that it did not have comes last. -/
def Shifts (squads squads' : Squads) : Prop :=
  ∀ s, ∃ (keep : BotId → Bool) (new : Option BotId),
    members squads' s = (members squads s).filter keep ++ new.toList ∧
      ∀ b ∈ new, b ∉ members squads s

theorem Shifts.of_filter {squads squads' : Squads} (keep : SquadId → BotId → Bool)
    (h : ∀ s, members squads' s = (members squads s).filter (keep s)) : Shifts squads squads' :=
  fun s => ⟨keep s, none, by simp [h s], by simp⟩

theorem Shifts.of_eq {squads squads' : Squads}
    (h : ∀ s, members squads' s = members squads s) : Shifts squads squads' :=
  .of_filter (fun _ _ => true) fun s => by simp [h s]

theorem shifts_leave {limit : Nat} {squads : Squads} {bots : Bots}
    (h : Consistent limit squads bots) (bot : BotId) : Shifts squads (leave squads bots bot).2.1 :=
  .of_filter (fun _ => (· ≠ bot)) (h.members_leave bot)

theorem shifts_join {limit : Nat} {squads squads' : Squads} {bots bots' : Bots}
    (h : Consistent limit squads bots) {squad : SquadId} {bot : BotId} {answer : Except Error Unit}
    (hjoin : join squads bots squad bot limit = .ok (answer, squads', bots')) :
    Shifts squads squads' := by
  rcases join_cases squads bots squad bot limit with
    ⟨a, heq⟩ | ⟨s, s', -, hs, hout, -, hs', heq⟩
  · rw [hjoin] at heq
    cases heq
    exact .of_eq fun _ => rfl
  · rw [hjoin] at heq
    cases heq
    intro t
    rw [members_enroll hs']
    split
    · rename_i ht
      subst ht
      refine ⟨(· ≠ bot), some bot, ?_, fun b hb => ?_⟩
      · rw [← h.members_leave, members_of_get? hs']
        rfl
      · cases hb
        rwa [members_of_get? hs]
    · exact shifts_leave h bot t

theorem shifts_disband (squads : Squads) (bots : Bots) (id : SquadId) :
    Shifts squads (disband squads bots id).2.1 := by
  cases hs : squads.get? id with
  | none =>
      rw [disband_of_dead bots hs]
      exact .of_eq fun _ => rfl
  | some s =>
      obtain ⟨squads', heq, hget⟩ := disband_of_live bots hs
      rw [heq]
      refine .of_filter (fun t _ => t ≠ id) fun t => ?_
      unfold members
      rw [hget]
      by_cases ht : t = id <;> simp [ht]

theorem shifts_adopt {squads squads' : Squads} {hostId : HostId} {s : Squad} {id : SquadId}
    (hadopt : squads.adopt hostId s = .ok (id, squads')) (hm : s.members = []) :
    Shifts squads squads' :=
  .of_eq (Roster.reading_adopt hadopt (fun o => (o.map Squad.members).getD []) hm)

end Enrollment

namespace Mind

open Enrollment

variable {settings : Settings} {m m' : Mind} {past : List Mind}

/-- The agreement of lists and records, with the limit of the mind's settings. -/
def Enrolled (m : Mind) : Prop :=
  Enrollment.Consistent m.settings.squad.maxMembers m.squads m.bots

/-- Links have no part in the agreement. -/
theorem Enrolled.unlinked (h : m.Enrolled) {bots : Bots}
    (hbots : Roster.Kept Bot.unlinked m.bots bots) :
    Enrollment.Consistent m.settings.squad.maxMembers m.squads bots :=
  h.congr rfl (kept_post_of_unlinked hbots).view

theorem enrolled_dropBot {id : BotId} (h : m.dropBot id = .ok m') (hc : m.Enrolled) :
    m'.Enrolled ∧ Shifts m.squads m'.squads := by
  obtain ⟨bots, hsep, hsettings, hsquads, -, hbots⟩ := dropBot_ok h
  have hc' := hc.unlinked (Links.rewritten_separate hsep).kept
  unfold Enrolled
  rw [hsettings, hsquads]
  refine ⟨?_, shifts_leave hc' id⟩
  rcases hbots with ⟨gone, hremove⟩ | ⟨-, hsame⟩
  · exact (hc'.leave id).removeBot hremove (by simp [squadOf_leave])
  · rw [hsame]
    exact hc'.leave id

/-- Every edit keeps the agreement and shifts the lists. -/
theorem Edit.enrolled (h : Edit Bot.post m m') (hc : m.Enrolled) :
    m'.Enrolled ∧ Shifts m.squads m'.squads := by
  have hsame := h.settings_eq
  cases h with
  | calm h =>
      refine ⟨?_, .of_eq fun s => ?_⟩
      · unfold Enrolled
        rw [hsame]
        exact h.consistent hc
      · rw [members_eq_view, h.squads.view, ← members_eq_view]
  | write id hf =>
      exact ⟨hc.congr rfl (Roster.view_modify_of fun b _ => hf b), .of_eq fun _ => rfl⟩
  | @relink bots _ hlinks h =>
      have hc' := hc.unlinked hlinks.kept
      refine ⟨?_, .of_eq fun s => ?_⟩
      · unfold Enrolled
        rw [hsame]
        exact h.consistent hc'
      · rw [members_eq_view, h.squads.view, ← members_eq_view]
  | register h =>
      obtain ⟨bots, hadopt, rfl⟩ := register_ok h
      have hc' := hc.adoptBot hadopt rfl
      exact ⟨hc'.congr rfl (Roster.view_modify_of fun _ _ => rfl), .of_eq fun _ => rfl⟩
  | drop _ h => exact enrolled_dropBot h hc
  | createSquad h =>
      obtain ⟨squads, hadopt, rfl⟩ := createSquad_ok h
      exact ⟨hc.adoptSquad hadopt rfl rfl, shifts_adopt hadopt rfl⟩
  | disband squad =>
      exact ⟨Consistent.disband hc squad, shifts_disband m.squads m.bots squad⟩
  | join h =>
      obtain ⟨squads, bots, hjoin, rfl⟩ := join_ok h
      exact ⟨Consistent.join hc hjoin, shifts_join hc hjoin⟩
  | leave bot => exact ⟨Consistent.leave hc bot, shifts_leave hc bot⟩

theorem History.enrolled (h : History Bot.post settings (m :: past)) : m.Enrolled :=
  h.invariant (fun _ => consistent_empty _) fun _ _ hc hedit => (hedit.enrolled hc).1

/-! ## Seniority -/

/-- For how many of the latest states, without a break, a squad listed a bot. -/
def tenure (s : SquadId) (b : BotId) (states : List Mind) : Nat :=
  (states.takeWhile fun m => b ∈ members m.squads s).length

theorem tenure_cons (s : SquadId) (b : BotId) (m : Mind) (past : List Mind) :
    tenure s b (m :: past) = if b ∈ members m.squads s then tenure s b past + 1 else 0 := by
  unfold tenure
  rw [List.takeWhile_cons]
  by_cases h : b ∈ members m.squads s <;> simp [h]

/-- Who comes earlier on a list has been on it for longer. -/
theorem pairwise_tenure (h : History Bot.post settings (m :: past)) (s : SquadId) :
    (members m.squads s).Pairwise fun a b => tenure s b (m :: past) < tenure s a (m :: past) := by
  generalize hs : m :: past = states at h
  induction h generalizing m past with
  | start hm =>
      cases hs
      rw [start_ok hm]
      simp [fresh, members]
  | @move m₀ m₁ past₀ hold hmove ih =>
      cases hs
      obtain ⟨keep, new, hlist, hnew⟩ := (hmove.edit.enrolled hold.enrolled).2 s
      have hlisted : ∀ a ∈ members m₁.squads s,
          tenure s a (m₁ :: m₀ :: past₀) = tenure s a (m₀ :: past₀) + 1 := fun a ha => by
        rw [tenure_cons, if_pos ha]
      have hstayed : ∀ a ∈ (members m₀.squads s).filter keep,
          tenure s a (m₁ :: m₀ :: past₀) = tenure s a (m₀ :: past₀) + 1 := fun a ha =>
        hlisted a (hlist ▸ List.mem_append_left _ ha)
      rw [hlist, List.pairwise_append]
      refine ⟨?_, ?_, fun a ha b hb => ?_⟩
      · refine ((ih rfl).filter keep).imp_of_mem fun {a b} ha hb hlt => ?_
        rw [hstayed a ha, hstayed b hb]
        omega
      · cases new <;> simp
      · -- the new one was not listed before, the others were
        have hb' : b ∈ new := Option.mem_toList.1 hb
        have hfirst : tenure s b (m₀ :: past₀) = 0 := by rw [tenure_cons, if_neg (hnew b hb')]
        have hbefore : 0 < tenure s a (m₀ :: past₀) := by
          rw [tenure_cons, if_pos (List.mem_filter.1 ha).1]
          omega
        have hnow := hlisted b (hlist ▸ List.mem_append_right _ hb)
        rw [hstayed a ha, hnow, hfirst]
        omega

/-- In every state of a session lists and records agree, lists go by seniority,
and whoever leads a squad has been in it for longer than any other member. -/
theorem enrollment_of_history (h : History Bot.post settings (m :: past)) :
    Enrollment.Agreement settings.squad.maxMembers m.squads m.bots ∧
      ∀ s q, m.squads.get? s = some q →
        (q.members.Pairwise fun a b => tenure s b (m :: past) < tenure s a (m :: past)) ∧
        ∀ l, q.leader = some l → l ∈ q.members ∧
          ∀ b ∈ q.members, b ≠ l → tenure s b (m :: past) < tenure s l (m :: past) := by
  have hagree := h.enrolled.agreement
  rw [h.settings_eq] at hagree
  refine ⟨hagree, fun s q hq => ?_⟩
  have hsorted := pairwise_tenure h s
  rw [members_of_get? hq] at hsorted
  refine ⟨hsorted, fun l hl => ?_⟩
  have hhead := (hagree.leader_eq s q hq).symm.trans hl
  obtain ⟨rest, hrest⟩ := List.head?_eq_some_iff.1 hhead
  rw [hrest] at hsorted ⊢
  refine ⟨List.mem_cons_self, fun b hb hne => ?_⟩
  exact List.rel_of_pairwise_cons hsorted ((List.mem_cons.1 hb).resolve_left hne)

theorem enrollment_of_three_members :
    let m := (fresh {} (.ofSeed 1)).after [.register 7 .unknown, .register 8 .unknown,
      .register 9 .unknown, .createSquad 5, .createSquad 6, .join ⟨0⟩ ⟨0⟩, .join ⟨0⟩ ⟨1⟩,
      .join ⟨0⟩ ⟨2⟩, .tick 1 ⟨0⟩, .join ⟨1⟩ ⟨0⟩]
    members m.squads ⟨0⟩ = [⟨1⟩, ⟨2⟩] ∧ roleOf m.bots ⟨1⟩ = some .leader ∧
      members m.squads ⟨1⟩ = [⟨0⟩] ∧
      Enrollment.Agreement ({} : Settings).squad.maxMembers m.squads m.bots ∧
      ∃ past, History Bot.post {} (m :: past) ∧ ∀ s q, m.squads.get? s = some q →
        q.members.Pairwise fun a b => tenure s b (m :: past) < tenure s a (m :: past) := by
  intro m
  obtain ⟨past, h⟩ : ∃ past, History Bot.post {} (m :: past) := (History.start rfl).after _
  obtain ⟨hagree, hsorted⟩ := enrollment_of_history h
  exact ⟨by decide +kernel, by decide +kernel, by decide +kernel, hagree, past, h,
    fun s q hq => (hsorted s q hq).1⟩

end Mind

end Warband
