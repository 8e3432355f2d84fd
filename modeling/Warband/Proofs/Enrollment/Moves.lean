import Warband.Proofs.Enrollment.Lists
import Warband.Squad.Enrollment

/-!
# What joining, leaving and disbanding do

Each operation is described by the records and lists that it leaves, and from
these it is seen that lists and records still agree. Leaving and disbanding
expel bots. Joining is leaving one squad and being put at the end of the list of
another.
-/
namespace Warband.Enrollment

/-! ## Rewriting records -/

theorem squadOf_modify (bots : Bots) (id other : BotId) (f : Bot → Bot) :
    squadOf (bots.modify id f) other =
      if other = id then (bots.get? other).bind fun r => (f r).squad? else squadOf bots other :=
  Roster.bind_modify ..

theorem roleOf_modify (bots : Bots) (id other : BotId) (f : Bot → Bot) :
    roleOf (bots.modify id f) other =
      if other = id then ((bots.get? other).bind fun r => (f r).membership).map (·.role)
      else roleOf bots other := by
  unfold roleOf
  rw [Roster.bind_modify]
  split <;> rfl

theorem members_modify (squads : Squads) (id other : SquadId) (f : Squad → Squad) :
    members (squads.modify id f) other =
      if other = id then ((squads.get? other).map fun s => (f s).members).getD []
      else members squads other := Roster.getD_modify ..

theorem leaderOf_modify (squads : Squads) (id other : SquadId) (f : Squad → Squad) :
    leaderOf (squads.modify id f) other =
      if other = id then (squads.get? other).bind fun s => (f s).leader
      else leaderOf squads other := Roster.bind_modify ..

theorem roleOf_isSome_iff (bots : Bots) (id : BotId) :
    (roleOf bots id).isSome ↔ (squadOf bots id).isSome := by
  unfold roleOf squadOf
  cases bots.get? id with
  | none => simp
  | some r => cases h : r.membership <;> simp [Bot.squad?, h]

/-! ## Leaving -/

/-- Who leads in the place of a bot that leaves its squad. -/
def heir? (squads : Squads) (bots : Bots) (bot : BotId) : Option BotId :=
  (squadOf bots bot).bind fun id => (squads.get? id).bind fun s =>
    if s.leader = some bot then (strike bot s).leader else none

theorem get?_setRole (bots : Bots) (bot id : BotId) (role : Role) :
    (setRole bots bot role).get? id =
      if id = bot then (bots.get? id).map (·.modifyMembership fun m => { m with role := role })
      else bots.get? id := Roster.get?_modify ..

theorem get?_promote (bots : Bots) (bot id : BotId) (before after : Squad) :
    (promote bots bot before after).get? id =
      if before.leader = some bot ∧ after.leader = some id then
        (bots.get? id).map (·.modifyMembership fun m => { m with role := .leader })
      else bots.get? id := by
  unfold promote
  split
  · cases after.leader with
    | none => simp [*]
    | some leader => simp only [get?_setRole, *, true_and, Option.some.injEq, eq_comm]
  · simp [*]

theorem leave_of_squadOf_eq_none {squads : Squads} {bots : Bots} {bot : BotId}
    (h : squadOf bots bot = none) : leave squads bots bot = (false, squads, bots) := by
  unfold squadOf at h
  simp only [leave, h]

/-- A bot that names a dead squad just stops naming it. -/
theorem leave_of_dead {squads : Squads} {bots : Bots} {bot : BotId} {id : SquadId}
    (h : squadOf bots bot = some id) (hs : squads.get? id = none) :
    leave squads bots bot =
      (true, squads, bots.modify bot fun b => { b with membership := none }) := by
  unfold squadOf at h
  simp only [leave, h, hs]

theorem leave_of_live {squads : Squads} {bots : Bots} {bot : BotId} {id : SquadId} {s : Squad}
    (h : squadOf bots bot = some id) (hs : squads.get? id = some s) :
    leave squads bots bot =
      (true, squads.modify id (strike bot),
        promote (bots.modify bot fun b => { b with membership := none }) bot s (strike bot s)) := by
  unfold squadOf at h
  simp only [leave, h, hs]

theorem get?_squads_leave (squads : Squads) (bots : Bots) (bot : BotId) (id : SquadId) :
    (leave squads bots bot).2.1.get? id =
      if squadOf bots bot = some id then (squads.get? id).map (strike bot)
      else squads.get? id := by
  cases hown : squadOf bots bot with
  | none => simp [leave_of_squadOf_eq_none hown]
  | some own =>
      cases hs : squads.get? own with
      | none =>
          rw [leave_of_dead hown hs]
          split
          · rename_i h
            cases h
            rw [hs]
            rfl
          · rfl
      | some s =>
          rw [leave_of_live hown hs, Roster.get?_modify]
          simp only [Option.some.injEq, eq_comm]

/-- The records after a bot left its squad: its own names no squad, and that of
its heir says that it leads. -/
theorem get?_leave (squads : Squads) (bots : Bots) (bot id : BotId) :
    (leave squads bots bot).2.2.get? id = (bots.get? id).map fun b =>
      if id = bot then { b with membership := none }
      else if heir? squads bots bot = some id then
        b.modifyMembership fun m => { m with role := .leader }
      else b := by
  cases hown : squadOf bots bot with
  | none =>
      rw [leave_of_squadOf_eq_none hown]
      cases hid : bots.get? id with
      | none => rfl
      | some b =>
          by_cases h : id = bot
          · subst h
            rw [squadOf_of_get? hid, Bot.squad?, Option.map_eq_none_iff] at hown
            cases b
            simp_all
          · simp [h, heir?, hown]
  | some own =>
      cases hs : squads.get? own with
      | none =>
          rw [leave_of_dead hown hs, Roster.get?_modify]
          by_cases h : id = bot <;> simp [h, heir?, hown, hs]
      | some s =>
          rw [leave_of_live hown hs, get?_promote, Roster.get?_modify]
          have hheir : heir? squads bots bot =
              if s.leader = some bot then (strike bot s).leader else none := by
            simp [heir?, hown, hs]
          rw [hheir]
          by_cases hlead : s.leader = some bot
          · by_cases h : id = bot
            · subst h
              cases bots.get? id <;> simp [Bot.modifyMembership]
            · by_cases hnew : (strike bot s).leader = some id <;> simp [h, hlead, hnew]
          · by_cases h : id = bot <;> simp [hlead, h]

theorem squadOf_leave (squads : Squads) (bots : Bots) (bot id : BotId) :
    squadOf (leave squads bots bot).2.2 id = if id = bot then none else squadOf bots id := by
  unfold squadOf
  rw [get?_leave, Option.bind_map]
  cases hid : bots.get? id with
  | none => simp
  | some b =>
      by_cases h₁ : id = bot
      · simp [h₁, Bot.squad?]
      · by_cases h₂ : heir? squads bots bot = some id
        · cases hm : b.membership <;> simp [h₁, h₂, Bot.squad?, Bot.modifyMembership, hm]
        · simp [h₁, h₂]

theorem roleOf_leave {squads : Squads} {bots : Bots} {bot id : BotId} (hne : id ≠ bot) :
    roleOf (leave squads bots bot).2.2 id =
      if heir? squads bots bot = some id then (roleOf bots id).map fun _ => .leader
      else roleOf bots id := by
  unfold roleOf
  rw [get?_leave, Option.bind_map]
  cases hid : bots.get? id with
  | none => simp
  | some b =>
      by_cases h : heir? squads bots bot = some id
      · cases hm : b.membership <;> simp [hne, h, Bot.modifyMembership, hm]
      · simp [hne, h]

theorem head?_filter_ne {bot : BotId} {ids : List BotId} (h : ids.head? ≠ some bot) :
    (ids.filter (· ≠ bot)).head? = ids.head? := by
  cases ids with
  | nil => rfl
  | cons id ids =>
      have hne : id ≠ bot := by simpa using h
      simp [hne]

theorem members_leave (squads : Squads) (bots : Bots) (bot : BotId) (squad : SquadId) :
    members (leave squads bots bot).2.1 squad =
      if squadOf bots bot = some squad then (members squads squad).filter (· ≠ bot)
      else members squads squad := by
  unfold members
  rw [get?_squads_leave]
  split
  · cases squads.get? squad <;> rfl
  · rfl

namespace Consistent

variable {limit : Nat} {squads : Squads} {bots : Bots}

/-- Leaving takes a bot off the lists of all squads. -/
theorem members_leave (h : Consistent limit squads bots) (bot : BotId) (id : SquadId) :
    members (leave squads bots bot).2.1 id = (members squads id).filter (· ≠ bot) := by
  rw [Enrollment.members_leave]
  split
  · rfl
  · rename_i hne
    have hkeep : (members squads id).filter (· ≠ bot) = members squads id :=
      List.filter_eq_self.2 fun b hb => decide_eq_true fun heq =>
        hne ((h.squadOf_iff bot id).2 (heq ▸ hb))
    exact hkeep.symm

/-- Whoever is first on a list after a bot left leads. -/
theorem leaderOf_leave (h : Consistent limit squads bots) (bot : BotId) (id : SquadId) :
    leaderOf (leave squads bots bot).2.1 id = (members (leave squads bots bot).2.1 id).head? := by
  have hold := h.leaderOf_eq id
  unfold leaderOf members at hold ⊢
  rw [get?_squads_leave]
  split
  · cases hs : squads.get? id with
    | none => rfl
    | some s =>
        simp only [hs, Option.map_some, Option.bind_some, Option.getD_some, strike] at hold ⊢
        split
        · rfl
        · rename_i hlead
          rw [head?_filter_ne (hold ▸ hlead), hold]
  · exact hold

/-- Whoever leads a squad after a bot left was in it before and is another bot. -/
theorem squadOf_of_leads_after (h : Consistent limit squads bots) {bot b : BotId} {id : SquadId}
    (hb : leaderOf (leave squads bots bot).2.1 id = some b) :
    b ≠ bot ∧ squadOf bots b = some id := by
  have hmem := List.mem_of_mem_head? (h.leaderOf_leave bot id ▸ hb)
  rw [h.members_leave, List.mem_filter] at hmem
  exact ⟨of_decide_eq_true hmem.2, (h.squadOf_iff b id).2 hmem.1⟩

/-- The heir leads the squad that the bot left. -/
theorem leaderOf_heir (h : Consistent limit squads bots) {bot heir : BotId}
    (hh : heir? squads bots bot = some heir) :
    ∃ id, squadOf bots bot = some id ∧ leaderOf squads id = some bot ∧
      leaderOf (leave squads bots bot).2.1 id = some heir ∧ heir ∈ members squads id ∧
      heir ≠ bot := by
  obtain ⟨id, hown, hrest⟩ := Option.bind_eq_some_iff.1 hh
  obtain ⟨s, hs, hnew⟩ := Option.bind_eq_some_iff.1 hrest
  split at hnew
  case isFalse => simp at hnew
  rename_i hlead
  have hafter : leaderOf (leave squads bots bot).2.1 id = some heir := by
    rw [leaderOf, get?_squads_leave, if_pos hown, hs]
    exact hnew
  have hmem := List.mem_of_mem_head? (h.leaderOf_leave bot id ▸ hafter)
  rw [h.members_leave, List.mem_filter] at hmem
  exact ⟨id, hown, by rw [leaderOf_of_get? hs, hlead], hafter, hmem.1, of_decide_eq_true hmem.2⟩

theorem squadOf_leader (h : Consistent limit squads bots) {bot : BotId} {id : SquadId}
    (hl : leaderOf squads id = some bot) : squadOf bots bot = some id :=
  (h.squadOf_iff bot id).2 (List.mem_of_mem_head? (h.leaderOf_eq id ▸ hl))

theorem heir?_of_leader (h : Consistent limit squads bots) {bot : BotId} {id : SquadId}
    (hl : leaderOf squads id = some bot) :
    heir? squads bots bot = leaderOf (Enrollment.leave squads bots bot).2.1 id := by
  have hown := h.squadOf_leader hl
  unfold leaderOf at hl ⊢
  rw [heir?, get?_squads_leave, if_pos hown, hown]
  simp only [Option.bind_some]
  cases hs : squads.get? id with
  | none => rfl
  | some s =>
      have hlead : s.leader = some bot := by simpa [hs] using hl
      simp [hlead]

theorem leave (h : Consistent limit squads bots) (bot : BotId) :
    Consistent limit (Enrollment.leave squads bots bot).2.1
      (Enrollment.leave squads bots bot).2.2 := by
  refine h.expel (· = bot) (fun b => ?_) (fun s => ?_) (h.leaderOf_leave bot)
    fun b s hne hmem => ?_
  · rw [squadOf_leave]
    simp
  · rw [h.members_leave]
    simp
  · have hne : b ≠ bot := of_decide_eq_false hne
    have hown := (h.squadOf_iff b s).2 hmem
    rw [roleOf_leave hne]
    by_cases hheir : heir? squads bots bot = some b
    · -- the heir had a place in the squad already, so it has a role to write
      obtain ⟨id, -, -, hafter, hin, -⟩ := h.leaderOf_heir hheir
      have hsame : id = s := by
        rw [← h.squadOf_iff, hown] at hin
        exact (Option.some.inj hin).symm
      obtain ⟨role, hrole⟩ := Option.isSome_iff_exists.1
        ((roleOf_isSome_iff bots b).2 (by rw [hown]; rfl))
      simp [hheir, hrole, ← hsame, hafter]
    · have hlead : leaderOf (Enrollment.leave squads bots bot).2.1 s = some b ↔
          leaderOf squads s = some b := by
        by_cases hbot : leaderOf squads s = some bot
        · rw [← h.heir?_of_leader hbot, hbot]
          simp [hheir, Ne.symm hne]
        · rw [h.leaderOf_leave, h.members_leave, head?_filter_ne (h.leaderOf_eq s ▸ hbot),
            h.leaderOf_eq]
      rw [if_neg hheir, hlead]
      exact h.role_iff b s hmem

end Consistent

/-! ## Joining -/

theorem squadOf_enroll {bots : Bots} {bot : BotId} (h : bots.contains bot) (id : BotId)
    (m : Membership) :
    squadOf (bots.modify bot fun b => { b with membership := some m }) id =
      if id = bot then some m.squad else squadOf bots id := by
  rw [squadOf_modify]
  split
  · rename_i hid
    obtain ⟨b, hb⟩ := Roster.contains_iff.1 h
    simp [hid, hb, Bot.squad?]
  · rfl

theorem roleOf_enroll {bots : Bots} {bot : BotId} (h : bots.contains bot) (id : BotId)
    (m : Membership) :
    roleOf (bots.modify bot fun b => { b with membership := some m }) id =
      if id = bot then some m.role else roleOf bots id := by
  rw [roleOf_modify]
  split
  · rename_i hid
    obtain ⟨b, hb⟩ := Roster.contains_iff.1 h
    simp [hid, hb]
  · rfl

theorem members_enroll {squads : Squads} {id : SquadId} {s : Squad} (h : squads.get? id = some s)
    (bot : BotId) (other : SquadId) :
    members (squads.modify id (enroll bot)) other =
      if other = id then s.members ++ [bot] else members squads other := by
  rw [members_modify]
  split
  · rename_i hid
    simp [hid, h, enroll]
  · rfl

theorem leaderOf_enroll {squads : Squads} {id : SquadId} {s : Squad}
    (h : squads.get? id = some s) (bot : BotId) (other : SquadId) :
    leaderOf (squads.modify id (enroll bot)) other =
      if other = id then s.leader.or (some bot) else leaderOf squads other := by
  rw [leaderOf_modify]
  split
  · rename_i hid
    simp [hid, h, enroll]
  · rfl

/-- The new one leads exactly if nobody did, and says so. -/
theorem Consistent.welcome_leads {limit : Nat} {squads : Squads} {bots : Bots}
    (h : Consistent limit squads bots) {bot : BotId} {id : SquadId} {s : Squad}
    (hfree : squadOf bots bot = none) (hs : squads.get? id = some s) :
    (welcome id s).role = .leader ↔ s.leader.or (some bot) = some bot := by
  cases hl : s.leader with
  | none => simp [welcome, hl]
  | some l =>
      have hne : l ≠ bot := by
        rintro rfl
        have hin := h.squadOf_leader ((leaderOf_of_get? hs).trans hl)
        rw [hfree] at hin
        simp at hin
      simp [welcome, hl, hne]

/-- A bot of no squad may be put at the end of a list that has room. -/
theorem Consistent.enroll {limit : Nat} {squads : Squads} {bots : Bots}
    (h : Consistent limit squads bots) {bot : BotId} {id : SquadId} {s : Squad}
    (hlive : bots.contains bot) (hfree : squadOf bots bot = none)
    (hs : squads.get? id = some s) (hroom : s.members.length < limit) :
    Consistent limit (squads.modify id (Enrollment.enroll bot))
      (bots.modify bot fun b => { b with membership := some (welcome id s) }) := by
  have hout : ∀ t, bot ∉ members squads t := h.not_mem_of_squadOf_eq_none hfree
  have hmem := members_of_get? hs
  have hlead := leaderOf_of_get? hs
  refine ⟨fun b t => ?_, fun t => ?_, fun t => ?_, fun t => ?_, fun b t hb => ?_⟩
  · have hold := h.squadOf_iff b t
    rw [squadOf_enroll hlive, members_enroll hs, ← hmem]
    by_cases h₁ : b = bot
    · by_cases h₂ : t = id
      · simp [h₁, h₂, welcome]
      · simp [h₁, h₂, welcome, hout, Ne.symm h₂]
    · by_cases h₂ : t = id
      · subst h₂; simp [h₁, hold]
      · simp [h₁, h₂, hold]
  · rw [members_enroll hs]
    split
    · rw [← hmem, ← List.concat_eq_append]
      exact (h.nodup id).concat (hout id)
    · exact h.nodup t
  · rw [members_enroll hs]
    split
    · rw [List.length_append]
      exact hroom
    · exact h.length_le t
  · rw [members_enroll hs, leaderOf_enroll hs]
    split
    · rw [← hlead, h.leaderOf_eq, ← hmem, List.head?_append]
      rfl
    · exact h.leaderOf_eq t
  · rw [roleOf_enroll hlive, leaderOf_enroll hs]
    rw [members_enroll hs, ← hmem] at hb
    by_cases h₁ : b = bot
    · have ht : t = id := by
        by_contra hne
        rw [if_neg hne, h₁] at hb
        exact hout t hb
      rw [if_pos h₁, if_pos ht, h₁, Option.some.injEq]
      exact h.welcome_leads hfree hs
    · have hin : b ∈ members squads t := by
        by_cases h₂ : t = id <;> simp_all
      rw [if_neg h₁, h.role_iff b t hin]
      by_cases h₂ : t = id
      · subst h₂
        rw [if_pos rfl, hlead]
        cases s.leader <;> simp [Ne.symm h₁]
      · rw [if_neg h₂]

theorem refusal?_eq_none {squads : Squads} {bots : Bots} {squad : SquadId} {bot : BotId}
    {maxMembers : Nat} (h : refusal? squads bots squad bot maxMembers = none) :
    bots.contains bot ∧ ∃ s, squads.get? squad = some s ∧
      (bot ∈ s.members ∨ s.members.length < maxMembers) := by
  unfold refusal? at h
  split at h
  case isFalse => simp at h
  rename_i hlive
  cases hs : squads.get? squad with
  | none => simp [hs] at h
  | some s =>
      refine ⟨hlive, s, rfl, ?_⟩
      simp only [hs] at h
      by_cases hin : bot ∈ s.members
      · exact .inl hin
      · rw [if_neg hin] at h
        split at h
        · simp at h
        · right
          omega

theorem join_of_listed {squads : Squads} {bots : Bots} {squad : SquadId} {bot : BotId}
    {maxMembers : Nat} (href : refusal? squads bots squad bot maxMembers = none)
    (hin : listed squads squad bot) :
    join squads bots squad bot maxMembers = .ok (.ok (), squads, bots) := by
  unfold join
  rw [href]
  exact if_pos hin

theorem contains_leave {squads : Squads} {bots : Bots} {id : BotId} (h : bots.contains id)
    (bot : BotId) : (leave squads bots bot).2.2.contains id := by
  obtain ⟨b, hb⟩ := Roster.contains_iff.1 h
  rw [Roster.contains_eq_isSome, get?_leave, hb]
  rfl

/-- A bot that is not listed yet leaves its squad and comes last on the list. -/
theorem join_of_unlisted {squads : Squads} {bots : Bots} {squad : SquadId} {bot : BotId}
    {maxMembers : Nat} (href : refusal? squads bots squad bot maxMembers = none)
    (hout : ¬ listed squads squad bot) :
    ∃ s', (leave squads bots bot).2.1.get? squad = some s' ∧
      join squads bots squad bot maxMembers =
        .ok (.ok (), (leave squads bots bot).2.1.modify squad (enroll bot),
          (leave squads bots bot).2.2.modify bot
            fun b => { b with membership := some (welcome squad s') }) := by
  obtain ⟨hlive, s, hs, -⟩ := refusal?_eq_none href
  obtain ⟨s', hs'⟩ : ∃ s', (leave squads bots bot).2.1.get? squad = some s' := by
    rw [get?_squads_leave, hs]
    split
    · exact ⟨_, rfl⟩
    · exact ⟨_, rfl⟩
  refine ⟨s', hs', ?_⟩
  unfold join
  simp only [href, hout, Bool.false_eq_true, if_false, bind, Except.bind, Roster.fetch_of_get? hs',
    Roster.update_of_contains _ (Roster.contains_of_get? hs'),
    Roster.update_of_contains _ (contains_leave hlive bot), pure, Except.pure]

/-- Joining never faults. It changes nothing, or takes the bot out of its squad
and puts it at the end of the list of a live squad with room. -/
theorem join_cases (squads : Squads) (bots : Bots) (squad : SquadId) (bot : BotId)
    (maxMembers : Nat) :
    (∃ answer, join squads bots squad bot maxMembers = .ok (answer, squads, bots)) ∨
      ∃ s s', bots.contains bot ∧ squads.get? squad = some s ∧ bot ∉ s.members ∧
        s.members.length < maxMembers ∧
        (leave squads bots bot).2.1.get? squad = some s' ∧
        join squads bots squad bot maxMembers =
          .ok (.ok (), (leave squads bots bot).2.1.modify squad (enroll bot),
            (leave squads bots bot).2.2.modify bot
              fun b => { b with membership := some (welcome squad s') }) := by
  cases href : refusal? squads bots squad bot maxMembers with
  | some e => exact .inl ⟨.error e, by rw [join, href]⟩
  | none =>
      obtain ⟨hlive, s, hs, hroom⟩ := refusal?_eq_none href
      by_cases hin : listed squads squad bot
      · exact .inl ⟨.ok (), join_of_listed href hin⟩
      · have hout : bot ∉ s.members := by simpa [listed, hs] using hin
        obtain ⟨s', hs', hjoin⟩ := join_of_unlisted href hin
        exact .inr ⟨s, s', hlive, hs, hout, hroom.resolve_left hout, hs', hjoin⟩

theorem Consistent.join {limit : Nat} {squads squads' : Squads} {bots bots' : Bots}
    (h : Consistent limit squads bots) {squad : SquadId} {bot : BotId} {answer : Except Error Unit}
    (hjoin : join squads bots squad bot limit = .ok (answer, squads', bots')) :
    Consistent limit squads' bots' := by
  rcases join_cases squads bots squad bot limit with
    ⟨a, heq⟩ | ⟨s, s', hlive, hs, -, hroom, hs', heq⟩
  · rw [hjoin] at heq
    cases heq
    exact h
  · rw [hjoin] at heq
    cases heq
    have hlen : s'.members.length ≤ s.members.length := by
      rw [← members_of_get? hs', ← members_of_get? hs, h.members_leave]
      exact List.length_filter_le ..
    exact (h.leave bot).enroll (contains_leave hlive bot) (by simp [squadOf_leave]) hs' (by omega)

/-! ## Disbanding -/

theorem get?_forgetSquad (id : SquadId) (ids : List BotId) (bots : Bots) (bot : BotId) :
    (ids.foldl (forgetSquad id) bots).get? bot = (bots.get? bot).map fun b =>
      if bot ∈ ids ∧ b.squad? = some id then { b with membership := none } else b := by
  induction ids generalizing bots with
  | nil => simp
  | cons other ids ih =>
      rw [List.foldl_cons, ih, forgetSquad, Roster.get?_modify]
      cases bots.get? bot with
      | none => simp
      | some b =>
          by_cases h₁ : bot = other
          · subst h₁
            by_cases h₂ : b.squad? = some id <;> simp [h₂]
          · simp [h₁]

theorem disband_of_dead {squads : Squads} (bots : Bots) {id : SquadId}
    (h : squads.get? id = none) : disband squads bots id = (false, squads, bots) := by
  have hnone : squads.remove? id = none := by
    rw [Roster.remove?_eq_none_iff]
    simpa [Roster.get?] using h
  simp only [disband, hnone]

/-- The lists and records after a live squad was disbanded. -/
theorem disband_of_live {squads : Squads} (bots : Bots) {id : SquadId} {s : Squad}
    (h : squads.get? id = some s) :
    ∃ squads', disband squads bots id = (true, squads', s.members.foldl (forgetSquad id) bots) ∧
      ∀ other, squads'.get? other = if other = id then none else squads.get? other := by
  obtain ⟨⟨gone, squads'⟩, hgone⟩ := Option.isSome_iff_exists.1
    (Roster.remove?_isSome_iff.2 (Roster.contains_of_get? h))
  have hrec : gone.record = s := by
    have := Roster.entryAt?_of_remove? hgone
    simpa [Roster.get?, this] using h
  exact ⟨squads', by simp only [disband, hgone, hrec], Roster.get?_remove? hgone⟩

theorem squadOf_forgetSquad (id : SquadId) (ids : List BotId) (bots : Bots) (bot : BotId) :
    squadOf (ids.foldl (forgetSquad id) bots) bot =
      if bot ∈ ids ∧ squadOf bots bot = some id then none else squadOf bots bot := by
  unfold squadOf
  rw [get?_forgetSquad]
  cases hb : bots.get? bot with
  | none => simp
  | some b =>
      simp only [Option.map_some, Option.bind_some]
      split <;> rfl

theorem roleOf_forgetSquad {id : SquadId} {ids : List BotId} {bots : Bots} {bot : BotId}
    (h : bot ∉ ids) : roleOf (ids.foldl (forgetSquad id) bots) bot = roleOf bots bot := by
  unfold roleOf
  rw [get?_forgetSquad]
  cases bots.get? bot <;> simp [h]

theorem Consistent.disband {limit : Nat} {squads : Squads} {bots : Bots}
    (h : Consistent limit squads bots) (id : SquadId) :
    Consistent limit (Enrollment.disband squads bots id).2.1
      (Enrollment.disband squads bots id).2.2 := by
  cases hs : squads.get? id with
  | none =>
      rw [disband_of_dead bots hs]
      exact h
  | some s =>
      obtain ⟨squads', heq, hget⟩ := disband_of_live bots hs
      have hown : ∀ b, b ∈ s.members ↔ squadOf bots b = some id := fun b => by
        rw [h.squadOf_iff, members_of_get? hs]
      have hmem : ∀ t, members squads' t = if t = id then [] else members squads t := fun t => by
        unfold members
        rw [hget]
        split <;> rfl
      have hlead : ∀ t, leaderOf squads' t = if t = id then none else leaderOf squads t :=
        fun t => by
          unfold leaderOf
          rw [hget]
          split <;> rfl
      rw [heq]
      refine h.expel (· ∈ s.members) (fun b => ?_) (fun t => ?_) (fun t => ?_)
        fun b t hb hin => ?_
      · rw [squadOf_forgetSquad]
        simp [hown]
      · rw [hmem]
        split
        · rename_i ht
          rw [ht, members_of_get? hs]
          simp
        · rename_i ht
          refine (List.filter_eq_self.2 fun b hb => ?_).symm
          rw [← h.squadOf_iff] at hb
          simp [hown, hb, ht]
      · rw [hmem, hlead]
        split
        · rfl
        · exact h.leaderOf_eq t
      · have hb : b ∉ s.members := of_decide_eq_false hb
        have ht : t ≠ id := by
          rintro rfl
          exact hb (members_of_get? hs ▸ hin)
        rw [roleOf_forgetSquad hb, hlead, if_neg ht]
        exact h.role_iff b t hin

/-! ## Coming and going -/

/-- A new bot without a squad changes no list. -/
theorem Consistent.adoptBot {limit : Nat} {squads : Squads} {bots bots' : Bots}
    (h : Consistent limit squads bots) {hostId : HostId} {b : Bot} {id : BotId}
    (hadopt : bots.adopt hostId b = .ok (id, bots')) (hb : b.membership = none) :
    Consistent limit squads bots' := by
  have hsquad := Roster.reading_adopt hadopt (·.bind (·.squad?)) (by simp [Bot.squad?, hb])
  have hrole := Roster.reading_adopt hadopt (fun o => (o.bind Bot.membership).map Membership.role)
    (by simp [hb])
  exact h.of_readings hsquad (fun x => by rw [roleOf, hrole x, roleOf]) (fun _ => rfl)
    fun _ => rfl

theorem Consistent.adoptSquad {limit : Nat} {squads squads' : Squads} {bots : Bots}
    (h : Consistent limit squads bots) {hostId : HostId} {s : Squad} {id : SquadId}
    (hadopt : squads.adopt hostId s = .ok (id, squads')) (hm : s.members = [])
    (hl : s.leader = none) : Consistent limit squads' bots :=
  h.of_readings (fun _ => rfl) (fun _ => Iff.rfl)
    (Roster.reading_adopt hadopt (fun o => (o.map Squad.members).getD []) hm)
    (Roster.reading_adopt hadopt (·.bind (·.leader)) hl)

/-- A bot that is in no squad can be removed. -/
theorem Consistent.removeBot {limit : Nat} {squads : Squads} {bots bots' : Bots}
    (h : Consistent limit squads bots) {id : BotId} {gone : Entry .bot Bot}
    (hremove : bots.remove? id = some (gone, bots')) (hid : squadOf bots id = none) :
    Consistent limit squads bots' := by
  have hnone : roleOf bots id = none := by
    rw [← Option.not_isSome_iff_eq_none, roleOf_isSome_iff, hid]
    simp
  have hrole := Roster.reading_remove? hremove
    (fun o => (o.bind Bot.membership).map Membership.role) hnone
  exact h.of_readings (Roster.reading_remove? hremove (·.bind (·.squad?)) hid)
    (fun x => by rw [roleOf, hrole x, roleOf]) (fun _ => rfl) fun _ => rfl

/-! ## What none of this touches -/

theorem kept_setRole (bots : Bots) (bot : BotId) (role : Role) :
    Roster.Kept Bot.civil bots (setRole bots bot role) := .modify fun _ => rfl

theorem kept_promote (bots : Bots) (bot : BotId) (before after : Squad) :
    Roster.Kept Bot.civil bots (promote bots bot before after) := by
  unfold promote
  split
  · split
    · exact kept_setRole ..
    · exact .refl bots
  · exact .refl bots

theorem kept_leave (squads : Squads) (bots : Bots) (bot : BotId) :
    Roster.Kept Bot.civil bots (leave squads bots bot).2.2 := by
  unfold leave
  split
  · exact .refl bots
  · have hfreed : Roster.Kept Bot.civil bots
        (bots.modify bot fun b => { b with membership := none }) := .modify fun _ => rfl
    dsimp only
    split
    · exact hfreed
    · exact hfreed.trans (kept_promote ..)

theorem kept_join {squads squads' : Squads} {bots bots' : Bots} {squad : SquadId} {bot : BotId}
    {maxMembers : Nat} {answer : Except Error Unit}
    (h : join squads bots squad bot maxMembers = .ok (answer, squads', bots')) :
    Roster.Kept Bot.civil bots bots' := by
  rcases join_cases squads bots squad bot maxMembers with ⟨a, heq⟩ | ⟨s, s', -, -, -, -, -, heq⟩
  · rw [h] at heq
    cases heq
    exact .refl bots
  · rw [h] at heq
    cases heq
    exact (kept_leave squads bots bot).trans (.modify fun _ => rfl)

theorem kept_disband (squads : Squads) (bots : Bots) (id : SquadId) :
    Roster.Kept Bot.civil bots (disband squads bots id).2.2 := by
  unfold disband
  split
  · exact .refl bots
  · refine .foldl fun b _ bots' _ => .modify fun r => ?_
    split <;> rfl

/-! ## Squads beside their lists -/

section Squads

variable {β : Type} {π : Squad → β}
  (hπ : ∀ s members leader, π { s with members := members, leader := leader } = π s)

include hπ

/-- What is not told from list and leader stays when somebody leaves. -/
theorem kept_squads_leave (squads : Squads) (bots : Bots) (bot : BotId) :
    Roster.Kept π squads (leave squads bots bot).2.1 := by
  unfold leave
  split
  · exact .refl squads
  · dsimp only
    split
    · exact .refl squads
    · exact .modify fun s => hπ s ..

theorem kept_squads_join {squads squads' : Squads} {bots bots' : Bots} {squad : SquadId}
    {bot : BotId} {maxMembers : Nat} {answer : Except Error Unit}
    (h : join squads bots squad bot maxMembers = .ok (answer, squads', bots')) :
    Roster.Kept π squads squads' := by
  rcases join_cases squads bots squad bot maxMembers with ⟨a, heq⟩ | ⟨s, s', -, -, -, -, -, heq⟩
  · rw [h] at heq
    cases heq
    exact .refl squads
  · rw [h] at heq
    cases heq
    exact (kept_squads_leave hπ squads bots bot).trans (.modify fun s => hπ s ..)

end Squads

/-- A squad that is left after another one was disbanded is as it was. -/
theorem get?_of_disband {squads : Squads} {bots : Bots} {id other : SquadId} {s : Squad}
    (h : (disband squads bots id).2.1.get? other = some s) : squads.get? other = some s := by
  cases hs : squads.get? id with
  | none => rwa [disband_of_dead bots hs] at h
  | some gone =>
      obtain ⟨squads', hrun, hget⟩ := disband_of_live bots hs
      rw [hrun, hget] at h
      split at h
      · cases h
      · exact h

end Warband.Enrollment
