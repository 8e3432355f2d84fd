import Warband.Proofs.Enrollment.Moves

/-!
# Lapsed memberships

The rosters of bots and of squads can be edited on their own. A bot that is
removed while a squad lists it takes its record along and leaves the list as it
is: its membership has lapsed, and nothing but the end of the squad takes it off
the list. The handle is given out again, and so the list may come to name a bot
that was never in the squad.

A lapsed membership is the only way in which lists and records can differ: a
record names only squads that list its bot. Joining a squad looks at the list
alone, so it succeeds for a bot whose membership has lapsed, and leaves a record
that does not name the squad.
-/
namespace Warband.Enrollment

/-- What a caller does with the two rosters. A new record may have a host id. -/
inductive Op where
  | addBot (hostId : Option HostId)
  | removeBot (bot : BotId)
  | addSquad (hostId : Option HostId) (strategies targetSize : Nat)
  | removeSquad (squad : SquadId)
  | join (squad : SquadId) (bot : BotId) (maxMembers : Nat)
  | leave (bot : BotId)
  | lead (squad : SquadId) (bot : BotId)

/-- Adds a record, under a host id if there is one. -/
def addUnder {k : Kind} {α : Type} (r : Roster k α) (hostId : Option HostId) (a : α) :
    Except Fault (Roster k α) :=
  match hostId with
  | none => .ok (r.add a).2
  | some hostId => (r.adopt hostId a).map (·.2)

def perform : Op → Squads × Bots → Except Fault (Squads × Bots)
  | .addBot hostId, (squads, bots) => (addUnder bots hostId {}).map (squads, ·)
  | .removeBot bot, (squads, bots) => .ok (squads, ((bots.remove? bot).map (·.2)).getD bots)
  | .addSquad hostId strategies targetSize, (squads, bots) =>
    (addUnder squads hostId (.recruit strategies targetSize)).map (·, bots)
  | .removeSquad squad, (squads, bots) => .ok (disband squads bots squad).2
  | .join squad bot maxMembers, (squads, bots) =>
    (join squads bots squad bot maxMembers).map (·.2)
  | .leave bot, (squads, bots) => .ok (leave squads bots bot).2
  | .lead squad bot, (squads, bots) => .ok (lead squads bots squad bot).2

/-- Two empty rosters after some operations, the newest first. -/
def after : List Op → Except Fault (Squads × Bots)
  | [] => .ok (.empty, .empty)
  | op :: ops => after ops >>= perform op

/-- The squad listed the bot when it was removed, and has not been removed since. -/
inductive Lapsed (squad : SquadId) (bot : BotId) : List Op → Prop
  | removed {ops : List Op} {squads : Squads} {bots : Bots} (h : after ops = .ok (squads, bots))
      (hlisted : bot ∈ members squads squad) : Lapsed squad bot (.removeBot bot :: ops)
  | further {op : Op} {ops : List Op} (h : Lapsed squad bot ops) (hop : op ≠ .removeSquad squad) :
      Lapsed squad bot (op :: ops)

/-! ## Lists and records -/

/-- A squad lists a bot whose record does not name it. -/
def Astray (squads : Squads) (bots : Bots) (squad : SquadId) (bot : BotId) : Prop :=
  bot ∈ members squads squad ∧ squadOf bots bot ≠ some squad

/-- What the records say is backed by the lists: a record names only a squad that
lists its bot. -/
def Backed (squads : Squads) (bots : Bots) : Prop :=
  ∀ squad bot, squadOf bots bot = some squad → bot ∈ members squads squad

/-- What an operation does to lists and records: they still agree as far as they
did, and the bots astray are those of before, unless their squad was removed, and
the bot that was removed from under a list. -/
structure Carried (op : Op) (squads : Squads) (bots : Bots) (squads' : Squads) (bots' : Bots) :
    Prop where
  backed : Backed squads' bots'
  astray : ∀ squad bot, Astray squads' bots' squad bot ↔ op ≠ .removeSquad squad ∧
    (Astray squads bots squad bot ∨ op = .removeBot bot ∧ bot ∈ members squads squad)

namespace Op

/-- The operation removes neither a bot nor a squad. -/
def Keeps (op : Op) : Prop := (∀ bot, op ≠ .removeBot bot) ∧ ∀ squad, op ≠ .removeSquad squad

end Op

variable {squads squads' : Squads} {bots bots' : Bots}

/-- An operation that removes nothing leaves astray who was astray. -/
theorem Carried.of_keeps {op : Op} (hop : op.Keeps) (hbacked : Backed squads' bots')
    (h : ∀ squad bot, Astray squads' bots' squad bot ↔ Astray squads bots squad bot) :
    Carried op squads bots squads' bots' where
  backed := hbacked
  astray squad bot := by
    rw [h]
    constructor
    · exact fun hastray => ⟨hop.2 squad, .inl hastray⟩
    · exact fun hbefore => hbefore.2.resolve_right fun hremoved => hop.1 bot hremoved.1

/-- An operation that moves nobody. -/
theorem Carried.of_readings {op : Op} (hop : op.Keeps) (hbacked : Backed squads bots)
    (hnamed : ∀ bot, squadOf bots' bot = squadOf bots bot)
    (hmembers : ∀ squad, members squads' squad = members squads squad) :
    Carried op squads bots squads' bots' :=
  .of_keeps hop (fun squad bot h => by rw [hmembers]; exact hbacked squad bot (hnamed bot ▸ h))
    fun squad bot => by rw [Astray, Astray, hnamed, hmembers]

/-! ## New records -/

theorem addUnder_ok {k : Kind} {α : Type} (r : Roster k α) (hostId : Option HostId) (a : α) :
    ∃ r', addUnder r hostId a = .ok r' ∧ ∀ {β : Type} (g : Option α → β), g (some a) = g none →
      ∀ id, g (r'.get? id) = g (r.get? id) := by
  cases hostId with
  | none =>
      refine ⟨(r.add a).2, rfl, fun g hg id => ?_⟩
      rw [Roster.get?_add]
      split
      · rename_i hid
        rw [hid, Roster.add_id, Roster.get?_nextIndex, hg]
      · rfl
  | some hostId =>
      obtain ⟨r', h⟩ := r.adopt_ok hostId a
      exact ⟨r', by rw [addUnder, h]; rfl, fun g hg => Roster.reading_adopt h g hg⟩

theorem carried_addBot (hbacked : Backed squads bots) (hostId : Option HostId) :
    ∃ bots', addUnder bots hostId {} = .ok bots' ∧
      Carried (.addBot hostId) squads bots squads bots' := by
  obtain ⟨bots', hadd, hread⟩ := addUnder_ok bots hostId {}
  exact ⟨bots', hadd, .of_readings ⟨nofun, nofun⟩ hbacked (hread (·.bind (·.squad?)) rfl)
    fun _ => rfl⟩

theorem carried_addSquad (hbacked : Backed squads bots) (hostId : Option HostId)
    (strategies targetSize : Nat) :
    ∃ squads', addUnder squads hostId (.recruit strategies targetSize) = .ok squads' ∧
      Carried (.addSquad hostId strategies targetSize) squads bots squads' bots := by
  obtain ⟨squads', hadd, hread⟩ := addUnder_ok squads hostId (.recruit strategies targetSize)
  exact ⟨squads', hadd, .of_readings ⟨nofun, nofun⟩ hbacked (fun _ => rfl)
    (hread (fun o => (o.map Squad.members).getD []) rfl)⟩

/-! ## Removals -/

theorem squadOf_remove (bots : Bots) (bot id : BotId) :
    squadOf (((bots.remove? bot).map (·.2)).getD bots) id =
      if id = bot then none else squadOf bots id := by
  cases h : bots.remove? bot with
  | none =>
      have hnone : bots.get? bot = none := by
        rw [Roster.get?, Roster.remove?_eq_none_iff.1 h]
        rfl
      rw [Option.map_none, Option.getD_none]
      split
      · rename_i hid
        rw [squadOf, hid, hnone, Option.bind_none]
      · rfl
  | some gone =>
      rw [Option.map_some, Option.getD_some, squadOf, Roster.get?_remove? h]
      split <;> rfl

theorem carried_removeBot (hbacked : Backed squads bots) (bot : BotId) :
    Carried (.removeBot bot) squads bots squads (((bots.remove? bot).map (·.2)).getD bots) where
  backed squad id h := by
    rw [squadOf_remove] at h
    split at h
    · cases h
    · exact hbacked squad id h
  astray squad id := by
    rw [Astray, Astray, squadOf_remove]
    by_cases hid : id = bot
    · subst hid
      rw [if_pos rfl]
      constructor
      · exact fun hastray => ⟨nofun, .inr ⟨rfl, hastray.1⟩⟩
      · rintro ⟨-, hastray | hlost⟩
        · exact ⟨hastray.1, nofun⟩
        · exact ⟨hlost.2, nofun⟩
    · simp [hid, Ne.symm hid]

theorem readings_disband (hbacked : Backed squads bots) (squad : SquadId) :
    (∀ id, members (disband squads bots squad).2.1 id =
      if id = squad then [] else members squads id) ∧
      ∀ bot, squadOf (disband squads bots squad).2.2 bot =
        if squadOf bots bot = some squad then none else squadOf bots bot := by
  cases hs : squads.get? squad with
  | none =>
      have hempty : members squads squad = [] := by rw [members, hs]; rfl
      rw [disband_of_dead bots hs]
      refine ⟨fun id => ?_, fun bot => ?_⟩
      · split
        · rename_i hid
          rw [hid, hempty]
        · rfl
      · rw [if_neg]
        intro hnamed
        have hmem := hbacked squad bot hnamed
        rw [hempty] at hmem
        cases hmem
  | some s =>
      obtain ⟨squads', hrun, hget⟩ := disband_of_live bots hs
      rw [hrun]
      refine ⟨fun id => ?_, fun bot => ?_⟩
      · rw [members, hget]
        split <;> rfl
      · rw [squadOf_forgetSquad]
        by_cases hnamed : squadOf bots bot = some squad
        · have hmem := hbacked squad bot hnamed
          rw [members_of_get? hs] at hmem
          rw [if_pos ⟨hmem, hnamed⟩, if_pos hnamed]
        · rw [if_neg fun h => hnamed h.2, if_neg hnamed]

theorem carried_removeSquad (hbacked : Backed squads bots) (squad : SquadId) :
    Carried (.removeSquad squad) squads bots (disband squads bots squad).2.1
      (disband squads bots squad).2.2 := by
  obtain ⟨hmembers, hnamed⟩ := readings_disband hbacked squad
  refine ⟨fun id bot h => ?_, fun id bot => ?_⟩
  · rw [hnamed] at h
    split at h
    · cases h
    · rename_i hother
      have hne : id ≠ squad := fun hid => hother (hid ▸ h)
      rw [hmembers, if_neg hne]
      exact hbacked id bot h
  · rw [Astray, Astray, hmembers, hnamed]
    by_cases hid : id = squad
    · subst hid
      simp
    · by_cases hs : squadOf bots bot = some squad
      · simp [hid, Ne.symm hid, hs]
      · simp [hid, Ne.symm hid, hs]

/-! ## Moves -/

theorem backed_leave (hbacked : Backed squads bots) (bot : BotId) :
    Backed (leave squads bots bot).2.1 (leave squads bots bot).2.2 := by
  intro squad id h
  rw [squadOf_leave] at h
  split at h
  · cases h
  · rename_i hne
    have hmem := hbacked squad id h
    rw [members_leave]
    split
    · exact List.mem_filter.2 ⟨hmem, decide_eq_true hne⟩
    · exact hmem

/-- A bot that leaves is taken off one list only, that of the squad it named. -/
theorem astray_leave (bot : BotId) (squad : SquadId) (id : BotId) :
    Astray (leave squads bots bot).2.1 (leave squads bots bot).2.2 squad id ↔
      Astray squads bots squad id := by
  rw [Astray, Astray, squadOf_leave, members_leave]
  by_cases hid : id = bot
  · subst hid
    by_cases hnamed : squadOf bots id = some squad
    · simp [hnamed]
    · simp [hnamed]
  · by_cases hnamed : squadOf bots bot = some squad
    · simp [hid, hnamed]
    · simp [hid, hnamed]

theorem carried_leave (hbacked : Backed squads bots) (bot : BotId) :
    Carried (.leave bot) squads bots (leave squads bots bot).2.1 (leave squads bots bot).2.2 :=
  .of_keeps ⟨nofun, nofun⟩ (backed_leave hbacked bot) (astray_leave bot)

/-- A bot of no squad that a squad does not list is put on its list, and its
record names the squad. -/
theorem backed_enroll {squad : SquadId} {bot : BotId} {s : Squad} {m : Membership}
    (hbacked : Backed squads bots) (hlive : bots.contains bot) (hs : squads.get? squad = some s)
    (hm : m.squad = squad) :
    Backed (squads.modify squad (enroll bot))
      (bots.modify bot fun b => { b with membership := some m }) := by
  intro t id h
  rw [squadOf_enroll hlive, hm] at h
  rw [members_enroll hs]
  split at h
  · rename_i hid
    rw [if_pos (Option.some.inj h).symm, hid]
    exact List.mem_append_right _ (List.mem_singleton.2 rfl)
  · have hmem := hbacked t id h
    split
    · rename_i ht
      rw [ht, members_of_get? hs] at hmem
      exact List.mem_append_left _ hmem
    · exact hmem

theorem astray_enroll {squad : SquadId} {bot : BotId} {s : Squad} {m : Membership}
    (hlive : bots.contains bot) (hs : squads.get? squad = some s) (hout : bot ∉ s.members)
    (hfree : squadOf bots bot = none) (hm : m.squad = squad) (t : SquadId) (id : BotId) :
    Astray (squads.modify squad (enroll bot))
        (bots.modify bot fun b => { b with membership := some m }) t id ↔
      Astray squads bots t id := by
  have hmem := members_of_get? hs
  rw [Astray, Astray, squadOf_enroll hlive, members_enroll hs, hm]
  by_cases ht : t = squad
  · subst ht
    by_cases hid : id = bot
    · simp [hid, hmem, hout]
    · simp [hid, hmem]
  · by_cases hid : id = bot
    · simp [hid, ht, Ne.symm ht, hfree]
    · simp [hid, ht]

theorem carried_join (hbacked : Backed squads bots) (squad : SquadId) (bot : BotId)
    (maxMembers : Nat) :
    ∃ answer squads' bots', join squads bots squad bot maxMembers = .ok (answer, squads', bots') ∧
      Carried (.join squad bot maxMembers) squads bots squads' bots' := by
  rcases join_cases squads bots squad bot maxMembers with
    ⟨answer, heq⟩ | ⟨s, s', hlive, hs, hout, -, hs', heq⟩
  · exact ⟨answer, squads, bots, heq,
      .of_readings ⟨nofun, nofun⟩ hbacked (fun _ => rfl) fun _ => rfl⟩
  · have hstill : (leave squads bots bot).2.2.contains bot := contains_leave hlive bot
    have hfree : squadOf (leave squads bots bot).2.2 bot = none := by
      rw [squadOf_leave, if_pos rfl]
    have hunlisted : bot ∉ s'.members := by
      rw [← members_of_get? hs', members_leave, members_of_get? hs]
      split
      · exact fun h => hout (List.mem_filter.1 h).1
      · exact hout
    refine ⟨_, _, _, heq, .of_keeps ⟨nofun, nofun⟩ ?_ fun t id => ?_⟩
    · exact backed_enroll (backed_leave hbacked bot) hstill hs' rfl
    · rw [astray_enroll hstill hs' hunlisted hfree rfl, astray_leave]

theorem squadOf_setRole (bots : Bots) (bot id : BotId) (role : Role) :
    squadOf (setRole bots bot role) id = squadOf bots id := by
  unfold squadOf
  rw [get?_setRole]
  split
  · cases bots.get? id with
    | none => rfl
    | some b => cases h : b.membership <;> simp [Bot.squad?, Bot.modifyMembership, h]
  · rfl

theorem squadOf_lead (squads : Squads) (bots : Bots) (squad : SquadId) (bot id : BotId) :
    squadOf (lead squads bots squad bot).2.2 id = squadOf bots id := by
  unfold lead
  split
  · rfl
  · split
    · dsimp only
      rw [squadOf_setRole]
      split
      · split
        · exact squadOf_setRole ..
        · rfl
      · rfl
    · rfl

theorem members_lead (squads : Squads) (bots : Bots) (squad : SquadId) (bot : BotId)
    (id : SquadId) : members (lead squads bots squad bot).2.1 id = members squads id := by
  unfold lead
  split
  · rfl
  · split
    · dsimp only
      rw [members_modify]
      split <;> rfl
    · rfl

theorem carried_lead (hbacked : Backed squads bots) (squad : SquadId) (bot : BotId) :
    Carried (.lead squad bot) squads bots (lead squads bots squad bot).2.1
      (lead squads bots squad bot).2.2 :=
  .of_readings ⟨nofun, nofun⟩ hbacked (squadOf_lead squads bots squad bot)
    (members_lead squads bots squad bot)

/-! ## Whole sessions -/

theorem carried_perform (op : Op) (hbacked : Backed squads bots) :
    ∃ squads' bots', perform op (squads, bots) = .ok (squads', bots') ∧
      Carried op squads bots squads' bots' := by
  cases op with
  | addBot hostId =>
      obtain ⟨bots', hadd, h⟩ := carried_addBot hbacked hostId
      exact ⟨squads, bots', by rw [perform, hadd]; rfl, h⟩
  | removeBot bot => exact ⟨_, _, rfl, carried_removeBot hbacked bot⟩
  | addSquad hostId strategies targetSize =>
      obtain ⟨squads', hadd, h⟩ := carried_addSquad hbacked hostId strategies targetSize
      exact ⟨squads', bots, by rw [perform, hadd]; rfl, h⟩
  | removeSquad squad => exact ⟨_, _, rfl, carried_removeSquad hbacked squad⟩
  | join squad bot maxMembers =>
      obtain ⟨_, squads', bots', hjoin, h⟩ := carried_join hbacked squad bot maxMembers
      exact ⟨squads', bots', by rw [perform, hjoin]; rfl, h⟩
  | leave bot => exact ⟨_, _, rfl, carried_leave hbacked bot⟩
  | lead squad bot => exact ⟨_, _, rfl, carried_lead hbacked squad bot⟩

theorem lapsed_cons_iff {op : Op} {ops : List Op} (h : after ops = .ok (squads, bots))
    (squad : SquadId) (bot : BotId) : Lapsed squad bot (op :: ops) ↔
      op ≠ .removeSquad squad ∧
        (Lapsed squad bot ops ∨ op = .removeBot bot ∧ bot ∈ members squads squad) := by
  constructor
  · intro hlapsed
    cases hlapsed with
    | removed hafter hmem =>
        cases h.symm.trans hafter
        exact ⟨nofun, .inr ⟨rfl, hmem⟩⟩
    | further hbefore hop => exact ⟨hop, .inl hbefore⟩
  · rintro ⟨hop, hbefore | ⟨rfl, hmem⟩⟩
    · exact .further hbefore hop
    · exact .removed h hmem

/-- Every session ends, its records name only squads that list their bots, and
the bots astray are those whose membership has lapsed. -/
theorem astray_after (ops : List Op) :
    ∃ squads bots, after ops = .ok (squads, bots) ∧ Backed squads bots ∧
      ∀ squad bot, Astray squads bots squad bot ↔ Lapsed squad bot ops := by
  induction ops with
  | nil =>
      refine ⟨.empty, .empty, rfl, fun squad bot h => ?_, fun squad bot =>
        iff_of_false (fun h => ?_) nofun⟩
      · simp [squadOf] at h
      · simp [Astray, members] at h
  | cons op ops ih =>
      obtain ⟨squads, bots, hafter, hbacked, hastray⟩ := ih
      obtain ⟨squads', bots', hperform, hcarried⟩ := carried_perform op hbacked
      refine ⟨squads', bots', ?_, hcarried.backed, fun squad bot => ?_⟩
      · rw [after, hafter]
        exact hperform
      · rw [hcarried.astray, hastray, lapsed_cons_iff hafter]

/-- Whoever has joined a squad is live and on its list. -/
theorem listed_of_join {squad : SquadId} {bot : BotId} {maxMembers : Nat}
    (h : join squads bots squad bot maxMembers = .ok (.ok (), squads', bots')) :
    bots'.contains bot ∧ bot ∈ members squads' squad := by
  cases href : refusal? squads bots squad bot maxMembers with
  | some e =>
      rw [join, href] at h
      cases h
  | none =>
      obtain ⟨hlive, s, hs, -⟩ := refusal?_eq_none href
      by_cases hin : listed squads squad bot
      · rw [join_of_listed href hin] at h
        cases h
        refine ⟨hlive, ?_⟩
        rw [members_of_get? hs]
        simpa [listed, hs] using hin
      · obtain ⟨s', hs', hjoin⟩ := join_of_unlisted href hin
        rw [hjoin] at h
        cases h
        refine ⟨?_, ?_⟩
        · rw [Roster.contains_modify]
          exact contains_leave hlive bot
        · rw [members_enroll hs', if_pos rfl]
          exact List.mem_append_right _ (List.mem_singleton.2 rfl)

/-- Whatever was done to the two rosters, a record names only a squad that lists
its bot, and a bot that has joined a squad is on its list. Its record names the
squad unless its membership has lapsed: the squad has listed the handle since
before a bot of this handle was removed. -/
theorem membership_of_join (ops : List Op) :
    ∃ squads bots, after ops = .ok (squads, bots) ∧
      (∀ bot b squad, bots.get? bot = some b → b.squad? = some squad →
        ∃ s, squads.get? squad = some s ∧ bot ∈ s.members) ∧
      ∀ squad bot maxMembers, ∃ answer squads' bots',
        join squads bots squad bot maxMembers = .ok (answer, squads', bots') ∧
          (answer = .ok () → ∃ s b, squads'.get? squad = some s ∧ bot ∈ s.members ∧
            bots'.get? bot = some b ∧ (b.squad? = some squad ↔ ¬ Lapsed squad bot ops)) := by
  obtain ⟨squads, bots, hafter, hbacked, hastray⟩ := astray_after ops
  refine ⟨squads, bots, hafter, fun bot b squad hb hnamed => ?_, fun squad bot maxMembers => ?_⟩
  · exact exists_of_mem_members (hbacked squad bot (by rw [squadOf_of_get? hb, hnamed]))
  · obtain ⟨answer, squads', bots', hjoin, hcarried⟩ :=
      carried_join hbacked squad bot maxMembers
    refine ⟨answer, squads', bots', hjoin, ?_⟩
    rintro rfl
    obtain ⟨hlive, hmem⟩ := listed_of_join hjoin
    obtain ⟨s, hs, hin⟩ := exists_of_mem_members hmem
    obtain ⟨b, hb⟩ := Roster.contains_iff.1 hlive
    refine ⟨s, b, hs, hin, hb, ?_⟩
    have hstill := hcarried.astray squad bot
    rw [hastray, Astray, squadOf_of_get? hb] at hstill
    rw [← not_iff_not, not_not]
    constructor
    · intro hout
      exact (hstill.1 ⟨hmem, hout⟩).2.resolve_right nofun
    · intro hlapsed
      exact (hstill.2 ⟨nofun, .inl hlapsed⟩).2

/-- Two bots join a squad, the second one is removed, and its handle goes to a
new bot. Joining the squad succeeds for the new bot, but its record names no
squad. -/
theorem join_of_lapsed :
    let ops : List Op := [.addBot none, .removeBot ⟨1⟩, .join ⟨0⟩ ⟨1⟩ 6, .join ⟨0⟩ ⟨0⟩ 6,
      .addSquad none 0 6, .addBot none, .addBot none]
    ∃ squads bots, after ops = .ok (squads, bots) ∧
      join squads bots ⟨0⟩ ⟨1⟩ 6 = .ok (.ok (), squads, bots) ∧
      members squads ⟨0⟩ = [⟨0⟩, ⟨1⟩] ∧ squadOf bots ⟨1⟩ = none := by
  intro ops
  exact ⟨_, _, rfl, rfl, by decide +kernel, by decide +kernel⟩

end Warband.Enrollment
