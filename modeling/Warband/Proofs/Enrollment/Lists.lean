import Warband.Proofs.Roster.View
import Warband.Squad.Basic

/-!
# Squads and their members

Membership is kept at two places, in the lists of the squads and in the records
of the bots. The two are consistent when they agree, when no list is too long or
names a bot twice, when the first of every list leads, and when exactly the
leaders have the leader's role. Every operation that moves bots between squads
keeps this, and it does not depend on anything but the lists, the leaders, the
squads that bots name, and who has the leader's role.
-/
namespace Warband

/-- What a bot's record says beside its membership. -/
def Bot.civil (b : Bot) : Bot := { b with membership := none }

/-- The squad that a bot's record names, and whether it says that the bot leads. -/
def Bot.post (b : Bot) : Option (SquadId × Bool) :=
  b.membership.map fun m => (m.squad, m.role = .leader)

/-- Who is in a squad, and who leads it. -/
def Squad.ranks (s : Squad) : List BotId × Option BotId := (s.members, s.leader)

namespace Enrollment

def squadOf (bots : Bots) (id : BotId) : Option SquadId := (bots.get? id).bind (·.squad?)

def roleOf (bots : Bots) (id : BotId) : Option Role :=
  ((bots.get? id).bind (·.membership)).map (·.role)

def members (squads : Squads) (id : SquadId) : List BotId :=
  ((squads.get? id).map (·.members)).getD []

def leaderOf (squads : Squads) (id : SquadId) : Option BotId := (squads.get? id).bind (·.leader)

/-- The lists of the squads and the records of the bots agree. Dead squads list
nobody and dead bots name no squad, so neither occurs at the other place. -/
structure Consistent (limit : Nat) (squads : Squads) (bots : Bots) : Prop where
  squadOf_iff : ∀ b s, squadOf bots b = some s ↔ b ∈ members squads s
  nodup : ∀ s, (members squads s).Nodup
  length_le : ∀ s, (members squads s).length ≤ limit
  leaderOf_eq : ∀ s, leaderOf squads s = (members squads s).head?
  role_iff : ∀ b s, b ∈ members squads s →
    (roleOf bots b = some .leader ↔ leaderOf squads s = some b)

theorem squadOf_of_get? {bots : Bots} {id : BotId} {r : Bot} (h : bots.get? id = some r) :
    squadOf bots id = r.squad? := by
  simp [squadOf, h]

theorem roleOf_of_get? {bots : Bots} {id : BotId} {r : Bot} (h : bots.get? id = some r) :
    roleOf bots id = r.membership.map (·.role) := by
  simp [roleOf, h]

theorem members_of_get? {squads : Squads} {id : SquadId} {s : Squad}
    (h : squads.get? id = some s) : members squads id = s.members := by
  simp [members, h]

theorem leaderOf_of_get? {squads : Squads} {id : SquadId} {s : Squad}
    (h : squads.get? id = some s) : leaderOf squads id = s.leader := by
  simp [leaderOf, h]

theorem exists_of_mem_members {squads : Squads} {id : SquadId} {b : BotId}
    (h : b ∈ members squads id) : ∃ s, squads.get? id = some s ∧ b ∈ s.members := by
  unfold members at h
  cases hs : squads.get? id with
  | none => simp [hs] at h
  | some s => exact ⟨s, rfl, by simpa [hs] using h⟩

theorem contains_of_squadOf {bots : Bots} {id : BotId} {s : SquadId}
    (h : squadOf bots id = some s) : bots.contains id := by
  obtain ⟨r, hr, -⟩ := Option.bind_eq_some_iff.1 h
  exact Roster.contains_of_get? hr

theorem squadOf_eq_view (bots : Bots) (id : BotId) :
    squadOf bots id = (bots.view Bot.post id).join.map (·.1) := by
  unfold squadOf Roster.view
  cases bots.get? id with
  | none => rfl
  | some r => cases h : r.membership <;> simp [Bot.squad?, Bot.post, h]

theorem roleOf_leader_iff_view (bots : Bots) (id : BotId) :
    roleOf bots id = some .leader ↔ (bots.view Bot.post id).join.map (·.2) = some true := by
  unfold roleOf Roster.view
  cases bots.get? id with
  | none => simp
  | some r => cases h : r.membership <;> simp [Bot.post, h]

theorem members_eq_view (squads : Squads) (id : SquadId) :
    members squads id = ((squads.view Squad.ranks id).map (·.1)).getD [] := by
  unfold members Roster.view
  cases squads.get? id <;> rfl

theorem leaderOf_eq_view (squads : Squads) (id : SquadId) :
    leaderOf squads id = (squads.view Squad.ranks id).bind (·.2) := by
  unfold leaderOf Roster.view
  cases squads.get? id <;> rfl

namespace Consistent

variable {limit : Nat} {squads squads' : Squads} {bots bots' : Bots}

/-- Only what is read of records and lists matters. -/
theorem of_readings (h : Consistent limit squads bots)
    (hsquad : ∀ b, squadOf bots' b = squadOf bots b)
    (hrole : ∀ b, roleOf bots' b = some .leader ↔ roleOf bots b = some .leader)
    (hmem : ∀ s, members squads' s = members squads s)
    (hlead : ∀ s, leaderOf squads' s = leaderOf squads s) : Consistent limit squads' bots' where
  squadOf_iff b s := by rw [hsquad, hmem]; exact h.squadOf_iff b s
  nodup s := by rw [hmem]; exact h.nodup s
  length_le s := by rw [hmem]; exact h.length_le s
  leaderOf_eq s := by rw [hmem, hlead]; exact h.leaderOf_eq s
  role_iff b s hbs := by rw [hrole, hlead]; exact h.role_iff b s (hmem s ▸ hbs)

/-- Consistency is a matter of posts and ranks alone. -/
theorem congr (h : Consistent limit squads bots)
    (hs : squads'.view Squad.ranks = squads.view Squad.ranks)
    (hb : bots'.view Bot.post = bots.view Bot.post) : Consistent limit squads' bots' :=
  h.of_readings (fun b => by rw [squadOf_eq_view, hb, ← squadOf_eq_view])
    (fun b => by rw [roleOf_leader_iff_view, hb, ← roleOf_leader_iff_view])
    (fun s => by rw [members_eq_view, hs, ← members_eq_view])
    fun s => by rw [leaderOf_eq_view, hs, ← leaderOf_eq_view]

/-- Some bots lose their squads and go from all lists. What is left to see is
who leads afterwards, and who says so. -/
theorem expel (h : Consistent limit squads bots) (gone : BotId → Bool)
    (hsquad : ∀ b, squadOf bots' b = if gone b then none else squadOf bots b)
    (hmem : ∀ s, members squads' s = (members squads s).filter (!gone ·))
    (hlead : ∀ s, leaderOf squads' s = (members squads' s).head?)
    (hrole : ∀ b s, gone b = false → b ∈ members squads s →
      (roleOf bots' b = some .leader ↔ leaderOf squads' s = some b)) :
    Consistent limit squads' bots' where
  squadOf_iff b s := by
    rw [hsquad, hmem, List.mem_filter, ← h.squadOf_iff]
    cases gone b <;> simp
  nodup s := by
    rw [hmem]
    exact (h.nodup s).filter _
  length_le s := by
    rw [hmem]
    exact Nat.le_trans (List.length_filter_le ..) (h.length_le s)
  leaderOf_eq := hlead
  role_iff b s hb := by
    rw [hmem, List.mem_filter, Bool.not_eq_true'] at hb
    exact hrole b s hb.2 hb.1

theorem contains_member (h : Consistent limit squads bots) {b : BotId} {s : SquadId}
    (hb : b ∈ members squads s) : bots.contains b :=
  contains_of_squadOf ((h.squadOf_iff b s).2 hb)

theorem not_mem_of_squadOf_eq_none (h : Consistent limit squads bots) {b : BotId}
    (hb : squadOf bots b = none) (s : SquadId) : b ∉ members squads s := fun hmem => by
  rw [← h.squadOf_iff, hb] at hmem
  simp at hmem

/-- A follower of a squad does not have the leader's role. -/
theorem roleOf_follower (h : Consistent limit squads bots) {id : SquadId} {s : Squad}
    (hs : squads.get? id = some s) {b : BotId} (hb : b ∈ s.followers) :
    roleOf bots b ≠ some .leader := by
  obtain ⟨hmem, hne⟩ := List.mem_filter.1 hb
  rw [ne_eq, h.role_iff b id (by rwa [members_of_get? hs]), leaderOf_of_get? hs]
  exact fun heq => (of_decide_eq_true hne) heq.symm

end Consistent

end Enrollment

end Warband
