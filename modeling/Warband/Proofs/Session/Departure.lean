import Warband.Proofs.Session.Enrollment
import Warband.Proofs.Session.Links

/-!
# Leaving a session

A bot that is deregistered is gone from every store: no host id leads to it, no
record links to it, no squad lists it and no item is its own. What is said of
all others stays, but for the links to the one that left, and for its heir, who
leads from then on. The freed handle may be given out at once, so a trace that
was left behind would be inherited.
-/
namespace Warband

/-- A record without the links to one bot. -/
def Bot.forget (id : BotId) (b : Bot) : Bot :=
  { b with boss := b.boss.filter (· ≠ id), followers := b.followers.filter (· ≠ id) }

/-- The record of a bot that takes over its squad. -/
def Bot.promoted (b : Bot) : Bot := b.modifyMembership fun m => { m with role := .leader }

/-- What a host that relinks nobody leaves alone. -/
def Bot.bonds (b : Bot) : (Option BotId × List BotId) × Option (SquadId × Bool) :=
  (b.ties, b.post)

namespace Mind

open Loot

variable {settings : Settings} {m m' : Mind} {past : List Mind}

/-! ## Host ids and claims -/

/-- A bot that was separated and has left its squad is still there, and so is everybody else. -/
theorem contains_parted {bots : Bots} {id : BotId} (h : Links.separate m.bots id = .ok bots)
    (b : BotId) :
    (Enrollment.leave m.squads bots id).2.2.contains b = m.bots.contains b := by
  rw [(Enrollment.kept_leave m.squads bots id).contains,
    (Links.rewritten_separate h).kept.contains]

theorem known_dropBot {id : BotId} (h : m.dropBot id = .ok m') (hk : m.bots.Known) :
    m'.bots.Known := by
  obtain ⟨bots, hsep, -, -, -, hbots⟩ := dropBot_ok h
  have hk' := (hk.kept (Links.rewritten_separate hsep).kept).kept
    (Enrollment.kept_leave m.squads bots id)
  rcases hbots with ⟨gone, hremove⟩ | ⟨-, hsame⟩
  · exact hk'.remove hremove
  · rw [hsame]
    exact hk'

variable {β : Type} {π : Bot → β}

theorem Edit.known (h : Edit π m m') (hk : m.bots.Known) : m'.bots.Known := by
  cases h with
  | calm h => exact hk.kept h.bots
  | write id hf => exact hk.kept (.modify hf)
  | relink hlinks h => exact (hk.kept hlinks.kept).kept h.bots
  | @register _ botClass id _ h =>
      obtain ⟨bots, hadopt, rfl⟩ := register_ok h
      have hwrite : Roster.Kept Bot.ties bots
          (bots.modify id fun b => { b with botClass := botClass }) := .modify fun _ => rfl
      exact (hk.adopt hadopt).kept hwrite
  | drop _ h => exact known_dropBot h hk
  | createSquad h =>
      obtain ⟨squads, -, rfl⟩ := createSquad_ok h
      exact hk
  | disband squad => exact hk.kept (Enrollment.kept_disband m.squads m.bots squad)
  | join h =>
      obtain ⟨squads, bots, hjoin, rfl⟩ := join_ok h
      exact hk.kept (Enrollment.kept_join hjoin)
  | leave bot => exact hk.kept (Enrollment.kept_leave m.squads m.bots bot)

theorem History.known (h : History π settings (m :: past)) : m.bots.Known :=
  h.invariant (P := fun m => m.bots.Known) (fun _ => .empty) fun _ _ hk hedit => hedit.known hk

theorem Edit.agree (h : Edit π m m') (hc : m.claims.Agree) : m'.claims.Agree := by
  cases h with
  | calm h => exact h.claims hc
  | relink _ h => exact h.claims hc
  | register h =>
      obtain ⟨bots, -, rfl⟩ := register_ok h
      exact hc
  | @drop _ id _ _ h =>
      obtain ⟨bots, -, -, -, hclaims, -⟩ := dropBot_ok h
      rw [hclaims]
      exact hc.releaseAll id
  | createSquad h =>
      obtain ⟨squads, -, rfl⟩ := createSquad_ok h
      exact hc
  | join h =>
      obtain ⟨squads, bots, -, rfl⟩ := join_ok h
      exact hc
  | write | disband | leave => exact hc

theorem History.agree (h : History π settings (m :: past)) : m.claims.Agree :=
  h.invariant (P := fun m => m.claims.Agree) (fun _ => Claims.agree_empty)
    fun _ _ hc hedit => hedit.agree hc

/-! ## Departure -/

/-- What is left when a bot has gone. Nothing leads to it, and whatever is said
of others is as before, but for links to it and for its heir. -/
structure Departs (id : BotId) (hostId : HostId) (m m' : Mind) : Prop where
  dead : m'.bots.contains id = false
  unmapped : m'.bots.find? hostId = none
  unlinked : ∀ b r, m'.bots.get? b = some r → r.boss ≠ some id ∧ id ∉ r.followers
  unlisted : ∀ s q, m'.squads.get? s = some q → id ∉ q.members ∧ q.leader ≠ some id
  unclaimed : ∀ item, m'.claims.owner? item ≠ some id
  unburdened : m'.claims.ofBot id = []
  records : ∀ b, b ≠ id → m'.bots.get? b = (m.bots.get? b).map fun r =>
    if Enrollment.heir? m.squads m.bots id = some b then (r.forget id).promoted else r.forget id
  hosts : ∀ b, b ≠ id → m'.bots.hostOf b = m.bots.hostOf b
  mapped : ∀ h, h ≠ hostId → m'.bots.find? h = m.bots.find? h
  owners : ∀ item, m.claims.owner? item ≠ some id →
    m'.claims.owner? item = m.claims.owner? item
  items : ∀ b, b ≠ id → m'.claims.ofBot b = m.claims.ofBot b
  squads : ∀ s, id ∉ Enrollment.members m.squads s →
    m'.squads.entryAt? s = m.squads.entryAt? s
  own : ∀ s q, m.squads.get? s = some q → id ∈ q.members →
    m'.squads.get? s = some (Enrollment.strike id q)

theorem restrict_eq_forget {id b : BotId} (hb : b ≠ id) (r : Bot) :
    r.restrict (fun a b => a ≠ id && b ≠ id) b = r.forget id := by
  simp [Bot.restrict, Bot.forget, hb]

/-- The records of others when a bot has separated and left its squad. -/
theorem get?_departing {bots : Bots} {id b : BotId} (hb : b ≠ id)
    (hr : Links.Restricts (fun a b => a ≠ id && b ≠ id) m.bots bots) :
    (Enrollment.leave m.squads bots id).2.2.get? b = (m.bots.get? b).map fun r =>
      if Enrollment.heir? m.squads bots id = some b then (r.forget id).promoted
      else r.forget id := by
  rw [Enrollment.get?_leave, hr b, Option.map_map]
  congr 1
  funext r
  simp only [Function.comp_apply, if_neg hb, restrict_eq_forget hb]
  rfl

theorem entryAt?_squads_leave {squads : Squads} {bots : Bots} {id : BotId} {s : SquadId}
    (h : Enrollment.squadOf bots id ≠ some s) :
    (Enrollment.leave squads bots id).2.1.entryAt? s = squads.entryAt? s := by
  have hget := Enrollment.get?_squads_leave squads bots id s
  rw [if_neg h] at hget
  rw [Roster.entryAt?_eq, Roster.entryAt?_eq, hget,
    (Enrollment.kept_squads_leave (π := fun _ => ()) (fun _ _ _ => rfl) squads bots id).hostOf]

theorem squadOf_congr {bots bots' : Bots} (h : Roster.Kept Bot.post bots bots') (id : BotId) :
    Enrollment.squadOf bots' id = Enrollment.squadOf bots id := by
  rw [Enrollment.squadOf_eq_view, h.view, ← Enrollment.squadOf_eq_view]

/-- Consistent links lead to live bots only. -/
theorem unlinked_of_dead {bots : Bots} (hc : Links.Consistent bots) {id b : BotId} {r : Bot}
    (hid : bots.contains id = false) (hr : bots.get? b = some r) :
    r.boss ≠ some id ∧ id ∉ r.followers := by
  rw [← Links.boss?_of_get? hr, ← Links.followers_of_get? hr]
  constructor
  · intro hboss
    rw [hc.contains_boss hboss] at hid
    simp at hid
  · intro hin
    rw [hc.contains_follower hin] at hid
    simp at hid

theorem unlisted_of_dead {limit : Nat} {squads : Squads} {bots : Bots}
    (hc : Enrollment.Consistent limit squads bots) {id : BotId} {s : SquadId} {q : Squad}
    (hid : bots.contains id = false) (hq : squads.get? s = some q) :
    id ∉ q.members ∧ q.leader ≠ some id := by
  rw [← Enrollment.members_of_get? hq, ← Enrollment.leaderOf_of_get? hq]
  have hout : id ∉ Enrollment.members squads s := by
    intro hin
    rw [hc.contains_member hin] at hid
    simp at hid
  refine ⟨hout, fun hlead => hout ?_⟩
  rw [hc.leaderOf_eq] at hlead
  exact List.mem_of_mem_head? hlead

/-- The stores after a bot was dropped that a host id leads to: its record is
there to be removed. -/
theorem dropBot_known {id : BotId} {hostId : HostId} (h : m.dropBot id = .ok m')
    (hfind : m.bots.find? hostId = some id) (hknown : m.bots.Known)
    (hlinks : Links.Consistent m.bots) :
    ∃ bots gone, Links.Restricts (fun a b => a ≠ id && b ≠ id) m.bots bots ∧
      Roster.Kept Bot.unlinked m.bots bots ∧
      m'.squads = (Enrollment.leave m.squads bots id).2.1 ∧
      m'.claims = (m.claims.releaseAll id).2 ∧
      (Enrollment.leave m.squads bots id).2.2.remove? id = some (gone, m'.bots) := by
  obtain ⟨bots, hsep, -, hsquads, hclaims, hbots⟩ := dropBot_ok h
  obtain ⟨bots₁, hrun, hr⟩ := Links.separate_restricts hlinks id
  rw [hsep] at hrun
  cases hrun
  have hkept := (Links.rewritten_separate hsep).kept
  rcases hbots with ⟨gone, hremove⟩ | ⟨hdead, -⟩
  · exact ⟨bots, gone, hr, hkept, hsquads, hclaims, hremove⟩
  · rw [contains_parted hsep, hknown.contains hfind] at hdead
    cases hdead

/-- With the agreements of the four stores, dropping a bot that a host id leads
to leaves no trace of it. -/
theorem departs_of_dropBot {id : BotId} {hostId : HostId} (h : m.dropBot id = .ok m')
    (hfind : m.bots.find? hostId = some id) (hknown : m.bots.Known)
    (hclaims : m.claims.Agree) (hlinks : Links.Consistent m.bots) (hsquads : m.Enrolled) :
    Departs id hostId m m' := by
  have hlinks' := links_dropBot h hlinks
  have hsquads' := (enrolled_dropBot h hsquads).1
  obtain ⟨bots, gone, hr, hkept, hs, hc, hremove⟩ := dropBot_known h hfind hknown hlinks
  have hleft := Enrollment.kept_leave m.squads bots id
  have hown := squadOf_congr (kept_post_of_unlinked hkept) id
  have hheir : Enrollment.heir? m.squads bots id = Enrollment.heir? m.squads m.bots id := by
    unfold Enrollment.heir?
    rw [hown]
  have hdead : m'.bots.contains id = false := by
    rw [Roster.contains_eq_false_iff, Roster.get?_remove? hremove, if_pos rfl]
  have hmapped : ∀ h, m'.bots.find? h =
      if m.bots.find? h = some id then none else m.bots.find? h := fun h => by
    rw [((hknown.kept hkept).kept hleft).find?_remove? hremove, hleft.find?, hkept.find?]
  exact {
    dead := hdead
    unmapped := by rw [hmapped, if_pos hfind]
    unlinked := fun b r hb => unlinked_of_dead hlinks' hdead hb
    unlisted := fun s q hq => unlisted_of_dead hsquads' hdead hq
    unclaimed := fun item => by
      rw [hc, hclaims.owner?_releaseAll]
      split
      · simp
      · assumption
    unburdened := by rw [hc, Claims.ofBot_releaseAll, if_pos rfl]
    records := fun b hb => by
      rw [Roster.get?_remove? hremove, if_neg hb, get?_departing hb hr, hheir]
    hosts := fun b hb => by
      rw [Roster.hostOf_remove? hremove, if_neg hb, hleft.hostOf, hkept.hostOf]
    mapped := fun other hne => by
      rw [hmapped, if_neg]
      intro hother
      have hcarries := hknown other id hother
      rw [hknown hostId id hfind, Option.some.injEq] at hcarries
      exact hne hcarries.symm
    owners := fun item hitem => by rw [hc, hclaims.owner?_releaseAll, if_neg hitem]
    items := fun b hb => by rw [hc, Claims.ofBot_releaseAll, if_neg hb]
    squads := fun s hout => by
      rw [hs, entryAt?_squads_leave]
      rwa [hown, ne_eq, hsquads.squadOf_iff]
    own := fun s q hq hin => by
      have hnamed : Enrollment.squadOf bots id = some s := by
        rw [hown, hsquads.squadOf_iff, Enrollment.members_of_get? hq]
        exact hin
      rw [hs, Enrollment.get?_squads_leave, if_pos hnamed, hq]
      rfl }

/-- In every session, a bot that is deregistered leaves no trace and disturbs
nobody else. -/
theorem departs_of_deregister (h : History Bot.bonds settings (m :: past)) {hostId : HostId}
    {id : BotId} (hrun : m.deregister hostId = .ok (.ok id, m')) : Departs id hostId m m' := by
  have hties : History Bot.ties settings (m :: past) := h.mono fun _ _ => congrArg Prod.fst
  have hpost : History Bot.post settings (m :: past) := h.mono fun _ _ => congrArg Prod.snd
  obtain ⟨hfind, hdrop⟩ := deregister_ok hrun
  exact departs_of_dropBot hdrop hfind h.known h.agree hties.links hpost.enrolled

/-- A bot that a host id leads to can be deregistered. -/
theorem exists_deregister {hostId : HostId} {id : BotId} (h : m.bots.find? hostId = some id) :
    ∃ m', m.deregister hostId = .ok (.ok id, m') := by
  obtain ⟨bots, hsep⟩ := Links.separate_ok m.bots id
  unfold deregister resolve
  simp only [h, dropBot, hsep, bind, Except.bind, pure, Except.pure]
  exact ⟨_, rfl⟩

theorem departs_of_deregister_leader :
    let m := (fresh {} (.ofSeed 1)).after [.register 7 .unknown, .register 8 .unknown,
      .register 9 .unknown, .assignBoss ⟨1⟩ ⟨0⟩, .assignBoss ⟨0⟩ ⟨2⟩, .createSquad 5,
      .join ⟨0⟩ ⟨0⟩, .join ⟨0⟩ ⟨1⟩, .claim ⟨0⟩ 3, .tick 1 ⟨0⟩]
    Links.followers m.bots ⟨0⟩ = [⟨1⟩] ∧ Enrollment.leaderOf m.squads ⟨0⟩ = some ⟨0⟩ ∧
      Enrollment.heir? m.squads m.bots ⟨0⟩ = some ⟨1⟩ ∧ m.claims.owner? 3 = some ⟨0⟩ ∧
      ∃ m', m.deregister 7 = .ok (.ok ⟨0⟩, m') ∧ Departs ⟨0⟩ 7 m m' := by
  intro m
  obtain ⟨past, h⟩ : ∃ past, History Bot.bonds {} (m :: past) := (History.start rfl).after _
  have hfind : m.bots.find? 7 = some ⟨0⟩ := by decide +kernel
  obtain ⟨m', hrun⟩ := exists_deregister hfind
  exact ⟨by decide +kernel, by decide +kernel, by decide +kernel, by decide +kernel, m', hrun,
    departs_of_deregister h hrun⟩

end Mind

end Warband
