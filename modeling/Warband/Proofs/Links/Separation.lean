import Warband.Proofs.Links.Edits

/-!
# What is left of the links of inactive bots

The pass that separates the inactive bots takes them in turn, and each turn edits
the records at the other ends of the links. So a bot whose turn comes late finds
links gone that it had before. Where the ends of all links agree this makes no
difference to what is left: an active bot keeps its links to active bots, with
its followers in their order, and an inactive one keeps none. The order of the
turns shows in one thing only, the number of bots that had links left when their
turn came.
-/
namespace Warband

/-- A record with the links between active bots alone. -/
def Bot.amongActive (active : BotId → Bool) (b : Bot) : Bot :=
  { b with
    boss := if b.isActive then b.boss.filter active else none
    followers := if b.isActive then b.followers.filter active else [] }

namespace Links

def active (bots : Bots) (id : BotId) : Bool := (bots.get? id).any (·.isActive)

/-- All records with the links between active bots alone. -/
def amongActive (bots : Bots) : Bots := bots.map fun _ => Bot.amongActive (active bots)

variable {bots bots' : Bots}

theorem get?_amongActive (bots : Bots) (id : BotId) :
    (amongActive bots).get? id = (bots.get? id).map (Bot.amongActive (active bots)) :=
  Roster.get?_map ..

theorem inactive_of_contains {id : BotId} (h : bots.contains id) :
    inactive bots id = !active bots id := by
  obtain ⟨b, hb⟩ := Roster.contains_iff.1 h
  simp [inactive, active, hb]

/-- A record with the edges between active bots is the record with the links among them. -/
theorem restrict_active {id : BotId} {b : Bot} (hb : bots.get? id = some b) :
    b.restrict (fun a b => active bots a && active bots b) id = b.amongActive (active bots) := by
  have hid : active bots id = b.isActive := by simp [active, hb]
  cases hactive : b.isActive <;> simp [Bot.restrict, Bot.amongActive, hid, hactive]

/-- Whoever has a turn before whom, as long as every live bot has one. -/
theorem Matched.separateEach (hm : Matched bots) {turns : List BotId}
    (hturns : ∀ id, bots.contains id → id ∈ turns) (n : Nat) :
    ∃ k, Links.separateEach turns bots n = .ok (k, amongActive bots) := by
  obtain ⟨k, bots', hrun, hrestricts⟩ := separateEach_restricts turns hm n
  have hleft : Restricts (fun a b => active bots a && active bots b) bots bots' :=
    hrestricts.congr hm fun a b hab => by
      have ha := contains_of_boss? hab
      have hb := hm.contains_boss hab
      simp [hturns a ha, hturns b hb, inactive_of_contains ha, inactive_of_contains hb]
  have hmap : bots' = amongActive bots := by
    apply (rewritten_separateEach turns hrun).eq_map
    intro id
    rw [hleft id]
    cases hb : bots.get? id with
    | none => rfl
    | some b => exact congrArg some (restrict_active hb)
  exact ⟨k, hmap ▸ hrun⟩

theorem Matched.separateInactive (hm : Matched bots) :
    ∃ n, Links.separateInactive bots = .ok (n, amongActive bots) :=
  hm.separateEach (fun _ => Roster.mem_ids_iff.2) 0

/-! ## Passes with nothing to do -/

theorem needsSeparation_of_bare {b : Bot} (h : b.isActive = false → b.boss = none ∧
    b.followers = []) : needsSeparation b = false := by
  cases hactive : b.isActive with
  | true => simp [needsSeparation, hactive]
  | false =>
      obtain ⟨hboss, hfollowers⟩ := h hactive
      simp [needsSeparation, Bot.isLinked, Bot.hasFollowers, hboss, hfollowers]

/-- Where no bot needs it, a pass separates none. -/
theorem separateEach_eq_self (ids : List BotId) (count : Nat)
    (h : ∀ id b, bots.get? id = some b → needsSeparation b = false) :
    separateEach ids bots count = .ok (count, bots) := by
  induction ids with
  | nil => rfl
  | cons id ids ih =>
      unfold separateEach
      cases hid : bots.get? id with
      | none => exact ih
      | some b => simp only [h id b hid, Bool.false_eq_true, if_false, ih]

/-- A pass that counts nothing changes nothing. -/
theorem separateEach_count {ids : List BotId} {n k : Nat}
    (h : separateEach ids bots n = .ok (k, bots')) : n ≤ k ∧ (k = n → bots' = bots) := by
  induction ids generalizing bots n with
  | nil =>
      cases h
      exact ⟨Nat.le_refl _, fun _ => rfl⟩
  | cons id ids ih =>
      unfold separateEach at h
      split at h
      · split at h
        · obtain ⟨bots₁, -, h⟩ := bind_eq_ok.1 h
          have hcounted := (ih h).1
          exact ⟨by omega, by omega⟩
        · exact ih h
      · exact ih h

/-- An inactive bot has no links among the active ones. -/
theorem bare_of_amongActive {id : BotId} {b : Bot} (hb : (amongActive bots).get? id = some b)
    (hactive : b.isActive = false) : b.boss = none ∧ b.followers = [] := by
  rw [get?_amongActive] at hb
  obtain ⟨b₀, -, rfl⟩ := Option.map_eq_some_iff.1 hb
  constructor <;> exact if_neg (Bool.eq_false_iff.1 hactive)

theorem separateEach_amongActive (ids : List BotId) (count : Nat) :
    separateEach ids (amongActive bots) count = .ok (count, amongActive bots) :=
  separateEach_eq_self ids count fun _ _ hb =>
    needsSeparation_of_bare fun hactive => bare_of_amongActive hb hactive

/-- Only a pass with nothing to change counts nothing. -/
theorem count_eq_zero_iff {turns : List BotId} {k : Nat}
    (h : separateEach turns bots 0 = .ok (k, amongActive bots)) :
    k = 0 ↔ amongActive bots = bots := by
  constructor
  · exact (separateEach_count h).2
  · intro hsame
    have hnone : separateEach turns (amongActive bots) 0 = .ok (0, amongActive bots) :=
      separateEach_amongActive turns 0
    rw [hsame] at hnone h
    rw [hnone] at h
    exact (Prod.mk.inj (Except.ok.inj h)).1.symm

/-! ## The order of the turns -/

/-- Separating the inactive bots leaves every record with the links between
active bots, and nothing else changes. It does so in whatever order they have
their turns, and in whatever order the records stand. The number counts the bots
with links left in their turn, so it is zero if there is nothing to change, as in
a second pass, and only then. -/
theorem separation_leaves_active_links (hm : Matched bots) :
    ∃ n, separateInactive bots = .ok (n, amongActive bots) ∧
      (n = 0 ↔ amongActive bots = bots) ∧
      separateInactive (amongActive bots) = .ok (0, amongActive bots) ∧
      (∀ turns : List BotId, (∀ id, bots.contains id → id ∈ turns) →
        ∃ k, separateEach turns bots 0 = .ok (k, amongActive bots) ∧ (k = 0 ↔ n = 0)) ∧
      ∀ bots' : Bots, (∀ id, bots'.get? id = bots.get? id) →
        ∃ k, separateInactive bots' = .ok (k, amongActive bots') ∧
          ∀ id, (amongActive bots').get? id = (amongActive bots).get? id := by
  obtain ⟨n, hrun⟩ := hm.separateInactive
  have hzero := count_eq_zero_iff hrun
  refine ⟨n, hrun, hzero, separateEach_amongActive _ 0, ?_, ?_⟩
  · intro turns hturns
    obtain ⟨k, hturned⟩ := hm.separateEach hturns 0
    exact ⟨k, hturned, (count_eq_zero_iff hturned).trans hzero.symm⟩
  · intro bots' hget
    have hm' : Matched bots' := hm.of_readings (fun a => by rw [boss?, hget, boss?])
      fun b => by rw [followers, hget, followers]
    have hactive : active bots' = active bots := funext fun id => by rw [active, hget, active]
    obtain ⟨k, hrun'⟩ := hm'.separateInactive
    refine ⟨k, hrun', fun id => ?_⟩
    rw [get?_amongActive, get?_amongActive, hget, hactive]

/-- Two bots lead one another, and each leads one more. The second one is not active. -/
theorem separation_of_mutual_bosses :
    let bots : Bots := [{ boss := some ⟨1⟩, followers := [⟨1⟩, ⟨2⟩] },
      { isActive := false, boss := some ⟨0⟩, followers := [⟨0⟩, ⟨3⟩] },
      { boss := some ⟨0⟩ }, { boss := some ⟨1⟩ }].foldl (fun bots b => (bots.add b).2) .empty
    Matched bots ∧ (∃ n, separateInactive bots = .ok (n, amongActive bots)) ∧
      (amongActive bots).entries.map (fun e => (e.record.boss, e.record.followers)) =
        [(none, [⟨2⟩]), (none, []), (some ⟨0⟩, []), (none, [])] := by
  intro bots
  have hm : Matched bots := by decide +kernel
  obtain ⟨n, hrun, -⟩ := separation_leaves_active_links hm
  exact ⟨hm, ⟨n, hrun⟩, by decide +kernel⟩

end Links

end Warband
