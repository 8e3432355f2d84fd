import Warband.Proofs.Links.Separation
import Warband.Proofs.Session.Claims

/-!
# Maintenance

A tick takes the inactive bots out of everything: they lose their links, what
was reported of them and what they claimed. No later phase gives any of it back.
Squads write to memberships, items go to active bots, and only bots that are
awake behave. So a tick leaves nothing to do for the next one at the same time.
-/
namespace Warband

/-- What maintenance looks at in a record. -/
def Bot.vitals (b : Bot) : (Option BotId × List BotId) × Bool × Sensors :=
  (b.ties, b.isActive, b.sensors)

/-- An event expires once. -/
theorem Combat.Log.expiring_expire (l : Log) (now : Time) (maxAge : Float32) :
    (l.expire now maxAge).expiring now maxAge = 0 := by
  unfold expiring expire
  rw [Array.countP_map, Array.countP_eq_zero]
  intro e he
  dsimp only [Function.comp_apply]
  split
  · simp
  · assumption

/-! ## Bots that are out of it -/

namespace Links

/-- Separating the inactive bots leaves them without links. -/
theorem bare_of_separateInactive {bots bots' : Bots} {n : Nat} (hc : Consistent bots)
    (h : separateInactive bots = .ok (n, bots')) {id : BotId} {b : Bot}
    (hb : bots'.get? id = some b) (hactive : b.isActive = false) :
    b.boss = none ∧ b.followers = [] := by
  obtain ⟨n', hrun⟩ := hc.matched.separateInactive
  rw [h] at hrun
  cases hrun
  exact bare_of_amongActive hb hactive

end Links

namespace Census

theorem isInitial_initial : Sensors.initial.isInitial = true := by decide

/-- After the reset the sensors of inactive bots are as at the beginning, and
nothing else of any record has changed. -/
theorem get?_resetSensors {bots : Bots} {id : BotId} {b : Bot}
    (h : (resetSensors bots).get? id = some b) :
    ∃ b₀, bots.get? id = some b₀ ∧ b = { b₀ with sensors := b.sensors } ∧
      (b.isActive = false → b.sensors.isInitial) := by
  rw [resetSensors, Roster.get?_map] at h
  obtain ⟨b₀, hb₀, hrecord⟩ := Option.map_eq_some_iff.1 h
  refine ⟨b₀, hb₀, ?_⟩
  split at hrecord
  · rw [← hrecord]
    exact ⟨rfl, fun _ => isInitial_initial⟩
  · rename_i hfresh
    subst hrecord
    refine ⟨rfl, fun hactive => ?_⟩
    simpa [hactive] using hfresh

theorem staleSensors_eq_zero {bots : Bots}
    (h : ∀ id b, bots.get? id = some b → b.isActive = false → b.sensors.isInitial) :
    staleSensors bots = 0 := by
  unfold staleSensors
  rw [List.countP_eq_zero]
  intro e he
  have hinitial := h e.id e.record (Roster.get?_of_mem_entries he)
  cases hactive : e.record.isActive with
  | true => simp
  | false => simp [hinitial hactive]

end Census

namespace Mind

open Loot

variable {settings : Settings} {m m' : Mind} {past : List Mind}

theorem released_eq_zero {bots : Bots} {c : Claims}
    (h : ∀ e ∈ bots.entries, e.record.isActive = false → c.ofBot e.id = []) :
    (releaseInactive bots c).1 = 0 := by
  unfold releaseInactive
  generalize bots.entries = entries at h
  induction entries generalizing c with
  | nil => rfl
  | cons e entries ih =>
      have hrest : ∀ e' ∈ entries, e'.record.isActive = false → c.ofBot e'.id = [] :=
        fun e' he' => h e' (List.mem_cons_of_mem _ he')
      rw [List.foldl_cons]
      cases hactive : e.record.isActive with
      | true => exact ih hrest
      | false =>
          have hnone : (c.releaseAll e.id).1 = 0 :=
            List.length_eq_zero_iff.2 (h e List.mem_cons_self hactive)
          simp only [Bool.false_eq_true, if_false, hnone, Nat.add_zero]
          refine ih fun e' he' hactive' => ?_
          rw [Claims.ofBot_releaseAll]
          split
          · rfl
          · exact hrest e' he' hactive'

/-! ## Inert bots -/

/-- Nothing is left of a bot but its record: it has no links and no record names
it, it has no items, and its sensors are as at the beginning. -/
structure Inert (m : Mind) (id : BotId) (b : Bot) : Prop where
  boss : b.boss = none
  followers : b.followers = []
  unnamed : ∀ other r, m.bots.get? other = some r → r.boss ≠ some id ∧ id ∉ r.followers
  unowned : ∀ item, m.claims.owner? item ≠ some id
  items : m.claims.ofBot id = []
  sensors : b.sensors.isInitial

/-- All inactive bots are inert. -/
def Maintained (m : Mind) : Prop :=
  ∀ id b, m.bots.get? id = some b → b.isActive = false → m.Inert id b

/-- With links and claims in agreement, a bot whose own record is bare and that
has no items is inert. -/
theorem inert_of_bare (hl : Links.Consistent m.bots) (ha : m.claims.Agree) {id : BotId} {b : Bot}
    (hb : m.bots.get? id = some b) (hboss : b.boss = none) (hfollowers : b.followers = [])
    (hitems : m.claims.ofBot id = []) (hsensors : b.sensors.isInitial) : m.Inert id b where
  boss := hboss
  followers := hfollowers
  unnamed other r hr := by
    rw [← Links.boss?_of_get? hr, ← Links.followers_of_get? hr]
    constructor
    · rw [ne_eq, hl.boss?_iff, Links.followers_of_get? hb, hfollowers]
      exact List.not_mem_nil
    · rw [← hl.boss?_iff, Links.boss?_of_get? hb, hboss]
      exact nofun
  unowned item := by
    rw [ne_eq, ha, hitems]
    exact List.not_mem_nil
  items := hitems
  sensors := hsensors

/-- Inactive bots are inert after maintenance. -/
theorem maintained_maintain {r : Report} (h : m.maintain = .ok (r, m'))
    (hl : Links.Consistent m.bots) (ha : m.claims.Agree) : m'.Maintained := by
  obtain ⟨⟨n, bots⟩, hsep, h⟩ := bind_eq_ok.1 h
  have hlinks : Links.Consistent (Census.resetSensors bots) := by
    have hseparated := (Links.Edit.cleanup hsep).consistent hl
    have hreset : Roster.Kept Bot.ties bots (Census.resetSensors bots) :=
      kept_resetSensors fun _ _ => rfl
    exact hseparated.congr hreset.view
  have hagree := Claims.stable_agree.releaseInactive (Census.resetSensors bots) ha
  cases h
  intro id b hb hactive
  obtain ⟨b₀, hb₀, hsame, hsensors⟩ := Census.get?_resetSensors hb
  have hactive₀ : b₀.isActive = false := by
    rw [← hactive, hsame]
  obtain ⟨hboss, hfollowers⟩ := Links.bare_of_separateInactive hl hsep hb₀ hactive₀
  have hitems : (releaseInactive (Census.resetSensors bots) m.claims).2.ofBot id = [] := by
    rw [Claims.ofBot_releaseInactive, hb, if_pos]
    simp [hactive]
  refine inert_of_bare hlinks hagree hb ?_ ?_ hitems (hsensors hactive)
  · rw [hsame, hboss]
  · rw [hsame, hfollowers]

/-- Inert bots stay inert while nobody is relinked or falls inactive, nothing is
reported, and items go to active bots only. -/
theorem Maintained.kept (h : m.Maintained) (hbots : Roster.Kept Bot.vitals m.bots m'.bots)
    (ha : m'.claims.Agree)
    (hclaims : ∀ item b, m'.claims.owner? item = some b →
      m.claims.owner? item = some b ∨ (m.bots.get? b).any (·.isActive)) :
    m'.Maintained := by
  intro id b' hb' hactive'
  obtain ⟨b, hb, hvitals⟩ := hbots.exists_get? hb'
  obtain ⟨hties, hactive, hsensors⟩ : b.ties = b'.ties ∧ b.isActive = b'.isActive ∧
      b.sensors = b'.sensors := by
    simpa [Bot.vitals] using hvitals
  have hinactive : b.isActive = false := hactive.trans hactive'
  have hinert := h id b hb hinactive
  have hunowned : ∀ item, m'.claims.owner? item ≠ some id := by
    intro item howned
    rcases hclaims item id howned with hbefore | hlive
    · exact hinert.unowned item hbefore
    · rw [hb] at hlive
      simp [hinactive] at hlive
  have hboss : b.boss = b'.boss := congrArg Prod.fst hties
  have hfollowers : b.followers = b'.followers := congrArg Prod.snd hties
  exact {
    boss := hboss ▸ hinert.boss
    followers := hfollowers ▸ hinert.followers
    unnamed := fun other r' hr' => by
      obtain ⟨r, hr, hvitals⟩ := hbots.exists_get? hr'
      have hties : r.ties = r'.ties := congrArg Prod.fst hvitals
      have hboss : r.boss = r'.boss := congrArg Prod.fst hties
      have hfollowers : r.followers = r'.followers := congrArg Prod.snd hties
      rw [← hboss, ← hfollowers]
      exact hinert.unnamed other r hr
    unowned := hunowned
    items := List.eq_nil_iff_forall_not_mem.2 fun item hitem => hunowned item ((ha item id).2 hitem)
    sensors := hsensors ▸ hinert.sensors }

/-- Maintenance after maintenance has nothing to do. -/
theorem maintain_of_maintained {r : Report} (hm : m.Maintained) (h : m.maintain = .ok (r, m')) :
    r = {} := by
  have hseparate : Links.separateInactive m.bots = .ok (0, m.bots) :=
    Links.separateEach_eq_self _ 0 fun id b hb => Links.needsSeparation_of_bare fun hactive =>
      ⟨(hm id b hb hactive).boss, (hm id b hb hactive).followers⟩
  have hreset : Census.staleSensors m.bots = 0 :=
    Census.staleSensors_eq_zero fun id b hb hactive => (hm id b hb hactive).sensors
  have hreleased : (releaseInactive (Census.resetSensors m.bots) m.claims).1 = 0 := by
    refine released_eq_zero fun e he hactive => ?_
    obtain ⟨b₀, hb₀, hsame, -⟩ := Census.get?_resetSensors (Roster.get?_of_mem_entries he)
    have hactive₀ : b₀.isActive = false := by
      rw [← hactive, hsame]
    exact (hm e.id b₀ hb₀ hactive₀).items
  obtain ⟨⟨n, bots⟩, hsep, h⟩ := bind_eq_ok.1 h
  rw [hseparate] at hsep
  cases hsep
  have hreport : { sensorsReset := Census.staleSensors m.bots
                   claimsReleased := (releaseInactive (Census.resetSensors m.bots) m.claims).1 } =
      r := congrArg Prod.fst (Except.ok.inj h)
  rw [← hreport, hreset, hreleased]

/-! ## The rest of a tick -/

/-- What a tick reports of its first two phases, and what the later ones make of
the four stores that these phases work on. -/
theorem tick_upkeep {now : Time} {elapsed : Metrics.Duration} {r : Report}
    (h : m.tick now elapsed = .ok (r, m')) :
    ∃ r₀ m₀, (m.expireEvents now).2.maintain = .ok (r₀, m₀) ∧
      r.eventsExpired = (m.expireEvents now).1 ∧ r.deadSeparated = r₀.deadSeparated ∧
      r.sensorsReset = r₀.sensorsReset ∧ r.claimsReleased = r₀.claimsReleased ∧
      m'.settings = m.settings ∧ m'.log = (m.expireEvents now).2.log ∧
      m'.bots = ((m₀.surveyCombat now).commandSquads.2.shareLoot.2.behave now).2.bots ∧
      m'.claims = (m₀.surveyCombat now).commandSquads.2.shareLoot.2.claims := by
  obtain ⟨⟨r₁, m₁⟩, hadvance, h⟩ := bind_eq_ok.1 h
  obtain ⟨⟨r₀, m₀⟩, hmaintain, hadvance⟩ := bind_eq_ok.1 hadvance
  obtain ⟨⟨n, bots⟩, -, hrest⟩ := bind_eq_ok.1 hmaintain
  have hsettings : m₀.settings = m.settings := by
    cases hrest
    rfl
  have hlog : m₀.log = (m.expireEvents now).2.log := by
    cases hrest
    rfl
  cases hadvance
  cases h
  exact ⟨r₀, m₀, hmaintain, rfl, rfl, rfl, rfl, hsettings, hlog, rfl, rfl⟩

theorem kept_vitals_commandSquads (m : Mind) :
    Roster.Kept Bot.vitals m.bots m.commandSquads.2.bots := (kept_commandSquads m).comp Bot.vitals

theorem kept_vitals_behave (m : Mind) (now : Time) :
    Roster.Kept Bot.vitals m.bots (m.behave now).2.bots := by
  refine .sweep fun _ b pass => ?_
  unfold botTurn
  split <;> rfl

/-- Inactive bots are inert after a tick. -/
theorem maintained_tick {now : Time} {elapsed : Metrics.Duration} {r : Report}
    (h : m.tick now elapsed = .ok (r, m')) (hl : Links.Consistent m.bots)
    (ha : m.claims.Agree) : m'.Maintained := by
  obtain ⟨r₀, m₀, hmaintain, -, -, -, -, -, -, hbots, hclaims⟩ := tick_upkeep h
  have hm₀ : m₀.Maintained := maintained_maintain hmaintain hl ha
  have horders := kept_vitals_commandSquads (m₀.surveyCombat now)
  generalize hm₁ : (m₀.surveyCombat now).commandSquads.2 = m₁ at hbots hclaims horders
  have ha₁ : m₁.claims.Agree := by
    obtain ⟨-, hreleased, -⟩ := maintain_ok hmaintain
    have ha₀ : m₀.claims.Agree := hreleased ▸ Claims.stable_agree.releaseInactive m₀.bots ha
    rw [← hm₁]
    exact ha₀
  have hbehavior := kept_vitals_behave m₁.shareLoot.2 now
  have hkept : Roster.Kept Bot.vitals m₀.bots m'.bots := hbots ▸ horders.trans hbehavior
  refine hm₀.kept hkept (hclaims ▸ Claims.stable_agree.shareLoot ha₁) fun item b howned => ?_
  rw [hclaims] at howned
  rcases owner_of_shareLoot ha₁ howned with hbefore | hactive
  · rw [← hm₁] at hbefore
    exact .inl hbefore
  · exact .inr ((horders.any (·.2.1) b).symm.trans hactive)

/-! ## Ticks in a session -/

/-- After every tick of a session the inactive bots are inert, and another tick
at the same time finds nothing to maintain. -/
theorem inert_of_tick (h : History Bot.ties settings (m :: past)) (now : Time)
    (elapsed : Metrics.Duration) :
    ∃ r m', m.tick now elapsed = .ok (r, m') ∧
      (∀ id b, m'.bots.get? id = some b → b.isActive = false → m'.Inert id b) ∧
      ∀ elapsed', ∃ r' m'', m'.tick now elapsed' = .ok (r', m'') ∧ r'.eventsExpired = 0 ∧
        r'.deadSeparated = 0 ∧ r'.sensorsReset = 0 ∧ r'.claimsReleased = 0 := by
  obtain ⟨r, m', htick⟩ := exists_tick m now elapsed
  have hmaintained := maintained_tick htick h.links h.agree
  have hagree : m'.claims.Agree :=
    (h.move (.call (c := .tick now elapsed) (bind_eq_ok.2 ⟨(r, m'), htick, rfl⟩))).agree
  refine ⟨r, m', htick, hmaintained, fun elapsed' => ?_⟩
  obtain ⟨-, -, -, -, -, -, -, hsettings, hlog, -, -⟩ := tick_upkeep htick
  obtain ⟨r', m'', htick'⟩ := exists_tick m' now elapsed'
  obtain ⟨r₀, m₀, hmaintain, hexpired, hseparated, hreset, hreleased, -⟩ := tick_upkeep htick'
  have hready : (m'.expireEvents now).2.Maintained :=
    hmaintained.kept (.refl _) hagree fun _ _ => .inl
  have hidle : r₀ = {} := maintain_of_maintained hready hmaintain
  have hnone : (m'.expireEvents now).1 = 0 := by
    simp only [expireEvents, hlog, hsettings]
    exact Combat.Log.expiring_expire ..
  refine ⟨r', m'', htick', hexpired.trans hnone, ?_, ?_, ?_⟩
  · rw [hseparated, hidle]
  · rw [hreset, hidle]
  · rw [hreleased, hidle]

theorem inert_of_tick_with_dead_boss :
    let m := (fresh {} (.ofSeed 1)).after [.register 7 .unknown, .register 8 .unknown,
      .register 9 .unknown, .assignBoss ⟨1⟩ ⟨0⟩, .assignBoss ⟨2⟩ ⟨1⟩, .claim ⟨1⟩ 3,
      .sense ⟨1⟩ .inCombat true 0, .recordEvent { kind := .gunshot },
      .patch ⟨1⟩ { isActive := some false }]
    ∃ r m', m.tick 500 ⟨0⟩ = .ok (r, m') ∧
      (r.eventsExpired, r.deadSeparated, r.sensorsReset, r.claimsReleased) = (1, 1, 1, 1) ∧
      (∃ b, m'.bots.get? ⟨1⟩ = some b ∧ b.isActive = false ∧ m'.Inert ⟨1⟩ b) ∧
      ∃ r' m'', m'.tick 500 ⟨0⟩ = .ok (r', m'') ∧ r'.eventsExpired = 0 ∧ r'.deadSeparated = 0 ∧
        r'.sensorsReset = 0 ∧ r'.claimsReleased = 0 := by
  intro m
  obtain ⟨past, h⟩ : ∃ past, History Bot.ties {} (m :: past) := (History.start rfl).after _
  obtain ⟨r, m', htick, hinert, hagain⟩ := inert_of_tick h 500 ⟨0⟩
  have hrun : (m.tick 500 ⟨0⟩).toOption.map (fun p =>
      ((p.1.eventsExpired, p.1.deadSeparated, p.1.sensorsReset, p.1.claimsReleased),
        (p.2.bots.get? ⟨1⟩).map (·.isActive))) = some ((1, 1, 1, 1), some false) := by
    decide +kernel
  rw [htick] at hrun
  obtain ⟨hreport, hdead⟩ := Prod.mk.inj (Option.some.inj hrun)
  obtain ⟨b, hb, hactive⟩ := Option.map_eq_some_iff.1 hdead
  exact ⟨r, m', htick, hreport, ⟨b, hb, hactive, hinert _ b hb hactive⟩, hagain ⟨0⟩⟩

end Mind

end Warband
