import Warband.Proofs.Session.Bounds
import Warband.Proofs.Session.Earshot
import Warband.Proofs.Session.Maintenance

/-!
# What a tick leaves alone

A tick decides where bots are to go, what they pick up and how they behave, and
clears up after those that are dead. It restructures nothing. Bots and squads stay
where they are in their registries, under the same handles and host ids; all that
the host has told of a bot or ordered a squad to do is as it was; and what the
active bots have among themselves, links and claims, they keep.

What a phase may write to a record is told by a copy of the record with these
parts blanked: a phase that keeps the copy has written to nothing else.
-/
namespace Warband

open Loot Combat

/-! ## Edits in place -/

namespace Roster

variable {k : Kind} {α β : Type}

/-- An aspect of every record is kept, and no record changes its place. -/
structure InPlace (π : α → β) (r r' : Roster k α) : Prop extends Kept π r r' where
  ids : r'.ids = r.ids

namespace InPlace

variable {π : α → β} {r r' r'' : Roster k α}

theorem refl (r : Roster k α) : InPlace π r r := ⟨.refl r, rfl⟩

theorem trans (h : InPlace π r r') (h' : InPlace π r' r'') : InPlace π r r'' :=
  ⟨h.toKept.trans h'.toKept, h'.ids.trans h.ids⟩

theorem modify {id : Handle k} {f : α → α} (h : ∀ a, π (f a) = π a) :
    InPlace π r (r.modify id f) := ⟨.modify h, ids_modifyEntry ..⟩

theorem map {f : Handle k → α → α} (h : ∀ id a, π (f id a) = π a) : InPlace π r (r.map f) :=
  ⟨.map h, ids_mapEntries ..⟩

theorem sweep {σ : Type} {f : Handle k → α → σ → α × σ} {s : σ}
    (h : ∀ id a s, π (f id a s).1 = π a) : InPlace π r (r.sweep f s).1 := ⟨.sweep h, ids_sweep ..⟩

theorem foldl {γ : Type} {step : Roster k α → γ → Roster k α} {xs : List γ}
    (h : ∀ x ∈ xs, ∀ r, InPlace π r (step r x)) : InPlace π r (xs.foldl step r) := by
  induction xs generalizing r with
  | nil => exact refl r
  | cons x xs ih =>
      apply (h x List.mem_cons_self r).trans
      apply ih
      exact fun y hy => h y (List.mem_cons_of_mem _ hy)

end InPlace

end Roster

open Roster (InPlace)

/-! ## What is blanked -/

/-- A membership without the part that orders write. -/
def Membership.lasting (m : Membership) : Membership :=
  { m with role := .none, position := .origin, hasPosition := false }

/-- A record without the parts that a tick may write. Only those that are not
active lose what their sensors tell. -/
def Bot.lasting (b : Bot) : Bot :=
  { b with
    sensors := if b.isActive then b.sensors else .initial
    behavior := {}
    membership := b.membership.map (·.lasting)
    boss := none
    followers := [] }

/-- An objective without the places of the followers. -/
def Objective.lasting (o : Objective) : Objective :=
  { o with slots := .replicate maxSquadSize .blank, used := 0 }

/-- A squad without the parts that a tick may write. -/
def Squad.lasting (s : Squad) : Squad :=
  { s with
    objective := s.objective.lasting
    character := .none
    share := s.share.forgetTarget }

/-- What was heard, whether it still counts or not. -/
def Combat.Event.heard (e : Event) : Event := { e with isActive := false }

/-- An aspect of a record that the place of its bot has no part in. -/
def Bot.Placeless {β : Type} (π : Bot → β) : Prop :=
  ∀ (b : Bot) (f : Membership → Membership), (∀ m, (f m).lasting = m.lasting) →
    π (b.modifyMembership f) = π b

theorem Membership.map_lasting {f : Membership → Membership} (hf : ∀ m, (f m).lasting = m.lasting)
    (m : Option Membership) : (m.map f).map (·.lasting) = m.map (·.lasting) := by
  rw [Option.map_map]
  exact congrArg (m.map ·) (funext hf)

theorem Bot.placeless_lasting : Placeless Bot.lasting := by
  intro b f hf
  unfold lasting modifyMembership
  rw [Membership.map_lasting hf]

theorem Objective.lasting_setSlot (o : Objective) (i : Nat) (slot : Slot) :
    (o.setSlot i slot).lasting = o.lasting := by
  unfold setSlot
  split <;> rfl

/-! ## Links -/

namespace Links

variable {bots bots' : Bots}

theorem inPlace_separateInactive {n : Nat} (h : separateInactive bots = .ok (n, bots')) :
    InPlace Bot.lasting bots bots' where
  toKept := (rewritten_separateEach bots.ids h).kept.comp Bot.lasting
  ids := (rewritten_separateEach bots.ids h).ids

/-- Separating the inactive bots leaves the ties among the others. -/
theorem ties_separateInactive (hc : Consistent bots) {n : Nat}
    (h : separateInactive bots = .ok (n, bots')) {id : BotId} {b : Bot}
    (hb : bots.get? id = some b) (hactive : b.isActive) :
    bots'.view Bot.ties id = some (b.boss.filter (!inactive bots ·),
      b.followers.filter (!inactive bots ·)) := by
  obtain ⟨n', bots₁, hrun, hrestricts⟩ := separateInactive_restricts hc.matched
  rw [h] at hrun
  cases hrun
  have hid : inactive bots id = false := by simp [inactive, hb, hactive]
  simp [Roster.view, hrestricts id, hb, Bot.ties, Bot.restrict, hid]

end Links

theorem Census.inPlace_resetSensors (bots : Bots) :
    InPlace Bot.lasting bots (resetSensors bots) := by
  apply InPlace.map
  intro _ b
  split
  · rename_i hstale
    have hinactive : b.isActive = false := by
      simpa using (Bool.and_eq_true_iff.1 hstale).1
    simp [Bot.lasting, hinactive]
  · rfl

/-! ## Orders -/

namespace Squad

section places

variable {β : Type} {π : Bot → β} (hπ : Bot.Placeless π)
include hπ

theorem inPlace_dismissFollowers (s : Squad) (bots : Bots) :
    InPlace π bots (s.dismissFollowers bots) := by
  apply InPlace.foldl
  intro id _ bots
  apply InPlace.modify
  intro b
  exact hπ b _ fun _ => rfl

theorem inPlace_carryOut (deliveries : List (Order × Option Position)) (bots : Bots) :
    InPlace π bots (deliveries.foldl Order.carryOut bots) := by
  apply InPlace.foldl
  intro d _ bots
  apply InPlace.modify
  intro b
  apply hπ b
  intro m
  cases d.2 <;> rfl

/-- Orders write nothing to a record but the place of its bot. -/
theorem inPlace_refresh (s : Squad) (bots : Bots) (situation : Situation)
    (settings : SquadSettings) (comm : CommunicationSettings) (g : Random.Generator) :
    InPlace π bots (s.refresh bots situation settings comm g).bots := by
  unfold refresh
  split
  · exact inPlace_carryOut hπ ..
  · exact inPlace_dismissFollowers hπ ..

end places

theorem lasting_inscribe (slots : List (Order × Nat)) (o : Objective) :
    (slots.foldl Order.inscribe o).lasting = o.lasting := by
  induction slots generalizing o with
  | nil => rfl
  | cons slot slots ih =>
      rw [List.foldl_cons, ih]
      exact o.lasting_setSlot ..

theorem lasting_refresh (s : Squad) (bots : Bots) (situation : Situation)
    (settings : SquadSettings) (comm : CommunicationSettings) (g : Random.Generator) :
    (s.refresh bots situation settings comm g).squad.lasting = s.lasting := by
  unfold refresh
  split
  · simp only [dispatch, lasting, lasting_inscribe]
  · rfl

end Squad

namespace Mind

variable {m m' : Mind}

/-! ## The phases -/

theorem inPlace_maintain {r : Report} (h : m.maintain = .ok (r, m')) :
    InPlace Bot.lasting m.bots m'.bots ∧ InPlace Squad.lasting m.squads m'.squads := by
  obtain ⟨-, -, hsquads⟩ := maintain_ok h
  obtain ⟨⟨n, bots⟩, hsep, h⟩ := bind_eq_ok.1 h
  constructor
  · cases h
    exact (Links.inPlace_separateInactive hsep).trans (Census.inPlace_resetSensors bots)
  · rw [hsquads]
    apply InPlace.map
    intro _ s
    unfold forgetLostTarget
    split <;> rfl

theorem inPlace_commandSquads (m : Mind) :
    InPlace Bot.lasting m.bots m.commandSquads.2.bots ∧
      InPlace Squad.lasting m.squads m.commandSquads.2.squads := by
  constructor
  · rw [bots_commandSquads]
    apply Roster.sweep_induction
      (P := fun pass : SquadPass => InPlace Bot.lasting m.bots pass.bots)
    · exact .refl m.bots
    · intro _ s _ pass hpass
      apply hpass.trans
      unfold squadTurn
      split
      · exact Squad.inPlace_refresh Bot.placeless_lasting ..
      · exact .refl pass.bots
  · apply InPlace.sweep
    intro _ s pass
    unfold squadTurn
    split
    · exact Squad.lasting_refresh ..
    · rfl

theorem inPlace_shareLoot (m : Mind) : InPlace Squad.lasting m.squads m.shareLoot.2.squads where
  toKept := (kept_unpicked_shareLoot m).comp Squad.lasting
  ids := Roster.ids_sweep ..

theorem inPlace_behave (m : Mind) (now : Time) :
    InPlace Bot.lasting m.bots (m.behave now).2.bots := by
  apply InPlace.sweep
  intro _ b pass
  unfold botTurn
  split <;> rfl

open Claims

/-- Nobody loses an item while the squads share. -/
theorem extends_shareLoot (ha : m.claims.Agree) : Extends m.claims m.shareLoot.2.claims := by
  have hpass : m.shareLoot.2.claims.Agree ∧ Extends m.claims m.shareLoot.2.claims := by
    apply Roster.sweep_induction
      (P := fun state : Nat × Claims => state.2.Agree ∧ Extends m.claims state.2)
    · exact ⟨ha, .refl _⟩
    · intro _ s _ state hstate
      obtain ⟨hagree, hext⟩ := hstate
      exact ⟨stable_agree.lootTurn m.bots m.settings.communication.range s hagree,
        hext.trans (extends_lootTurn m.bots m.settings.communication.range s hagree)⟩
  exact hpass.2

/-- Items are taken from the inactive only. -/
theorem owner_releaseInactive {bots : Bots} {c : Claims} (ha : c.Agree) {item : LootId} {b : BotId}
    (hactive : (bots.get? b).any (!·.isActive) = false) (h : c.owner? item = some b) :
    (releaseInactive bots c).2.owner? item = some b := by
  have ha' : (releaseInactive bots c).2.Agree := stable_agree.releaseInactive bots ha
  rw [ha', ofBot_releaseInactive, hactive]
  exact (ha item b).1 h

/-! ## A whole tick -/

/-- Nothing was restructured: every bot and every squad is where it was, under the
same handle and host id, and is what it was but for the parts that a tick may
write; links and items among active bots are kept; and what was heard is still
in its slot. -/
structure Undisturbed (m m' : Mind) : Prop where
  bots : InPlace Bot.lasting m.bots m'.bots
  squads : InPlace Squad.lasting m.squads m'.squads
  links : ∀ id b, m.bots.get? id = some b → b.isActive → ∃ b', m'.bots.get? id = some b' ∧
    b'.boss = b.boss.filter (!Links.inactive m.bots ·) ∧
    b'.followers = b.followers.filter (!Links.inactive m.bots ·)
  claims : ∀ item b, m.claims.owner? item = some b → Links.inactive m.bots b = false →
    m'.claims.owner? item = some b
  slots : m'.log.slots.map Event.heard = m.log.slots.map Event.heard
  head : m'.log.head = m.log.head
  count : m'.log.count = m.log.count

theorem heard_expire (l : Log) (now : Time) (maxAge : Float32) :
    (l.expire now maxAge).slots.map Event.heard = l.slots.map Event.heard := by
  unfold Log.expire
  rw [Array.map_map]
  apply Array.map_congr_left
  intro e _
  dsimp only [Function.comp_apply]
  split <;> rfl

variable {now : Time} {elapsed : Metrics.Duration} {r : Report}

/-- What a tick leaves in the stores that its phases work on. -/
theorem tick_phases (h : m.tick now elapsed = .ok (r, m')) :
    ∃ r₀ m₀, (m.expireEvents now).2.maintain = .ok (r₀, m₀) ∧
      m'.log = (m.expireEvents now).2.log ∧
      m'.bots = ((m₀.surveyCombat now).commandSquads.2.shareLoot.2.behave now).2.bots ∧
      m'.squads = (m₀.surveyCombat now).commandSquads.2.shareLoot.2.squads ∧
      m'.claims = (m₀.surveyCombat now).commandSquads.2.shareLoot.2.claims := by
  obtain ⟨r₀, m₀, hmaintain, -, -, -, -, -, hlog, hbots, hclaims⟩ := tick_upkeep h
  obtain ⟨m₁, hbefore, -, -, hsquads, -⟩ := tick_ok h
  obtain ⟨r₁, m₂, hagain, rfl⟩ := beforeLoot_ok hbefore
  rw [hmaintain] at hagain
  cases hagain
  exact ⟨r₀, m₀, hmaintain, hlog, hbots, hsquads, hclaims⟩

theorem inPlace_tick (h : m.tick now elapsed = .ok (r, m')) :
    InPlace Bot.lasting m.bots m'.bots ∧ InPlace Squad.lasting m.squads m'.squads := by
  obtain ⟨r₀, m₀, hmaintain, -, hbots, hsquads, -⟩ := tick_phases h
  obtain ⟨hbots₀, hsquads₀⟩ := inPlace_maintain hmaintain
  obtain ⟨hbots₁, hsquads₁⟩ := inPlace_commandSquads (m₀.surveyCombat now)
  rw [hbots, hsquads]
  constructor
  · apply hbots₀.trans
    apply hbots₁.trans
    apply inPlace_behave
  · apply hsquads₀.trans
    apply hsquads₁.trans
    apply inPlace_shareLoot

theorem ties_maintain (hc : Links.Consistent m.bots) (h : m.maintain = .ok (r, m')) {id : BotId}
    {b : Bot} (hb : m.bots.get? id = some b) (hactive : b.isActive) :
    m'.bots.view Bot.ties id = some (b.boss.filter (!Links.inactive m.bots ·),
      b.followers.filter (!Links.inactive m.bots ·)) := by
  obtain ⟨⟨n, bots⟩, hsep, h⟩ := bind_eq_ok.1 h
  have hreset : Roster.Kept Bot.ties bots (Census.resetSensors bots) :=
    kept_resetSensors fun _ _ => rfl
  cases h
  rw [hreset.view]
  exact Links.ties_separateInactive hc hsep hb hactive

/-- Maintenance alone touches the links of a tick. -/
theorem ties_tick (hc : Links.Consistent m.bots) (h : m.tick now elapsed = .ok (r, m')) {id : BotId}
    {b : Bot} (hb : m.bots.get? id = some b) (hactive : b.isActive) :
    m'.bots.view Bot.ties id = some (b.boss.filter (!Links.inactive m.bots ·),
      b.followers.filter (!Links.inactive m.bots ·)) := by
  obtain ⟨r₀, m₀, hmaintain, -, hbots, -⟩ := tick_phases h
  have hcommand := kept_ties_of_civil (kept_commandSquads (m₀.surveyCombat now))
  have hbehave : Roster.Kept Bot.ties (m₀.surveyCombat now).commandSquads.2.shareLoot.2.bots
      m'.bots := by
    rw [hbots]
    exact (kept_vitals_behave _ now).comp Prod.fst
  have hsame : m'.bots.view Bot.ties = m₀.bots.view Bot.ties := hbehave.view.trans hcommand.view
  rw [hsame]
  exact ties_maintain (m := (m.expireEvents now).2) hc hmaintain hb hactive

/-- Who is not inactive keeps its items through a tick. -/
theorem owner_tick (ha : m.claims.Agree) (h : m.tick now elapsed = .ok (r, m')) {item : LootId}
    {b : BotId} (hactive : Links.inactive m.bots b = false)
    (howned : m.claims.owner? item = some b) : m'.claims.owner? item = some b := by
  obtain ⟨r₀, m₀, hmaintain, -, -, -, hclaims⟩ := tick_phases h
  obtain ⟨hkept, hreleased, -⟩ := maintain_ok hmaintain
  have hactive₀ : (m₀.bots.get? b).any (!·.isActive) = false := (hkept.any (!·) b).trans hactive
  have hcommand : (m₀.surveyCombat now).commandSquads.2.claims =
      (releaseInactive m₀.bots m.claims).2 := hreleased
  rw [hclaims]
  apply extends_shareLoot
  · rw [hcommand]
    exact stable_agree.releaseInactive m₀.bots ha
  · rw [hcommand]
    exact owner_releaseInactive ha hactive₀ howned

theorem undisturbed_tick (hc : Links.Consistent m.bots) (ha : m.claims.Agree)
    (h : m.tick now elapsed = .ok (r, m')) : Undisturbed m m' := by
  obtain ⟨-, -, -, hlog, -⟩ := tick_phases h
  obtain ⟨hbots, hsquads⟩ := inPlace_tick h
  have hlinks : ∀ id b, m.bots.get? id = some b → b.isActive →
      ∃ b', m'.bots.get? id = some b' ∧
        b'.boss = b.boss.filter (!Links.inactive m.bots ·) ∧
        b'.followers = b.followers.filter (!Links.inactive m.bots ·) := by
    intro id b hb hactive
    obtain ⟨b', hb', hties⟩ := Option.map_eq_some_iff.1 (ties_tick hc h hb hactive)
    exact ⟨b', hb', congrArg Prod.fst hties, congrArg Prod.snd hties⟩
  have hslots : m'.log.slots.map Event.heard = m.log.slots.map Event.heard := by
    rw [hlog]
    apply heard_expire
  exact {
    bots := hbots
    squads := hsquads
    links := hlinks
    claims := fun _ _ howned hactive => owner_tick ha h hactive howned
    slots := hslots
    head := by
      rw [hlog]
      rfl
    count := by
      rw [hlog]
      rfl }

variable {settings : Settings} {past : List Mind}

/-- In every session, with a host that links no bots but by the operations for it, a tick
restructures nothing. -/
theorem undisturbed_of_tick (h : History Bot.ties settings (m :: past)) (now : Time)
    (elapsed : Metrics.Duration) :
    ∃ r m', m.tick now elapsed = .ok (r, m') ∧ Undisturbed m m' := by
  obtain ⟨r, m', htick⟩ := exists_tick m now elapsed
  exact ⟨r, m', htick, undisturbed_tick h.links h.agree htick⟩

/-- A follower dies with an item in its name, and a shot has faded. The boss keeps
its other follower, which keeps its own item and is sent to a place. -/
theorem undisturbed_of_dead_follower :
    let m := (fresh {} (.ofSeed 1)).after [.register 7 .unknown, .register 8 .unknown,
      .register 9 .unknown, .assignBoss ⟨1⟩ ⟨0⟩, .assignBoss ⟨2⟩ ⟨0⟩, .createSquad 5,
      .join ⟨0⟩ ⟨0⟩, .join ⟨0⟩ ⟨1⟩, .setAction ⟨0⟩ .moveToObjective,
      .setObjective ⟨0⟩ ⟨0, 0, 20⟩ 0 60, .claim ⟨1⟩ 5, .claim ⟨2⟩ 6,
      .recordEvent { kind := .gunshot, power := 10, isActive := true },
      .patch ⟨2⟩ { isActive := some false }]
    (∃ past, History Bot.ties {} (m :: past)) ∧
      ∃ r m' b, m.tick 1000 ⟨0⟩ = .ok (r, m') ∧ m.Undisturbed m' ∧ r.deadSeparated = 1 ∧
        r.eventsExpired = 1 ∧ r.followersPositioned = 1 ∧ m'.bots.ids = [⟨0⟩, ⟨1⟩, ⟨2⟩] ∧
        m'.bots.get? ⟨0⟩ = some b ∧ b.followers = [⟨1⟩] ∧ m'.claims.owner? 5 = some ⟨1⟩ := by
  intro m
  obtain ⟨past, h⟩ : ∃ past, History Bot.ties {} (m :: past) := (History.start rfl).after _
  obtain ⟨r, m', htick, hsame⟩ := undisturbed_of_tick h 1000 ⟨0⟩
  have hrun : (m.tick 1000 ⟨0⟩).toOption.map (fun x =>
      (x.1.deadSeparated, x.1.eventsExpired, x.1.followersPositioned)) = some (1, 1, 1) := by
    decide +kernel
  have hids : m.bots.ids = [⟨0⟩, ⟨1⟩, ⟨2⟩] := by decide +kernel
  have hboss : (m.bots.get? ⟨0⟩).map (fun b => (b.isActive, b.followers)) =
      some (true, [⟨1⟩, ⟨2⟩]) := by decide +kernel
  have howned : m.claims.owner? 5 = some ⟨1⟩ := by decide +kernel
  have hone : Links.inactive m.bots ⟨1⟩ = false := by decide +kernel
  have htwo : Links.inactive m.bots ⟨2⟩ = true := by decide +kernel
  rw [htick] at hrun
  obtain ⟨hseparated, hrun⟩ := Prod.mk.inj (Option.some.inj hrun)
  obtain ⟨hexpired, hpositioned⟩ := Prod.mk.inj hrun
  obtain ⟨boss, hget, hboss⟩ := Option.map_eq_some_iff.1 hboss
  obtain ⟨hactive, hfollowers⟩ := Prod.mk.inj hboss
  obtain ⟨b, hb, -, hleft⟩ := hsame.links ⟨0⟩ boss hget hactive
  refine ⟨⟨past, h⟩, r, m', b, htick, hsame, hseparated, hexpired, hpositioned, ?_, hb, ?_, ?_⟩
  · rw [hsame.bots.ids, hids]
  · rw [hleft, hfollowers]
    simp [hone, htwo]
  · exact hsame.claims 5 ⟨1⟩ howned hone

end Mind

end Warband
