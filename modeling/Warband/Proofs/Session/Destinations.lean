import Warband.Proofs.Session.Maintenance
import Warband.Proofs.Session.Refusals

/-!
# Destinations are finite

What the host reports may be undefined in any place: positions, headings,
objectives, events, markers, hunted targets, even the settings of the noise.
Places computed from it may be undefined too, or overflow. But a place is
written to a bot's record by one phase only, and nothing is written there that
the bot has not learnt, and what is learnt is finite. So no bot is ever sent to
a point that is not.

The host may also edit the records itself, and add and remove bots, as long as it
makes up no membership.
-/
namespace Warband

open Warband.Random

namespace Roster

variable {k : Kind} {α β : Type} {p : α → Prop} {r r' : Roster k α}

/-- Every live record has a property. -/
def All (p : α → Prop) (r : Roster k α) : Prop := ∀ id a, r.get? id = some a → p a

namespace All

theorem empty : All p (Roster.empty : Roster k α) := by
  intro id a h
  rw [get?_empty] at h
  cases h

theorem modify (hr : All p r) (id : Handle k) {f : α → α} (hf : ∀ a, p a → p (f a)) :
    All p (r.modify id f) := by
  intro other a' h
  rw [get?_modify] at h
  split at h
  · obtain ⟨a, ha, rfl⟩ := Option.map_eq_some_iff.1 h
    apply hf
    exact hr other a ha
  · exact hr other a' h

theorem foldl {γ : Type} {step : Roster k α → γ → Roster k α} {xs : List γ} (hr : All p r)
    (h : ∀ x ∈ xs, ∀ r, All p r → All p (step r x)) : All p (xs.foldl step r) := by
  induction xs generalizing r with
  | nil => exact hr
  | cons x xs ih =>
      apply ih
      · exact h x List.mem_cons_self r hr
      · exact fun y hy => h y (List.mem_cons_of_mem _ hy)

/-- What can be told from an aspect that is kept goes on to hold. -/
theorem kept {π : α → β} (hr : All p r) (h : Kept π r r')
    (hp : ∀ a a', π a = π a' → p a → p a') : All p r' := by
  intro id a' ha'
  obtain ⟨a, ha, hsame⟩ := h.exists_get? ha'
  exact hp a a' hsame (hr id a ha)

theorem adopt (hr : All p r) {hostId : HostId} {a : α} {id : Handle k}
    (h : r.adopt hostId a = .ok (id, r')) (ha : p a) : All p r' := by
  intro other b hb
  rw [get?_adopt h] at hb
  split at hb
  · cases hb
    exact ha
  · exact hr other b hb

theorem remove (hr : All p r) {id : Handle k} {gone : Entry k α}
    (h : r.remove? id = some (gone, r')) : All p r' := by
  intro other b hb
  rw [get?_remove? h] at hb
  split at hb
  · cases hb
  · exact hr other b hb

end All

end Roster

open Roster (All)

namespace Bot

/-- Where a bot was last sent. -/
def destination? (b : Bot) : Option Position := b.membership.map (·.position)

/-- A bot that was sent somewhere was sent to a finite point. -/
def Directed (b : Bot) : Prop := ∀ p, b.destination? = some p → p.isFinite

theorem Directed.of_eq {b b' : Bot} (h : b.Directed) (hsame : b'.destination? = b.destination?) :
    b'.Directed := by
  unfold Directed
  rw [hsame]
  exact h

theorem directed_of_membership {b : Bot} (h : b.membership = none) : b.Directed := by
  intro p hp
  simp [destination?, h] at hp

theorem directed_iff {b : Bot} :
    b.Directed ↔ ∀ m, b.membership = some m → m.position.isFinite := by
  cases hm : b.membership <;> simp [Directed, destination?, hm]

theorem Directed.modifyMembership {b : Bot} (h : b.Directed) {f : Membership → Membership}
    (hf : ∀ m, m.position.isFinite → (f m).position.isFinite) :
    (b.modifyMembership f).Directed := by
  rw [directed_iff] at h ⊢
  intro m' hm'
  obtain ⟨m, hm, rfl⟩ := Option.map_eq_some_iff.1 hm'
  apply hf
  exact h m hm

theorem destination?_of_unlinked {b b' : Bot} (h : b.unlinked = b'.unlinked) :
    b'.destination? = b.destination? := (congrArg destination? h).symm

@[simp] theorem destination?_patch (p : Patch) (b : Bot) :
    (p.apply b).destination? = b.destination? := by
  cases h : b.membership <;>
    simp [destination?, Patch.apply, Bot.setIndoor, Bot.modifyBehavior, Patch.membership, h]

end Bot

theorem Position.isFinite_origin : origin.isFinite := by decide

/-! ## Squads and their members -/

namespace Enrollment

variable {squads squads' : Squads} {bots bots' : Bots}

theorem directed_welcome (id : SquadId) (s : Squad) : (welcome id s).position.isFinite :=
  Position.isFinite_origin

theorem directed_setRole (h : All Bot.Directed bots) (bot : BotId) (role : Role) :
    All Bot.Directed (setRole bots bot role) := by
  apply h.modify
  intro b hb
  exact hb.modifyMembership fun _ hm => hm

theorem directed_leave (h : All Bot.Directed bots) (bot : BotId) :
    All Bot.Directed (leave squads bots bot).2.2 := by
  unfold leave
  split
  · exact h
  · have hfreed : All Bot.Directed (bots.modify bot fun b => { b with membership := none }) := by
      apply h.modify
      intro b _
      exact Bot.directed_of_membership rfl
    dsimp only
    split
    · exact hfreed
    · unfold promote
      split
      · split
        · exact directed_setRole hfreed _ _
        · exact hfreed
      · exact hfreed

theorem directed_join (h : All Bot.Directed bots) {squad : SquadId} {bot : BotId} {limit : Nat}
    {answer : Except Error Unit}
    (hjoin : join squads bots squad bot limit = .ok (answer, squads', bots')) :
    All Bot.Directed bots' := by
  rcases join_cases squads bots squad bot limit with ⟨a, heq⟩ | ⟨s, s', -, -, -, -, -, heq⟩
  · rw [hjoin] at heq
    cases heq
    exact h
  · rw [hjoin] at heq
    cases heq
    apply (directed_leave h bot).modify
    intro b _
    rw [Bot.directed_iff]
    intro m hm
    cases hm
    exact directed_welcome squad s'

theorem directed_disband (h : All Bot.Directed bots) (id : SquadId) :
    All Bot.Directed (disband squads bots id).2.2 := by
  unfold disband
  split
  · exact h
  · apply h.foldl
    intro bot _ bots' h'
    apply h'.modify
    intro b hb
    split
    · exact Bot.directed_of_membership rfl
    · exact hb

end Enrollment

/-! ## Places sent and learnt -/

/-- Whatever is delivered is finite, wherever the order came from. -/
theorem Order.isFinite_of_deliver {noise : Float32} {coordination : UInt8} {os : List Order}
    {g : Generator} {d : Order × Option Position} {p : Position}
    (hd : d ∈ (deliver noise coordination os g).1) (hp : d.2 = some p) : p.isFinite := by
  induction os generalizing g with
  | nil => cases hd
  | cons o os ih =>
      rcases List.mem_cons.1 hd with rfl | hd
      · exact Relay.isFinite_of_share hp
      · exact ih hd

namespace Squad

variable {bots : Bots}

theorem directed_dismissFollowers (h : All Bot.Directed bots) (s : Squad) :
    All Bot.Directed (s.dismissFollowers bots) := by
  apply h.foldl
  intro id _ bots' h'
  apply h'.modify
  intro b hb
  exact hb.modifyMembership fun _ hm => hm

theorem directed_carryOut (h : All Bot.Directed bots) {deliveries : List (Order × Option Position)}
    (hd : ∀ d ∈ deliveries, ∀ p, d.2 = some p → p.isFinite) :
    All Bot.Directed (deliveries.foldl Order.carryOut bots) := by
  apply h.foldl
  intro d hin bots' h'
  apply h'.modify
  intro b hb
  apply hb.modifyMembership
  intro m hm
  cases hlearnt : d.2 with
  | none => exact hm
  | some p => exact hd d hin p hlearnt

theorem directed_refresh (h : All Bot.Directed bots) (s : Squad) (situation : Situation)
    (settings : SquadSettings) (comm : CommunicationSettings) (g : Generator) :
    All Bot.Directed (s.refresh bots situation settings comm g).bots := by
  unfold refresh
  split
  · exact directed_carryOut h fun d hd p hp => Order.isFinite_of_deliver hd hp
  · exact directed_dismissFollowers h s

end Squad

namespace Mind

variable {m m' : Mind}

/-! ## What one call does -/

theorem directed_commandSquads (h : All Bot.Directed m.bots) :
    All Bot.Directed m.commandSquads.2.bots := by
  rw [bots_commandSquads]
  apply Roster.sweep_induction (P := fun pass : SquadPass => All Bot.Directed pass.bots)
  · exact h
  · intro id s _ pass hpass
    unfold squadTurn
    split
    · apply Squad.directed_refresh hpass
    · exact hpass

theorem directed_behave (h : All Bot.Directed m.bots) (now : Time) :
    All Bot.Directed (m.behave now).2.bots := by
  have hkept : Roster.Kept Bot.destination? m.bots (m.behave now).2.bots := by
    apply Roster.Kept.sweep
    intro id b pass
    unfold botTurn
    split <;> rfl
  exact h.kept hkept fun b b' hsame hb => hb.of_eq hsame.symm

theorem directed_maintain {r : Report} (h : All Bot.Directed m.bots)
    (hmaintain : m.maintain = .ok (r, m')) : All Bot.Directed m'.bots := by
  obtain ⟨⟨n, bots⟩, hsep, hrest⟩ := bind_eq_ok.1 hmaintain
  cases hrest
  have hseparated : All Bot.Directed bots := h.kept (Links.Edit.cleanup hsep).kept
    fun b b' hsame hb => hb.of_eq (Bot.destination?_of_unlinked hsame)
  have hreset : Roster.Kept Bot.destination? bots (Census.resetSensors bots) :=
    kept_resetSensors fun _ _ => rfl
  exact hseparated.kept hreset fun b b' hsame hb => hb.of_eq hsame.symm

theorem directed_tick {now : Time} {elapsed : Metrics.Duration} {r : Report}
    (h : All Bot.Directed m.bots) (htick : m.tick now elapsed = .ok (r, m')) :
    All Bot.Directed m'.bots := by
  obtain ⟨r₀, m₀, hmaintain, -, -, -, -, -, -, hbots, -⟩ := tick_upkeep htick
  have hmaintained : All Bot.Directed m₀.bots :=
    directed_maintain (m := (m.expireEvents now).2) h hmaintain
  have hcommanded : All Bot.Directed (m₀.surveyCombat now).commandSquads.2.bots :=
    directed_commandSquads hmaintained
  rw [hbots]
  exact directed_behave hcommanded now

theorem directed_modifyBot (h : All Bot.Directed m.bots) (id : BotId) {f : Bot → Bot}
    (hf : ∀ b, (f b).destination? = b.destination?) :
    All Bot.Directed (m.modifyBot id f).2.bots := by
  unfold modifyBot
  split
  · apply h.modify
    intro b hb
    exact hb.of_eq (hf b)
  · exact h

theorem directed_setObjective (h : All Bot.Directed m.bots) (squad : SquadId) (p : Position)
    (now : Time) (duration : Float32) :
    All Bot.Directed (m.setObjective squad p now duration).2.bots := by
  unfold setObjective
  split
  · exact h
  · exact Squad.directed_dismissFollowers h _

theorem directed_setAction (h : All Bot.Directed m.bots) (squad : SquadId) (action : Action) :
    All Bot.Directed (m.setAction squad action).2.bots := by
  unfold setAction
  split <;> exact h

theorem directed_publishScan (h : All Bot.Directed m.bots) (squad : SquadId)
    (scan : List Loot.Item) : All Bot.Directed (m.publishScan squad scan).2.bots := by
  unfold publishScan
  split <;> exact h

theorem directed_register {hostId : HostId} {botClass : BotClass} {id : BotId}
    (h : All Bot.Directed m.bots) (hrun : m.register hostId botClass = .ok (id, m')) :
    All Bot.Directed m'.bots := by
  obtain ⟨bots, hadopt, rfl⟩ := register_ok hrun
  have hadopted : All Bot.Directed bots :=
    h.adopt hadopt (Bot.directed_of_membership rfl)
  apply hadopted.modify
  intro b hb
  exact hb.of_eq rfl

theorem directed_dropBot {id : BotId} (h : All Bot.Directed m.bots)
    (hdrop : m.dropBot id = .ok m') : All Bot.Directed m'.bots := by
  obtain ⟨bots, hsep, -, -, -, hbots⟩ := dropBot_ok hdrop
  have hseparated : All Bot.Directed bots := h.kept (Links.rewritten_separate hsep).kept
    fun b b' hsame hb => hb.of_eq (Bot.destination?_of_unlinked hsame)
  have hleft : All Bot.Directed (Enrollment.leave m.squads bots id).2.2 :=
    Enrollment.directed_leave hseparated id
  rcases hbots with ⟨gone, hremove⟩ | ⟨-, hsame⟩
  · exact hleft.remove hremove
  · rw [hsame]
    exact hleft

theorem directed_call {c : Call} {a : Answer} (h : All Bot.Directed m.bots)
    (hcall : m.call c = .ok (a, m')) : All Bot.Directed m'.bots := by
  cases c with
  | register hostId botClass =>
      obtain ⟨⟨id, m₁⟩, hrun, hcall⟩ := bind_eq_ok.1 hcall
      cases hcall
      exact directed_register h hrun
  | deregister hostId =>
      obtain ⟨⟨r, m₁⟩, hrun, hcall⟩ := bind_eq_ok.1 hcall
      cases hcall
      cases r with
      | error e =>
          rw [deregister_error hrun]
          exact h
      | ok id => exact directed_dropBot h (deregister_ok hrun).2
  | assignBoss follower boss =>
      obtain ⟨⟨ok, m₁⟩, hrun, hcall⟩ := bind_eq_ok.1 hcall
      obtain ⟨⟨ok, bots⟩, hassign, hrun⟩ := bind_eq_ok.1 hrun
      cases hrun
      cases hcall
      exact h.kept (Links.Edit.assign hassign).kept
        fun b b' hsame hb => hb.of_eq (Bot.destination?_of_unlinked hsame)
  | createSquad hostId =>
      obtain ⟨⟨id, m₁⟩, hrun, hcall⟩ := bind_eq_ok.1 hcall
      obtain ⟨squads, -, rfl⟩ := createSquad_ok hrun
      cases hcall
      exact h
  | disband squad =>
      cases hcall
      exact Enrollment.directed_disband h squad
  | join squad bot =>
      obtain ⟨⟨r, m₁⟩, hrun, hcall⟩ := bind_eq_ok.1 hcall
      obtain ⟨squads, bots, hjoin, rfl⟩ := join_ok hrun
      cases hcall
      exact Enrollment.directed_join h hjoin
  | leave bot =>
      cases hcall
      exact Enrollment.directed_leave h bot
  | setObjective squad p now duration =>
      cases hcall
      exact directed_setObjective h squad p now duration
  | tick now elapsed =>
      obtain ⟨⟨r, m₁⟩, hrun, hcall⟩ := bind_eq_ok.1 hcall
      cases hcall
      exact directed_tick h hrun
  -- what is left writes no membership: reports on one bot first, then all that is no bot's
  | move bot | sense bot | temper bot | startVulture bot | setIndoor bot =>
      cases hcall
      exact directed_modifyBot h bot fun _ => rfl
  | patch bot patch =>
      cases hcall
      exact directed_modifyBot h bot (Bot.destination?_patch patch)
  | setAction squad action =>
      cases hcall
      exact directed_setAction h squad action
  | publishScan squad scan =>
      cases hcall
      exact directed_publishScan h squad scan
  | recordEvent | addMarker | claim | release =>
      cases hcall
      exact h

/-! ## Runs -/

/-- What the host may make of the records on its own: it writes, links, adds and
removes at will, but no membership that was on no record before. -/
def Borrows (bots bots' : Bots) : Prop :=
  ∀ id b, bots'.get? id = some b →
    b.membership = none ∨ ∃ other r, bots.get? other = some r ∧ r.membership = b.membership

theorem Borrows.directed {bots bots' : Bots} (hb : Borrows bots bots')
    (h : All Bot.Directed bots) : All Bot.Directed bots' := by
  intro id b hget
  rcases hb id b hget with hnone | ⟨other, r, hr, hsame⟩
  · exact Bot.directed_of_membership hnone
  · apply (h other r hr).of_eq
    unfold Bot.destination?
    rw [hsame]

/-- The states that calls and the host lead to, from a mind with any settings. -/
inductive Course : Mind → Prop
  | start (settings : Settings) (g : Generator) : Course (fresh settings g)
  | call {m m' : Mind} {c : Call} {a : Answer} : Course m → m.call c = .ok (a, m') → Course m'
  | host {m : Mind} {bots : Bots} : Course m → Borrows m.bots bots → Course { m with bots := bots }

theorem Course.directed (h : Course m) : All Bot.Directed m.bots := by
  induction h with
  | start settings g => exact All.empty
  | call _ hcall ih => exact directed_call ih hcall
  | host _ hb ih => exact hb.directed ih

theorem Course.run {calls : List Call} {answers : List Answer} (h : Course m)
    (hrun : m.run calls = .ok (answers, m')) : Course m' := by
  induction calls generalizing m answers with
  | nil =>
      cases hrun
      exact h
  | cons c calls ih =>
      obtain ⟨⟨a, m₁⟩, hcall, hrun⟩ := bind_eq_ok.1 hrun
      obtain ⟨⟨as, m₂⟩, hrest, hrun⟩ := bind_eq_ok.1 hrun
      cases hrun
      exact ih (h.call hcall) hrest

theorem Course.after (h : Course m) (calls : List Call) : Course (m.after calls) := by
  unfold Mind.after
  split
  · rename_i hrun
    exact h.run hrun
  · exact h

/-- However a session goes, and whatever the host reports in it, every membership
of a live bot names a finite point, and so a bot that is to be somewhere is to be
at a finite one. Every call goes through. -/
theorem destinations_finite (h : Course m) :
    (∀ id b p, m.bots.get? id = some b → b.membership = some p →
      (p.position.x.isFinite ∧ p.position.y.isFinite ∧ p.position.z.isFinite) ∧
      ∀ place, p.assigned? = some place →
        place.x.isFinite ∧ place.y.isFinite ∧ place.z.isFinite) ∧
    ∀ c, ∃ a m', m.call c = .ok (a, m') ∧ Course m' := by
  constructor
  · intro id b p hb hp
    have hfinite : p.position.isFinite := Bot.directed_iff.1 (h.directed id b hb) p hp
    simp only [Position.isFinite, Bool.and_eq_true] at hfinite
    obtain ⟨⟨hx, hy⟩, hz⟩ := hfinite
    refine ⟨⟨hx, hy, hz⟩, ?_⟩
    intro place hplace
    unfold Membership.assigned? at hplace
    split at hplace
    · cases hplace
      exact ⟨hx, hy, hz⟩
    · cases hplace
  · intro c
    obtain ⟨a, m', hcall⟩ := exists_call m c
    exact ⟨a, m', hcall, h.call hcall⟩

/-- The noise, a heading, an event, a marker and a hunted target are undefined,
and then the leader is nowhere. -/
theorem destinations_finite_of_undefined_reports :
    let nowhere : Position := ⟨.ofBits 0x7fc00000, .infinity, 0⟩
    let m := (fresh { communication := { baseNoise := .ofBits 0x7fc00000 } } (.ofSeed 1)).after
      [.register 7 .unknown, .register 8 .unknown, .createSquad 5, .join ⟨0⟩ ⟨0⟩, .join ⟨0⟩ ⟨1⟩,
      .move ⟨0⟩ .origin ⟨.ofBits 0x7fc00000, 0⟩,
      .recordEvent { kind := .gunshot, position := nowhere }, .addMarker nowhere,
      .startVulture ⟨1⟩ nowhere 0, .setAction ⟨0⟩ .moveToObjective,
      .setObjective ⟨0⟩ ⟨0, 0, 20⟩ 0 60, .tick 1 ⟨0⟩]
    let m' := m.after [.move ⟨0⟩ nowhere ⟨1, 0⟩, .tick 2 ⟨0⟩]
    Course m ∧ Course m' ∧
      (∃ b p place, m.bots.get? ⟨1⟩ = some b ∧ b.membership = some p ∧ p.assigned? = some place ∧
        place.x.isFinite ∧ place.y.isFinite ∧ place.z.isFinite) ∧
      ∃ b p, m'.bots.get? ⟨1⟩ = some b ∧ b.membership = some p ∧ p.hasPosition = false ∧
        p.position.x.isFinite ∧ p.position.y.isFinite ∧ p.position.z.isFinite := by
  intro nowhere m m'
  have h : Course m := (Course.start _ _).after _
  have h' : Course m' := h.after _
  have hplaced : ((m.bots.get? ⟨1⟩).bind (·.membership)).map (·.assigned?.isSome) =
      some true := by decide +kernel
  have hdismissed : ((m'.bots.get? ⟨1⟩).bind (·.membership)).map (·.hasPosition) =
      some false := by decide +kernel
  obtain ⟨p, hp, hplaced⟩ := Option.map_eq_some_iff.1 hplaced
  obtain ⟨b, hb, hp⟩ := Option.bind_eq_some_iff.1 hp
  obtain ⟨place, hplace⟩ := Option.isSome_iff_exists.1 hplaced
  obtain ⟨p', hp', hdismissed⟩ := Option.map_eq_some_iff.1 hdismissed
  obtain ⟨b', hb', hp'⟩ := Option.bind_eq_some_iff.1 hp'
  refine ⟨h, h', ⟨b, p, place, hb, hp, hplace, ?_⟩, b', p', hb', hp', hdismissed, ?_⟩
  · exact ((destinations_finite h).1 ⟨1⟩ b p hb hp).2 place hplace
  · exact ((destinations_finite h').1 ⟨1⟩ b' p' hb' hp').1

end Mind

end Warband
