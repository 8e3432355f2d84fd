import Warband.Mind.Call
import Warband.Proofs.Claims
import Warband.Proofs.Links.Edits
import Warband.Proofs.Orders

/-!
# Sessions

A session starts from accepted settings and goes on by moves: the host calls the
mind, writes to the record of a bot, or edits links itself. What the host may
write is a parameter: some aspect of the records that it leaves alone. The
states of a session are listed with the newest first.

Most moves are calm. They bring nobody in and let nobody go, and they keep the
links, the lists, the posts, the places of leaders and the agreement of the
claims. The moves that are not calm are few, and each is one edit that is
described elsewhere.
-/
namespace Warband.Mind

open Loot

variable {β : Type} {π : Bot → β}

/-- One step of a session. The host writes to the record of an entry and never to its id
or its host id: those two are out of its reach, which is assumed of every session. -/
inductive Move (π : Bot → β) (m : Mind) : Mind → Prop
  | call {c : Call} {a : Answer} {m' : Mind} : m.call c = .ok (a, m') → Move π m m'
  | write (id : BotId) {f : Bot → Bot} : (∀ b, π (f b) = π b) →
      Move π m { m with bots := m.bots.modify id f }
  | relink {bots : Bots} : Links.Edit m.bots bots → Move π m { m with bots := bots }

/-- The states of a session, the newest first. -/
inductive History (π : Bot → β) (settings : Settings) : List Mind → Prop
  | start {g : Random.Generator} {m : Mind} : Mind.start settings g = .ok m →
      History π settings [m]
  | move {m m' : Mind} {past : List Mind} : History π settings (m :: past) → Move π m m' →
      History π settings (m' :: m :: past)

/-- A host that leaves more alone has fewer sessions. -/
theorem History.mono {γ : Type} {ρ : Bot → γ} {settings : Settings} {states : List Mind}
    (h : History π settings states) (hρ : ∀ b b', π b = π b' → ρ b = ρ b') :
    History ρ settings states := by
  induction h with
  | start hm => exact .start hm
  | move _ hmove ih =>
      refine .move ih ?_
      cases hmove with
      | call h => exact .call h
      | write id hf => exact .write id fun b => hρ _ _ (hf b)
      | relink h => exact .relink h

/-! ## Calm moves -/

structure Calm (m m' : Mind) : Prop where
  settings : m'.settings = m.settings
  bots : Roster.Kept Bot.ties m.bots m'.bots
  squads : Roster.Kept Squad.ranks m.squads m'.squads
  claims : m.claims.Agree → m'.claims.Agree
  helms : ∀ limit, Enrollment.Consistent limit m.squads m.bots →
    Roster.Kept Bot.helm m.bots m'.bots

namespace Calm

variable {m m' m'' : Mind}

theorem refl (m : Mind) : Calm m m := ⟨rfl, .refl _, .refl _, id, fun _ _ => .refl _⟩

theorem consistent (h : Calm m m') {limit : Nat}
    (hc : Enrollment.Consistent limit m.squads m.bots) :
    Enrollment.Consistent limit m'.squads m'.bots :=
  hc.congr h.squads.view (kept_post_of_helm (h.helms limit hc)).view

theorem trans (h : Calm m m') (h' : Calm m' m'') : Calm m m'' where
  settings := h'.settings.trans h.settings
  bots := h.bots.trans h'.bots
  squads := h.squads.trans h'.squads
  claims := h'.claims ∘ h.claims
  helms limit hc := (h.helms limit hc).trans (h'.helms limit (h.consistent hc))

/-- A move that leaves settings, bots, squads and claims alone. -/
theorem of_eq (hs : m'.settings = m.settings) (hb : m'.bots = m.bots)
    (hq : m'.squads = m.squads) (hc : m'.claims = m.claims) : Calm m m' where
  settings := hs
  bots := hb ▸ .refl _
  squads := hq ▸ .refl _
  claims h := hc ▸ h
  helms _ _ := hb ▸ .refl _

theorem of_squads {squads : Squads} (h : Roster.Kept Squad.ranks m.squads squads) :
    Calm m { m with squads := squads } := ⟨rfl, .refl _, h, id, fun _ _ => .refl _⟩

theorem of_claims {claims : Claims} (h : m.claims.Agree → claims.Agree) :
    Calm m { m with claims := claims } := ⟨rfl, .refl _, .refl _, h, fun _ _ => .refl _⟩

theorem of_bots {bots : Bots} (h : Roster.Kept Bot.ties m.bots bots)
    (hp : Roster.Kept Bot.helm m.bots bots) : Calm m { m with bots := bots } :=
  ⟨rfl, h, .refl _, id, fun _ _ => hp⟩

theorem bump (m : Mind) (c : Metrics.Counters) : Calm m (m.bump c) := of_eq rfl rfl rfl rfl

end Calm

theorem kept_ties_of_civil {bots bots' : Bots} (h : Roster.Kept Bot.civil bots bots') :
    Roster.Kept Bot.ties bots bots' := h.comp Bot.ties

theorem kept_post_of_unlinked {bots bots' : Bots} (h : Roster.Kept Bot.unlinked bots bots') :
    Roster.Kept Bot.post bots bots' := h.comp Bot.post

theorem calm_modifyBot (m : Mind) (id : BotId) {f : Bot → Bot} (ht : ∀ b, (f b).ties = b.ties)
    (hp : ∀ b, (f b).helm = b.helm) : Calm m (m.modifyBot id f).2 := by
  unfold modifyBot
  split
  · exact .of_bots (.modify ht) (.modify hp)
  · exact .refl m

theorem calm_setObjective (m : Mind) (squad : SquadId) (p : Position) (now : Time)
    (duration : Float32) : Calm m (m.setObjective squad p now duration).2 := by
  unfold setObjective
  cases hs : m.squads.get? squad with
  | none =>
      simp only
      exact .refl m
  | some s =>
      simp only
      have hranks : Roster.Kept Squad.ranks m.squads (m.squads.modify squad fun _ =>
          { s with objective := s.objective.set p now duration }) := by
        refine .modify_of fun a ha => ?_
        rw [hs] at ha
        cases ha
        rfl
      refine ⟨rfl, kept_ties_of_civil (Squad.kept_dismissFollowers ..), hranks, id,
        fun limit hc => Squad.kept_helm_dismissFollowers ?_⟩
      have hfollowers := hc.followers hs
      exact hfollowers

theorem calm_setAction (m : Mind) (squad : SquadId) (action : Action) :
    Calm m (m.setAction squad action).2 := by
  unfold setAction
  split
  · exact .of_squads (.modify fun _ => rfl)
  · exact .refl m

theorem calm_publishScan (m : Mind) (squad : SquadId) (scan : List Item) :
    Calm m (m.publishScan squad scan).2 := by
  unfold publishScan
  split
  · exact .of_squads (.modify fun _ => rfl)
  · exact .refl m

theorem calm_claim (m : Mind) (bot : BotId) (item : LootId) : Calm m (m.claim bot item).2 :=
  (Calm.of_claims fun h => h.claim bot item).trans (.bump _ _)

theorem calm_release (m : Mind) (bot : BotId) (item : LootId) : Calm m (m.release bot item).2 :=
  Calm.of_claims fun h => h.release bot item

/-! ## Idle moves -/

/-- Neither a counter nor a ring changes, and nobody comes or goes. -/
structure Idle (m m' : Mind) : Prop where
  live : ∀ id, m'.bots.contains id = m.bots.contains id
  counters : m'.counters = m.counters
  log : m'.log = m.log
  timer : m'.timer = m.timer

theorem Idle.refl (m : Mind) : Idle m m := ⟨fun _ => rfl, rfl, rfl, rfl⟩

theorem idle_modifyBot (m : Mind) (id : BotId) (f : Bot → Bot) :
    Idle m (m.modifyBot id f).2 := by
  unfold modifyBot
  split
  · exact ⟨fun _ => Roster.contains_modify .., rfl, rfl, rfl⟩
  · exact .refl m

theorem idle_setObjective (m : Mind) (squad : SquadId) (p : Position) (now : Time)
    (duration : Float32) : Idle m (m.setObjective squad p now duration).2 := by
  have hlive := (calm_setObjective m squad p now duration).bots.contains
  unfold setObjective at hlive ⊢
  split at hlive
  · exact ⟨hlive, rfl, rfl, rfl⟩
  · exact ⟨hlive, rfl, rfl, rfl⟩

theorem idle_setAction (m : Mind) (squad : SquadId) (action : Action) :
    Idle m (m.setAction squad action).2 := by
  unfold setAction
  split <;> exact ⟨fun _ => rfl, rfl, rfl, rfl⟩

theorem idle_publishScan (m : Mind) (squad : SquadId) (scan : List Item) :
    Idle m (m.publishScan squad scan).2 := by
  unfold publishScan
  split <;> exact ⟨fun _ => rfl, rfl, rfl, rfl⟩

/-! ## The phases of a tick -/

theorem calm_surveyCombat (m : Mind) (now : Time) : Calm m (m.surveyCombat now) :=
  .of_eq rfl rfl rfl rfl

theorem calm_commandSquads (m : Mind) : Calm m m.commandSquads.2 :=
  ⟨rfl, kept_ties_of_civil (kept_commandSquads m), kept_squads_commandSquads m, id,
    fun _ hc => kept_helm_commandSquads hc⟩

theorem calm_shareLoot (m : Mind) : Calm m m.shareLoot.2 := by
  refine ⟨rfl, .refl _, .sweep fun _ s state => ?_, Claims.stable_agree.shareLoot,
    fun _ _ => .refl _⟩
  unfold lootTurn
  split
  · split <;> rfl
  · rfl

theorem calm_behave (m : Mind) (now : Time) : Calm m (m.behave now).2 := by
  refine ⟨rfl, .sweep fun _ b pass => ?_, .refl _, id, fun _ _ => .sweep fun _ b pass => ?_⟩
  all_goals
    unfold botTurn
    split <;> rfl

theorem kept_resetSensors {bots : Bots} (h : ∀ (b : Bot) s, π { b with sensors := s } = π b) :
    Roster.Kept π bots (Census.resetSensors bots) := by
  refine .map fun _ b => ?_
  split
  · exact h b _
  · rfl

/-- Maintenance edits links; all else it does is calm. -/
theorem calm_maintain {m m' : Mind} {r : Report} (h : m.maintain = .ok (r, m')) :
    ∃ bots, Links.Edit m.bots bots ∧ Calm { m with bots := bots } m' := by
  obtain ⟨⟨n, bots⟩, hsep, h⟩ := bind_eq_ok.1 h
  have hranks : Roster.Kept Squad.ranks m.squads
      (m.squads.map fun _ => forgetLostTarget (Census.resetSensors bots)) := by
    refine .map fun _ s => ?_
    unfold forgetLostTarget
    split <;> rfl
  cases h
  exact ⟨bots, .cleanup hsep, rfl, kept_resetSensors fun _ _ => rfl, hranks,
    Claims.stable_agree.releaseInactive _, fun _ _ => kept_resetSensors fun _ _ => rfl⟩

/-- The state of a tick in which its loot phase begins. -/
def beforeLoot (m : Mind) (now : Time) : Except Fault Mind := do
  let (_, m) ← (m.expireEvents now).2.maintain
  return (m.surveyCombat now).commandSquads.2

theorem beforeLoot_ok {m m₁ : Mind} {now : Time} (h : m.beforeLoot now = .ok m₁) :
    ∃ r m₀, (m.expireEvents now).2.maintain = .ok (r, m₀) ∧
      m₁ = (m₀.surveyCombat now).commandSquads.2 := by
  obtain ⟨⟨r, m₀⟩, hmaintain, h⟩ := bind_eq_ok.1 h
  cases h
  exact ⟨r, m₀, hmaintain, rfl⟩

theorem calm_beforeLoot {m m₁ : Mind} {now : Time} (h : m.beforeLoot now = .ok m₁) :
    ∃ bots, Links.Edit m.bots bots ∧ Calm { m with bots := bots } m₁ := by
  obtain ⟨r, m₀, hmaintain, rfl⟩ := beforeLoot_ok h
  obtain ⟨bots, hedit, hcalm⟩ := calm_maintain hmaintain
  have hexpire : Calm { m with bots := bots } { (m.expireEvents now).2 with bots := bots } :=
    .of_eq rfl rfl rfl rfl
  have horders : Calm m₀ (m₀.surveyCombat now).commandSquads.2 :=
    (calm_surveyCombat m₀ now).trans (calm_commandSquads _)
  exact ⟨bots, hedit, hexpire.trans (hcalm.trans horders)⟩

/-- After the loot phase neither claims nor squads change any more. -/
theorem tick_ok {m m' : Mind} {now : Time} {elapsed : Metrics.Duration} {r : Report}
    (h : m.tick now elapsed = .ok (r, m')) :
    ∃ m₁, m.beforeLoot now = .ok m₁ ∧ r.lootClaims = m₁.shareLoot.1 ∧
      m'.claims = m₁.shareLoot.2.claims ∧ m'.squads = m₁.shareLoot.2.squads ∧
      Calm m₁.shareLoot.2 m' := by
  obtain ⟨⟨r₁, m₂⟩, hadvance, h⟩ := bind_eq_ok.1 h
  obtain ⟨⟨r₂, m₀⟩, hmaintain, hadvance⟩ := bind_eq_ok.1 hadvance
  have hbefore : m.beforeLoot now = .ok (m₀.surveyCombat now).commandSquads.2 :=
    bind_eq_ok.2 ⟨(r₂, m₀), hmaintain, rfl⟩
  cases hadvance
  cases h
  exact ⟨_, hbefore, rfl, rfl, rfl, (calm_behave _ now).trans (.of_eq rfl rfl rfl rfl)⟩

/-- So a tick is calm but for the links that its maintenance edits. -/
theorem calm_tick {m m' : Mind} {now : Time} {elapsed : Metrics.Duration} {r : Report}
    (h : m.tick now elapsed = .ok (r, m')) :
    ∃ bots, Links.Edit m.bots bots ∧ Calm { m with bots := bots } m' := by
  obtain ⟨m₁, hbefore, -, -, -, hafter⟩ := tick_ok h
  obtain ⟨bots, hedit, hcalm⟩ := calm_beforeLoot hbefore
  exact ⟨bots, hedit, hcalm.trans ((calm_shareLoot m₁).trans hafter)⟩

/-- A tick always comes to an end. -/
theorem exists_tick (m : Mind) (now : Time) (elapsed : Metrics.Duration) :
    ∃ r m', m.tick now elapsed = .ok (r, m') := by
  obtain ⟨⟨n, bots⟩, hsep⟩ := Links.separateInactive_ok (m.expireEvents now).2.bots
  simp only [tick, advance, maintain, hsep, bind, Except.bind, pure, Except.pure]
  exact ⟨_, _, rfl⟩

/-! ## What a move amounts to -/

/-- A move is calm, or one edit of bots, links or lists, or an edit of links in a
move that is calm otherwise. -/
inductive Edit (π : Bot → β) (m : Mind) : Mind → Prop
  | calm {m' : Mind} : Calm m m' → Edit π m m'
  | write (id : BotId) {f : Bot → Bot} : (∀ b, π (f b) = π b) →
      Edit π m { m with bots := m.bots.modify id f }
  | relink {bots : Bots} {m' : Mind} : Links.Edit m.bots bots → Calm { m with bots := bots } m' →
      Edit π m m'
  | register {hostId : HostId} {botClass : BotClass} {id : BotId} {m' : Mind} :
      m.register hostId botClass = .ok (id, m') → Edit π m m'
  | drop {hostId : HostId} {id : BotId} {m' : Mind} : m.bots.find? hostId = some id →
      m.dropBot id = .ok m' → Edit π m m'
  | createSquad {hostId : HostId} {id : SquadId} {m' : Mind} :
      m.createSquad hostId = .ok (id, m') → Edit π m m'
  | disband (squad : SquadId) : Edit π m (m.disband squad).2
  | join {squad : SquadId} {bot : BotId} {r : Except Error Unit} {m' : Mind} :
      m.join squad bot = .ok (r, m') → Edit π m m'
  | leave (bot : BotId) : Edit π m (m.leave bot).2

theorem helm_patch (p : Patch) (b : Bot) : (p.apply b).helm = b.helm := by
  cases h : b.membership <;>
    simp [Bot.helm, Patch.apply, Bot.setIndoor, Bot.modifyBehavior, Patch.membership, h]

theorem deregister_ok {m m' : Mind} {hostId : HostId} {id : BotId}
    (h : m.deregister hostId = .ok (.ok id, m')) :
    m.bots.find? hostId = some id ∧ m.dropBot id = .ok m' := by
  unfold deregister resolve at h
  cases hfind : m.bots.find? hostId with
  | none =>
      simp only [hfind] at h
      cases h
  | some known =>
      simp only [hfind] at h
      obtain ⟨m₁, hdrop, h⟩ := bind_eq_ok.1 h
      cases h
      exact ⟨rfl, hdrop⟩

theorem deregister_error {m m' : Mind} {hostId : HostId} {e : Error}
    (h : m.deregister hostId = .ok (.error e, m')) : m' = m := by
  unfold deregister at h
  split at h
  · cases h
    rfl
  · obtain ⟨m₁, -, h⟩ := bind_eq_ok.1 h
    cases h

theorem edit_of_call {m m' : Mind} {c : Call} {a : Answer} (h : m.call c = .ok (a, m')) :
    Edit π m m' := by
  cases c with
  | register hostId botClass =>
      obtain ⟨⟨id, m₁⟩, hrun, h⟩ := bind_eq_ok.1 h
      cases h
      exact .register hrun
  | deregister hostId =>
      obtain ⟨⟨r, m₁⟩, hrun, h⟩ := bind_eq_ok.1 h
      cases h
      cases r with
      | error e => exact .calm (deregister_error hrun ▸ .refl m)
      | ok id =>
          obtain ⟨hfind, hdrop⟩ := deregister_ok hrun
          exact .drop hfind hdrop
  | assignBoss follower boss =>
      obtain ⟨⟨ok, m₁⟩, hrun, h⟩ := bind_eq_ok.1 h
      obtain ⟨⟨ok, bots⟩, hassign, hrun⟩ := bind_eq_ok.1 hrun
      cases hrun
      cases h
      exact .relink (.assign hassign) (.refl _)
  | createSquad hostId =>
      obtain ⟨⟨id, m₁⟩, hrun, h⟩ := bind_eq_ok.1 h
      cases h
      exact .createSquad hrun
  | disband squad =>
      cases h
      exact .disband squad
  | join squad bot =>
      obtain ⟨⟨r, m₁⟩, hrun, h⟩ := bind_eq_ok.1 h
      cases h
      exact .join hrun
  | leave bot =>
      cases h
      exact .leave bot
  | tick now elapsed =>
      obtain ⟨⟨r, m₁⟩, hrun, h⟩ := bind_eq_ok.1 h
      cases h
      obtain ⟨bots, hedit, hcalm⟩ := calm_tick hrun
      exact .relink hedit hcalm
  -- what is left is calm: reports on one bot first, then orders, events and claims
  | move bot | sense bot | temper bot | startVulture bot | setIndoor bot =>
      cases h
      exact .calm (calm_modifyBot m bot (fun _ => rfl) fun _ => rfl)
  | patch bot patch =>
      cases h
      exact .calm (calm_modifyBot m bot (fun _ => rfl) (helm_patch patch))
  | setObjective =>
      cases h
      exact .calm (calm_setObjective ..)
  | setAction =>
      cases h
      exact .calm (calm_setAction ..)
  | recordEvent | addMarker =>
      cases h
      exact .calm (.of_eq rfl rfl rfl rfl)
  | publishScan =>
      cases h
      exact .calm (calm_publishScan ..)
  | claim =>
      cases h
      exact .calm (calm_claim ..)
  | release =>
      cases h
      exact .calm (calm_release ..)

theorem Move.edit {m m' : Mind} (h : Move π m m') : Edit π m m' := by
  cases h with
  | call h => exact edit_of_call h
  | write id hf => exact .write id hf
  | relink h => exact .relink h (.refl _)

/-! ## The edits in full -/

theorem start_ok {settings : Settings} {g : Random.Generator} {m : Mind}
    (h : start settings g = .ok m) : m = fresh settings g := by
  obtain ⟨-, -, h⟩ := bind_eq_ok.1 h
  cases h
  rfl

theorem register_ok {m m' : Mind} {hostId : HostId} {botClass : BotClass} {id : BotId}
    (h : m.register hostId botClass = .ok (id, m')) :
    ∃ bots, m.bots.adopt hostId {} = .ok (id, bots) ∧
      m' = { m with bots := bots.modify id fun b => { b with botClass := botClass } }.bump
        { entitiesAdded := 1 } := by
  obtain ⟨⟨id', bots⟩, hadopt, h⟩ := bind_eq_ok.1 h
  obtain ⟨bots', hupdate, h⟩ := bind_eq_ok.1 h
  obtain ⟨-, rfl⟩ := Roster.update_eq_ok hupdate
  cases h
  exact ⟨bots, hadopt, rfl⟩

theorem createSquad_ok {m m' : Mind} {hostId : HostId} {id : SquadId}
    (h : m.createSquad hostId = .ok (id, m')) :
    ∃ squads, m.squads.adopt hostId
        (.recruit m.settings.squad.strategyCount m.settings.squad.maxMembers) = .ok (id, squads) ∧
      m' = { m with squads := squads } := by
  obtain ⟨⟨id', squads⟩, hadopt, h⟩ := bind_eq_ok.1 h
  cases h
  exact ⟨squads, hadopt, rfl⟩

theorem join_ok {m m' : Mind} {squad : SquadId} {bot : BotId} {r : Except Error Unit}
    (h : m.join squad bot = .ok (r, m')) :
    ∃ squads bots,
      Enrollment.join m.squads m.bots squad bot m.settings.squad.maxMembers =
        .ok (r, squads, bots) ∧ m' = { m with squads := squads, bots := bots } := by
  obtain ⟨⟨r', squads, bots⟩, hjoin, h⟩ := bind_eq_ok.1 h
  cases h
  exact ⟨squads, bots, hjoin, rfl⟩

/-- The four stores after a bot was dropped. Its links go first, then its
membership and its claims, and its record last. -/
theorem dropBot_ok {m m' : Mind} {id : BotId} (h : m.dropBot id = .ok m') :
    ∃ bots, Links.separate m.bots id = .ok bots ∧ m'.settings = m.settings ∧
      m'.squads = (Enrollment.leave m.squads bots id).2.1 ∧
      m'.claims = (m.claims.releaseAll id).2 ∧
      ((∃ gone, (Enrollment.leave m.squads bots id).2.2.remove? id = some (gone, m'.bots)) ∨
        (Enrollment.leave m.squads bots id).2.2.contains id = false ∧
          m'.bots = (Enrollment.leave m.squads bots id).2.2) := by
  obtain ⟨bots, hsep, h⟩ := bind_eq_ok.1 h
  refine ⟨bots, hsep, ?_⟩
  cases hremove : (Enrollment.leave m.squads bots id).2.2.remove? id with
  | none =>
      have hdead : (Enrollment.leave m.squads bots id).2.2.contains id = false := by
        rw [← Bool.not_eq_true, ← Roster.remove?_isSome_iff, hremove]
        simp
      simp only [hremove] at h
      cases h
      exact ⟨rfl, rfl, rfl, .inr ⟨hdead, rfl⟩⟩
  | some r =>
      simp only [hremove] at h
      cases h
      exact ⟨rfl, rfl, rfl, .inl ⟨r.1, rfl⟩⟩

/-! ## What holds in every session -/

variable {settings : Settings} {m : Mind} {past : List Mind}

/-- What holds at the start and is kept by every edit holds in all sessions. -/
theorem History.invariant {P : Mind → Prop} (h : History π settings (m :: past))
    (start : ∀ g, P (fresh settings g)) (step : ∀ m m', P m → Edit π m m' → P m') : P m := by
  generalize hs : m :: past = states at h
  induction h generalizing m past with
  | start hm =>
      cases hs
      rw [start_ok hm]
      exact start _
  | move _ hmove ih =>
      cases hs
      exact step _ _ (ih rfl) hmove.edit

theorem Edit.settings_eq {m' : Mind} (h : Edit π m m') : m'.settings = m.settings := by
  cases h with
  | calm h => exact h.settings
  | write => rfl
  | relink _ h => exact h.settings
  | register h =>
      obtain ⟨bots, -, rfl⟩ := register_ok h
      rfl
  | drop _ h =>
      obtain ⟨bots, -, hsettings, -⟩ := dropBot_ok h
      exact hsettings
  | createSquad h =>
      obtain ⟨squads, -, rfl⟩ := createSquad_ok h
      rfl
  | disband => rfl
  | join h =>
      obtain ⟨squads, bots, -, rfl⟩ := join_ok h
      rfl
  | leave => rfl

/-- Settings are never changed. -/
theorem History.settings_eq (h : History π settings (m :: past)) : m.settings = settings :=
  h.invariant (P := fun m => m.settings = settings) (fun _ => rfl)
    fun _ _ hm hedit => hedit.settings_eq.trans hm

/-- A session has settings that pass the check. -/
theorem History.acceptable (h : History π settings (m :: past)) : settings.Acceptable := by
  generalize m :: past = states at h
  induction h with
  | start hm =>
      obtain ⟨⟨⟩, hcheck, -⟩ := bind_eq_ok.1 hm
      exact (Settings.check_eq_ok_iff settings).1 hcheck
  | move _ _ ih => exact ih

/-- The mind after it answered a list of calls; one that faults on them stays. -/
def after (m : Mind) (calls : List Call) : Mind :=
  match m.run calls with
  | .ok (_, m') => m'
  | .error _ => m

theorem History.run {m' : Mind} {calls : List Call} {answers : List Answer}
    (h : History π settings (m :: past)) (hrun : m.run calls = .ok (answers, m')) :
    ∃ past', History π settings (m' :: past') := by
  induction calls generalizing m past answers with
  | nil =>
      cases hrun
      exact ⟨past, h⟩
  | cons c calls ih =>
      obtain ⟨⟨a, m₁⟩, hcall, hrun⟩ := bind_eq_ok.1 hrun
      obtain ⟨⟨as, m₂⟩, hrest, hrun⟩ := bind_eq_ok.1 hrun
      cases hrun
      exact ih (h.move (.call hcall)) hrest

/-- A session that answers a list of calls goes on. -/
theorem History.after (h : History π settings (m :: past)) (calls : List Call) :
    ∃ past', History π settings (m.after calls :: past') := by
  unfold Mind.after
  split
  · rename_i hrun
    exact h.run hrun
  · exact ⟨past, h⟩

end Warband.Mind
