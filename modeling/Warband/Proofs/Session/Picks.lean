import Warband.Proofs.Session.Looting

/-!
# Nothing is left to pick

The loot phase is greedy. The turn of a squad is not over before its leader holds
a pick or finds every item with somebody else, and the same goes for each
follower that may loot, the pick of the leader being out of bounds. Nobody loses
an item in the phase, so whatever a turn has settled is still settled when all
squads have had theirs. A squad without a turn has no items, no leader that may
loot, or is not active; but every squad of a session is.
-/
namespace Warband

open Loot Numeric

namespace Loot

namespace Claims

variable {c c' c'' : Claims} {may : BotId → Prop} {item : LootId} {b : BotId}

/-- Whoever owns an item goes on owning it. -/
def Extends (c c' : Claims) : Prop :=
  ∀ item b, c.owner? item = some b → c'.owner? item = some b

theorem Gains.extends (h : Gains may c c') (ha : c.Agree) (ha' : c'.Agree) : Extends c c' :=
  fun _ _ => h.owner? ha ha'

namespace Extends

theorem refl (c : Claims) : Extends c c := fun _ _ => id

theorem trans (h : Extends c c') (h' : Extends c' c'') : Extends c c'' :=
  fun item b hb => h' item b (h item b hb)

theorem free (h : Extends c c') (hitem : c'.owner? item = none) : c.owner? item = none := by
  cases howner : c.owner? item with
  | none => rfl
  | some b =>
      rw [h item b howner] at hitem
      cases hitem

theorem idle (h : Extends c c') (ha : c.Agree) (ha' : c'.Agree) (hb : c'.ofBot b = []) :
    c.ofBot b = [] := by
  refine List.eq_nil_iff_forall_not_mem.2 fun item hitem => ?_
  have howned := h item b ((ha item b).2 hitem)
  rw [ha' item b, hb] at howned
  cases howned

end Extends

/-- Somebody else owns the item. -/
def Taken (c : Claims) (item : LootId) (b : BotId) : Prop := ∃ o, c.owner? item = some o ∧ o ≠ b

theorem heldByOther_iff : c.heldByOther item b ↔ c.Taken item b := by
  unfold heldByOther Taken
  cases c.owner? item <;> simp

theorem Taken.mono (ht : c.Taken item b) (h : Extends c c') : c'.Taken item b := by
  obtain ⟨o, ho, hne⟩ := ht
  exact ⟨o, h item o ho, hne⟩

end Claims

namespace Share

variable {s : Share} {c : Claims}

theorem taken_of_claimForBoss {boss : BotId} (h : (s.claimForBoss c boss).1 = none)
    {item : Shared} (hitem : item ∈ s.items) : c.Taken item.id boss := by
  rw [claimForBoss_eq] at h
  split at h
  · rename_i hnone
    rw [firstBest?_eq_none, free, List.filter_eq_nil_iff] at hnone
    have hheld := hnone item hitem
    rw [Bool.not_eq_true, Bool.not_eq_false'] at hheld
    exact Claims.heldByOther_iff.1 hheld
  · cases h

theorem taken_of_claimForFollower {follower : BotId} (h : (s.claimForFollower c follower).1 = none)
    {item : Shared} (hitem : item ∈ s.items) :
    s.bossTarget = some item.id ∨ c.Taken item.id follower := by
  rw [claimForFollower_eq] at h
  split at h
  · rename_i hnone
    rw [firstBest?_eq_none, free, List.filter_filter, List.filter_eq_nil_iff] at hnone
    have hheld := hnone item hitem
    rw [← Claims.heldByOther_iff]
    by_cases htarget : some item.id = s.bossTarget
    · exact .inl htarget.symm
    · exact .inr (by simpa [htarget] using hheld)
  · cases h

end Share

end Loot

namespace Mind

open Claims

variable {bots : Bots} {range : Float32}

/-! ## What a turn settles -/

/-- After its turn a leader holds its pick, or there is nothing that it could pick. -/
theorem bossTurn_settles (s : Share) (c : Claims) (boss : BotId) :
    (∀ t, (bossTurn s c boss).2.1.bossTarget = some t →
        (bossTurn s c boss).2.2.owner? t = some boss) ∧
      ((bossTurn s c boss).2.1.bossTarget = none →
        ∀ item ∈ s.items, (bossTurn s c boss).2.2.Taken item.id boss) := by
  cases hpicked : s.picked c boss with
  | true =>
      rw [bossTurn_of_picked hpicked]
      unfold Share.picked at hpicked
      refine ⟨fun t ht => ?_, fun hnone => ?_⟩
      · have ht : s.bossTarget = some t := ht
        simpa [ht] using hpicked
      · have hnone : s.bossTarget = none := hnone
        simp [hnone] at hpicked
  | false =>
      rw [bossTurn_of_not_picked hpicked]
      rcases s.forgetTarget.claimForBoss_cases c boss with heq | ⟨new, howner, heq⟩
      · have htaken : ∀ item ∈ s.items, c.Taken item.id boss := fun item hitem =>
          Share.taken_of_claimForBoss (congrArg Prod.fst heq) hitem
        rw [heq]
        exact ⟨fun t ht => (nomatch ht), fun _ => htaken⟩
      · rw [heq]
        refine ⟨fun t ht => ?_, fun hnone => (nomatch hnone)⟩
        cases ht
        rw [owner?_claim]
        split
        · rfl
        · rename_i hheld
          exact howner.resolve_left fun hfree => hheld ⟨hfree, rfl⟩

/-- A follower that may loot holds something, or there is nothing that it could pick. -/
def Provided (bots : Bots) (range : Float32) (s : Squad) (boss : Bot) (c : Claims) (f : BotId) :
    Prop :=
  ∀ b, bots.get? f = some b → b.isActive → (followerCheck s boss b).mayLoot range →
    c.ofBot f ≠ [] ∨ ∀ item ∈ s.share.items, s.share.bossTarget = some item.id ∨ c.Taken item.id f

variable {s : Squad} {boss : Bot} {c c' : Claims}

theorem Provided.mono {f : BotId} (h : Provided bots range s boss c f) (hext : Extends c c')
    (ha : c.Agree) (ha' : c'.Agree) : Provided bots range s boss c' f := by
  intro b hb hactive hmay
  refine (h b hb hactive hmay).imp (mt (hext.idle ha ha')) fun hnone item hitem => ?_
  exact (hnone item hitem).imp_right (·.mono hext)

theorem extends_followerTurns (bots : Bots) (range : Float32) (s : Squad) (boss : Bot)
    (ids : List BotId) (state : Nat × Claims) (ha : state.2.Agree) :
    Extends state.2 (ids.foldl (followerTurn bots range s boss) state).2 :=
  (followerTurns_gains bots range s boss ids state ha).1.extends ha
    (stable_agree.followerTurns bots range s boss ids ha)

theorem extends_lootTurn (bots : Bots) (range : Float32) (s : Squad) {state : Nat × Claims}
    (ha : state.2.Agree) : Extends state.2 (lootTurn bots range s state).2.2 :=
  (turn_lootTurn bots range s ha).gains.extends ha (stable_agree.lootTurn bots range s ha)

theorem provided_followerTurn (bots : Bots) (range : Float32) (s : Squad) (boss : Bot)
    {state : Nat × Claims} (ha : state.2.Agree) (f : BotId) :
    Provided bots range s boss (followerTurn bots range s boss state f).2 f := by
  intro b hb hactive hmay
  have hlive : (bots.get? f).filter (·.isActive) = some b := by
    simp [hb, hactive, Option.filter]
  unfold followerTurn
  rw [hlive]
  by_cases hempty : state.2.ofBot f = []
  · simp only [hempty, hmay, List.isEmpty_nil, Bool.and_self, if_true]
    rcases s.share.claimForFollower_cases ha hempty with heq | ⟨pick, hfree, heq⟩
    · rw [heq]
      exact .inr fun item hitem => Share.taken_of_claimForFollower (congrArg Prod.fst heq) hitem
    · rw [heq]
      refine .inl ?_
      dsimp only
      rw [ofBot_claim, if_pos ⟨hfree, rfl⟩]
      simp
  · have hholds : (state.2.ofBot f).isEmpty = false := by simpa using hempty
    simp only [hholds, Bool.false_and, Bool.false_eq_true, if_false]
    exact .inl hempty

theorem provided_followerTurns (bots : Bots) (range : Float32) (s : Squad) (boss : Bot)
    (ids : List BotId) {state : Nat × Claims} (ha : state.2.Agree) :
    ∀ f ∈ ids, Provided bots range s boss (ids.foldl (followerTurn bots range s boss) state).2
      f := by
  induction ids generalizing state with
  | nil => exact fun f hf => nomatch hf
  | cons id ids ih =>
      have ha' := stable_agree.followerTurn bots range s boss ha id
      intro f hf
      rw [List.foldl_cons]
      rcases List.mem_cons.1 hf with rfl | hf
      · exact (provided_followerTurn bots range s boss ha f).mono
          (extends_followerTurns bots range s boss ids _ ha') ha'
          (stable_agree.followerTurns bots range s boss ids ha')
      · exact ih ha' f hf

/-- There is nothing left that a squad could pick. -/
structure Settled (bots : Bots) (range : Float32) (s : Squad) (id : BotId) (boss : Bot)
    (c : Claims) : Prop where
  target : ∀ t, s.share.bossTarget = some t → c.owner? t = some id
  rest : s.share.bossTarget = none → ∀ item ∈ s.share.items, c.Taken item.id id
  followers : ∀ f ∈ s.followers, Provided bots range s boss c f

variable {id : BotId}

theorem Settled.mono (h : Settled bots range s id boss c) (hext : Extends c c')
    (ha : c.Agree) (ha' : c'.Agree) : Settled bots range s id boss c' where
  target t ht := hext t id (h.target t ht)
  rest hnone item hitem := (h.rest hnone item hitem).mono hext
  followers f hf := (h.followers f hf).mono hext ha ha'

/-- The squad is to have a turn. -/
def Due (bots : Bots) (s : Squad) (id : BotId) (boss : Bot) : Prop :=
  s.isActive ∧ s.share.items ≠ [] ∧ lootLeader? bots s = some (id, boss)

theorem items_bossTurn (s : Share) (c : Claims) (boss : BotId) :
    (bossTurn s c boss).2.1.items = s.items := by
  rcases bossTurn_cases s c boss with ⟨-, heq⟩ | ⟨-, heq⟩ | ⟨-, item, -, heq⟩ <;>
    simp [heq, Share.forgetTarget]

/-- A turn leaves a squad as due as it was. -/
theorem due_lootTurn {state : Nat × Claims} :
    Due bots (lootTurn bots range s state).1 id boss ↔ Due bots s id boss := by
  rcases lootTurn_cases bots range s state with heq | ⟨other, record, -, s', rfl, heq⟩
  · rw [heq]
  · rw [heq]
    unfold Due
    rw [items_bossTurn]
    rfl

theorem settled_lootTurn (hdue : Due bots s id boss) {state : Nat × Claims}
    (ha : state.2.Agree) :
    Settled bots range (lootTurn bots range s state).1 id boss
      (lootTurn bots range s state).2.2 := by
  obtain ⟨hactive, hitems, hlead⟩ := hdue
  have hitems' : s.share.items.isEmpty = false := by simpa using hitems
  obtain ⟨htarget, hrest⟩ := bossTurn_settles s.share state.2 id
  have ha' := stable_agree.bossTurn ha s.share id
  have hkept := items_bossTurn s.share state.2 id
  unfold lootTurn
  simp only [hactive, hitems', hlead, Bool.not_false, Bool.and_self, if_true]
  generalize bossTurn s.share state.2 id = picked at *
  obtain ⟨granted, share, claims⟩ := picked
  dsimp only at *
  set s' : Squad := { s with share := share } with hs'
  have hext := extends_followerTurns bots range s' boss s.followers (state.1 + granted, claims) ha'
  exact {
    target := fun t ht => hext t id (htarget t ht)
    rest := fun hnone item hitem => (hrest hnone item (hkept ▸ hitem)).mono hext
    followers := provided_followerTurns bots range s' boss s.followers ha' }

/-- When all squads have had their turns, each that was due is settled. -/
theorem settled_shareLoot {m : Mind} (ha : m.claims.Agree) {q : SquadId}
    (hq : m.shareLoot.2.squads.get? q = some s) (hdue : Due m.bots s id boss) :
    Settled m.bots m.settings.communication.range s id boss m.shareLoot.2.claims := by
  refine Roster.sweep_settles (f := fun _ => lootTurn m.bots m.settings.communication.range)
    (s := (0, m.claims)) (r := m.squads) (I := fun state => state.2.Agree)
    (Q := fun _ s state => Due m.bots s id boss →
      Settled m.bots m.settings.communication.range s id boss state.2)
    ha (fun _ s _ state ha => ?_) (fun _ s _ state ha _ other hother hdue => ?_) hq hdue
  · exact ⟨stable_agree.lootTurn m.bots m.settings.communication.range s ha,
      fun hdue => settled_lootTurn (due_lootTurn.1 hdue) ha⟩
  · exact (hother hdue).mono (extends_lootTurn m.bots m.settings.communication.range s ha) ha
      (stable_agree.lootTurn m.bots m.settings.communication.range s ha)

end Mind

/-! ## Every squad is active -/

/-- All squads are active. -/
def OnDuty (squads : Squads) : Prop := ∀ s q, squads.get? s = some q → q.isActive

theorem OnDuty.kept {squads squads' : Squads} (h : OnDuty squads)
    (hkept : Roster.Kept (·.isActive) squads squads') : OnDuty squads' := by
  intro s q' hq'
  obtain ⟨q, hq, hsame⟩ := hkept.exists_get? hq'
  exact hsame ▸ h s q hq

namespace Mind

variable {β : Type} {π : Bot → β} {settings : Settings} {m m' : Mind} {past : List Mind}

theorem isActive_squadTurn (m : Mind) (q : Squad) (pass : SquadPass) :
    (m.squadTurn q pass).1.isActive = q.isActive := by
  unfold squadTurn Squad.refresh
  split
  · dsimp only
    split <;> rfl
  · rfl

theorem isActive_lootTurn (bots : Bots) (range : Float32) (q : Squad) (state : Nat × Claims) :
    (lootTurn bots range q state).1.isActive = q.isActive := by
  rcases lootTurn_cases bots range q state with heq | ⟨id, boss, -, q', rfl, heq⟩ <;> rw [heq]

theorem isActive_forgetLostTarget (bots : Bots) (q : Squad) :
    (forgetLostTarget bots q).isActive = q.isActive := by
  unfold forgetLostTarget
  split <;> rfl

theorem onDuty_tick {now : Time} {elapsed : Metrics.Duration} {r : Report}
    (h : m.tick now elapsed = .ok (r, m')) (hm : OnDuty m.squads) : OnDuty m'.squads := by
  obtain ⟨m₁, hbefore, -, -, hsquads, -⟩ := tick_ok h
  obtain ⟨r₀, m₀, hmaintain, rfl⟩ := beforeLoot_ok hbefore
  obtain ⟨-, -, hmaintained⟩ := maintain_ok hmaintain
  have hm₀ : OnDuty m₀.squads :=
    hmaintained ▸ hm.kept (.map fun _ q => isActive_forgetLostTarget m₀.bots q)
  have hordered : OnDuty (m₀.surveyCombat now).commandSquads.2.squads :=
    hm₀.kept (.sweep fun _ q pass => isActive_squadTurn _ q pass)
  exact hsquads ▸ hordered.kept (.sweep fun _ q state => isActive_lootTurn _ _ q state)

theorem kept_isActive_setObjective (m : Mind) (squad : SquadId) (p : Position) (now : Time)
    (duration : Float32) : Roster.Kept (fun q : Squad => q.isActive) m.squads
      (m.setObjective squad p now duration).2.squads := by
  unfold setObjective
  cases hq : m.squads.get? squad with
  | none => exact .refl _
  | some q =>
      dsimp only
      refine .modify_of fun q' hq' => ?_
      rw [hq] at hq'
      cases hq'
      rfl

theorem kept_isActive_setAction (m : Mind) (squad : SquadId) (action : Action) :
    Roster.Kept (fun q : Squad => q.isActive) m.squads (m.setAction squad action).2.squads := by
  unfold setAction
  split
  · dsimp only
    exact .modify fun _ => rfl
  · exact .refl _

theorem kept_isActive_publishScan (m : Mind) (squad : SquadId) (scan : List Item) :
    Roster.Kept (fun q : Squad => q.isActive) m.squads (m.publishScan squad scan).2.squads := by
  unfold publishScan
  split
  · dsimp only
    exact .modify fun _ => rfl
  · exact .refl _

theorem squads_modifyBot (m : Mind) (id : BotId) (f : Bot → Bot) :
    (m.modifyBot id f).2.squads = m.squads := by
  unfold modifyBot
  split <;> rfl

open Enrollment in
theorem onDuty_call {c : Call} {a : Answer} (hcall : m.call c = .ok (a, m'))
    (h : OnDuty m.squads) : OnDuty m'.squads := by
  cases c with
  | createSquad hostId =>
      obtain ⟨⟨id, m₁⟩, hrun, hcall⟩ := bind_eq_ok.1 hcall
      obtain ⟨squads, hadopt, rfl⟩ := createSquad_ok hrun
      cases hcall
      intro s q hq
      change squads.get? s = some q at hq
      rw [Roster.get?_adopt hadopt] at hq
      split at hq
      · cases hq
        rfl
      · exact h s q hq
  | deregister hostId =>
      obtain ⟨⟨r, m₁⟩, hrun, hcall⟩ := bind_eq_ok.1 hcall
      cases hcall
      cases r with
      | error e => exact deregister_error hrun ▸ h
      | ok id =>
          obtain ⟨bots, -, -, hsquads, -⟩ := dropBot_ok (deregister_ok hrun).2
          exact hsquads ▸ h.kept (kept_squads_leave (fun _ _ _ => rfl) m.squads bots id)
  | disband squad =>
      cases hcall
      exact fun s q hq => h s q (get?_of_disband hq)
  | join squad bot =>
      obtain ⟨⟨r, m₁⟩, hrun, hcall⟩ := bind_eq_ok.1 hcall
      obtain ⟨squads, bots, hjoin, rfl⟩ := join_ok hrun
      cases hcall
      exact h.kept (kept_squads_join (fun _ _ _ => rfl) hjoin)
  | leave bot =>
      cases hcall
      exact h.kept (kept_squads_leave (fun _ _ _ => rfl) m.squads m.bots bot)
  | tick now elapsed =>
      obtain ⟨⟨r, m₁⟩, hrun, hcall⟩ := bind_eq_ok.1 hcall
      cases hcall
      exact onDuty_tick hrun h
  | setObjective =>
      cases hcall
      exact h.kept (kept_isActive_setObjective ..)
  | setAction =>
      cases hcall
      exact h.kept (kept_isActive_setAction ..)
  | publishScan =>
      cases hcall
      exact h.kept (kept_isActive_publishScan ..)
  -- the others do not touch squads
  | register hostId botClass =>
      obtain ⟨⟨id, m₁⟩, hrun, hcall⟩ := bind_eq_ok.1 hcall
      obtain ⟨bots, -, rfl⟩ := register_ok hrun
      cases hcall
      exact h
  | assignBoss follower boss =>
      obtain ⟨⟨ok, m₁⟩, hrun, hcall⟩ := bind_eq_ok.1 hcall
      obtain ⟨⟨ok, bots⟩, -, hrun⟩ := bind_eq_ok.1 hrun
      cases hrun
      cases hcall
      exact h
  | move bot | sense bot | temper bot | startVulture bot | setIndoor bot | patch bot =>
      cases hcall
      exact (squads_modifyBot m bot _).symm ▸ h
  | recordEvent | addMarker | claim | release =>
      cases hcall
      exact h

/-- In every session all squads are active. -/
theorem History.onDuty (h : History π settings (m :: past)) : OnDuty m.squads := by
  generalize hs : m :: past = states at h
  induction h generalizing m past with
  | start hm =>
      cases hs
      rw [start_ok hm]
      intro s q hq
      cases hq
  | move _ hmove ih =>
      cases hs
      have hbefore := ih rfl
      cases hmove with
      | call hcall => exact onDuty_call hcall hbefore
      | write | relink => exact hbefore

end Mind

/-! ## Ticks in a session -/

/-- What the loot phase looks at in a record. -/
def Bot.standing (b : Bot) : Bool × Sensors × Position × Option Membership :=
  (b.isActive, b.sensors, b.position, b.membership)

namespace Mind

variable {β : Type} {π : Bot → β} {settings : Settings} {m m' : Mind} {past : List Mind}

theorem followerCheck_congr {boss boss' b b' : Bot} (hboss : boss.standing = boss'.standing)
    (hb : b.standing = b'.standing) (q : Squad) :
    followerCheck q boss b = followerCheck q boss' b' := by
  simp only [Bot.standing, Prod.mk.injEq] at hboss hb
  simp only [followerCheck, hboss, hb]

theorem lootLeader?_of_get? {bots : Bots} {q : Squad} {id : BotId} {boss : Bot}
    (hlead : q.leader = some id) (hboss : bots.get? id = some boss) (hactive : boss.isActive)
    (hcalm : boss.sensors.inCombat = false) : lootLeader? bots q = some (id, boss) := by
  simp [lootLeader?, hlead, hboss, hactive, hcalm, Option.filter]

/-- Whether a squad is settled depends on what the loot phase looks at. -/
theorem Settled.congr {bots bots' : Bots} {range : Float32} {q : Squad} {id : BotId}
    {boss boss' : Bot} {c : Claims} (h : Settled bots range q id boss c)
    (hkept : Roster.Kept Bot.standing bots bots') (hboss : boss.standing = boss'.standing) :
    Settled bots' range q id boss' c where
  target := h.target
  rest := h.rest
  followers f hf b' hb' hactive hmay := by
    obtain ⟨b, hb, hsame⟩ := hkept.exists_get? hb'
    have hactive₀ : b.isActive := (congrArg Prod.fst hsame).trans hactive
    rw [← followerCheck_congr hboss hsame] at hmay
    exact h.followers f hf b hb hactive₀ hmay

theorem kept_standing_behave (m : Mind) (now : Time) :
    Roster.Kept Bot.standing m.bots (m.behave now).2.bots := by
  refine .sweep fun _ b pass => ?_
  unfold botTurn
  split <;> rfl

/-- A tick ends with the squads and claims of its loot phase, and with the
records as the phase saw them. -/
theorem tick_standing {now : Time} {elapsed : Metrics.Duration} {r : Report}
    (h : m.tick now elapsed = .ok (r, m')) :
    ∃ m₁, m.beforeLoot now = .ok m₁ ∧ m'.claims = m₁.shareLoot.2.claims ∧
      m'.squads = m₁.shareLoot.2.squads ∧ m₁.settings = m.settings ∧
      Roster.Kept Bot.standing m₁.bots m'.bots := by
  obtain ⟨⟨r₁, m₂⟩, hadvance, h⟩ := bind_eq_ok.1 h
  obtain ⟨⟨r₂, m₀⟩, hmaintain, hadvance⟩ := bind_eq_ok.1 hadvance
  have hbefore : m.beforeLoot now = .ok (m₀.surveyCombat now).commandSquads.2 :=
    bind_eq_ok.2 ⟨(r₂, m₀), hmaintain, rfl⟩
  obtain ⟨bots, -, hcalm⟩ := calm_beforeLoot hbefore
  cases hadvance
  cases h
  exact ⟨_, hbefore, rfl, rfl, hcalm.settings, kept_standing_behave _ now⟩

/-- After every tick of a session there is nothing left to pick for a squad with
an active leader out of combat. -/
theorem settled_of_tick (h : History π settings (m :: past)) (now : Time)
    (elapsed : Metrics.Duration) :
    ∃ r m', m.tick now elapsed = .ok (r, m') ∧
      ∀ s q, m'.squads.get? s = some q → q.share.items ≠ [] →
        ∀ id boss, q.leader = some id → m'.bots.get? id = some boss → boss.isActive →
          boss.sensors.inCombat = false →
          Settled m'.bots settings.communication.range q id boss m'.claims := by
  obtain ⟨r, m', htick⟩ := exists_tick m now elapsed
  refine ⟨r, m', htick, fun s q hq hitems id boss hlead hboss hactive hcalm => ?_⟩
  obtain ⟨m₁, hbefore, hclaims, hsquads, hsettings, hkept⟩ := tick_standing htick
  obtain ⟨boss₁, hboss₁, hsame⟩ := hkept.exists_get? hboss
  have hactive₁ : boss₁.isActive := (congrArg Prod.fst hsame).trans hactive
  have hcalm₁ : boss₁.sensors.inCombat = false :=
    (congrArg (·.2.1.inCombat) hsame).trans hcalm
  have hdue : Due m₁.bots q id boss₁ := ⟨onDuty_tick htick h.onDuty s q hq, hitems,
    lootLeader?_of_get? hlead hboss₁ hactive₁ hcalm₁⟩
  have hsettled := settled_shareLoot (stable_beforeLoot Claims.stable_agree hbefore h.agree)
    (hsquads ▸ hq) hdue
  rw [hsettings, h.settings_eq, ← hclaims] at hsettled
  exact hsettled.congr hkept hsame

/-- There are two items for a leader and two followers, and so the second follower
finds none. -/
theorem settled_of_two_items :
    let m := (fresh {} (.ofSeed 1)).after [.register 7 .unknown, .register 8 .unknown,
      .register 9 .unknown, .createSquad 5, .join ⟨0⟩ ⟨0⟩, .join ⟨0⟩ ⟨1⟩, .join ⟨0⟩ ⟨2⟩,
      .sense ⟨0⟩ .wantsToLoot true 0,
      .publishScan ⟨0⟩ [⟨1, .origin, 30, 1, .plain⟩, ⟨2, .origin, 20, 1, .plain⟩]]
    (∃ past, History Bot.post {} (m :: past)) ∧
      ∃ r m' q boss, m.tick 1 ⟨0⟩ = .ok (r, m') ∧ m'.squads.get? ⟨0⟩ = some q ∧
        m'.bots.get? ⟨0⟩ = some boss ∧
        (m'.claims.ofBot ⟨0⟩, m'.claims.ofBot ⟨1⟩, m'.claims.ofBot ⟨2⟩) = ([1], [2], []) ∧
        Settled m'.bots ({} : Settings).communication.range q ⟨0⟩ boss m'.claims := by
  intro m
  obtain ⟨past, h⟩ : ∃ past, History Bot.post {} (m :: past) := (History.start rfl).after _
  obtain ⟨r, m', htick, hsettled⟩ := settled_of_tick h 1 ⟨0⟩
  have hdue : (m.tick 1 ⟨0⟩).toOption.map (fun p =>
      ((p.2.squads.get? ⟨0⟩).map fun q => (q.share.items.isEmpty, q.leader),
        (p.2.bots.get? ⟨0⟩).map fun b => (b.isActive, b.sensors.inCombat))) =
      some (some (false, some ⟨0⟩), some (true, false)) := by decide +kernel
  have hheld : (m.tick 1 ⟨0⟩).toOption.map (fun p =>
      (p.2.claims.ofBot ⟨0⟩, p.2.claims.ofBot ⟨1⟩, p.2.claims.ofBot ⟨2⟩)) =
      some ([1], [2], []) := by decide +kernel
  rw [htick] at hdue hheld
  have hclaims := Option.some.inj hheld
  obtain ⟨hsquad, hbot⟩ := Prod.mk.inj (Option.some.inj hdue)
  obtain ⟨q, hq, hshare⟩ := Option.map_eq_some_iff.1 hsquad
  obtain ⟨boss, hboss, hstate⟩ := Option.map_eq_some_iff.1 hbot
  obtain ⟨hitems, hlead⟩ := Prod.mk.inj hshare
  obtain ⟨hactive, hcalm⟩ := Prod.mk.inj hstate
  refine ⟨⟨past, h⟩, r, m', q, boss, htick, hq, hboss, hclaims,
    hsettled ⟨0⟩ q hq (fun hnil => ?_) ⟨0⟩ boss hlead hboss hactive hcalm⟩
  rw [hnil] at hitems
  cases hitems

end Mind

end Warband
