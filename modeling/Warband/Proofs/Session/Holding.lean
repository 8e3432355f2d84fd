import Warband.Proofs.Session.Claims

/-!
# Squads that hold

A squad is told two things, where to go and what to do, and a squad that is told
to hold on its way waits there. Waiting lasts until the squad is told where to
go again, whatever it is told to do meanwhile, and nothing else ends it or
begins it. So the order in which a squad was told matters: who holds first and
is sent off then does not wait, and who waits and is told to do something else
goes on waiting.
-/
namespace Warband

open Enrollment

/-- What a squad is told. -/
inductive Command where
  /-- To go to a point. -/
  | go
  | act (action : Action)
deriving DecidableEq, Repr

namespace Command

/-- The action of a squad is the last one it was told, the newest being first. -/
def lastAction : List Command → Action
  | [] => .idle
  | .go :: cs => lastAction cs
  | .act a :: _ => a

/-- A squad that was told to hold after it was last sent to a point. -/
def Waits (cs : List Command) : Prop :=
  .go ∈ cs ∧ .act .holdPosition ∈ cs.takeWhile (· ≠ .go)

instance (cs : List Command) : Decidable (Waits cs) := inferInstanceAs (Decidable (_ ∧ _))

theorem not_waits_go (cs : List Command) : ¬ Waits (.go :: cs) := by
  simp [Waits]

theorem waits_act_iff (a : Action) (cs : List Command) :
    Waits (.act a :: cs) ↔ a = .holdPosition ∧ .go ∈ cs ∨ Waits cs := by
  simp only [Waits, List.mem_cons, reduceCtorEq, false_or, ne_eq, not_false_eq_true, decide_true,
    List.takeWhile_cons_of_pos, act.injEq]
  constructor
  · rintro ⟨hgo, rfl | htold⟩
    · exact .inl ⟨rfl, hgo⟩
    · exact .inr ⟨hgo, htold⟩
  · rintro (⟨rfl, hgo⟩ | ⟨hgo, htold⟩)
    · exact ⟨hgo, .inl rfl⟩
    · exact ⟨hgo, .inr htold⟩

/-- The state of the objective of a squad that was told all this. -/
def state (cs : List Command) : ObjectiveState :=
  if Waits cs then .wait else if .go ∈ cs then .active else .none

theorem state_act (a : Action) (cs : List Command) :
    state (.act a :: cs) =
      if a = .holdPosition ∧ state cs = .active then .wait else state cs := by
  unfold state
  simp only [waits_act_iff, List.mem_cons, reduceCtorEq, false_or]
  by_cases hwaits : Waits cs
  · simp [hwaits]
  · by_cases hgo : .go ∈ cs <;> simp [hwaits, hgo]

theorem state_eq_wait_iff (cs : List Command) : state cs = .wait ↔ Waits cs := by
  unfold state
  split
  · simp_all
  · split <;> simp_all

end Command

namespace Squad

open Command

/-- What a squad does, where it goes, and how far it is. -/
def brief (q : Squad) : Action × Option Position × ObjectiveState :=
  (q.action, q.objective.position, q.objective.state)

/-- A squad does what it was told. -/
structure Follows (q : Squad) (cs : List Command) : Prop where
  action : q.action = lastAction cs
  sent : q.objective.position.isSome ↔ .go ∈ cs
  state : q.objective.state = Command.state cs

variable {q q' : Squad} {cs : List Command}

theorem Follows.congr (h : q.Follows cs) (hq : q'.brief = q.brief) : q'.Follows cs := by
  obtain ⟨haction, hrest⟩ := Prod.mk.inj hq
  obtain ⟨hposition, hstate⟩ := Prod.mk.inj hrest
  exact ⟨haction.trans h.action, hposition ▸ h.sent, hstate.trans h.state⟩

theorem follows_recruit (strategies targetSize : Nat) :
    (recruit strategies targetSize).Follows [] := by
  refine ⟨rfl, ?_, rfl⟩
  simp [recruit]

theorem Follows.go (h : q.Follows cs) (p : Position) (now : Time) (duration : Float32) :
    ({ q with objective := q.objective.set p now duration } : Squad).Follows (.go :: cs) where
  action := h.action
  sent := by simp [Objective.set]
  state := by simp [Objective.set, Command.state, not_waits_go]

theorem Follows.act (h : q.Follows cs) (a : Action) : (q.setAction a).Follows (.act a :: cs) where
  action := rfl
  sent := by
    have hposition : (q.setAction a).objective.position = q.objective.position := by
      unfold setAction Objective.hold
      split
      · split <;> rfl
      · rfl
    rw [hposition, h.sent]
    simp
  state := by
    rw [state_act, ← h.state]
    by_cases ha : a = .holdPosition
    · by_cases hactive : q.objective.state = .active <;>
        simp [setAction, Objective.hold, ha, hactive]
    · simp [setAction, ha]

end Squad

/-! ## What leaves the briefing alone -/

/-- Squads may go, and those that are left were briefed as they are now. -/
def Briefed (squads squads' : Squads) : Prop :=
  ∀ s q', squads'.get? s = some q' → ∃ q, squads.get? s = some q ∧ q.brief = q'.brief

namespace Briefed

theorem of_kept {squads squads' : Squads} (h : Roster.Kept Squad.brief squads squads') :
    Briefed squads squads' := fun _ _ hq' => h.exists_get? hq'

theorem leave (squads : Squads) (bots : Bots) (bot : BotId) :
    Briefed squads (Enrollment.leave squads bots bot).2.1 :=
  of_kept (kept_squads_leave (fun _ _ _ => rfl) squads bots bot)

theorem join {squads squads' : Squads} {bots bots' : Bots} {squad : SquadId} {bot : BotId}
    {limit : Nat} {answer : Except Error Unit}
    (h : Enrollment.join squads bots squad bot limit = .ok (answer, squads', bots')) :
    Briefed squads squads' := of_kept (kept_squads_join (fun _ _ _ => rfl) h)

theorem disband (squads : Squads) (bots : Bots) (id : SquadId) :
    Briefed squads (Enrollment.disband squads bots id).2.1 := fun _ q hq =>
  ⟨q, get?_of_disband hq, rfl⟩

end Briefed

namespace Squad

/-- Writing slots changes neither the point nor the state. -/
theorem brief_inscribe (slots : List (Order × Nat)) (o : Objective) :
    (slots.foldl Order.inscribe o).position = o.position ∧
      (slots.foldl Order.inscribe o).state = o.state := by
  induction slots generalizing o with
  | nil => exact ⟨rfl, rfl⟩
  | cons slot slots ih =>
      rw [List.foldl_cons]
      obtain ⟨hposition, hstate⟩ := ih (Order.inscribe o slot)
      have hslot : (Order.inscribe o slot).position = o.position ∧
          (Order.inscribe o slot).state = o.state := by
        unfold Order.inscribe Objective.setSlot
        split <;> exact ⟨rfl, rfl⟩
      exact ⟨hposition.trans hslot.1, hstate.trans hslot.2⟩

theorem brief_refresh (q : Squad) (bots : Bots) (situation : Situation) (settings : SquadSettings)
    (comm : CommunicationSettings) (g : Random.Generator) :
    (q.refresh bots situation settings comm g).squad.brief = q.brief := by
  unfold refresh
  split
  · simp only [dispatch, brief]
    rw [(brief_inscribe _ q.objective).1, (brief_inscribe _ q.objective).2]
  · rfl

end Squad

namespace Mind

open Squad Command

variable {β : Type} {π : Bot → β} {settings : Settings} {m m' m₁ : Mind} {past : List Mind}

theorem brief_forgetLostTarget (bots : Bots) (q : Squad) :
    (forgetLostTarget bots q).brief = q.brief := by
  unfold forgetLostTarget
  split <;> rfl

theorem brief_squadTurn (m : Mind) (q : Squad) (pass : SquadPass) :
    (m.squadTurn q pass).1.brief = q.brief := by
  unfold squadTurn
  split
  · exact brief_refresh ..
  · rfl

theorem brief_lootTurn (bots : Bots) (range : Float32) (q : Squad) (state : Nat × Loot.Claims) :
    (lootTurn bots range q state).1.brief = q.brief := by
  unfold lootTurn
  split
  · split <;> rfl
  · rfl

theorem kept_brief_beforeLoot {now : Time} (h : m.beforeLoot now = .ok m₁) :
    Roster.Kept Squad.brief m.squads m₁.squads := by
  obtain ⟨r, m₀, hmaintain, rfl⟩ := beforeLoot_ok h
  obtain ⟨-, -, hsquads⟩ := maintain_ok hmaintain
  have hmaintained : Roster.Kept Squad.brief m.squads m₀.squads :=
    hsquads ▸ .map fun _ q => brief_forgetLostTarget m₀.bots q
  exact hmaintained.trans (.sweep fun _ q pass => brief_squadTurn _ q pass)

theorem kept_brief_tick {now : Time} {elapsed : Metrics.Duration} {r : Report}
    (h : m.tick now elapsed = .ok (r, m')) : Roster.Kept Squad.brief m.squads m'.squads := by
  obtain ⟨m₁, hbefore, -, -, hsquads, -⟩ := tick_ok h
  have hlooted : Roster.Kept Squad.brief m₁.squads m₁.shareLoot.2.squads :=
    .sweep fun _ q state => brief_lootTurn _ _ q state
  exact hsquads ▸ (kept_brief_beforeLoot hbefore).trans hlooted

/-! ## Dialogues -/

/-- A session told by its calls and their answers, the newest first, and by the
mind as it is now. As in `Move`, the id and the host id of an entry are out of the
reach of a write. -/
inductive Dialogue (π : Bot → β) (settings : Settings) : List (Call × Answer) → Mind → Prop
  | start {g : Random.Generator} {m : Mind} : Mind.start settings g = .ok m →
      Dialogue π settings [] m
  | call {said : List (Call × Answer)} {m m' : Mind} {c : Call} {a : Answer} :
      Dialogue π settings said m → m.call c = .ok (a, m') → Dialogue π settings ((c, a) :: said) m'
  | write {said : List (Call × Answer)} {m : Mind} (id : BotId) {f : Bot → Bot} :
      Dialogue π settings said m → (∀ b, π (f b) = π b) →
      Dialogue π settings said { m with bots := m.bots.modify id f }
  | relink {said : List (Call × Answer)} {m : Mind} {bots : Bots} :
      Dialogue π settings said m → Links.Edit m.bots bots →
      Dialogue π settings said { m with bots := bots }

/-- Every state of a session has a dialogue that led to it. -/
theorem History.dialogue (h : History π settings (m :: past)) :
    ∃ said, Dialogue π settings said m := by
  generalize hs : m :: past = states at h
  induction h generalizing m past with
  | start hm =>
      cases hs
      exact ⟨[], .start hm⟩
  | move _ hmove ih =>
      cases hs
      obtain ⟨said, hsaid⟩ := ih rfl
      cases hmove with
      | call hcall => exact ⟨_, hsaid.call hcall⟩
      | write id hf => exact ⟨said, hsaid.write id hf⟩
      | relink hlinks => exact ⟨said, hsaid.relink hlinks⟩

/-- What a call adds to what a squad was told, if it was done. A squad that is
new has been told nothing. -/
def note (s : SquadId) (told : List Command) : Call → Answer → List Command
  | .createSquad _, .squad id => if id = s then [] else told
  | .setObjective id _ _ _, .version _ => if id = s then .go :: told else told
  | .setAction id action, .flag true => if id = s then .act action :: told else told
  | _, _ => told

/-- What a squad was told, the newest first. -/
def told (s : SquadId) : List (Call × Answer) → List Command
  | [] => []
  | (c, a) :: said => note s (told s said) c a

/-- Every live squad does what it was told. -/
def Obeys (m : Mind) (said : List (Call × Answer)) : Prop :=
  ∀ s q, m.squads.get? s = some q → q.Follows (told s said)

theorem Obeys.briefed {said : List (Call × Answer)} {c : Call} {a : Answer} (h : m.Obeys said)
    (hq : Briefed m.squads m'.squads) (hn : ∀ s cs, note s cs c a = cs) :
    m'.Obeys ((c, a) :: said) := by
  intro s q' hq'
  obtain ⟨q, hget, hbrief⟩ := hq s q' hq'
  rw [told, hn]
  exact (h s q hget).congr hbrief.symm

theorem obeys_createSquad {said : List (Call × Answer)} (h : m.Obeys said) {hostId : HostId}
    {id : SquadId} (hrun : m.createSquad hostId = .ok (id, m')) :
    m'.Obeys ((.createSquad hostId, .squad id) :: said) := by
  obtain ⟨squads, hadopt, rfl⟩ := createSquad_ok hrun
  intro s q hq
  change squads.get? s = some q at hq
  rw [Roster.get?_adopt hadopt] at hq
  simp only [told, note]
  split at hq
  · rename_i hs
    cases hq
    rw [if_pos hs.symm]
    exact follows_recruit ..
  · rename_i hs
    rw [if_neg (Ne.symm hs)]
    exact h s q hq

theorem obeys_setObjective {said : List (Call × Answer)} (h : m.Obeys said) {squad : SquadId}
    {p : Position} {now : Time} {duration : Float32} {a : Answer}
    (hcall : m.call (.setObjective squad p now duration) = .ok (a, m')) :
    m'.Obeys ((.setObjective squad p now duration, a) :: said) := by
  cases hlive : m.squads.get? squad with
  | none =>
      simp only [call, setObjective, hlive] at hcall
      cases hcall
      exact h.briefed (.of_kept (.refl _)) fun _ _ => rfl
  | some sent =>
      simp only [call, setObjective, hlive] at hcall
      cases hcall
      intro s q hq
      change (m.squads.modify squad _).get? s = some q at hq
      rw [Roster.get?_modify] at hq
      simp only [told, note, Answer.ofResult]
      split at hq
      · rename_i hs
        rw [hs, hlive] at hq
        cases hq
        rw [if_pos hs.symm]
        exact (h s sent (hs ▸ hlive)).go p now duration
      · rename_i hs
        rw [if_neg (Ne.symm hs)]
        exact h s q hq

theorem obeys_setAction {said : List (Call × Answer)} (h : m.Obeys said) {squad : SquadId}
    {action : Action} {a : Answer} (hcall : m.call (.setAction squad action) = .ok (a, m')) :
    m'.Obeys ((.setAction squad action, a) :: said) := by
  by_cases hlive : m.squads.contains squad
  · simp only [call, setAction, hlive, if_true] at hcall
    cases hcall
    intro s q hq
    change (m.squads.modify squad _).get? s = some q at hq
    rw [Roster.get?_modify] at hq
    simp only [told, note]
    split at hq
    · rename_i hs
      obtain ⟨before, hbefore, rfl⟩ := Option.map_eq_some_iff.1 hq
      rw [if_pos hs.symm]
      exact (h s before hbefore).act action
    · rename_i hs
      rw [if_neg (Ne.symm hs)]
      exact h s q hq
  · simp only [call, setAction, hlive] at hcall
    cases hcall
    exact h.briefed (.of_kept (.refl _)) fun _ _ => rfl

theorem briefed_modifyBot (m : Mind) (id : BotId) (f : Bot → Bot) :
    Briefed m.squads (m.modifyBot id f).2.squads := by
  unfold modifyBot
  split <;> exact .of_kept (.refl _)

theorem briefed_publishScan (m : Mind) (squad : SquadId) (scan : List Loot.Item) :
    Briefed m.squads (m.publishScan squad scan).2.squads := by
  unfold publishScan
  split
  · have hshared : Roster.Kept Squad.brief m.squads
        (m.squads.modify squad fun s => { s with share := .publish scan }) := .modify fun _ => rfl
    exact .of_kept hshared
  · exact .of_kept (.refl _)

theorem obeys_call {said : List (Call × Answer)} {c : Call} {a : Answer} (h : m.Obeys said)
    (hcall : m.call c = .ok (a, m')) : m'.Obeys ((c, a) :: said) := by
  cases c with
  | createSquad hostId =>
      obtain ⟨⟨id, m₁⟩, hrun, hcall⟩ := bind_eq_ok.1 hcall
      cases hcall
      exact obeys_createSquad h hrun
  | setObjective => exact obeys_setObjective h hcall
  | setAction => exact obeys_setAction h hcall
  -- the others brief no squad
  | register hostId botClass =>
      obtain ⟨⟨id, m₁⟩, hrun, hcall⟩ := bind_eq_ok.1 hcall
      obtain ⟨bots, -, rfl⟩ := register_ok hrun
      cases hcall
      exact h.briefed (.of_kept (.refl _)) fun _ _ => rfl
  | deregister hostId =>
      obtain ⟨⟨r, m₁⟩, hrun, hcall⟩ := bind_eq_ok.1 hcall
      cases hcall
      cases r with
      | error e => exact h.briefed (.of_kept (deregister_error hrun ▸ .refl _)) fun _ _ => rfl
      | ok id =>
          obtain ⟨bots, -, -, hsquads, -⟩ := dropBot_ok (deregister_ok hrun).2
          exact h.briefed (hsquads ▸ .leave m.squads bots id) fun _ _ => rfl
  | assignBoss follower boss =>
      obtain ⟨⟨ok, m₁⟩, hrun, hcall⟩ := bind_eq_ok.1 hcall
      obtain ⟨⟨ok, bots⟩, -, hrun⟩ := bind_eq_ok.1 hrun
      cases hrun
      cases hcall
      exact h.briefed (.of_kept (.refl _)) fun _ _ => rfl
  | disband squad =>
      cases hcall
      exact h.briefed (.disband m.squads m.bots squad) fun _ _ => rfl
  | join squad bot =>
      obtain ⟨⟨r, m₁⟩, hrun, hcall⟩ := bind_eq_ok.1 hcall
      obtain ⟨squads, bots, hjoin, rfl⟩ := join_ok hrun
      cases hcall
      exact h.briefed (.join hjoin) fun _ _ => rfl
  | leave bot =>
      cases hcall
      exact h.briefed (.leave m.squads m.bots bot) fun _ _ => rfl
  | tick now elapsed =>
      obtain ⟨⟨r, m₁⟩, hrun, hcall⟩ := bind_eq_ok.1 hcall
      cases hcall
      exact h.briefed (.of_kept (kept_brief_tick hrun)) fun _ _ => rfl
  | publishScan squad scan =>
      cases hcall
      exact h.briefed (briefed_publishScan m squad scan) fun _ _ => rfl
  | move bot | sense bot | temper bot | startVulture bot | setIndoor bot | patch bot =>
      cases hcall
      exact h.briefed (briefed_modifyBot m bot _) fun _ _ => rfl
  | recordEvent | addMarker | claim | release =>
      cases hcall
      exact h.briefed (.of_kept (.refl _)) fun _ _ => rfl

variable {said : List (Call × Answer)}

theorem Dialogue.obeys (h : Dialogue π settings said m) : m.Obeys said := by
  induction h with
  | start hm =>
      rw [start_ok hm]
      intro s q hq
      cases hq
  | call _ hcall ih => exact obeys_call ih hcall
  | write | relink =>
      rename_i ih
      exact ih

/-- In every session a squad does what it was told last, and it waits exactly if
it was told to hold after it was last told where to go. The loot phase of the
next tick takes the leader to be holding exactly then. -/
theorem holding_of_dialogue (h : Dialogue π settings said m) {s : SquadId} {q : Squad}
    (hq : m.squads.get? s = some q) :
    q.action = lastAction (told s said) ∧
      (q.objective.position.isSome ↔ .go ∈ told s said) ∧
      (q.objective.state = .wait ↔ Waits (told s said)) ∧
      (q.objective.position.isSome → q.objective.state = .wait ∨ q.objective.state = .active) ∧
      ∀ now, ∃ m₁ q₁, m.beforeLoot now = .ok m₁ ∧ m₁.squads.get? s = some q₁ ∧
        ∀ boss follower, (followerCheck q₁ boss follower).bossHolding ↔ Waits (told s said) := by
  have hfollows := h.obeys s q hq
  have hwaits : q.objective.state = .wait ↔ Waits (told s said) := by
    rw [hfollows.state, state_eq_wait_iff]
  refine ⟨hfollows.action, hfollows.sent, hwaits, fun hsent => ?_, fun now => ?_⟩
  · have hgo := hfollows.sent.1 hsent
    rw [hfollows.state, Command.state]
    by_cases hheld : Waits (told s said)
    · rw [if_pos hheld]
      exact .inl rfl
    · rw [if_neg hheld, if_pos hgo]
      exact .inr rfl
  · obtain ⟨r, m', htick⟩ := exists_tick m now ⟨0⟩
    obtain ⟨m₁, hbefore, -⟩ := tick_ok htick
    have hkept := kept_brief_beforeLoot hbefore
    obtain ⟨q₁, hq₁⟩ : ∃ q₁, m₁.squads.get? s = some q₁ := by
      rw [← Roster.contains_iff, hkept.contains]
      exact Roster.contains_of_get? hq
    obtain ⟨q₀, hq₀, hbrief⟩ := hkept.exists_get? hq₁
    rw [hq] at hq₀
    cases hq₀
    have hstate : q.objective.state = q₁.objective.state :=
      congrArg (fun brief => brief.2.2) hbrief
    refine ⟨m₁, q₁, hbefore, hq₁, fun boss follower => ?_⟩
    rw [← hwaits, hstate]
    exact decide_eq_true_iff

/-- What was said while a mind answered a list of calls, the newest first. -/
def saying (m : Mind) (calls : List Call) : List (Call × Answer) :=
  match m.run calls with
  | .ok (answers, _) => (calls.zip answers).reverse
  | .error _ => []

theorem Dialogue.run {calls : List Call} {answers : List Answer} (h : Dialogue π settings said m)
    (hrun : m.run calls = .ok (answers, m')) :
    Dialogue π settings ((calls.zip answers).reverse ++ said) m' := by
  induction calls generalizing m said answers with
  | nil =>
      cases hrun
      exact h
  | cons c calls ih =>
      obtain ⟨⟨a, m₁⟩, hcall, hrun⟩ := bind_eq_ok.1 hrun
      obtain ⟨⟨as, m₂⟩, hrest, hrun⟩ := bind_eq_ok.1 hrun
      cases hrun
      have hend := ih (h.call hcall) hrest
      simpa using hend

/-- A dialogue goes on with a list of calls. -/
theorem Dialogue.after (h : Dialogue π settings said m) (calls : List Call) :
    Dialogue π settings (m.saying calls ++ said) (m.after calls) := by
  unfold saying Mind.after
  cases hrun : m.run calls with
  | error fault => exact h
  | ok r => exact h.run hrun

theorem holding_of_hold_on_the_way :
    let calls : List Call := [.createSquad 5, .setAction ⟨0⟩ .holdPosition,
      .setObjective ⟨0⟩ ⟨0, 0, 20⟩ 0 60, .setAction ⟨0⟩ .holdPosition, .tick 1 ⟨0⟩]
    let m := (fresh {} (.ofSeed 1)).after calls
    let said := (fresh {} (.ofSeed 1)).saying calls
    told ⟨0⟩ said = [.act .holdPosition, .go, .act .holdPosition] ∧ Waits (told ⟨0⟩ said) ∧
      Dialogue Bot.post {} said m ∧
      ∃ q, m.squads.get? ⟨0⟩ = some q ∧
        q.action = lastAction (told ⟨0⟩ said) ∧
        (q.objective.state = .wait ↔ Waits (told ⟨0⟩ said)) := by
  intro calls m said
  have h : Dialogue Bot.post {} (said ++ []) m := (Dialogue.start rfl).after calls
  rw [List.append_nil] at h
  have hlive : m.squads.contains ⟨0⟩ = true := by decide +kernel
  obtain ⟨q, hq⟩ := Roster.contains_iff.1 hlive
  obtain ⟨haction, -, hwaits, -⟩ := holding_of_dialogue h hq
  exact ⟨by decide +kernel, by decide +kernel, h, q, hq, haction, hwaits⟩

/-- A squad that holds and is sent off then does not wait, and a squad that waits
and is sent on patrol goes on waiting. -/
theorem holding_of_either_order :
    let m := (fresh {} (.ofSeed 1)).after [.createSquad 5, .createSquad 6,
      .setAction ⟨0⟩ .holdPosition, .setObjective ⟨0⟩ ⟨0, 0, 20⟩ 0 60,
      .setObjective ⟨1⟩ ⟨0, 0, 20⟩ 0 60, .setAction ⟨1⟩ .holdPosition, .setAction ⟨1⟩ .patrol]
    (∃ said, Dialogue Bot.post {} said m) ∧
      (m.squads.get? ⟨0⟩).map (fun q =>
        (q.action, q.objective.position.isSome, q.objective.state)) =
          some (.holdPosition, true, .active) ∧
      (m.squads.get? ⟨1⟩).map (fun q =>
        (q.action, q.objective.position.isSome, q.objective.state)) =
          some (.patrol, true, .wait) ∧
      ((m.beforeLoot 1).toOption.bind (·.squads.get? ⟨1⟩)).map
        (fun q => (followerCheck q {} {}).bossHolding) = some true := by
  intro m
  exact ⟨⟨_, (Dialogue.start rfl).after _⟩, by decide +kernel, by decide +kernel,
    by decide +kernel⟩

end Mind

end Warband
