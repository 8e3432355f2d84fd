import Warband.Proofs.Session.Claims

/-!
# Calls that are declined

Every call has an answer, and by its answer the mind may decline: with an error,
with false, or by not hearing a scan for a squad that is not live. An operation
of several edits makes all its checks before the first one, so a declined call
leaves the whole state as it was, with every link, list, claim and setting. Only
a claim that is denied is counted.
-/
namespace Warband.Mind

open Loot

variable {m m' : Mind}

/-! ## Operations that say no -/

theorem modifyBot_of_false {id : BotId} {f : Bot → Bot} (h : (m.modifyBot id f).1 = false) :
    (m.modifyBot id f).2 = m := by
  unfold modifyBot at h ⊢
  split at h
  · cases h
  · rename_i hdead
    rw [if_neg hdead]

theorem links_of_assignBoss_false {bots bots' : Bots} {follower boss : BotId}
    (h : Links.assignBoss bots follower boss = .ok (false, bots')) : bots' = bots := by
  by_cases hlive : follower ≠ boss ∧ bots.contains follower ∧ bots.contains boss
  · obtain ⟨hne, hfollower, hboss⟩ := hlive
    obtain ⟨bots₁, hrun, -⟩ := Links.assignBoss_edges hne hfollower hboss
    rw [h] at hrun
    cases hrun
  · have hrun := Links.assignBoss_refused hlive
    rw [h] at hrun
    cases hrun
    rfl

theorem assignBoss_of_false {follower boss : BotId}
    (h : m.assignBoss follower boss = .ok (false, m')) : m' = m := by
  obtain ⟨⟨assigned, bots⟩, hassign, h⟩ := bind_eq_ok.1 h
  cases h
  have hsame : bots = m.bots := links_of_assignBoss_false hassign
  rw [hsame]

theorem disband_of_false {squad : SquadId} (h : (m.disband squad).1 = false) :
    (m.disband squad).2 = m := by
  cases hs : m.squads.get? squad with
  | none =>
      have hsame := Enrollment.disband_of_dead m.bots hs
      simp only [disband, hsame]
  | some s =>
      obtain ⟨squads, hrun, -⟩ := Enrollment.disband_of_live m.bots hs
      simp [disband, hrun] at h

theorem leave_of_false {bot : BotId} (h : (m.leave bot).1 = false) : (m.leave bot).2 = m := by
  cases hown : Enrollment.squadOf m.bots bot with
  | none =>
      have hsame : Enrollment.leave m.squads m.bots bot = (false, m.squads, m.bots) :=
        Enrollment.leave_of_squadOf_eq_none hown
      simp only [leave, hsame]
  | some id =>
      cases hs : m.squads.get? id with
      | none => simp [leave, Enrollment.leave_of_dead hown hs] at h
      | some s => simp [leave, Enrollment.leave_of_live hown hs] at h

theorem join_of_error {squad : SquadId} {bot : BotId} {e : Error}
    (h : m.join squad bot = .ok (.error e, m')) : m' = m := by
  obtain ⟨squads, bots, hjoin, rfl⟩ := join_ok h
  rcases Enrollment.join_cases m.squads m.bots squad bot m.settings.squad.maxMembers with
    ⟨answer, hrun⟩ | ⟨s, s', -, -, -, -, -, hrun⟩
  · rw [hjoin] at hrun
    cases hrun
    rfl
  · rw [hjoin] at hrun
    cases hrun

theorem setObjective_of_error {squad : SquadId} {p : Position} {now : Time} {duration : Float32}
    {e : Error} (h : (m.setObjective squad p now duration).1 = .error e) :
    (m.setObjective squad p now duration).2 = m := by
  unfold setObjective at h ⊢
  cases hs : m.squads.get? squad with
  | none => rfl
  | some s =>
      rw [hs] at h
      cases h

theorem setAction_of_false {squad : SquadId} {action : Action}
    (h : (m.setAction squad action).1 = false) : (m.setAction squad action).2 = m := by
  unfold setAction at h ⊢
  split at h
  · cases h
  · rename_i hdead
    rw [if_neg hdead]

theorem publishScan_of_dead {squad : SquadId} (h : m.squads.contains squad = false)
    (scan : List Item) : m.publishScan squad scan = (0, m) := by
  unfold publishScan
  rw [h]
  rfl

/-- A denied claim leaves the claims as they are and is counted. -/
theorem claim_of_false {bot : BotId} {item : LootId} (h : (m.claim bot item).1 = false) :
    (m.claim bot item).2 = m.bump { claimsDenied := 1 } := by
  have hdenied : (m.claims.claim bot item).1 = false := h
  have hclaims : (m.claims.claim bot item).2 = m.claims := by
    cases howner : m.claims.owner? item with
    | none => simp [Claims.claim, howner] at hdenied
    | some owner => rw [Claims.claim_of_owner? bot howner]
  simp only [claim, hdenied, hclaims, Bool.false_eq_true, if_false]

theorem release_of_false {bot : BotId} {item : LootId} (h : (m.release bot item).1 = false) :
    (m.release bot item).2 = m := by
  have hrefused : (m.claims.release bot item).1 = false := h
  have hclaims : (m.claims.release bot item).2 = m.claims := by
    unfold Claims.release at hrefused ⊢
    split at hrefused
    · cases hrefused
    · rename_i hother
      rw [if_neg hother]
  simp only [release, hclaims]

/-! ## Declined calls -/

/-- The answer to a call says that nothing was done about it. -/
inductive Declined (m : Mind) : Call → Answer → Prop
  | refused (c : Call) (e : Error) : Declined m c (.refused e)
  | denied (c : Call) : Declined m c (.flag false)
  | unheard (squad : SquadId) (scan : List Item) (kept : Nat) :
      m.squads.contains squad = false → Declined m (.publishScan squad scan) (.count kept)

/-- The state after a call was declined. -/
def declining (m : Mind) : Call → Mind
  | .claim _ _ =>
    { m with counters := { m.counters with claimsDenied := m.counters.claimsDenied + 1 } }
  | _ => m

theorem bump_denied (m : Mind) (bot : BotId) (item : LootId) :
    m.bump { claimsDenied := 1 } = m.declining (.claim bot item) := by
  simp [bump, declining, Metrics.Counters.add]

theorem exists_join (m : Mind) (squad : SquadId) (bot : BotId) :
    ∃ r m', m.join squad bot = .ok (r, m') := by
  rcases Enrollment.join_cases m.squads m.bots squad bot m.settings.squad.maxMembers with
    ⟨answer, hrun⟩ | ⟨s, s', -, -, -, -, -, hrun⟩
  · exact ⟨_, _, bind_eq_ok.2 ⟨_, hrun, rfl⟩⟩
  · exact ⟨_, _, bind_eq_ok.2 ⟨_, hrun, rfl⟩⟩

/-- Every call is answered. -/
theorem exists_call (m : Mind) (c : Call) : ∃ a m', m.call c = .ok (a, m') := by
  cases c with
  | register hostId botClass =>
      obtain ⟨id, m', hrun⟩ := exists_register m hostId botClass
      exact ⟨.bot id, m', bind_eq_ok.2 ⟨(id, m'), hrun, rfl⟩⟩
  | deregister hostId =>
      cases hfind : m.bots.find? hostId with
      | none =>
          have hrun : m.deregister hostId = .ok (.error (.hostIdUnknown hostId), m) := by
            simp only [deregister, resolve, hfind]
          exact ⟨.refused (.hostIdUnknown hostId), m, bind_eq_ok.2 ⟨_, hrun, rfl⟩⟩
      | some id =>
          obtain ⟨m', hrun⟩ := exists_deregister hfind
          exact ⟨.bot id, m', bind_eq_ok.2 ⟨_, hrun, rfl⟩⟩
  | assignBoss follower boss =>
      obtain ⟨⟨assigned, bots⟩, hassign⟩ := Links.assignBoss_ok m.bots follower boss
      have hrun : m.assignBoss follower boss = .ok (assigned, { m with bots := bots }) :=
        bind_eq_ok.2 ⟨(assigned, bots), hassign, rfl⟩
      exact ⟨.flag assigned, _, bind_eq_ok.2 ⟨_, hrun, rfl⟩⟩
  | createSquad hostId =>
      obtain ⟨squads, hadopt⟩ := m.squads.adopt_ok hostId
        (.recruit m.settings.squad.strategyCount m.settings.squad.maxMembers)
      have hrun : m.createSquad hostId = .ok (_, { m with squads := squads }) :=
        bind_eq_ok.2 ⟨_, hadopt, rfl⟩
      exact ⟨.squad _, _, bind_eq_ok.2 ⟨_, hrun, rfl⟩⟩
  | join squad bot =>
      obtain ⟨r, m', hrun⟩ := exists_join m squad bot
      exact ⟨_, m', bind_eq_ok.2 ⟨(r, m'), hrun, rfl⟩⟩
  | tick now elapsed =>
      obtain ⟨r, m', hrun⟩ := exists_tick m now elapsed
      exact ⟨.report r, m', bind_eq_ok.2 ⟨(r, m'), hrun, rfl⟩⟩
  | _ => exact ⟨_, _, rfl⟩

/-- An operation that says whether it was done, as the answer to a call. -/
theorem Declined.of_flag (run : Bool × Mind) {c : Call} {a : Answer} (hd : Declined m c a)
    (h : Except.ok (.flag run.1, run.2) = (.ok (a, m') : Except Fault (Answer × Mind))) :
    run.1 = false ∧ m' = run.2 := by
  cases h
  generalize run.1 = done at hd
  cases hd
  exact ⟨rfl, rfl⟩

/-- An operation that may fail, as the answer to a call. -/
theorem Declined.of_result {α : Type} {f : α → Answer} (run : Except Error α × Mind) {c : Call}
    {a : Answer} (hd : Declined m c a)
    (h : Except.ok (.ofResult f run.1, run.2) = (.ok (a, m') : Except Fault (Answer × Mind)))
    (hf : ∀ x, ¬ Declined m c (f x)) : ∃ e, run.1 = .error e ∧ m' = run.2 := by
  cases h
  cases hr : run.1 with
  | error e => exact ⟨e, rfl, rfl⟩
  | ok x =>
      rw [hr] at hd
      exact absurd hd (hf x)

/-- A scan, with its answer to the call. -/
theorem Declined.of_count {squad : SquadId} {scan : List Item} (run : Nat × Mind) {a : Answer}
    (hd : Declined m (.publishScan squad scan) a)
    (h : Except.ok (.count run.1, run.2) = (.ok (a, m') : Except Fault (Answer × Mind))) :
    m.squads.contains squad = false ∧ m' = run.2 := by
  cases h
  cases hd with
  | unheard _ _ _ hdead => exact ⟨hdead, rfl⟩

theorem declining_of_call {c : Call} {a : Answer} (h : m.call c = .ok (a, m'))
    (hd : Declined m c a) : m' = m.declining c := by
  cases c with
  | deregister hostId =>
      obtain ⟨run, hrun, h⟩ := bind_eq_ok.1 h
      obtain ⟨e, herror, rfl⟩ := hd.of_result run h fun _ => nofun
      rw [← Prod.eta run, herror] at hrun
      exact deregister_error hrun
  | assignBoss follower boss =>
      obtain ⟨run, hrun, h⟩ := bind_eq_ok.1 h
      obtain ⟨hfalse, rfl⟩ := hd.of_flag run h
      rw [← Prod.eta run, hfalse] at hrun
      exact assignBoss_of_false hrun
  | join squad bot =>
      obtain ⟨run, hrun, h⟩ := bind_eq_ok.1 h
      obtain ⟨e, herror, rfl⟩ := hd.of_result run h fun _ => nofun
      rw [← Prod.eta run, herror] at hrun
      exact join_of_error hrun
  | setObjective squad p now duration =>
      obtain ⟨e, herror, rfl⟩ := hd.of_result (m.setObjective squad p now duration) h fun _ => nofun
      exact setObjective_of_error herror
  | publishScan squad scan =>
      obtain ⟨hdead, rfl⟩ := hd.of_count (m.publishScan squad scan) h
      rw [publishScan_of_dead hdead]
      rfl
  | disband squad =>
      obtain ⟨hfalse, rfl⟩ := hd.of_flag (m.disband squad) h
      exact disband_of_false hfalse
  | leave bot =>
      obtain ⟨hfalse, rfl⟩ := hd.of_flag (m.leave bot) h
      exact leave_of_false hfalse
  | setAction squad action =>
      obtain ⟨hfalse, rfl⟩ := hd.of_flag (m.setAction squad action) h
      exact setAction_of_false hfalse
  | claim bot item =>
      obtain ⟨hfalse, rfl⟩ := hd.of_flag (m.claim bot item) h
      rw [claim_of_false hfalse, bump_denied m bot item]
  | release bot item =>
      obtain ⟨hfalse, rfl⟩ := hd.of_flag (m.release bot item) h
      exact release_of_false hfalse
  | move bot | sense bot | temper bot | startVulture bot | setIndoor bot | patch bot =>
      obtain ⟨hfalse, rfl⟩ := hd.of_flag (m.modifyBot bot _) h
      exact modifyBot_of_false hfalse
  -- the others answer with something that declines nothing
  | recordEvent | addMarker =>
      cases h
      cases hd
  | register | createSquad | tick =>
      obtain ⟨run, -, h⟩ := bind_eq_ok.1 h
      cases h
      cases hd

theorem refusal_of_no_room {squads : Squads} (bots : Bots) {squad : SquadId} {bot : BotId}
    {limit : Nat} (h : ∀ q, squads.get? squad = some q →
      bot ∉ q.members ∧ min limit maxSquadSize ≤ q.members.length) :
    ∃ e, Enrollment.refusal? squads bots squad bot limit = some e := by
  unfold Enrollment.refusal?
  split
  · cases hq : squads.get? squad with
    | none => exact ⟨.squadNotFound squad, rfl⟩
    | some q =>
        obtain ⟨hout, hfull⟩ := h q hq
        exact ⟨.squadFull squad (min limit maxSquadSize), by simp only [if_neg hout, if_pos hfull]⟩
  · exact ⟨.botNotFound bot, rfl⟩

/-- A squad that is missing or full refuses a bot that it does not list yet. -/
theorem call_join_of_no_room {squad : SquadId} {bot : BotId}
    (h : ∀ q, m.squads.get? squad = some q → bot ∉ q.members ∧
      min m.settings.squad.maxMembers maxSquadSize ≤ q.members.length) :
    ∃ e, m.call (.join squad bot) = .ok (.refused e, m) := by
  obtain ⟨e, hrefused⟩ := refusal_of_no_room m.bots h
  have hrun : Enrollment.join m.squads m.bots squad bot m.settings.squad.maxMembers =
      .ok (.error e, m.squads, m.bots) := by
    unfold Enrollment.join
    rw [hrefused]
  have hjoin : m.join squad bot = .ok (.error e, m) := bind_eq_ok.2 ⟨_, hrun, rfl⟩
  exact ⟨e, bind_eq_ok.2 ⟨_, hjoin, rfl⟩⟩

/-- Every call is answered, and one that is declined leaves the whole mind as it
was, but that a denied claim is counted. So a bot that finds its new squad
missing or full is still what it was in the old one. -/
theorem state_of_declined (m : Mind) :
    (∀ c, ∃ a m', m.call c = .ok (a, m') ∧ (Declined m c a → m' = m.declining c)) ∧
      ∀ squad bot, (∀ q, m.squads.get? squad = some q → bot ∉ q.members ∧
          min m.settings.squad.maxMembers maxSquadSize ≤ q.members.length) →
        ∃ e, m.call (.join squad bot) = .ok (.refused e, m) := by
  refine ⟨fun c => ?_, fun squad bot => call_join_of_no_room⟩
  obtain ⟨a, m', hrun⟩ := exists_call m c
  exact ⟨a, m', hrun, declining_of_call hrun⟩

/-- A squad of one is full, and its member's claim stands against the bot that
comes too late for both. -/
theorem state_of_latecomer :
    let m := (fresh { squad := { maxMembers := 1 } } (.ofSeed 1)).after [.register 7 .unknown,
      .register 8 .unknown, .createSquad 5, .createSquad 6, .join ⟨0⟩ ⟨0⟩, .join ⟨1⟩ ⟨1⟩,
      .claim ⟨0⟩ 3]
    Enrollment.squadOf m.bots ⟨1⟩ = some ⟨1⟩ ∧ Enrollment.roleOf m.bots ⟨1⟩ = some .leader ∧
      (∃ e, m.call (.join ⟨0⟩ ⟨1⟩) = .ok (.refused e, m)) ∧
      m.call (.claim ⟨1⟩ 3) = .ok (.flag false, m.declining (.claim ⟨1⟩ 3)) := by
  intro m
  obtain ⟨hcalls, hjoins⟩ := state_of_declined m
  have hmembers : (m.squads.get? ⟨0⟩).map (·.members) = some [⟨0⟩] := by decide +kernel
  have hfull : ∀ q, m.squads.get? ⟨0⟩ = some q → (⟨1⟩ : BotId) ∉ q.members ∧
      min m.settings.squad.maxMembers maxSquadSize ≤ q.members.length := by
    intro q hq
    rw [hq] at hmembers
    have hlisted : q.members = [⟨0⟩] := Option.some.inj hmembers
    rw [hlisted]
    exact ⟨by decide, by decide +kernel⟩
  obtain ⟨a, m', hrun, hstate⟩ := hcalls (.claim ⟨1⟩ 3)
  have hdenied : (m.claim ⟨1⟩ 3).1 = false := by decide +kernel
  have ha : a = .flag false := by
    rw [← hdenied]
    exact (congrArg Prod.fst (Except.ok.inj hrun)).symm
  subst ha
  rw [← hstate (.denied _)]
  exact ⟨by decide +kernel, by decide +kernel, hjoins ⟨0⟩ ⟨1⟩ hfull, hrun⟩

end Warband.Mind
