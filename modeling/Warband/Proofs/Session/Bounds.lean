import Warband.Proofs.Combat.Scan
import Warband.Proofs.Roster.Tables
import Warband.Proofs.Session.Refusals
import Warband.Proofs.Session.Rings
import Warband.Proofs.Squad.Scratch

/-!
# Calls stay in range

A call of a session never comes upon a handle that is not live, and it makes no
access out of range. The rosters keep their tables in step whatever is done to
them, and scans and refreshes start their buffers anew, so these stay in range
in any state. The rings stay in range in the states of a session.

The calls are written here with all that could stop them: the accesses of the
dense records, of the rings, of the marks of the scan and of the buffers of a
refresh are checked. Nothing stops them, and their answers are those of the
calls.
-/
namespace Warband

open Cells

/-! ## The pass over the dense records -/

namespace Links

/-- Separates the inactive ones among `k` dense places from place `i` on. -/
def separateFrom : (k i : Nat) → Bots → (count : Nat) → Checked (Except Fault (Nat × Bots))
  | 0, _, bots, count => .ok (.ok (count, bots))
  | k + 1, i, bots, count => do
    let e ← read bots.dense i
    if needsSeparation e.record then
      match separate bots e.id with
      | .ok bots => separateFrom k (i + 1) bots (count + 1)
      | .error fault => .ok (.error fault)
    else separateFrom k (i + 1) bots count

/-- The records stay where they are, so the pass meets each of them and does not leave them. -/
theorem separateFrom_ok (bots : Bots) {k i : Nat} (hend : i + k = bots.dense.size) (count : Nat) :
    separateFrom k i bots count = .ok (separateEach (bots.ids.drop i) bots count) := by
  induction k generalizing i bots count with
  | zero =>
      rw [List.drop_of_length_le (by rw [Roster.length_ids]; omega)]
      rfl
  | succ k ih =>
      have hlt : i < bots.dense.size := by omega
      have hread : read bots.dense i = .ok bots.dense[i] :=
        read_of_getElem? (Array.getElem?_eq_getElem hlt)
      have hget : bots.get? bots.dense[i].id = some bots.dense[i].record :=
        Roster.get?_of_mem_entries (Array.getElem_mem_toList hlt)
      have hids : bots.ids.drop i = bots.dense[i].id :: bots.ids.drop (i + 1) := by
        rw [List.drop_eq_getElem_cons (by rwa [Roster.length_ids])]
        simp [Roster.ids, Roster.entries]
      rw [hids, separateEach, separateFrom]
      simp only [hread, hget, bind, Except.bind]
      by_cases hneed : needsSeparation bots.dense[i].record
      · obtain ⟨bots', hrun⟩ := separate_ok bots bots.dense[i].id
        have hsame := (rewritten_separate hrun).ids
        have hend' : i + 1 + k = bots'.dense.size := by
          rw [← Roster.length_ids, hsame, Roster.length_ids]
          omega
        have hnext := ih bots' hend' (count + 1)
        rw [hsame] at hnext
        simp only [if_pos hneed, hrun]
        exact hnext
      · simp only [if_neg hneed]
        exact ih bots (by omega) count

/-- The pass over the dense records separates the inactive bots. -/
def separateInPlace (bots : Bots) : Checked (Except Fault (Nat × Bots)) :=
  separateFrom bots.dense.size 0 bots 0

theorem separateInPlace_ok (bots : Bots) :
    separateInPlace bots = .ok (separateInactive bots) :=
  separateFrom_ok bots (Nat.zero_add _) 0

end Links

/-! ## Passes that may stop -/

namespace Roster

variable {k : Kind} {α σ ε : Type}

/-- A turn that is not taken any more once an earlier one has stopped. -/
def turnOrStop (f : Handle k → α → σ → Except ε (α × σ)) (id : Handle k) (a : α) :
    Except ε σ → α × Except ε σ
  | .error e => (a, .error e)
  | .ok s =>
    match f id a s with
    | .ok (a, s) => (a, .ok s)
    | .error e => (a, .error e)

theorem sweepEntries_turnOrStop {f : Handle k → α → σ → Except ε (α × σ)}
    {g : Handle k → α → σ → α × σ} (h : ∀ id a s, f id a s = .ok (g id a s))
    (es : List (Entry k α)) (s : σ) :
    sweepEntries (turnOrStop f) es (.ok s) =
      ((sweepEntries g es s).1, .ok (sweepEntries g es s).2) := by
  induction es generalizing s with
  | nil => rfl
  | cons e es ih => simp only [sweepEntries, turnOrStop, h, ih]

theorem sweep_turnOrStop {f : Handle k → α → σ → Except ε (α × σ)}
    {g : Handle k → α → σ → α × σ} (h : ∀ id a s, f id a s = .ok (g id a s)) (r : Roster k α)
    (s : σ) : r.sweep (turnOrStop f) (.ok s) = ((r.sweep g s).1, .ok (r.sweep g s).2) := by
  simp only [sweep, sweepEntries_turnOrStop h]

/-- No operation on the tables of a roster makes an access out of range, and each leaves the
tables that the roster then has. -/
structure InRange (r : Roster k α) : Prop where
  lookUp : ∀ id, r.tables.lookUp id = .ok (r.entryAt? id)
  rewrite : ∀ id f hf, r.tables.rewrite id f = .ok (r.modifyEntry id f hf).tables
  add : ∀ a, r.tables.add a = .ok ((r.add a).1, (r.add a).2.tables)
  remove : ∀ id, r.tables.remove id = .ok ((r.remove? id).map fun x => (x.1, x.2.tables))

theorem inRange (r : Roster k α) : r.InRange where
  lookUp := r.lookUp_tables
  rewrite := r.rewrite_tables
  add := r.add_tables
  remove := r.remove_tables

end Roster

/-! ## Calls with all that could stop them -/

/-- What would stop a call. -/
inductive Panic where
  | fault (fault : Fault)
  | range (access : OutOfRange)

namespace Mind

open Combat Metrics

variable (m : Mind)

def maintainInPlace : Except Panic (Report × Mind) := do
  let separated ← (Links.separateInPlace m.bots).mapError .range
  let (separated, bots) ← separated.mapError .fault
  return m.tidy separated bots

/-- The marks are what the last scan left. -/
def surveyInPlace (now : Time) (marks : Array Bool) : Checked (Mind × Array Bool) := do
  let s := m.settings.combat
  let (clusters, marks) ← m.log.scan now s.maxEventAge (s.clusterRadius * s.clusterRadius)
    s.maxClusters marks
  return (m.chart now clusters, marks)

def squadTurnInPlace (s : Squad) (pass : SquadPass) : Checked (Squad × SquadPass) :=
  if s.isActive then do
    let s := s.vote pass.bots
    let r ← s.refreshInPlace pass.bots (m.situation pass.bots s) m.settings.squad
      m.settings.communication pass.generator
    return (r.squad, pass.next r)
  else .ok (s, pass)

def commandInPlace : Checked (Report × Mind) := do
  let (squads, pass) := m.squads.sweep (Roster.turnOrStop fun _ => m.squadTurnInPlace)
    (.ok m.openPass)
  let pass ← pass
  return m.closePass squads pass

def advanceInPlace (now : Time) (marks : Array Bool) :
    Except Panic (Report × Mind × Array Bool) := do
  let (expired, m) := m.expireEvents now
  let (maintenance, m) ← m.maintainInPlace
  let (m, marks) ← (m.surveyInPlace now marks).mapError .range
  let (squads, m) ← m.commandInPlace.mapError .range
  let (report, m) := m.conclude now expired maintenance squads
  return (report, m, marks)

def tickInPlace (now : Time) (elapsed : Duration) (marks : Array Bool) :
    Except Panic (Report × Mind × Array Bool) := do
  let (report, m, marks) ← m.advanceInPlace now marks
  let timer ← (m.timer.recordInPlace elapsed).mapError .range
  return (report, { m with timer := timer }.bump { ticksRun := 1 }, marks)

/-- A call with the marks of the last scan. -/
def callInPlace (marks : Array Bool) : Call → Except Panic (Answer × Mind × Array Bool)
  | .recordEvent event => do
    let log ← (m.log.recordInPlace event).mapError .range
    return (.done, { m with log := log }.bump { eventsRecorded := 1 }, marks)
  | .tick now elapsed => do
    let (report, m, marks) ← m.tickInPlace now elapsed marks
    return (.report report, m, marks)
  | c => do
    let (answer, m) ← (m.call c).mapError .fault
    return (answer, m, marks)

variable {m}

theorem maintainInPlace_ok {r : Report} {m' : Mind} (h : m.maintain = .ok (r, m')) :
    m.maintainInPlace = .ok (r, m') := by
  obtain ⟨⟨separated, bots⟩, hrun, h⟩ := bind_eq_ok.1 h
  cases h
  simp only [maintainInPlace, Links.separateInPlace_ok, hrun, Except.mapError, bind, Except.bind]
  rfl

theorem surveyInPlace_ok (m : Mind) (now : Time) (marks : Array Bool) :
    ∃ marks', m.surveyInPlace now marks = .ok (m.surveyCombat now, marks') := by
  obtain ⟨marks', hscan⟩ := m.log.scan_ok now m.settings.combat.maxEventAge
    (m.settings.combat.clusterRadius * m.settings.combat.clusterRadius)
    m.settings.combat.maxClusters marks
  refine ⟨marks', ?_⟩
  simp only [surveyInPlace, hscan, bind, Except.bind]
  rfl

theorem squadTurnInPlace_ok (m : Mind) (s : Squad) (pass : SquadPass) :
    m.squadTurnInPlace s pass = .ok (m.squadTurn s pass) := by
  unfold squadTurnInPlace squadTurn
  split
  · simp only [Squad.refreshInPlace_ok, bind, Except.bind]
    rfl
  · rfl

theorem commandInPlace_ok (m : Mind) : m.commandInPlace = .ok m.commandSquads := by
  have hsweep := Roster.sweep_turnOrStop (fun _ => m.squadTurnInPlace_ok) m.squads m.openPass
  simp only [commandInPlace, hsweep, bind, Except.bind]
  rfl

theorem advanceInPlace_ok {now : Time} {r : Report} {m' : Mind} (marks : Array Bool)
    (h : m.advance now = .ok (r, m')) :
    ∃ marks', m.advanceInPlace now marks = .ok (r, m', marks') := by
  obtain ⟨⟨r₀, m₀⟩, hmaintain, h⟩ := bind_eq_ok.1 h
  obtain ⟨marks', hsurvey⟩ := m₀.surveyInPlace_ok now marks
  have hupkeep : (m.expireEvents now).2.maintainInPlace = .ok (r₀, m₀) :=
    maintainInPlace_ok hmaintain
  refine ⟨marks', ?_⟩
  cases h
  simp only [advanceInPlace, hupkeep, hsurvey, commandInPlace_ok,
    Except.mapError, bind, Except.bind]
  rfl

theorem tickInPlace_ok {now : Time} {elapsed : Duration} {r : Report} {m' : Mind}
    (hwound : m.timer.Wound) (marks : Array Bool) (h : m.tick now elapsed = .ok (r, m')) :
    ∃ marks', m.tickInPlace now elapsed marks = .ok (r, m', marks') := by
  obtain ⟨⟨r₁, m₁⟩, hadvance, h⟩ := bind_eq_ok.1 h
  obtain ⟨marks', hrun⟩ := advanceInPlace_ok marks hadvance
  have htimer : m₁.timer = m.timer := (rings_of_advance hadvance).2
  have hrecord : m₁.timer.recordInPlace elapsed = .ok (m₁.timer.record elapsed) :=
    Timer.Wound.recordInPlace_ok (htimer ▸ hwound) elapsed
  refine ⟨marks', ?_⟩
  cases h
  simp only [tickInPlace, hrun, hrecord, Except.mapError, bind, Except.bind]
  rfl

/-- In a session nothing stops a call, whatever its arguments and the marks of the last scan. -/
theorem callInPlace_ok {β : Type} {π : Bot → β} {settings : Settings} {past : List Mind}
    (h : History π settings (m :: past)) (marks : Array Bool) {c : Call} {a : Answer} {m' : Mind}
    (hcall : m.call c = .ok (a, m')) :
    ∃ marks', m.callInPlace marks c = .ok (a, m', marks') := by
  obtain ⟨⟨edits, hlog⟩, hwound⟩ := h.rings
  cases c with
  | recordEvent e =>
      have hhead : m.log.head < m.log.slots.size := hlog ▸ Log.head_session_lt _ edits
      cases hcall
      refine ⟨marks, ?_⟩
      simp only [callInPlace, Log.recordInPlace_ok hhead, Except.mapError, bind, Except.bind]
      rfl
  | tick now elapsed =>
      obtain ⟨⟨r, m₁⟩, htick, hcall⟩ := bind_eq_ok.1 hcall
      obtain ⟨marks', hrun⟩ := tickInPlace_ok hwound marks htick
      cases hcall
      refine ⟨marks', ?_⟩
      simp only [callInPlace, hrun, bind, Except.bind]
      rfl
  | _ =>
      refine ⟨marks, ?_⟩
      simp only [callInPlace, hcall, Except.mapError, bind, Except.bind]
      rfl

/-- Nothing stops a call of a session, whatever its arguments: no handle that is not live is taken
to be, and no access is out of range. -/
theorem call_answered_in_place {settings : Settings} {past : List Mind}
    (h : History (fun _ : Bot => ()) settings (m :: past)) :
    (∀ (c : Call) (marks : Array Bool), ∃ a m' marks', m.call c = .ok (a, m') ∧
      m.callInPlace marks c = .ok (a, m', marks')) ∧
    (∀ bots : Bots, bots.InRange) ∧ ∀ squads : Squads, squads.InRange := by
  refine ⟨fun c marks => ?_, Roster.inRange, Roster.inRange⟩
  obtain ⟨a, m', hcall⟩ := exists_call m c
  obtain ⟨marks', hrun⟩ := callInPlace_ok h marks hcall
  exact ⟨a, m', marks', hcall, hrun⟩

/-- A bot that was deregistered cannot leave the squad it was in. -/
theorem call_answered_for_dead_bot :
    let m := (fresh {} (.ofSeed 1)).after [.register 7 .unknown, .register 8 .unknown,
      .createSquad 5, .join ⟨0⟩ ⟨0⟩, .join ⟨0⟩ ⟨1⟩, .recordEvent { kind := .gunshot },
      .deregister 7]
    m.bots.contains ⟨0⟩ = false ∧
      ∃ marks', m.callInPlace #[true] (.leave ⟨0⟩) = .ok (.flag false, m, marks') := by
  intro m
  obtain ⟨past, h⟩ : ∃ past, History (fun _ : Bot => ()) {} (m :: past) :=
    (History.start rfl).after _
  obtain ⟨a, m', marks', hcall, hrun⟩ := (call_answered_in_place h).1 (.leave ⟨0⟩) #[true]
  have hleft : (m.leave ⟨0⟩).1 = false := by decide +kernel
  have hanswer : m.call (.leave ⟨0⟩) = .ok (.flag (m.leave ⟨0⟩).1, (m.leave ⟨0⟩).2) := rfl
  rw [hanswer, hleft, leave_of_false hleft] at hcall
  cases hcall
  exact ⟨by decide +kernel, marks', hrun⟩

end Mind

end Warband
