import Warband.Behavior.Vulture

/-!
# The course of a hunt

A hunt begins with an approach. At every update the vulture is told where its
bot is and what time it is, and it stays in its phase, goes on to the next one or
is done. Nothing leads back: neither a bot that turns around nor a time that
runs backwards nor an undefined distance, for all of these only keep a vulture
where it is. So the phases of a hunt never descend, the ambush begins once at
most, and a hunt that is done stays as it is.
-/
namespace Warband

namespace VulturePhase

/-- The phase that one phase leads to. -/
def next? : VulturePhase → Option VulturePhase
  | .approach => some .silentApproach
  | .silentApproach => some .ambush
  | .ambush => some .rush
  | .rush => some .done
  | .idle | .done => none

/-- How far a hunt has come. -/
def rank : VulturePhase → Nat
  | .idle => 0
  | .approach => 1
  | .silentApproach => 2
  | .ambush => 3
  | .rush => 4
  | .done => 5

theorem rank_of_next? {p q : VulturePhase} (h : p.next? = some q) : q.rank = p.rank + 1 := by
  cases p <;> cases h <;> rfl

theorem rank_le_done (p : VulturePhase) : p.rank ≤ rank .done := by
  cases p <;> decide

end VulturePhase

namespace Vulture

/-- What a vulture is told at an update. -/
structure Report where
  position : Position
  now : Time

/-- A hunt after some updates, the newest first. -/
def hunt (s : BehaviorSettings) (target : Position) (began : Time) : List Report → Vulture
  | [] => start target began
  | x :: past => (hunt s target began past).update x.position x.now s

/-! ## One update -/

/-- What an update can make of a vulture. -/
inductive Move (s : BehaviorSettings) (now : Time) (v : Vulture) : Vulture → Prop
  | stay : Move s now v v
  | follow {p : VulturePhase} (h : v.phase.next? = some p) (hp : p ≠ .ambush) :
      Move s now v { v with phase := p }
  | lieInWait (h : v.phase = .silentApproach) :
      Move s now v { v with phase := .ambush, ambushStartedAt := now }
  | giveUp (hrun : v.running)
      (hend : v.target = none ∨ s.vultureMaxDuration ≤ now - v.startedAt) :
      Move s now v { v with phase := .done }

/-- How an update relates a hunt before it to the hunt after it. -/
structure Forward (s : BehaviorSettings) (now : Time) (v v' : Vulture) : Prop where
  target : v'.target = v.target
  startedAt : v'.startedAt = v.startedAt
  phase : v'.phase = v.phase ∨ v.phase.next? = some v'.phase ∨ v'.phase = .done
  /-- A hunt that is done stays as it is. -/
  done : v.phase = .done → v' = v
  /-- The ambush begins in the update that enters it. -/
  ambush : v'.ambushStartedAt =
    if v.phase ≠ .ambush ∧ v'.phase = .ambush then now else v.ambushStartedAt
  /-- A hunt that has taken too long is done. -/
  late : v.running → s.vultureMaxDuration ≤ now - v.startedAt → v'.phase = .done
  /-- Only then are phases left out. -/
  skip : v'.phase = .done →
    v.phase = .done ∨ v.phase = .rush ∨ s.vultureMaxDuration ≤ now - v.startedAt

variable {s : BehaviorSettings} {now : Time} {v v' : Vulture}

theorem move_advance (v : Vulture) (distance : Float32) (now : Time) (s : BehaviorSettings) :
    Move s now v (v.advance distance now s) := by
  unfold advance
  cases hphase : v.phase with
  | idle | done => exact .stay
  | approach =>
      dsimp only
      split
      · exact .follow (by rw [hphase]; rfl) nofun
      · exact .stay
  | silentApproach =>
      dsimp only
      split
      · exact .lieInWait hphase
      · exact .stay
  | ambush =>
      dsimp only
      split
      · exact .follow (by rw [hphase]; rfl) nofun
      · exact .stay
  | rush =>
      dsimp only
      split
      · exact .follow (by rw [hphase]; rfl) nofun
      · exact .stay

theorem move_update (v : Vulture) (p : Position) (now : Time) (s : BehaviorSettings) :
    Move s now v (v.update p now s) := by
  unfold update
  split
  · rename_i hrun
    split
    · rename_i htarget
      exact .giveUp hrun (.inl htarget)
    · split
      · rename_i hlate
        exact .giveUp hrun (.inr hlate)
      · exact move_advance ..
  · exact .stay

namespace Move

variable (h : Move s now v v')

include h

theorem target : v'.target = v.target := by cases h <;> rfl

theorem startedAt : v'.startedAt = v.startedAt := by cases h <;> rfl

theorem phase : v'.phase = v.phase ∨ v.phase.next? = some v'.phase ∨ v'.phase = .done := by
  cases h with
  | stay => exact .inl rfl
  | follow hnext => exact .inr (.inl hnext)
  | lieInWait hsilent => exact .inr (.inl (by rw [hsilent]; rfl))
  | giveUp => exact .inr (.inr rfl)

theorem rank_le : v.phase.rank ≤ v'.phase.rank := by
  rcases h.phase with heq | hnext | hdone
  · exact Nat.le_of_eq (congrArg VulturePhase.rank heq.symm)
  · rw [VulturePhase.rank_of_next? hnext]
    exact Nat.le_succ _
  · rw [hdone]
    exact v.phase.rank_le_done

theorem eq_of_done (hdone : v.phase = .done) : v' = v := by
  cases h with
  | stay => rfl
  | follow hnext => rw [hdone] at hnext; cases hnext
  | lieInWait hsilent => rw [hdone] at hsilent; cases hsilent
  | giveUp hrun =>
      rw [(running_eq_false_iff v).2 (.inr hdone)] at hrun
      cases hrun

theorem ambushStartedAt : v'.ambushStartedAt =
    if v.phase ≠ .ambush ∧ v'.phase = .ambush then now else v.ambushStartedAt := by
  cases h with
  | stay => rw [if_neg fun h => h.1 h.2]
  | follow _ hp => rw [if_neg fun h => hp h.2]
  | lieInWait hsilent => rw [if_pos ⟨by rw [hsilent]; nofun, rfl⟩]
  | giveUp => rw [if_neg fun h => by cases h.2]

/-- Phases are left out only at the end of the hunt's time. -/
theorem skip {target : Position} (htarget : v.target = some target) (hdone : v'.phase = .done) :
    v.phase = .done ∨ v.phase = .rush ∨ s.vultureMaxDuration ≤ now - v.startedAt := by
  cases h with
  | stay => exact .inl hdone
  | lieInWait => cases hdone
  | giveUp _ hend => exact .inr (.inr (hend.resolve_left (by rw [htarget]; nofun)))
  | follow hnext =>
      cases hphase : v.phase <;> rw [hphase] at hnext <;> cases hnext <;> cases hdone
      exact .inr (.inl rfl)

end Move

theorem update_of_late (p : Position) (hrun : v.running)
    (hlate : s.vultureMaxDuration ≤ now - v.startedAt) : (v.update p now s).phase = .done := by
  unfold update
  rw [if_pos hrun]
  split
  · rfl
  · rw [if_pos hlate]

theorem forward_update {target : Position} (htarget : v.target = some target) (p : Position)
    (now : Time) (s : BehaviorSettings) : Forward s now v (v.update p now s) :=
  have hmove := move_update v p now s
  { target := hmove.target
    startedAt := hmove.startedAt
    phase := hmove.phase
    done := hmove.eq_of_done
    ambush := hmove.ambushStartedAt
    late := update_of_late p
    skip := hmove.skip htarget }

/-! ## Whole hunts -/

section hunt

variable (s : BehaviorSettings) (target : Position) (began : Time)

theorem move_hunt (x : Report) (past : List Report) :
    Move s x.now (hunt s target began past) (hunt s target began (x :: past)) :=
  move_update ..

theorem target_hunt (past : List Report) : (hunt s target began past).target = some target := by
  induction past with
  | nil => rfl
  | cons x past ih => rw [(move_hunt s target began x past).target, ih]

theorem startedAt_hunt (past : List Report) : (hunt s target began past).startedAt = began := by
  induction past with
  | nil => rfl
  | cons x past ih => rw [(move_hunt s target began x past).startedAt, ih]

theorem rank_hunt_le (past later : List Report) :
    (hunt s target began past).phase.rank ≤ (hunt s target began (later ++ past)).phase.rank := by
  induction later with
  | nil => exact Nat.le_refl _
  | cons x later ih => exact Nat.le_trans ih (move_hunt s target began x (later ++ past)).rank_le

theorem hunt_of_done {past : List Report} (hdone : (hunt s target began past).phase = .done)
    (later : List Report) : hunt s target began (later ++ past) = hunt s target began past := by
  induction later with
  | nil => rfl
  | cons x later ih =>
      have hmove := move_hunt s target began x (later ++ past)
      rw [ih] at hmove
      exact hmove.eq_of_done hdone

/-- Before the ambush its time is that of the beginning. -/
theorem ambushStartedAt_before {past : List Report}
    (h : (hunt s target began past).phase.rank < VulturePhase.rank .ambush) :
    (hunt s target began past).ambushStartedAt = began := by
  induction past with
  | nil => rfl
  | cons x past ih =>
      have hmove := move_hunt s target began x past
      have hout : (hunt s target began (x :: past)).phase ≠ .ambush :=
        fun heq => absurd h (by rw [heq]; exact Nat.lt_irrefl _)
      rw [hmove.ambushStartedAt, if_neg fun hin => hout hin.2]
      exact ih (Nat.lt_of_le_of_lt hmove.rank_le h)

/-- From the ambush on its time is fixed. -/
theorem ambushStartedAt_after {past : List Report}
    (h : VulturePhase.rank .ambush ≤ (hunt s target began past).phase.rank)
    (later : List Report) : (hunt s target began (later ++ past)).ambushStartedAt =
      (hunt s target began past).ambushStartedAt := by
  induction later with
  | nil => rfl
  | cons x later ih =>
      have hmove := move_hunt s target began x (later ++ past)
      have hrank := Nat.le_trans h (rank_hunt_le s target began past later)
      rw [List.cons_append, hmove.ambushStartedAt, if_neg, ih]
      -- whoever enters the ambush comes from a phase before it
      rintro ⟨hout, hin⟩
      rcases hmove.phase with heq | hnext | hdone
      · exact hout (heq ▸ hin)
      · have := VulturePhase.rank_of_next? hnext
        rw [hin] at this
        omega
      · rw [hin] at hdone
        cases hdone

end hunt

/-- A hunt only moves forward. Its target and its beginning stay, every update
keeps the phase, goes on to the next one or ends the hunt, and ends it for sure
when it has taken too long. Over any number of updates the phases do not descend,
the ambush has one beginning, and a hunt that is done does not change. -/
theorem hunt_moves_forward (s : BehaviorSettings) (target : Position) (began : Time)
    (past : List Report) :
    let v := hunt s target began past
    (v.target = some target ∧ v.startedAt = began ∧ v.phase ≠ .idle) ∧
      (∀ x : Report, Forward s x.now v (hunt s target began (x :: past))) ∧
      (v.phase.rank < VulturePhase.rank .ambush → v.ambushStartedAt = began) ∧
      ∀ later : List Report,
        let v' := hunt s target began (later ++ past)
        v.phase.rank ≤ v'.phase.rank ∧
          (VulturePhase.rank .ambush ≤ v.phase.rank → v'.ambushStartedAt = v.ambushStartedAt) ∧
          (v.phase = .done → v' = v) := by
  intro v
  have htarget : v.target = some target := target_hunt s target began past
  have hbegan : 1 ≤ v.phase.rank := by
    have h := rank_hunt_le s target began [] past
    rwa [List.append_nil] at h
  refine ⟨⟨htarget, startedAt_hunt s target began past, fun hidle => ?_⟩,
    fun x => forward_update htarget x.position x.now s,
    ambushStartedAt_before s target began, fun later => ⟨rank_hunt_le s target began past later,
      fun h => ambushStartedAt_after s target began h later,
      fun hdone => hunt_of_done s target began hdone later⟩⟩
  rw [hidle] at hbegan
  exact absurd hbegan (by decide)

end Vulture

end Warband
