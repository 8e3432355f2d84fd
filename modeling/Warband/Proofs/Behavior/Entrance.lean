import Warband.Behavior.RoomClear
import Warband.Proofs.Numeric.Single

/-!
# Entering a building

The host reports whether a bot is indoors, as often as it likes, and an update
sees what was reported last. An update that sees the bot indoors after the one
before saw it outdoors is an entrance. It opens a window that lasts for the
configured time and no longer than the bot is seen indoors. The machine clears
rooms inside such a window and nowhere else: what it remembers between updates,
the flag, the corner and the time at which clearing ends, can all be read off
the updates so far.
-/
namespace Warband.RoomClear

open Numeric

inductive Op where
  /-- The host says whether the bot is indoors. -/
  | report (indoor : Bool)
  | update (corner : UInt16) (now : Time)

/-- What an update sees. -/
structure Sight where
  indoor : Bool
  corner : UInt16
  now : Time

def perform (s : BehaviorSettings) (r : RoomClear) : Op → RoomClear
  | .report indoor => { r with indoor := indoor }
  | .update corner now => r.update corner now s

/-- A new machine after a history, the newest operation first. -/
def after (s : BehaviorSettings) : List Op → RoomClear
  | [] => {}
  | op :: ops => (after s ops).perform s op

/-! ## What the updates saw -/

/-- What the host reported last. -/
def reported : List Op → Bool
  | [] => false
  | .report indoor :: _ => indoor
  | .update .. :: ops => reported ops

/-- What the updates of a history saw, the newest first. -/
def sights : List Op → List Sight
  | [] => []
  | .report _ :: ops => sights ops
  | .update corner now :: ops => ⟨reported ops, corner, now⟩ :: sights ops

/-- The last update saw the bot indoors. -/
def inside (past : List Sight) : Bool := past.head?.any (·.indoor)

/-- The bot is seen indoors and was not before. -/
def Sight.enters (x : Sight) (past : List Sight) : Bool := x.indoor && !inside past

/-- The time of the last entrance. -/
def entrance? : List Sight → Option Time
  | [] => none
  | x :: past => if x.enters past then some x.now else entrance? past

/-- The bot has been seen indoors at every update since an entrance at a time,
and at none of them the time for clearing was over. -/
inductive Window (s : BehaviorSettings) (entered : Time) : List Sight → Prop
  | entrance {x : Sight} {past : List Sight} (h : x.enters past) (hnow : x.now = entered) :
      Window s entered (x :: past)
  | further {x : Sight} {past : List Sight} (h : Window s entered past) (hin : x.indoor)
      (hopen : ¬ entered + s.roomClearDuration ≤ x.now) : Window s entered (x :: past)

namespace Window

variable {s : BehaviorSettings} {entered : Time} {x : Sight} {past : List Sight}

theorem inside (h : Window s entered past) : inside past := by
  cases h with
  | entrance h => exact (Bool.and_eq_true_iff.1 h).1
  | further _ hin => exact hin

theorem enters_eq_false (h : Window s entered past) (x : Sight) : x.enters past = false := by
  rw [Sight.enters, h.inside, Bool.not_true, Bool.and_false]

/-- A window is that of the last entrance. -/
theorem entrance?_eq (h : Window s entered past) : entrance? past = some entered := by
  induction h with
  | entrance h hnow => rw [entrance?, if_pos h, hnow]
  | further h _ _ ih => rw [entrance?, h.enters_eq_false, if_neg Bool.false_ne_true, ih]

theorem cons_iff (hout : x.enters past = false) : Window s entered (x :: past) ↔
    Window s entered past ∧ x.indoor ∧ ¬ entered + s.roomClearDuration ≤ x.now := by
  constructor
  · intro h
    cases h with
    | entrance h => rw [hout] at h; cases h
    | further h hin hopen => exact ⟨h, hin, hopen⟩
  · rintro ⟨h, hin, hopen⟩
    exact .further h hin hopen

theorem of_enters (henters : x.enters past) : Window s entered (x :: past) ↔ x.now = entered := by
  constructor
  · intro h
    cases h with
    | entrance _ hnow => exact hnow
    | further h => rw [h.enters_eq_false] at henters; cases henters
  · exact .entrance henters

end Window

/-! ## One update -/

/-- An update that sees the bot enter. -/
def sawEntrance (r : RoomClear) : Bool := r.indoor && !r.wasIndoor

/-- What an update can make of a machine. -/
inductive Outcome (s : BehaviorSettings) (corner : UInt16) (now : Time) (r : RoomClear) :
    RoomClear → Prop
  | enter (h : r.sawEntrance) : Outcome s corner now r
      { r.observe corner with
        instruction := .slowWalk, clearUntil := now + s.roomClearDuration }
  | rest (h : r.sawEntrance = false) (hidle : r.instruction = .none) :
      Outcome s corner now r (r.observe corner)
  | finish (h : r.sawEntrance = false)
      (hover : r.indoor → r.clearUntil ≤ now) :
      Outcome s corner now r { r.observe corner with instruction := .none }
  | proceed {instruction : RoomClearInstruction} {pauseUntil : Time} (h : r.sawEntrance = false)
      (hin : r.indoor) (hactive : r.instruction ≠ .none) (hopen : ¬ r.clearUntil ≤ now)
      (hnext : instruction ≠ .none)
      (hpause : instruction = .pauseAtCorner → r.instruction ≠ .pauseAtCorner →
        r.instruction = .slowWalk ∧ corner ≠ r.lastCorner) :
      Outcome s corner now r
        { r.observe corner with instruction := instruction, pauseUntil := pauseUntil }

variable {s : BehaviorSettings} {corner : UInt16} {now : Time} {r r' : RoomClear}

/-- A slow walk or a pause goes on as one of the two, and a pause begins only in
a slow walk and at a new corner. -/
theorem outcome_advance (h : r.sawEntrance = false) (hin : r.indoor)
    (hactive : r.instruction ≠ .none) (hopen : ¬ r.clearUntil ≤ now) :
    Outcome s corner now r ((r.observe corner).advance (corner != r.lastCorner) now s) := by
  unfold advance
  have hsame : (r.observe corner).instruction = r.instruction := rfl
  rw [hsame]
  cases hr : r.instruction with
  | none => exact absurd hr hactive
  | slowWalk =>
      dsimp only
      split
      · rename_i hcorner
        exact .proceed h hin hactive hopen nofun fun _ _ => ⟨hr, bne_iff_ne.1 hcorner⟩
      · exact .proceed h hin hactive hopen hactive fun hpause hne => absurd hpause hne
  | pauseAtCorner =>
      dsimp only
      split
      · exact .proceed h hin hactive hopen nofun nofun
      · exact .proceed h hin hactive hopen hactive fun hpause hne => absurd hpause hne

theorem outcome_update (r : RoomClear) (corner : UInt16) (now : Time) (s : BehaviorSettings) :
    Outcome s corner now r (r.update corner now s) := by
  unfold update
  split
  · rename_i h
    exact .enter h
  · rename_i h
    have hout : r.sawEntrance = false := Bool.eq_false_of_not_eq_true h
    split
    · rename_i hidle
      exact .rest hout hidle
    · rename_i hactive
      split
      · rename_i hover
        refine .finish hout fun hin => ?_
        simpa [hin] using hover
      · rename_i hgoing
        rw [Bool.or_eq_true, not_or, decide_eq_true_iff, Bool.not_eq_true', Bool.not_eq_false]
          at hgoing
        exact outcome_advance hout hgoing.2 hactive hgoing.1

namespace Outcome

/-- The flag is the host's alone. -/
theorem indoor (h : Outcome s corner now r r') : r'.indoor = r.indoor := by
  cases h <;> rfl

/-- A machine that rests is woken by an entrance only. -/
theorem sawEntrance (h : Outcome s corner now r r') (hidle : r.instruction = .none)
    (hactive : r'.instruction ≠ .none) : r.sawEntrance := by
  cases h with
  | enter hentry => exact hentry
  | rest => exact absurd hidle hactive
  | finish => exact absurd rfl hactive
  | proceed _ _ hbefore => exact absurd hidle hbefore

theorem slowWalk (h : Outcome s corner now r r') (hentry : r.sawEntrance) :
    r'.instruction = .slowWalk := by
  cases h with
  | enter => rfl
  | rest hout | finish hout | proceed hout => rw [hentry] at hout; cases hout

theorem pause (h : Outcome s corner now r r') (hpause : r'.instruction = .pauseAtCorner)
    (hbefore : r.instruction ≠ .pauseAtCorner) :
    r.instruction = .slowWalk ∧ corner ≠ r.lastCorner := by
  cases h with
  | enter | finish => cases hpause
  | rest => exact absurd hpause hbefore
  | proceed _ _ _ _ _ hcorner => exact hcorner hpause hbefore

end Outcome

/-! ## What the machine remembers -/

/-- The memory of a machine, told by what its updates saw. -/
structure Recalls (s : BehaviorSettings) (past : List Sight) (r : RoomClear) : Prop where
  wasIndoor : r.wasIndoor = inside past
  lastCorner : r.lastCorner = past.head?.elim 0 Sight.corner
  clearing : r.instruction ≠ .none ↔ ∃ entered, Window s entered past
  clearUntil : ∀ entered, Window s entered past → r.clearUntil = entered + s.roomClearDuration

namespace Recalls

variable {past : List Sight}

theorem enters (h : Recalls s past r) (corner : UInt16) (now : Time) :
    Sight.enters ⟨r.indoor, corner, now⟩ past = r.sawEntrance := by
  rw [Sight.enters, sawEntrance, h.wasIndoor]

/-- A machine that does not rest was updated before. -/
theorem exists_head? (h : Recalls s past r) (hactive : r.instruction ≠ .none) :
    ∃ y, past.head? = some y := by
  obtain ⟨_, hwindow⟩ := h.clearing.1 hactive
  cases hwindow with
  | entrance => exact ⟨_, rfl⟩
  | further => exact ⟨_, rfl⟩

/-- A machine at rest, outside every window. -/
theorem of_rest (hwas : r.wasIndoor = inside past)
    (hcorner : r.lastCorner = past.head?.elim 0 Sight.corner) (hidle : r.instruction = .none)
    (hnone : ∀ entered, ¬ Window s entered past) : Recalls s past r where
  wasIndoor := hwas
  lastCorner := hcorner
  clearing := iff_of_false (fun hactive => hactive hidle) fun ⟨t, ht⟩ => hnone t ht
  clearUntil t ht := absurd ht (hnone t)

theorem outcome (h : Recalls s past r) (hr : Outcome s corner now r r') :
    Recalls s (⟨r.indoor, corner, now⟩ :: past) r' := by
  have henters := h.enters corner now
  cases hr with
  | enter hentry =>
      have hwindow : ∀ t, Window s t (⟨r.indoor, corner, now⟩ :: past) ↔ now = t :=
        fun t => Window.of_enters (henters.trans hentry)
      refine ⟨rfl, rfl, iff_of_true nofun ⟨now, (hwindow now).2 rfl⟩, fun t ht => ?_⟩
      rw [← (hwindow t).1 ht]
  | rest hout hidle =>
      exact .of_rest rfl rfl hidle fun t ht =>
        h.clearing.2 ⟨t, ((Window.cons_iff (henters.trans hout)).1 ht).1⟩ hidle
  | finish hout hover =>
      refine .of_rest rfl rfl rfl fun t ht => ?_
      obtain ⟨hpast, hin, hopen⟩ := (Window.cons_iff (henters.trans hout)).1 ht
      exact hopen (h.clearUntil t hpast ▸ hover hin)
  | proceed hout hin hactive hopen hnext =>
      obtain ⟨t, ht⟩ := h.clearing.1 hactive
      have hstill : ¬ t + s.roomClearDuration ≤ now := h.clearUntil t ht ▸ hopen
      exact ⟨rfl, rfl, iff_of_true hnext ⟨t, .further ht hin hstill⟩, fun u hu =>
        h.clearUntil u ((Window.cons_iff (henters.trans hout)).1 hu).1⟩

end Recalls

theorem indoor_after (s : BehaviorSettings) (ops : List Op) :
    (after s ops).indoor = reported ops := by
  induction ops with
  | nil => rfl
  | cons op ops ih =>
      cases op with
      | report indoor => rfl
      | update corner now => exact (outcome_update _ corner now s).indoor.trans ih

theorem recalls_after (s : BehaviorSettings) (ops : List Op) :
    Recalls s (sights ops) (after s ops) := by
  induction ops with
  | nil => exact .of_rest rfl rfl rfl nofun
  | cons op ops ih =>
      cases op with
      | report indoor => exact ⟨ih.wasIndoor, ih.lastCorner, ih.clearing, ih.clearUntil⟩
      | update corner now =>
          rw [sights, ← indoor_after s ops]
          exact ih.outcome (outcome_update _ corner now s)

/-! ## The window -/

/-- One time is before another one unless it is at least as late, or they cannot
be compared. -/
theorem lt_or_undefined {a b : Time} (h : ¬ b ≤ a) : a < b ∨ a.isNaN ∨ b.isNaN := by
  by_cases hlt : a < b
  · exact .inl hlt
  · exact .inr ((Single.not_lt_iff.1 hlt).resolve_left h)

/-- The machine clears rooms inside the window of an entrance and nowhere else.
It takes up a slow walk in the update that sees the entrance, and whatever it
instructs later, the bot has been indoors since and the time that the last
entrance allows is not over. It pauses only in a slow walk, at a corner that the
update before did not see. -/
theorem clearing_is_confined (s : BehaviorSettings) (ops : List Op) (corner : UInt16)
    (now : Time) :
    let past := sights ops
    let x : Sight := ⟨reported ops, corner, now⟩
    let r := after s ops
    let r' := after s (.update corner now :: ops)
    (r.instruction = .none → r'.instruction ≠ .none → x.enters past) ∧
      (x.enters past → r'.instruction = .slowWalk) ∧
      (r'.instruction ≠ .none → x.enters past = false →
        x.indoor ∧ ∃ entered, entrance? past = some entered ∧
          (now < entered + s.roomClearDuration ∨ now.isNaN ∨
            (entered + s.roomClearDuration).isNaN)) ∧
      (r'.instruction = .pauseAtCorner → r.instruction ≠ .pauseAtCorner →
        r.instruction = .slowWalk ∧ ∃ y, past.head? = some y ∧ corner ≠ y.corner) ∧
      (r'.instruction ≠ .none ↔ ∃ entered, Window s entered (x :: past)) := by
  intro past x r r'
  have hr : Recalls s past r := recalls_after s ops
  have hr' : Recalls s (x :: past) r' := recalls_after s (.update corner now :: ops)
  have hx : x = ⟨r.indoor, corner, now⟩ := by rw [indoor_after s ops]
  have henters : x.enters past = r.sawEntrance := hx ▸ hr.enters corner now
  have hout : Outcome s corner now r r' := outcome_update r corner now s
  refine ⟨fun hidle hactive => henters ▸ hout.sawEntrance hidle hactive,
    fun hentry => hout.slowWalk (henters ▸ hentry), fun hactive hno => ?_,
    fun hpause hbefore => ?_, hr'.clearing⟩
  · obtain ⟨entered, hwindow⟩ := hr'.clearing.1 hactive
    obtain ⟨hpast, hin, hopen⟩ := (Window.cons_iff hno).1 hwindow
    exact ⟨hin, entered, hpast.entrance?_eq, lt_or_undefined hopen⟩
  · obtain ⟨hslow, hcorner⟩ := hout.pause hpause hbefore
    obtain ⟨y, hy⟩ := hr.exists_head? (by rw [hslow]; nofun)
    refine ⟨hslow, y, hy, ?_⟩
    rwa [hr.lastCorner, hy] at hcorner

end Warband.RoomClear
