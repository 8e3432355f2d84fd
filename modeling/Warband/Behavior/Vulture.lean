import Warband.Geometry
import Warband.Identity
import Warband.Named
import Warband.Settings.Basic

/-!
# Stalking a fight

A vulture moves towards a fight, quietly when it is close, waits in ambush, and
rushes in once it has waited long enough. It is done when it arrives, when its
target is gone or when the whole hunt has taken too long. One update advances by
one phase at most.
-/
namespace Warband

inductive VulturePhase where
  | idle
  | approach
  | silentApproach
  | ambush
  | rush
  | done
deriving DecidableEq, Repr

instance : Named VulturePhase where
  all := [.idle, .approach, .silentApproach, .ambush, .rush, .done]
  name
    | .idle => "Idle"
    | .approach => "Approach"
    | .silentApproach => "SilentApproach"
    | .ambush => "Ambush"
    | .rush => "Rush"
    | .done => "Done"

structure Vulture where
  phase : VulturePhase := .idle
  target : Option Position := none
  startedAt : Time := 0
  ambushStartedAt : Time := 0

namespace Vulture

/-- A rushing vulture this close to its target has arrived. -/
def arrivalRadius : Float32 := 3

def start (target : Position) (now : Time) : Vulture :=
  ⟨.approach, some target, now, now⟩

def running (v : Vulture) : Bool :=
  v.phase != .idle && v.phase != .done

/-- The step of a hunt that goes on, `distance` away from its target. -/
def advance (v : Vulture) (distance : Float32) (now : Time) (s : BehaviorSettings) : Vulture :=
  match v.phase with
  | .approach =>
    if distance ≤ s.vultureSilentDistance then { v with phase := .silentApproach } else v
  | .silentApproach =>
    if distance ≤ s.vultureAmbushDistance then
      { v with phase := .ambush, ambushStartedAt := now } else v
  | .ambush =>
    if s.vultureAmbushDuration ≤ now - v.ambushStartedAt then { v with phase := .rush } else v
  | .rush => if distance ≤ arrivalRadius then { v with phase := .done } else v
  | .idle | .done => v

def update (v : Vulture) (position : Position) (now : Time) (s : BehaviorSettings) : Vulture :=
  if v.running then
    match v.target with
    | none => { v with phase := .done }
    | some target =>
      if s.vultureMaxDuration ≤ now - v.startedAt then { v with phase := .done }
      else v.advance (position.horizontalDistance target) now s
  else v

theorem running_eq_false_iff (v : Vulture) :
    v.running = false ↔ v.phase = .idle ∨ v.phase = .done := by
  unfold running
  cases v.phase <;> simp

@[simp] theorem advance_target (v : Vulture) (d : Float32) (now : Time) (s : BehaviorSettings) :
    (v.advance d now s).target = v.target := by
  unfold advance
  split <;> (try split) <;> rfl

@[simp] theorem update_target (v : Vulture) (p : Position) (now : Time) (s : BehaviorSettings) :
    (v.update p now s).target = v.target := by
  unfold update
  split
  · split
    · rename_i h; simp [h]
    · split
      · rfl
      · exact advance_target ..
  · rfl

end Vulture

end Warband
