import Warband.Identity
import Warband.Named
import Warband.Settings.Basic

/-!
# Clearing rooms

A bot that enters a building walks slowly for a while and pauses at every new
corner of its path. Leaving the building or running out of time ends it.
-/
namespace Warband

inductive RoomClearInstruction where
  | none
  | slowWalk
  | pauseAtCorner
deriving DecidableEq, Repr

instance : Named RoomClearInstruction where
  all := [.none, .slowWalk, .pauseAtCorner]
  name
    | .none => "None"
    | .slowWalk => "SlowWalk"
    | .pauseAtCorner => "PauseAtCorner"

structure RoomClear where
  instruction : RoomClearInstruction := .none
  /-- Reported by the host. -/
  indoor : Bool := false
  /-- What `indoor` was at the last update. -/
  wasIndoor : Bool := false
  clearUntil : Time := 0
  pauseUntil : Time := 0
  lastCorner : UInt16 := 0

namespace RoomClear

/-- What an update notices before anything else: where the bot is now. -/
def observe (r : RoomClear) (corner : UInt16) : RoomClear :=
  { r with wasIndoor := r.indoor, lastCorner := corner }

/-- The step of a slow walk or a pause that is not over. -/
def advance (r : RoomClear) (newCorner : Bool) (now : Time) (s : BehaviorSettings) : RoomClear :=
  match r.instruction with
  | .slowWalk =>
    if newCorner then
      { r with instruction := .pauseAtCorner, pauseUntil := now + s.cornerPauseDuration }
    else r
  | .pauseAtCorner => if r.pauseUntil ≤ now then { r with instruction := .slowWalk } else r
  | .none => r

def update (r : RoomClear) (corner : UInt16) (now : Time) (s : BehaviorSettings) : RoomClear :=
  let seen := r.observe corner
  if r.indoor && !r.wasIndoor then
    { seen with instruction := .slowWalk, clearUntil := now + s.roomClearDuration }
  else if r.instruction = .none then seen
  else if r.clearUntil ≤ now || !r.indoor then { seen with instruction := .none }
  else seen.advance (corner != r.lastCorner) now s

end RoomClear

end Warband
