import Warband.Geometry
import Warband.Named

/-!
# What is known of a bot

The host classifies every bot and may give it a temperament, from which its
aggression follows. It also reports how the bot moves.
-/
namespace Warband

/-- The classes of bots, in ascending order; a higher class wins a tied vote. -/
inductive BotClass where
  | unknown
  | pmc
  | scav
  | playerScav
  | boss
deriving DecidableEq, Repr

instance : Named BotClass where
  all := [.unknown, .pmc, .scav, .playerScav, .boss]
  name
    | .unknown => "Unknown"
    | .pmc => "Pmc"
    | .scav => "Scav"
    | .playerScav => "PlayerScav"
    | .boss => "Boss"

/-- The number of a class in ascending order. -/
def BotClass.ordinal : BotClass → Fin 5
  | unknown => 0
  | pmc => 1
  | scav => 2
  | playerScav => 3
  | boss => 4

inductive Temperament where
  | normal
  | timid
  | cautious
  | aggressive
  | reckless
deriving DecidableEq, Repr

instance : Named Temperament where
  all := [.normal, .timid, .cautious, .aggressive, .reckless]
  name
    | .normal => "Normal"
    | .timid => "Timid"
    | .cautious => "Cautious"
    | .aggressive => "Aggressive"
    | .reckless => "Reckless"

/-- How readily a bot fights, between zero and one. -/
def Temperament.aggression : Temperament → Float32
  | timid => 0.1
  | cautious => 0.3
  | normal => 0.5
  | aggressive => 0.75
  | reckless => 0.95

inductive MovementStatus where
  | idle
  | moving
  | arrived
  | failed
deriving DecidableEq, Repr

instance : Named MovementStatus where
  all := [.idle, .moving, .arrived, .failed]
  name
    | .idle => "Idle"
    | .moving => "Moving"
    | .arrived => "Arrived"
    | .failed => "Failed"

/-- How far a bot that makes no progress has got in freeing itself. -/
inductive StuckPhase where
  | none
  | soft
  | hard
  | failed
deriving DecidableEq, Repr

instance : Named StuckPhase where
  all := [.none, .soft, .hard, .failed]
  name
    | .none => "None"
    | .soft => "Soft"
    | .hard => "Hard"
    | .failed => "Failed"

structure Movement where
  status : MovementStatus := .idle
  stuckPhase : StuckPhase := .none
  isSprinting : Bool := false
  /-- From prone at zero to standing at one. -/
  pose : Float32 := 0
  currentCorner : UInt16 := 0
  totalCorners : UInt16 := 0
  retryCount : UInt8 := 0

/-- What a bot needs to wander about. -/
structure Wandering where
  noiseSeed : UInt32 := 0
  previousDestination : Option Position := none

end Warband
