import Warband.Bot.Basic
import Warband.Loot.Share
import Warband.Squad.Character
import Warband.Squad.Objective

/-!
# Squads

A squad lists its members in the order they joined, one of them its leader, and
holds what they share: an objective, an action, a strategy, a character and the
leader's loot scan.
-/
namespace Warband

/-- The strategy a squad runs, by the host's handle and by its place among the
squad's scores. -/
structure Strategy where
  handle : UInt32
  ordinal : Nat
deriving DecidableEq, Repr

structure Squad where
  isActive : Bool := true
  targetSize : Nat := 0
  /-- One score per strategy. -/
  scores : List Float32 := []
  objective : Objective := {}
  strategy : Option Strategy := none
  action : Action := .idle
  character : Character := .none
  share : Loot.Share := {}
  leader : Option BotId := none
  members : List BotId := []

namespace Squad

instance : Inhabited Squad := ⟨{}⟩

/-- A squad without members and with all scores zero. -/
def recruit (strategies targetSize : Nat) : Squad :=
  { targetSize := targetSize, scores := List.replicate strategies 0 }

/-- The members other than the leader, in the order they joined. -/
def followers (s : Squad) : List BotId :=
  s.members.filter fun m => some m ≠ s.leader

/-- Writes scores over the first ones; the number of strategies stays. -/
def overwriteScores (s : Squad) (scores : List Float32) : Squad :=
  { s with scores := scores.take s.scores.length ++ s.scores.drop scores.length }

/-- The best scored of the strategies that have a handle. -/
def bestStrategy? (s : Squad) (handles : List UInt32) : Option Strategy :=
  (Numeric.firstBest? (·.1) (s.scores.zip handles.zipIdx)).map fun (_, handle, ordinal) =>
    ⟨handle, ordinal⟩

def selectStrategy (s : Squad) (handles : List UInt32) : Squad :=
  { s with strategy := s.bestStrategy? handles }

/-- Sets what the squad does. A squad that holds waits at its objective. -/
def setAction (s : Squad) (action : Action) : Squad :=
  { s with
    action := action
    objective := if action = .holdPosition then s.objective.hold else s.objective }

/-- Lets the members' classes vote for the squad's character. -/
def vote (s : Squad) (bots : Bots) : Squad :=
  { s with character := .vote (s.members.filterMap fun m => (bots.get? m).map (·.botClass)) }

end Squad

abbrev Squads := Roster .squad Squad

end Warband
