import Mathlib.Logic.Function.Iterate
import Warband.Proofs.Session.Permanence

/-!
# Noise in relayed orders

A follower that hears its order second-hand learns a place that is off by a
random amount, and the numbers for it are drawn as the orders are delivered. So
what one follower learns depends on how many numbers were drawn for those before
it. The draws can be told in advance: an order takes two if it is relayed and its
place is finite, and none otherwise. Two refreshes of a squad with different
generators agree on everything but the places of the relayed followers.
-/
namespace Warband

open Warband.Random

namespace Relay

variable (p : Position) (noise : Float32) (coordination : UInt8)

end Relay

namespace Order

/-- The orders that are passed on second-hand. -/
def relayed (os : List Order) : List Order := os.filter (·.tier = .relayed)

variable (noise : Float32) (coordination : UInt8)

end Order

namespace Squad

variable (s : Squad) (bots : Bots) (situation : Situation) (settings : SquadSettings)
  (comm : CommunicationSettings)

/-- The orders of a refresh that are passed on second-hand. -/
def relayed : List Order :=
  match s.activeLeader? bots, s.objective.position with
  | some leader, some objective =>
    Order.relayed (s.orders bots situation objective leader settings comm)
  | _, _ => []

end Squad

end Warband
