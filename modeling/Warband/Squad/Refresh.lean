import Warband.Squad.Basic
import Warband.Squad.Layout
import Warband.Squad.Reach

/-!
# Sending followers to their places

A squad with an active leader and an objective gives every active follower a
role and a place, and each follower learns its place as well as it hears the
leader. What is ordered is written to the slots of the objective; what is
learnt, to the followers' own records. A follower that learns nothing loses its
role and its place.
-/
namespace Warband

open Warband.Random

/-- What a follower is ordered to do, and how it hears of it. -/
structure Order where
  bot : BotId
  role : Role
  target : Position
  tier : Tier

/-- How many followers were given a place, how many of those second-hand, and
how many were out of reach. -/
structure Dispatch where
  positioned : Nat := 0
  relayed : Nat := 0
  unreachable : Nat := 0
deriving DecidableEq, Repr

/-- The part of the situation that the host or the tick decides. -/
structure Situation where
  action : Action
  threat : Option Position
  engaged : Bool

namespace Squad

/-- Where the leader is, if it is live and active. -/
def activeLeader? (s : Squad) (bots : Bots) : Option Position :=
  ((s.leader.bind bots.get?).filter (·.isActive)).map (·.position)

/-- The active followers with their positions, as many as a squad can have. -/
def activeFollowers (s : Squad) (bots : Bots) : List (BotId × Position) :=
  (s.followers.filterMap fun id =>
    ((bots.get? id).filter (·.isActive)).map fun b => (id, b.position)).take maxSquadSize

/-- The roles and places of `count` followers. Once engaged, a squad with a
threat is placed against it. -/
def arrange (situation : Situation) (objective leader : Position) (settings : SquadSettings)
    (count : Nat) : List (Role × Position) :=
  let roles := situation.action.roles count
  match situation.engaged, situation.threat with
  | true, some threat =>
    let roles := roles.map Layout.combatRole
    roles.zip (Layout.combat objective leader threat settings roles)
  | _, threat => roles.zip (Layout.travel objective leader threat settings roles)

/-- The orders to the active followers. -/
def orders (s : Squad) (bots : Bots) (situation : Situation) (objective leader : Position)
    (settings : SquadSettings) (comm : CommunicationSettings) : List Order :=
  let followers := s.activeFollowers bots
  let places := arrange situation objective leader settings followers.length
  let tiers := Reach.tiers leader comm.range comm.trustedCount followers.length
    (followers.map (·.2))
  ((followers.zip places).zip tiers).map fun ((follower, place), tier) =>
    ⟨follower.1, place.1, place.2, tier⟩

/-- How well the squad coordinates. -/
def coordination (s : Squad) (comm : CommunicationSettings) : UInt8 :=
  match s.character.profile? with
  | some profile => profile.coordination
  | none => comm.defaultCoordination

/-- Takes role and place away from every follower. -/
def dismissFollowers (s : Squad) (bots : Bots) : Bots :=
  s.followers.foldl (fun bots id => bots.modify id (·.modifyMembership .dismiss)) bots

end Squad

namespace Order

/-- What each order's follower learns of its target, drawing noise in turn. -/
def deliver (noise : Float32) (coordination : UInt8) :
    List Order → Generator → List (Order × Option Position) × Generator
  | [], g => ([], g)
  | o :: os, g =>
    let (learnt, g) := Relay.share o.tier o.target noise coordination g
    let (rest, g) := deliver noise coordination os g
    ((o, learnt) :: rest, g)

/-- Writes what a follower learnt to its record. -/
def carryOut (bots : Bots) (d : Order × Option Position) : Bots :=
  bots.modify d.1.bot fun b => b.modifyMembership fun m =>
    match d.2 with
    | some position => m.assign d.1.role position
    | none => m.dismiss

/-- Writes an order to the slot of its rank. -/
def inscribe (o : Objective) (slot : Order × Nat) : Objective :=
  o.setSlot slot.2 ⟨slot.1.target, slot.1.role⟩

/-- Counts a delivery, if the follower has a membership to write it to. -/
def tally (bots : Bots) (n : Dispatch) (d : Order × Option Position) : Dispatch :=
  if ((bots.get? d.1.bot).bind (·.membership)).isSome then
    match d.2 with
    | some _ =>
      { n with
        positioned := n.positioned + 1
        relayed := if d.1.tier = .relayed then n.relayed + 1 else n.relayed }
    | none => { n with unreachable := n.unreachable + 1 }
  else n

end Order

namespace Squad

/-- What a refresh changes. -/
structure Refreshed where
  squad : Squad
  bots : Bots
  dispatch : Dispatch
  generator : Generator

/-- Gives orders and delivers them. -/
def dispatch (s : Squad) (bots : Bots) (situation : Situation) (objective leader : Position)
    (settings : SquadSettings) (comm : CommunicationSettings) (g : Generator) : Refreshed :=
  let orders := s.orders bots situation objective leader settings comm
  let (deliveries, g) := Order.deliver comm.baseNoise (s.coordination comm) orders g
  { squad := { s with objective := orders.zipIdx.foldl Order.inscribe s.objective }
    bots := deliveries.foldl Order.carryOut bots
    dispatch := deliveries.foldl (Order.tally bots) {}
    generator := g }

/-- Sends the followers of a squad to their places. Without an active leader or
an objective they lose them instead. -/
def refresh (s : Squad) (bots : Bots) (situation : Situation) (settings : SquadSettings)
    (comm : CommunicationSettings) (g : Generator) : Refreshed :=
  match s.activeLeader? bots, s.objective.position with
  | some leader, some objective => s.dispatch bots situation objective leader settings comm g
  | _, _ => ⟨s, s.dismissFollowers bots, {}, g⟩

end Squad

end Warband
