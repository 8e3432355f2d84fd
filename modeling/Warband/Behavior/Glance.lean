import Warband.Combat.Log
import Warband.Random.Generator
import Warband.Settings.Basic

/-!
# Idle glances

A bot out of combat looks aside now and then: at the nearest recent event in
range, or else to one side, left or right by a coin. A glance lasts for a single
update, and the next one is due after a random interval.
-/
namespace Warband

open Warband.Random

inductive GlanceInstruction where
  | none
  | atEvent
  | toFlank
deriving DecidableEq, Repr

instance : Named GlanceInstruction where
  all := [.none, .atEvent, .toFlank]
  name
    | .none => "None"
    | .atEvent => "GlanceAtEvent"
    | .toFlank => "GlanceFlank"

structure Glance where
  instruction : GlanceInstruction := .none
  target : Option Position := none
  nextGlance : Time := 0

/-- What a bot sees of the world when it decides where to look. -/
structure Surroundings where
  position : Position
  facing : Heading
  inCombat : Bool
  events : Combat.Log
  maxEventAge : Float32

namespace Glance

/-- How far to the side a flank glance goes. -/
def flankDistance : Float32 := 10

/-- The point a flank glance looks at; `side` is one or minus one. -/
def flankPoint (w : Surroundings) (side : Float32) : Position :=
  let across := w.facing.left
  w.position.offset (across.x * flankDistance * side) (across.z * flankDistance * side)

/-- The time of the next glance, a fraction of the configured span after the
shortest interval. -/
def dueTime (now : Time) (s : BehaviorSettings) (fraction : Float32) : Time :=
  let span := (s.lookMaxInterval - s.lookMinInterval).larger 0
  now + s.lookMinInterval + fraction * span

/-- The event that attracts a glance: the nearest one on the plane. -/
def attraction? (w : Surroundings) (now : Time) (s : BehaviorSettings) : Option Combat.Event :=
  w.events.nearest? ⟨w.position.x, 0, w.position.z⟩ s.lookEventRange now w.maxEventAge

/-- A glance that is due. The interval is drawn first, then the side if no event
attracts the bot. -/
def fire (w : Surroundings) (now : Time) (s : BehaviorSettings) (g : Generator) :
    Glance × Generator :=
  let (fraction, g) := g.unit
  let next := dueTime now s fraction
  match attraction? w now s with
  | some event => (⟨.atEvent, some event.position, next⟩, g)
  | none =>
    let (heads, g) := g.coin
    (⟨.toFlank, some (flankPoint w (if heads then 1 else -1)), next⟩, g)

def update (l : Glance) (w : Surroundings) (now : Time) (s : BehaviorSettings) (g : Generator) :
    Glance × Generator :=
  if w.inCombat || now < l.nextGlance then (⟨.none, none, l.nextGlance⟩, g)
  else fire w now s g

end Glance

end Warband
