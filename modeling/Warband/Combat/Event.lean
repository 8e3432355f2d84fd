import Warband.Geometry
import Warband.Identity
import Warband.Named

/-!
# Combat events

One thing heard on the battlefield: where, when, how loud and of which kind. An
event expires by age; an event that is active and not expired is live.
-/
namespace Warband.Combat

inductive EventKind where
  /-- The kind of a slot that never held an event. -/
  | none
  | gunshot
  | explosion
  | airdrop
  | death
deriving DecidableEq, Repr

instance : Named EventKind where
  all := [.none, .gunshot, .explosion, .airdrop, .death]
  name
    | .none => "None"
    | .gunshot => "Gunshot"
    | .explosion => "Explosion"
    | .airdrop => "Airdrop"
    | .death => "Death"

/-- Explosions count triple. -/
def EventKind.weight : EventKind → Nat
  | .explosion => 3
  | _ => 1

structure Event where
  position : Position := .origin
  time : Time := 0
  power : Float32 := 0
  kind : EventKind := .none
  isBoss : Bool := false
  isActive : Bool := false

namespace Event

/-- Older than `maxAge` at `now`; an undefined age is not old. -/
def expired (e : Event) (now : Time) (maxAge : Float32) : Bool :=
  maxAge < now - e.time

def live (e : Event) (now : Time) (maxAge : Float32) : Bool :=
  e.isActive && !e.expired now maxAge

/-- Within a squared distance of a point on the plane; an undefined distance is
not within any. -/
def near (e : Event) (point : Position) (radiusSq : Float32) : Bool :=
  e.position.horizontalDistanceSq point ≤ radiusSq

/-- Live events other than deaths take part in clustering. -/
def clusters (e : Event) (now : Time) (maxAge : Float32) : Bool :=
  e.live now maxAge && e.kind != .death

theorem isActive_of_live {e : Event} {now : Time} {maxAge : Float32} (h : e.live now maxAge) :
    e.isActive := by
  simp [live] at h
  exact h.1

end Event

end Warband.Combat
