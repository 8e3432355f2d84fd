import Warband.Geometry
import Warband.Settings.Basic
import Warband.Squad.Role

/-!
# Tactical layout

Followers are placed by role around an axis: guards on a circle or, facing a
threat, on a half circle; flankers and escorts alternately to both sides;
overwatch behind. In travel the axis runs from the leader to the objective, in
combat from the objective to the threat, and escorts become flankers. Without a
usable axis everyone gathers at the objective.
-/
namespace Warband

/-- What the places of a squad are measured from. -/
structure Ground where
  objective : Position
  leader : Position
  axis : Heading
  /-- The bearing that guards face, if there is a threat. -/
  threat : Option Float32
  settings : SquadSettings

namespace Ground

/-- One on even ranks, minus one on odd ones. -/
def side (rank : Nat) : Float32 := if rank % 2 = 0 then 1 else -1

/-- The bearing of guard number `rank` out of `total`. -/
def guardAngle (g : Ground) (rank total : Nat) : Float32 :=
  let total := Float32.ofNat (max total 1)
  let rank := Float32.ofNat rank
  match g.threat with
  | some bearing => bearing - Float32.halfTurn / 2 + Float32.halfTurn * (rank + 0.5) / total
  | none => g.axis.angle + Float32.tau * rank / total

def guardPoint (g : Ground) (rank total : Nat) : Position :=
  let direction := Heading.ofAngle (g.guardAngle rank total)
  g.objective.offset (direction.x * g.settings.guardRadius) (direction.z * g.settings.guardRadius)

def flankPoint (g : Ground) (rank : Nat) : Position :=
  let across := g.axis.left
  g.objective.offset (across.x * g.settings.flankDistance * side rank)
    (across.z * g.settings.flankDistance * side rank)

def overwatchPoint (g : Ground) : Position :=
  g.objective.offset (-g.axis.x * g.settings.overwatchDistance)
    (-g.axis.z * g.settings.overwatchDistance)

def escortPoint (g : Ground) (rank : Nat) : Position :=
  let across := g.axis.left
  let lateral := g.settings.escortLateralOffset * side rank
  g.leader.offset (-g.axis.x * g.settings.escortDistance + across.x * lateral)
    (-g.axis.z * g.settings.escortDistance + across.z * lateral)

/-- How many guards, flankers and escorts have been placed. -/
structure Placed where
  guards : Nat := 0
  flankers : Nat := 0
  escorts : Nat := 0
deriving DecidableEq, Repr

/-- The point for a role after those already placed. -/
def point (g : Ground) (guards : Nat) (placed : Placed) : Role → Position
  | .guard => g.guardPoint placed.guards guards
  | .flanker => g.flankPoint placed.flankers
  | .overwatch => g.overwatchPoint
  | .escort => g.escortPoint placed.escorts
  | .leader | .none => g.objective

def Placed.count (p : Placed) : Role → Placed
  | .guard => { p with guards := p.guards + 1 }
  | .flanker => { p with flankers := p.flankers + 1 }
  | .escort => { p with escorts := p.escorts + 1 }
  | .overwatch | .leader | .none => p

/-- Places the roles in order. -/
def place (g : Ground) (guards : Nat) : Placed → List Role → List Position
  | _, [] => []
  | placed, role :: roles => g.point guards placed role :: g.place guards (placed.count role) roles

/-- The points of a list of roles. -/
def layout (g : Ground) (roles : List Role) : List Position :=
  g.place (roles.count .guard) {} roles

@[simp] theorem length_place (g : Ground) (guards : Nat) (placed : Placed) (roles : List Role) :
    (g.place guards placed roles).length = roles.length := by
  induction roles generalizing placed with
  | nil => rfl
  | cons role roles ih => simp [place, ih]

@[simp] theorem length_layout (g : Ground) (roles : List Role) :
    (g.layout roles).length = roles.length := length_place ..

end Ground

namespace Layout

/-- Everyone at the objective. -/
def gather (objective : Position) (roles : List Role) : List Position :=
  roles.map fun _ => objective

/-- The points on the way to, or around, the objective. -/
def travel (objective leader : Position) (threat : Option Position) (s : SquadSettings)
    (roles : List Role) : List Position :=
  match Heading.between? leader objective with
  | none => gather objective roles
  | some axis =>
    let bearing := (threat.bind (Heading.between? objective)).map Heading.angle
    Ground.layout ⟨objective, leader, axis, bearing, s⟩ roles

/-- Under fire nobody trails the leader. -/
def combatRole : Role → Role
  | .escort => .flanker
  | role => role

/-- The points under fire, for roles that hold no escorts any more. -/
def combat (objective leader threat : Position) (s : SquadSettings) (roles : List Role) :
    List Position :=
  match Heading.between? objective threat with
  | none => gather objective roles
  | some axis => Ground.layout ⟨objective, leader, axis, some axis.angle, s⟩ roles

@[simp] theorem length_travel (objective leader : Position) (threat : Option Position)
    (s : SquadSettings) (roles : List Role) :
    (travel objective leader threat s roles).length = roles.length := by
  unfold travel; split <;> simp [gather]

@[simp] theorem length_combat (objective leader threat : Position) (s : SquadSettings)
    (roles : List Role) : (combat objective leader threat s roles).length = roles.length := by
  unfold combat; split <;> simp [gather]

end Layout

end Warband
