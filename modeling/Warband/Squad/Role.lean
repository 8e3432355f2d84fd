import Warband.Named

/-!
# Roles and actions

What a squad is doing decides the roles of its followers: one for the first,
one for the second and one for all others.
-/
namespace Warband

inductive Role where
  | none
  | leader
  /-- Rings the objective. -/
  | guard
  /-- Stands to the side of the axis. -/
  | flanker
  /-- Hangs back on the axis. -/
  | overwatch
  /-- Trails the leader. -/
  | escort
deriving DecidableEq, Repr

instance : Named Role where
  all := [.none, .leader, .guard, .flanker, .overwatch, .escort]
  name
    | .none => "None"
    | .leader => "Leader"
    | .guard => "Guard"
    | .flanker => "Flanker"
    | .overwatch => "Overwatch"
    | .escort => "Escort"

instance : Inhabited Role := ⟨.none⟩

inductive Action where
  | idle
  | moveToObjective
  | holdPosition
  | ambush
  | snipe
  | plantItem
  | patrol
  | loot
deriving DecidableEq, Repr

instance : Named Action where
  all := [.idle, .moveToObjective, .holdPosition, .ambush, .snipe, .plantItem, .patrol, .loot]
  name
    | .idle => "Idle"
    | .moveToObjective => "MoveToObjective"
    | .holdPosition => "HoldPosition"
    | .ambush => "Ambush"
    | .snipe => "Snipe"
    | .plantItem => "PlantItem"
    | .patrol => "Patrol"
    | .loot => "Loot"

/-- The roles of the first, the second and any further follower. -/
structure Pattern where
  first : Role
  second : Role
  rest : Role
deriving DecidableEq, Repr

def Action.pattern : Action → Pattern
  | idle => ⟨.guard, .guard, .guard⟩
  | moveToObjective => ⟨.escort, .flanker, .escort⟩
  | holdPosition => ⟨.guard, .overwatch, .guard⟩
  | ambush => ⟨.flanker, .overwatch, .flanker⟩
  | snipe => ⟨.overwatch, .guard, .guard⟩
  | plantItem => ⟨.guard, .overwatch, .flanker⟩
  | patrol => ⟨.escort, .escort, .escort⟩
  | loot => ⟨.guard, .overwatch, .guard⟩

/-- The role of the follower at an index. -/
def Pattern.role (p : Pattern) : Nat → Role
  | 0 => p.first
  | 1 => p.second
  | _ => p.rest

/-- The roles of the first `count` followers. -/
def Action.roles (a : Action) (count : Nat) : List Role :=
  (List.range count).map a.pattern.role

@[simp] theorem Action.length_roles (a : Action) (count : Nat) :
    (a.roles count).length = count := by
  simp [Action.roles]

end Warband
