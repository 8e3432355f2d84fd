import Warband.Geometry
import Warband.Identity
import Warband.Settings.Basic
import Warband.Squad.Role

/-!
# The objective of a squad

A squad works one point at a time. Every new point and every withdrawal bumps a
version, so members can tell a new order from an old one without comparing
points. Beside the point the objective keeps the tactical slots of the members,
each a position and a role; slots count as written up to the highest index
written since the last change.
-/
namespace Warband

inductive ObjectiveState where
  | none
  | active
  | wait
  | completed
  | failed
deriving DecidableEq, Repr

instance : Named ObjectiveState where
  all := [.none, .active, .wait, .completed, .failed]
  name
    | .none => "None"
    | .active => "Active"
    | .wait => "Wait"
    | .completed => "Completed"
    | .failed => "Failed"

/-- Where a member should stand, and as what. -/
structure Slot where
  position : Position
  role : Role

def Slot.blank : Slot := ⟨.origin, .none⟩

structure Objective where
  position : Option Position := none
  /-- The point before the last change. -/
  previous : Option Position := none
  version : UInt32 := 0
  startTime : Time := 0
  duration : Float32 := 0
  /-- The duration has been scaled since the point was set. -/
  adjusted : Bool := false
  state : ObjectiveState := .none
  slots : Vector Slot maxSquadSize := Vector.replicate maxSquadSize .blank
  used : Nat := 0

namespace Objective

instance : Inhabited Objective := ⟨{}⟩

/-- Sends the squad to a new point. -/
def set (o : Objective) (position : Position) (now : Time) (duration : Float32) : Objective :=
  { o with
    previous := o.position
    position := some position
    startTime := now
    duration := duration
    adjusted := false
    state := .active
    used := 0
    version := o.version + 1 }

/-- Withdraws the point. -/
def clear (o : Objective) : Objective :=
  { o with
    previous := o.position
    position := none
    state := .none
    used := 0
    adjusted := false
    version := o.version + 1 }

/-- Scales the duration, once per point. -/
def adjust (o : Objective) (factor : Float32) : Objective :=
  if o.adjusted then o else { o with duration := o.duration * factor, adjusted := true }

/-- Seconds since the point was set, never negative. -/
def elapsed (o : Objective) (now : Time) : Float32 :=
  let seconds := now - o.startTime
  if 0 < seconds then seconds else 0

def expired (o : Objective) (now : Time) : Bool :=
  o.position.isSome && o.duration ≤ o.elapsed now

/-- Writes a slot; there is none beyond the greatest squad size. -/
def setSlot (o : Objective) (index : Nat) (slot : Slot) : Objective :=
  if index < maxSquadSize then
    { o with slots := o.slots.setIfInBounds index slot, used := max o.used (index + 1) }
  else o

/-- The slot at an index that counts as written. -/
def slot? (o : Objective) (index : Nat) : Option Slot :=
  if index < o.used then o.slots[index]? else none

/-- The slots that count as written. -/
def usedSlots (o : Objective) : List Slot :=
  o.slots.toList.take o.used

/-- A squad told to hold waits at its point, if it was working it. -/
def hold (o : Objective) : Objective :=
  if o.state = .active then { o with state := .wait } else o

@[simp] theorem version_set (o : Objective) (p : Position) (now : Time) (d : Float32) :
    (o.set p now d).version = o.version + 1 := rfl

@[simp] theorem version_clear (o : Objective) : o.clear.version = o.version + 1 := rfl

@[simp] theorem version_adjust (o : Objective) (factor : Float32) :
    (o.adjust factor).version = o.version := by
  unfold adjust; split <;> rfl

@[simp] theorem version_setSlot (o : Objective) (i : Nat) (s : Slot) :
    (o.setSlot i s).version = o.version := by
  unfold setSlot; split <;> rfl

@[simp] theorem position_setSlot (o : Objective) (i : Nat) (s : Slot) :
    (o.setSlot i s).position = o.position := by
  unfold setSlot; split <;> rfl

@[simp] theorem used_adjust (o : Objective) (factor : Float32) :
    (o.adjust factor).used = o.used := by
  unfold adjust; split <;> rfl

@[simp] theorem used_hold (o : Objective) : o.hold.used = o.used := by
  unfold hold; split <;> rfl

@[simp] theorem used_setSlot (o : Objective) (i : Nat) (s : Slot) :
    (o.setSlot i s).used = if i < maxSquadSize then max o.used (i + 1) else o.used := by
  unfold setSlot; split <;> rfl

@[simp] theorem slots_adjust (o : Objective) (factor : Float32) :
    (o.adjust factor).slots = o.slots := by
  unfold adjust; split <;> rfl

@[simp] theorem slots_hold (o : Objective) : o.hold.slots = o.slots := by
  unfold hold; split <;> rfl

theorem slots_setSlot (o : Objective) (i : Nat) (s : Slot) :
    (o.setSlot i s).slots = o.slots.setIfInBounds i s := by
  unfold setSlot
  split
  · rfl
  · exact (Vector.setIfInBounds_eq_of_size_le (by omega)).symm

end Objective

end Warband
