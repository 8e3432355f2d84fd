import Warband.Combat.Event

/-!
# The event log

A log of bounded capacity. Events are written to its slots in turn, and when all
are in use the oldest one is overwritten. Expiry and queries read the slots in
storage order; an inactive slot never contributes to an answer.
-/
namespace Warband.Combat

structure Log where
  slots : Array Event
  /-- The slot that the next event is written to. -/
  head : Nat
  /-- Slots written since the log was last empty. -/
  count : Nat

namespace Log

/-- An empty log. It has at least one slot. -/
def ofCapacity (capacity : Nat) : Log :=
  ⟨Array.replicate (max capacity 1) {}, 0, 0⟩

def capacity (l : Log) : Nat := l.slots.size

/-- Writes an event, active from now on, to the next slot. -/
def record (l : Log) (e : Event) : Log where
  slots := l.slots.setIfInBounds l.head { e with isActive := true }
  head := (l.head + 1) % l.capacity
  count := min (l.count + 1) l.capacity

/-- Deactivates the events that are too old. -/
def expire (l : Log) (now : Time) (maxAge : Float32) : Log :=
  { l with slots := l.slots.map fun e =>
      if e.isActive && e.expired now maxAge then { e with isActive := false } else e }

/-- How many events `expire` deactivates. -/
def expiring (l : Log) (now : Time) (maxAge : Float32) : Nat :=
  l.slots.countP fun e => e.isActive && e.expired now maxAge

/-- Forgets every event and keeps the capacity. -/
def clear (l : Log) : Log := ⟨Array.replicate l.capacity {}, 0, 0⟩

/-- The live events in storage order. -/
def live (l : Log) (now : Time) (maxAge : Float32) : List Event :=
  l.slots.toList.filter (·.live now maxAge)

/-- The live deaths in storage order, at most `limit` of them. -/
def deaths (l : Log) (now : Time) (maxAge : Float32) (limit : Nat) : List Event :=
  ((l.live now maxAge).filter (·.kind == .death)).take limit

/-- Keeps the closer of the event found so far and another one, the later one
of two at the same distance. -/
def closer (point : Position) (found : Option Event × Float32) (e : Event) :
    Option Event × Float32 :=
  if e.near point found.2 then (some e, e.position.horizontalDistanceSq point) else found

/-- The live event nearest to `point`, within `range`. -/
def nearest? (l : Log) (point : Position) (range : Float32) (now : Time) (maxAge : Float32) :
    Option Event :=
  ((l.live now maxAge).foldl (closer point) (none, range * range)).1

/-- The weighted number of active events around `point` in the last `window`
seconds. -/
def intensity (l : Log) (point : Position) (radius window : Float32) (now : Time) : Nat :=
  let felt := l.slots.toList.filter fun e =>
    e.isActive && now - e.time ≤ window && e.near point (radius * radius)
  felt.foldl (fun total e => total + e.kind.weight) 0

/-- Some active boss event around `point` is younger than `decay` seconds. -/
def inBossZone (l : Log) (point : Position) (radius decay : Float32) (now : Time) : Bool :=
  l.slots.toList.any fun e =>
    e.isActive && e.isBoss && now - e.time < decay && e.near point (radius * radius)

@[simp] theorem capacity_ofCapacity (n : Nat) : (ofCapacity n).capacity = max n 1 := by
  simp [ofCapacity, capacity]

@[simp] theorem capacity_record (l : Log) (e : Event) : (l.record e).capacity = l.capacity := by
  simp [record, capacity]

@[simp] theorem capacity_expire (l : Log) (now : Time) (maxAge : Float32) :
    (l.expire now maxAge).capacity = l.capacity := by
  simp [expire, capacity]

@[simp] theorem capacity_clear (l : Log) : l.clear.capacity = l.capacity := by
  simp [clear, capacity]

theorem mem_live {l : Log} {now : Time} {maxAge : Float32} {e : Event} :
    e ∈ l.live now maxAge ↔ e ∈ l.slots.toList ∧ e.live now maxAge := by
  simp [live]

end Log

end Warband.Combat
