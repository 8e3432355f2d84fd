import Warband.Geometry
import Warband.Named
import Warband.Random.Generator
import Warband.Settings.Basic

/-!
# Who hears the leader

The closest followers in range hear the leader directly, up to a trusted number
of them. Others hear it second-hand if a direct follower is in range. What is
passed on is blurred by noise that good coordination reduces.
-/
namespace Warband

open Warband.Random

inductive Tier where
  | none
  | direct
  | relayed
deriving DecidableEq, Repr

instance : Named Tier where
  all := [.none, .direct, .relayed]
  name
    | .none => "None"
    | .direct => "Direct"
    | .relayed => "Relayed"

namespace Reach

/-- The squared distance of a follower from the leader, infinite for a follower
whose position is undefined. -/
def distanceSq (leader : Position) (follower : Position) : Float32 :=
  if follower.isFinite then follower.horizontalDistanceSq leader else .infinity

/-- The indices of the followers, the closest first. The sort is stable, so of
equally close ones the earlier index is first. -/
def ranking (leader : Position) (followers : List Position) : List (Nat × Position) :=
  (followers.zipIdx.map fun (p, i) => (i, p)).mergeSort fun a b =>
    !(distanceSq leader b.2).precedes (distanceSq leader a.2)

/-- The followers that hear the leader directly. -/
def direct (leader : Position) (range : Float32) (trusted : Nat) (followers : List Position) :
    List (Nat × Position) :=
  let audible := (ranking leader followers).takeWhile fun f => distanceSq leader f.2 ≤ range * range
  audible.take trusted

/-- The squared distance to the nearest of some positions; infinite if there are
none. -/
def nearestSq (position : Position) (others : List Position) : Float32 :=
  (others.map position.horizontalDistanceSq).foldl Float32.smaller .infinity

/-- The tier of one follower, given those that hear the leader directly. -/
def tier (range : Float32) (heard : List (Nat × Position)) (index : Nat) (follower : Position) :
    Tier :=
  if heard.any (·.1 = index) then .direct
  else if follower.isFinite && nearestSq follower (heard.map (·.2)) ≤ range * range then .relayed
  else .none

/-- The tiers of the first followers, at most `slots` and as many as fit into a
squad. Slots left over hold nobody in reach. -/
def tiers (leader : Position) (range : Float32) (trusted slots : Nat)
    (followers : List Position) : List Tier :=
  let considered := followers.take (min slots maxSquadSize)
  let heard := direct leader range trusted considered
  (considered.zipIdx.map fun (p, i) => tier range heard i p) ++
    List.replicate (slots - considered.length) .none

/-- How many followers hear the leader one way or the other. -/
def reachable (tiers : List Tier) : Nat :=
  tiers.countP (· != .none)

@[simp] theorem length_tiers (leader : Position) (range : Float32) (trusted slots : Nat)
    (followers : List Position) :
    (tiers leader range trusted slots followers).length = slots := by
  simp only [tiers, List.length_append, List.length_map, List.length_zipIdx, List.length_take,
    List.length_replicate]
  omega

end Reach

namespace Relay

/-- Two independent standard normal numbers from two uniform ones. The first is
turned around so that its logarithm is finite. -/
def normalPair (g : Generator) : (Float32 × Float32) × Generator :=
  let (a, g) := g.unit
  let (b, g) := g.unit
  let radius := (-2 * (1 - a).log).sqrt
  let angle := Float32.tau * b
  ((radius * angle.cos, radius * angle.sin), g)

/-- A level of coordination from one to five. -/
def level (coordination : UInt8) : Nat :=
  max 1 (min 5 coordination.toNat)

/-- The standard deviation of a relayed position. -/
def sigma (baseNoise : Float32) (coordination : UInt8) : Float32 :=
  baseNoise / Float32.ofNat (level coordination)

/-- A finite position, or none. -/
def finite? (p : Position) : Option Position :=
  if p.isFinite then some p else none

/-- A position as it arrives second-hand. An undefined one is not passed on and
draws nothing. -/
def blur (p : Position) (baseNoise : Float32) (coordination : UInt8) (g : Generator) :
    Option Position × Generator :=
  if p.isFinite then
    let (noise, g) := normalPair g
    let s := sigma baseNoise coordination
    (finite? (p.offset (noise.1 * s) (noise.2 * s)), g)
  else (none, g)

/-- What a follower of a tier learns of a position. -/
def share (t : Tier) (p : Position) (baseNoise : Float32) (coordination : UInt8) (g : Generator) :
    Option Position × Generator :=
  match t with
  | .direct => (finite? p, g)
  | .relayed => blur p baseNoise coordination g
  | .none => (none, g)

/-- Whatever a follower learns is finite. -/
theorem isFinite_of_share {t : Tier} {p q : Position} {noise : Float32} {c : UInt8}
    {g : Generator} (h : (share t p noise c g).1 = some q) : q.isFinite := by
  have finite : ∀ {p : Position}, finite? p = some q → q.isFinite := by
    intro p hp
    unfold finite? at hp
    split at hp <;> simp_all
  cases t with
  | none => simp [share] at h
  | direct => exact finite h
  | relayed =>
    simp only [share, blur] at h
    split at h
    · exact finite h
    · simp at h

end Relay

end Warband
