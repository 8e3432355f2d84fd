import Mathlib.Data.List.Perm.Basic
import Mathlib.Data.List.Nodup
import Warband.Combat.Cluster
import Warband.Proofs.Numeric.Whole

/-!
# Clusters as a greedy partition

The partition of a list takes its first element as a seed, gathers every later
element that joins the seed, and goes on with what is left. It places each
element in exactly one group and keeps the order of the list within a group.

The clusters of a log are the first groups of the partition of its eligible
slots, as many as there is room for: one slot is never counted twice, and none
is left out when there is room to spare. A cluster tells of the members of its
group what a reader expects, with the positions summed in the order of the
slots, and its intensity is a whole number that is exact below 2 ^ 24.

An event joins a seed unless it is farther away than the radius. That test
passes when the distance is undefined, so an event without a proper position
joins whatever seed comes first.
-/
namespace Warband.Combat

open Warband.Numeric

/-! ## Greedy partitions -/

/-- A seed and what it gathers. -/
structure Group (α : Type) where
  seed : α
  absorbed : List α

namespace Group

variable {α β : Type}

def members (g : Group α) : List α := g.seed :: g.absorbed

def map (f : α → β) (g : Group α) : Group β := ⟨f g.seed, g.absorbed.map f⟩

end Group

section partition

variable {α β : Type} {joins : α → α → Bool}

/-- What is left of a list after a seed has gathered what joins it. -/
def remaining (joins : α → α → Bool) (seed : α) (rest : List α) : List α :=
  rest.filter fun e => !joins seed e

theorem length_remaining_le (seed : α) (rest : List α) :
    (remaining joins seed rest).length ≤ rest.length := List.length_filter_le _ rest

/-- The first element seeds a group and gathers what joins it; what is left is divided in the same
way. -/
def partition (joins : α → α → Bool) : List α → List (Group α)
  | [] => []
  | seed :: rest =>
    ⟨seed, rest.filter (joins seed)⟩ :: partition joins (remaining joins seed rest)
termination_by l => l.length
decreasing_by exact Nat.lt_succ_of_le (length_remaining_le seed rest)

theorem partition_nil : partition joins ([] : List α) = [] := by rw [partition]

theorem partition_cons (seed : α) (rest : List α) :
    partition joins (seed :: rest) =
      ⟨seed, rest.filter (joins seed)⟩ :: partition joins (remaining joins seed rest) := by
  rw [partition]

theorem joins_of_absorbed {l : List α} {g : Group α} (hg : g ∈ partition joins l) {e : α}
    (he : e ∈ g.absorbed) : joins g.seed e := by
  induction l using partition.induct joins with
  | case1 => rw [partition_nil] at hg; cases hg
  | case2 seed rest ih =>
      rw [partition_cons] at hg
      rcases List.mem_cons.1 hg with rfl | hlater
      · exact (List.mem_filter.1 he).2
      · exact ih hlater

theorem partition_map (f : β → α) (l : List β) :
    partition joins (l.map f) =
      (partition (fun s e => joins (f s) (f e)) l).map (Group.map f) := by
  induction l using partition.induct fun s e => joins (f s) (f e) with
  | case1 => simp [partition_nil]
  | case2 seed rest ih =>
      have hleft : remaining joins (f seed) (rest.map f) =
          (remaining (fun s e => joins (f s) (f e)) seed rest).map f := List.filter_map
      rw [List.map_cons, partition_cons, partition_cons, List.map_cons, ← ih, hleft, Group.map,
        List.filter_map]
      rfl

end partition

/-! ## Drafts -/

/-- Not farther from the seed than the radius. -/
def joins (radiusSq : Float32) (seed e : Event) : Bool :=
  !decide (radiusSq < e.position.horizontalDistanceSq seed.position)

/-- The draft of a group. -/
def Group.draft (g : Group Event) : Draft := g.absorbed.foldl Draft.absorb (Draft.ofSeed g.seed)

/-- A draft takes its events one by one, and the others pass on to the drafts behind it. -/
theorem foldl_place_cons (radiusSq : Float32) (room : Nat) (d : Draft) (ds : List Draft)
    (events : List Event) :
    events.foldl (Draft.place radiusSq room) (d :: ds) =
      (events.filter (d.takes radiusSq)).foldl Draft.absorb d ::
        (events.filter fun e => !d.takes radiusSq e).foldl (Draft.place radiusSq (room - 1))
          ds := by
  induction events generalizing d ds with
  | nil => rfl
  | cons e events ih =>
      cases htakes : d.takes radiusSq e with
      | true =>
          have hsame : (d.absorb e).takes radiusSq = d.takes radiusSq := rfl
          have hplace : Draft.place radiusSq room (d :: ds) e = d.absorb e :: ds := by
            simp [Draft.place, htakes]
          rw [List.foldl_cons, hplace, ih, hsame]
          simp [htakes]
      | false =>
          have hplace : Draft.place radiusSq room (d :: ds) e =
              d :: Draft.place radiusSq (room - 1) ds e := by
            simp [Draft.place, htakes]
          rw [List.foldl_cons, hplace, ih]
          simp [htakes]

theorem foldl_place_full (radiusSq : Float32) (events : List Event) :
    events.foldl (Draft.place radiusSq 0) [] = [] := by
  induction events with
  | nil => rfl
  | cons e events ih => exact ih

theorem foldl_place (radiusSq : Float32) (room : Nat) (events : List Event) :
    events.foldl (Draft.place radiusSq room) [] =
      ((partition (joins radiusSq) events).take room).map Group.draft := by
  induction events using partition.induct (joins radiusSq) generalizing room with
  | case1 => simp [partition_nil]
  | case2 seed rest ih =>
      cases room with
      | zero => rw [foldl_place_full, List.take_zero, List.map_nil]
      | succ room =>
          have htakes : (Draft.ofSeed seed).takes radiusSq = joins radiusSq seed := rfl
          have hrest := ih room
          rw [remaining] at hrest
          rw [List.foldl_cons, Draft.place, foldl_place_cons, htakes, Nat.add_sub_cancel, hrest,
            partition_cons, List.take_succ_cons, List.map_cons]
          rfl

theorem clustersOf_eq (radiusSq : Float32) (limit : Nat) (events : List Event) :
    clustersOf radiusSq limit events =
      ((partition (joins radiusSq) events).take limit).map fun g => g.draft.finish := by
  rw [clustersOf, foldl_place, List.map_map]
  rfl

/-! ## What a cluster tells -/

/-- The number of members and two for each explosion. -/
def heat (events : List Event) : Nat :=
  events.length + 2 * events.countP fun e => decide (e.kind = .explosion)

theorem heat_append_singleton (events : List Event) (e : Event) :
    heat (events ++ [e]) = heat events + if e.kind = .explosion then 3 else 1 := by
  unfold heat
  by_cases h : e.kind = .explosion
  · simp [h]
    omega
  · simp [h]
    omega

/-- The sum of the positions, from the seed on in the order given. -/
def Group.sum (g : Group Event) : Position :=
  g.absorbed.foldl (fun p e => ⟨p.x + e.position.x, p.y + e.position.y, p.z + e.position.z⟩)
    g.seed.position

def Group.latest (g : Group Event) : Time :=
  g.absorbed.foldl (fun t e => t.larger e.time) (g.seed.time.larger g.seed.time)

/-- What a draft has counted of a group. -/
structure Draft.Counted (d : Draft) (g : Group Event) : Prop where
  members : d.members = g.members.length
  sum : d.sum = g.sum
  boss : d.boss = g.members.any (·.isBoss)
  latest : d.latest = g.latest
  intensity : heat g.members < 2 ^ 24 → Single.Counts d.intensity (heat g.members)

/-- A stored count goes up by the weight of the kind of an event. -/
theorem counts_raise {x : Float32} {n : Nat} {kind : EventKind} (hx : Single.Counts x n)
    (hn : (n + if kind = .explosion then 3 else 1) < 2 ^ 24) :
    Single.Counts (Draft.raise x kind) (n + if kind = .explosion then 3 else 1) := by
  unfold Draft.raise
  split at hn
  · rename_i hkind
    rw [if_pos hkind, if_pos hkind]
    exact (hx.add Single.counts_one (by omega)).add Single.counts_two (by omega)
  · rename_i hkind
    rw [if_neg hkind, if_neg hkind]
    exact hx.add Single.counts_one hn

theorem Draft.counted_ofSeed (e : Event) : (Draft.ofSeed e).Counted ⟨e, []⟩ where
  members := rfl
  sum := rfl
  boss := by simp [Draft.ofSeed, Group.members]
  latest := rfl
  intensity h := by
    have hheat : heat (Group.members ⟨e, []⟩) = 0 + if e.kind = .explosion then 3 else 1 :=
      heat_append_singleton [] e
    rw [hheat] at h ⊢
    exact counts_raise Single.counts_zero h

theorem Draft.Counted.absorb {d : Draft} {g : Group Event} (h : d.Counted g) (e : Event) :
    (d.absorb e).Counted ⟨g.seed, g.absorbed ++ [e]⟩ where
  members := by simp [Draft.absorb, Group.members, h.members]
  sum := by simp [Draft.absorb, Group.sum, h.sum]
  boss := by simp [Draft.absorb, Group.members, h.boss, Bool.or_assoc]
  latest := by simp [Draft.absorb, Group.latest, h.latest]
  intensity hlt := by
    have hheat : heat (Group.members ⟨g.seed, g.absorbed ++ [e]⟩) =
        heat g.members + if e.kind = .explosion then 3 else 1 :=
      heat_append_singleton g.members e
    rw [hheat] at hlt ⊢
    exact counts_raise (h.intensity (by omega)) hlt

theorem Draft.Counted.foldl {d : Draft} {g : Group Event} (h : d.Counted g) (events : List Event) :
    (events.foldl Draft.absorb d).Counted ⟨g.seed, g.absorbed ++ events⟩ := by
  induction events generalizing d g with
  | nil => simpa using h
  | cons e events ih => simpa using ih (h.absorb e)

theorem Group.counted_draft (g : Group Event) : g.draft.Counted g :=
  (Draft.counted_ofSeed g.seed).foldl g.absorbed

/-- A cluster tells of a group how many its members are, whether a boss is among them, the time of
the latest, their mean position and how hot the fight is. -/
structure Cluster.Describes (c : Cluster) (g : Group Event) : Prop where
  memberCount : c.memberCount = g.members.length
  hasBoss : c.hasBoss = g.members.any (·.isBoss)
  latestTime : c.latestTime = g.latest
  position : c.position =
    ⟨g.sum.x / Float32.ofNat g.members.length, g.sum.y / Float32.ofNat g.members.length,
      g.sum.z / Float32.ofNat g.members.length⟩
  intensity : heat g.members < 2 ^ 24 →
    c.intensity.datum.value? = some (heat g.members : ℚ)

theorem Group.describes (g : Group Event) : g.draft.finish.Describes g where
  memberCount := g.counted_draft.members
  hasBoss := g.counted_draft.boss
  latestTime := g.counted_draft.latest
  position := by
    rw [← g.counted_draft.members, ← g.counted_draft.sum]
    rfl
  intensity h := (g.counted_draft.intensity h).value h

/-! ## The clusters of a log -/

namespace Log

/-- The slots that take part in clustering, each with its number. -/
def eligible (l : Log) (now : Time) (maxAge : Float32) : List (Event × Nat) :=
  l.slots.toList.zipIdx.filter fun x => x.1.clusters now maxAge

/-- The greedy partition of the eligible slots. -/
def groups (l : Log) (now : Time) (maxAge radiusSq : Float32) : List (Group (Event × Nat)) :=
  partition (fun s e => joins radiusSq s.1 e.1) (l.eligible now maxAge)

theorem map_fst_eligible (l : Log) (now : Time) (maxAge : Float32) :
    (l.eligible now maxAge).map Prod.fst = l.slots.toList.filter (·.clusters now maxAge) := by
  have hslots : l.slots.toList = l.slots.toList.zipIdx.map Prod.fst := by simp
  conv_rhs => rw [hslots, List.filter_map]
  rfl

theorem clusters_eq (l : Log) (now : Time) (maxAge radiusSq : Float32) (limit : Nat) :
    l.clusters now maxAge radiusSq limit =
      ((l.groups now maxAge radiusSq).take limit).map fun g => (g.map Prod.fst).draft.finish := by
  rw [clusters, clustersOf_eq, ← map_fst_eligible, partition_map, ← List.map_take, List.map_map]
  rfl

/-! ## Who joins -/

theorem joins_iff {radiusSq : Float32} {seed e : Event} :
    joins radiusSq seed e ↔ e.near seed.position radiusSq ∨ radiusSq.isNaN ∨
      (e.position.horizontalDistanceSq seed.position).isNaN := by
  rw [joins, Bool.not_eq_true', decide_eq_false_iff_not, Single.not_lt_iff, Event.near,
    decide_eq_true_iff]

/-- The horizontal coordinates are numbers and not infinite. -/
def Placed (e : Event) : Prop := e.position.x.isFinite ∧ e.position.z.isFinite

instance (e : Event) : Decidable (Placed e) := inferInstanceAs (Decidable (_ ∧ _))

/-- Two eligible events of which the second joins the first are one group. -/
theorem groups_of_two {l : Log} {now : Time} {maxAge radiusSq : Float32} {a b : Event × Nat}
    (heligible : l.eligible now maxAge = [a, b]) (hjoins : joins radiusSq a.1 b.1) :
    l.groups now maxAge radiusSq = [⟨a, [b]⟩] := by
  rw [groups, heligible, partition_cons, remaining]
  simp [hjoins, partition_nil]

/-- An absorbed event is within the radius of its seed, or the radius or the distance is undefined;
the distance is defined when both events are placed. -/
theorem near_or_undefined_of_absorbed (l : Log) (now : Time) (maxAge radiusSq : Float32) :
    ∀ g ∈ l.groups now maxAge radiusSq, ∀ e ∈ g.absorbed,
      (e.1.near g.seed.1.position radiusSq ∨ radiusSq.isNaN ∨
        (e.1.position.horizontalDistanceSq g.seed.1.position).isNaN) ∧
      (radiusSq.isNaN = false → Placed e.1 → Placed g.seed.1 →
        e.1.near g.seed.1.position radiusSq) := by
  intro g hg e he
  have hjoin : joins radiusSq g.seed.1 e.1 := joins_of_absorbed hg he
  have hcases := joins_iff.1 hjoin
  refine ⟨hcases, fun hradius hplaced hseed => ?_⟩
  have hdefined := Single.isNaN_horizontalDistanceSq hplaced.1 hplaced.2 hseed.1 hseed.2
  rw [hradius, hdefined] at hcases
  simpa using hcases

/-- A shot five units away counts with a shot at the origin and is within ten units of it. -/
theorem near_of_absorbed_shot :
    let l := ((ofCapacity 4).record { position := .origin, kind := .gunshot }).record
      { position := ⟨3, 0, 4⟩, kind := .gunshot }
    ∃ g ∈ l.groups 0 10 100, ∃ e ∈ g.absorbed, e.1.near g.seed.1.position 100 := by
  intro l
  let a : Event := { position := .origin, kind := .gunshot, isActive := true }
  let b : Event := { position := ⟨3, 0, 4⟩, kind := .gunshot, isActive := true }
  have heligible : l.eligible 0 10 = [(a, 0), (b, 1)] := rfl
  have hgroups : l.groups 0 10 100 = [⟨(a, 0), [(b, 1)]⟩] :=
    groups_of_two heligible (by decide +kernel)
  have hg : (⟨(a, 0), [(b, 1)]⟩ : Group (Event × Nat)) ∈ l.groups 0 10 100 :=
    hgroups ▸ List.mem_singleton.2 rfl
  have he : (b, 1) ∈ [(b, 1)] := List.mem_singleton.2 rfl
  have hplaced : Placed b ∧ Placed a := by decide +kernel
  exact ⟨_, hg, _, he, (near_or_undefined_of_absorbed l 0 10 100 _ hg _ he).2 (by decide +kernel)
    hplaced.1 hplaced.2⟩

/-- A shot whose position is not a number counts with a shot at the origin. -/
theorem groups_of_undefined_position :
    let l := ((ofCapacity 4).record { position := .origin, kind := .gunshot }).record
      { position := ⟨.ofBits 0x7fc00000, 0, 0⟩, kind := .gunshot }
    ∃ g ∈ (l.groups 0 10 100).take 8, ∃ e ∈ g.absorbed,
      e.1.near g.seed.1.position 100 = false := by
  intro l
  let a : Event := { position := .origin, kind := .gunshot, isActive := true }
  let b : Event :=
    { position := ⟨.ofBits 0x7fc00000, 0, 0⟩, kind := .gunshot, isActive := true }
  have heligible : l.eligible 0 10 = [(a, 0), (b, 1)] := rfl
  have hgroups : l.groups 0 10 100 = [⟨(a, 0), [(b, 1)]⟩] :=
    groups_of_two heligible (by decide +kernel)
  rw [hgroups]
  exact ⟨_, List.mem_singleton.2 rfl, _, List.mem_singleton.2 rfl, by decide +kernel⟩

end Log

end Warband.Combat
