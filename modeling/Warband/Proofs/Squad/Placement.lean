import Mathlib.Algebra.Group.Nat.Even
import Mathlib.Data.List.Count
import Warband.Proofs.Cells
import Warband.Squad.Layout

/-!
# The place of a slot

A layout goes over the roles once and counts the guards, the flankers and the escorts
that it has placed. The counters are the ranks of the next slots among those with the
same role, so the coordinates of a slot can be told without them, and slots with other
roles have no part in it. Guards have as many angles as there are guards, one for each
rank. Flankers and escorts go to one side on even ranks and to the other one on odd
ranks. Nobody else has a place that depends on a rank.

The points are written over the first of some slots, as many as there are roles or slots.
Under fire escorts become flankers before anything is counted.
-/
namespace Warband

/-- The points of the slots with a role, in order. -/
def placesOf (role : Role) (roles : List Role) (points : List Position) : List Position :=
  ((roles.zip points).filter (·.1 = role)).map (·.2)

namespace Ground

/-! ## One slot -/

/-- The sign of a rank, by turns plus and minus. -/
def sign (rank : Nat) : Float32 := if Even rank then 1 else -1

/-- The bearing of guard number `rank` out of `total`: in the middle of its share of the
half turn that faces the threat, or at the start of its share of a full turn. -/
def bearing (g : Ground) (rank total : Nat) : Float32 :=
  match g.threat with
  | some threat =>
    threat - Float32.halfTurn / 2 + Float32.halfTurn * (.ofNat rank + 0.5) / .ofNat total
  | none => Float32.atan2 g.axis.z g.axis.x + Float32.tau * .ofNat rank / .ofNat total

/-- The coordinates of slot number `rank` among `total` slots with a role. Forward is the
direction of the axis and sideways is a quarter turn from it. -/
def spot (g : Ground) (rank total : Nat) : Role → Position
  | .guard =>
    let radius := g.settings.guardRadius
    ⟨g.objective.x + (g.bearing rank total).cos * radius, g.objective.y,
      g.objective.z + (g.bearing rank total).sin * radius⟩
  | .flanker =>
    let sideways := g.settings.flankDistance
    ⟨g.objective.x + -g.axis.z * sideways * sign rank, g.objective.y,
      g.objective.z + g.axis.x * sideways * sign rank⟩
  | .escort =>
    let forward := g.settings.escortDistance
    let sideways := g.settings.escortLateralOffset * sign rank
    ⟨g.leader.x + (-g.axis.x * forward + -g.axis.z * sideways), g.leader.y,
      g.leader.z + (-g.axis.z * forward + g.axis.x * sideways)⟩
  | .overwatch =>
    let forward := g.settings.overwatchDistance
    ⟨g.objective.x + -g.axis.x * forward, g.objective.y, g.objective.z + -g.axis.z * forward⟩
  | .leader | .none => g.objective

theorem side_eq_sign (rank : Nat) : side rank = sign rank := by
  rw [side, sign]
  exact if_congr Nat.even_iff.symm rfl rfl

/-- Where there are guards, their number is the number of shares. -/
theorem guardAngle_eq_bearing (g : Ground) (rank : Nat) {total : Nat} (h : 0 < total) :
    g.guardAngle rank total = g.bearing rank total := by
  have hshares : max total 1 = total := Nat.max_eq_left h
  rw [guardAngle, bearing, hshares]
  cases g.threat <;> rfl

theorem guardPoint_eq_spot (g : Ground) (rank : Nat) {total : Nat} (h : 0 < total) :
    g.guardPoint rank total = g.spot rank total .guard := by
  rw [guardPoint, g.guardAngle_eq_bearing rank h, Position.offset, Heading.ofAngle, spot]

theorem flankPoint_eq_spot (g : Ground) (rank total : Nat) :
    g.flankPoint rank = g.spot rank total .flanker := by
  rw [flankPoint, side_eq_sign, Position.offset, Heading.left, spot]

theorem escortPoint_eq_spot (g : Ground) (rank total : Nat) :
    g.escortPoint rank = g.spot rank total .escort := by
  rw [escortPoint, side_eq_sign, Position.offset, Heading.left, spot]

/-- The number of guards matters to guards only. -/
theorem spot_congr (g : Ground) (rank : Nat) {total total' : Nat} {role : Role}
    (h : role = .guard → total = total') : g.spot rank total role = g.spot rank total' role := by
  cases role with
  | guard => rw [h rfl]
  | none | leader | flanker | overwatch | escort => rfl

/-! ## The counters -/

namespace Placed

/-- The counters are those of some roles that have been placed. -/
structure Counts (placed : Placed) (past : List Role) : Prop where
  guards : placed.guards = past.count .guard
  flankers : placed.flankers = past.count .flanker
  escorts : placed.escorts = past.count .escort

theorem counts_nil : Counts {} [] := ⟨rfl, rfl, rfl⟩

theorem Counts.count {placed : Placed} {past : List Role} (h : placed.Counts past) (role : Role) :
    (placed.count role).Counts (past ++ [role]) := by
  obtain ⟨hguards, hflankers, hescorts⟩ := h
  constructor <;> cases role <;> simp [Placed.count, List.count_append, *]

end Placed

variable (g : Ground) {guards : Nat} {placed : Placed} {past roles : List Role} {role : Role}

/-- Whoever is placed next has the rank of its counter; a guard is one of some guards. -/
theorem point_eq_spot (h : placed.Counts past) (hguards : role = .guard → 0 < guards) :
    g.point guards placed role = g.spot (past.count role) guards role := by
  cases role with
  | guard => rw [point, h.guards, g.guardPoint_eq_spot _ (hguards rfl)]
  | flanker => rw [point, h.flankers, g.flankPoint_eq_spot _ guards]
  | escort => rw [point, h.escorts, g.escortPoint_eq_spot _ guards]
  | none | leader | overwatch => rfl

/-- The rank of a slot is the number of earlier slots with its role. -/
theorem place_slot (h : placed.Counts past) (hguards : role = .guard → 0 < guards) {i : Nat}
    (hi : roles[i]? = some role) :
    (g.place guards placed roles)[i]? =
      some (g.spot ((past ++ roles.take i).count role) guards role) := by
  -- the counters and what has been placed change together
  induction roles generalizing placed past i with
  | nil => cases hi
  | cons head rest ih =>
      cases i with
      | zero =>
          obtain rfl : head = role := Option.some.inj hi
          rw [place, List.getElem?_cons_zero, g.point_eq_spot h hguards, List.take_zero,
            List.append_nil]
      | succ i =>
          have hnext := ih (h.count head) hi
          rwa [List.append_assoc] at hnext

/-- The slots with a role have the ranks from the next one on. -/
theorem placesOf_place (h : placed.Counts past)
    (hguards : role ∈ roles → role = .guard → 0 < guards) :
    placesOf role roles (g.place guards placed roles) =
      (List.range' (past.count role) (roles.count role)).map (g.spot · guards role) := by
  induction roles generalizing placed past with
  | nil => rfl
  | cons head rest ih =>
      have hrest := ih (h.count head) fun hmem => hguards (List.mem_cons_of_mem _ hmem)
      rw [placesOf] at hrest ⊢
      rw [place, List.zip_cons_cons]
      by_cases hhead : head = role
      · subst hhead
        rw [List.filter_cons_of_pos (by simp), List.map_cons, hrest,
          g.point_eq_spot h (hguards List.mem_cons_self), List.count_cons_self,
          List.range'_succ, List.map_cons, List.count_append, List.count_singleton_self]
      · rw [List.filter_cons_of_neg (by simpa using hhead), hrest, List.count_cons_of_ne hhead,
          List.count_append, List.count_singleton, if_neg (by simpa using hhead), Nat.add_zero]

/-! ## A whole layout -/

theorem guards_pos (hmem : role ∈ roles) (hrole : role = .guard) : 0 < roles.count .guard :=
  List.count_pos_iff.2 (hrole ▸ hmem)

theorem layout_slot {i : Nat} (hi : roles[i]? = some role) :
    (g.layout roles)[i]? = some (g.spot ((roles.take i).count role) (roles.count role) role) := by
  have hspot : g.spot ((roles.take i).count role) (roles.count .guard) role =
      g.spot ((roles.take i).count role) (roles.count role) role :=
    g.spot_congr _ fun hguard => by rw [hguard]
  rw [layout, g.place_slot Placed.counts_nil (guards_pos (List.mem_of_getElem? hi)) hi,
    List.nil_append, hspot]

theorem placesOf_layout (roles : List Role) (role : Role) :
    placesOf role roles (g.layout roles) =
      (List.range (roles.count role)).map (g.spot · (roles.count role) role) := by
  have hspot : ∀ k, g.spot k (roles.count .guard) role = g.spot k (roles.count role) role :=
    fun k => g.spot_congr k fun hguard => by rw [hguard]
  rw [layout, g.placesOf_place Placed.counts_nil guards_pos, List.count_nil,
    ← List.range_eq_range']
  exact List.map_congr_left fun k _ => hspot k

/-- The first slots after a layout has been written over them. -/
def cover (roles : List Role) (slots : Array Position) : Array Position :=
  (g.layout roles ++ slots.toList.drop roles.length).toArray

variable {slots : Array Position}

theorem overwrite_layout (h : roles.length ≤ slots.size) :
    Cells.overwrite slots (g.layout roles) = .ok (g.cover roles slots) := by
  rw [Cells.overwrite, length_layout, if_pos h, cover]

theorem cover_slot {i : Nat} (hi : roles[i]? = some role) :
    (g.cover roles slots)[i]? =
      some (g.spot ((roles.take i).count role) (roles.count role) role) := by
  have hlt : i < (g.layout roles).length := by
    rw [length_layout]
    exact (List.getElem?_eq_some_iff.1 hi).1
  rw [cover, List.getElem?_toArray, List.getElem?_append_left hlt, g.layout_slot hi]

theorem cover_rest {i : Nat} (hi : roles.length ≤ i) :
    (g.cover roles slots)[i]? = slots[i]? := by
  have hle : (g.layout roles).length ≤ i := by rwa [length_layout]
  rw [cover, List.getElem?_toArray, List.getElem?_append_right hle, length_layout,
    List.getElem?_drop, Nat.add_sub_cancel' hi, Array.getElem?_toList]

theorem placesOf_cover (role : Role) :
    placesOf role roles (g.cover roles slots).toList =
      (List.range (roles.count role)).map (g.spot · (roles.count role) role) := by
  have hzip : roles.zip (g.layout roles ++ slots.toList.drop roles.length) =
      roles.zip (g.layout roles) := by
    rw [List.zip_eq_zip_take_min, List.length_append, length_layout,
      Nat.min_eq_left (Nat.le_add_right _ _), List.take_length]
    exact congrArg (List.zip roles) (List.take_left' (g.length_layout roles))
  rw [← g.placesOf_layout roles role, placesOf, placesOf, cover, hzip]

/-- Slots that have become the places of some roles, one by one. -/
structure Fills (roles : List Role) (slots out : Array Position) : Prop where
  size : out.size = slots.size
  slot : ∀ i role, roles[i]? = some role →
    out[i]? = some (g.spot ((roles.take i).count role) (roles.count role) role)
  rest : ∀ i, roles.length ≤ i → out[i]? = slots[i]?
  places : ∀ role, placesOf role roles out.toList =
    (List.range (roles.count role)).map (g.spot · (roles.count role) role)

theorem fills_cover (h : roles.length ≤ slots.size) :
    g.Fills roles slots (g.cover roles slots) where
  size := by
    simp only [cover, List.size_toArray, List.length_append, length_layout, List.length_drop,
      Array.length_toList]
    omega
  slot _ _ := g.cover_slot
  rest _ := g.cover_rest
  places := g.placesOf_cover

/-- Slots with other roles do not matter. -/
theorem Fills.placesOf_eq {g : Ground} {others : List Role} {slots' out out' : Array Position}
    (h : g.Fills roles slots out) (h' : g.Fills others slots' out')
    (hcount : others.count role = roles.count role) :
    placesOf role others out'.toList = placesOf role roles out.toList := by
  rw [h.places, h'.places, hcount]

end Ground

/-! ## Both layouts -/

namespace Layout

open Cells

/-- Writes the points of the first roles, as many as there are slots. -/
def travelInto (objective leader : Position) (threat : Option Position) (s : SquadSettings)
    (roles : List Role) (slots : Array Position) : Checked (Array Position) :=
  overwrite slots (travel objective leader threat s (roles.take slots.size))

/-- Rewrites all the roles, then writes the points under fire of the first ones. -/
def combatInto (objective leader threat : Position) (s : SquadSettings) (roles : List Role)
    (slots : Array Position) : Checked (List Role × Array Position) := do
  let roles := roles.map combatRole
  let slots ← overwrite slots (combat objective leader threat s (roles.take slots.size))
  .ok (roles, slots)

/-- How many slots count as slots with a role under fire. -/
def combatCount (role : Role) (roles : List Role) : Nat :=
  match role with
  | .flanker | .escort => roles.count .flanker + roles.count .escort
  | role => roles.count role

theorem count_map_combatRole (role : Role) (roles : List Role) :
    (roles.map combatRole).count (combatRole role) = combatCount role roles := by
  induction roles with
  | nil => cases role <;> rfl
  | cons head rest ih =>
      rw [List.map_cons, List.count_cons, ih]
      cases role <;> cases head <;> simp [combatCount, combatRole] <;> omega

section axis

variable {objective leader : Position} {s : SquadSettings} {axis : Heading} {roles : List Role}
  {slots : Array Position}

theorem travelInto_ok (haxis : Heading.between? leader objective = some axis)
    (threat : Option Position) (s : SquadSettings) (roles : List Role) (slots : Array Position) :
    let bearing := (threat.bind (Heading.between? objective)).map Heading.angle
    let g : Ground := ⟨objective, leader, axis, bearing, s⟩
    travelInto objective leader threat s roles slots =
      .ok (g.cover (roles.take slots.size) slots) := by
  intro bearing g
  have htravel : travel objective leader threat s (roles.take slots.size) =
      g.layout (roles.take slots.size) := by
    rw [travel, haxis]
  rw [travelInto, htravel, g.overwrite_layout (List.length_take_le _ _)]

theorem fills_of_travelInto {threat : Option Position} {out : Array Position}
    (haxis : Heading.between? leader objective = some axis)
    (h : travelInto objective leader threat s roles slots = .ok out) :
    let bearing := (threat.bind (Heading.between? objective)).map Heading.angle
    let g : Ground := ⟨objective, leader, axis, bearing, s⟩
    g.Fills (roles.take slots.size) slots out := by
  intro bearing g
  rw [travelInto_ok haxis] at h
  obtain rfl := Except.ok.inj h
  exact g.fills_cover (List.length_take_le _ _)

variable {threat : Position}

theorem combatInto_ok (haxis : Heading.between? objective threat = some axis)
    (leader : Position) (s : SquadSettings) (roles : List Role) (slots : Array Position) :
    let g : Ground := ⟨objective, leader, axis, some axis.angle, s⟩
    combatInto objective leader threat s roles slots =
      .ok (roles.map combatRole, g.cover ((roles.take slots.size).map combatRole) slots) := by
  intro g
  have hcombat : combat objective leader threat s ((roles.map combatRole).take slots.size) =
      g.layout ((roles.take slots.size).map combatRole) := by
    rw [combat, haxis, List.map_take]
  have hroom : ((roles.take slots.size).map combatRole).length ≤ slots.size := by
    rw [List.length_map]
    exact List.length_take_le _ _
  simp only [combatInto, hcombat, g.overwrite_layout hroom, bind, Except.bind]

theorem fills_of_combatInto {rewritten : List Role} {out : Array Position}
    (haxis : Heading.between? objective threat = some axis)
    (h : combatInto objective leader threat s roles slots = .ok (rewritten, out)) :
    let g : Ground := ⟨objective, leader, axis, some axis.angle, s⟩
    rewritten = roles.map combatRole ∧
      g.Fills ((roles.take slots.size).map combatRole) slots out := by
  intro g
  rw [combatInto_ok haxis] at h
  obtain ⟨rfl, rfl⟩ := Prod.mk.inj (Except.ok.inj h)
  refine ⟨rfl, g.fills_cover ?_⟩
  rw [List.length_map]
  exact List.length_take_le _ _

end axis

/-- Under fire a slot is told by its own role and those that count with it. -/
theorem slot_of_fills {g : Ground} {roles : List Role} {slots out : Array Position}
    (h : g.Fills (roles.map combatRole) slots out) {i : Nat} {role : Role}
    (hi : roles[i]? = some role) :
    out[i]? = some (g.spot (combatCount role (roles.take i)) (combatCount role roles)
      (combatRole role)) := by
  have hslot := h.slot i (combatRole role) (by rw [List.getElem?_map, hi, Option.map_some])
  rwa [← List.map_take, count_map_combatRole, count_map_combatRole] at hslot

/-- Every slot that is written has its closed form: the point of its role, its rank among
the slots with the same role and, for a guard, the number of guards. The other slots are
left alone. So the slots with a role have the same points whatever slots there are with
other roles. Under fire the escorts are flankers, and their ranks go on where those of the
flankers before them end. -/
theorem slots_have_closed_form (objective leader : Position) (s : SquadSettings)
    (roles : List Role) (slots : Array Position) :
    let front := roles.take slots.size
    (∀ (threat : Option Position) (axis : Heading),
      Heading.between? leader objective = some axis →
      let bearing := (threat.bind (Heading.between? objective)).map Heading.angle
      let g : Ground := ⟨objective, leader, axis, bearing, s⟩
      ∃ out, travelInto objective leader threat s roles slots = .ok out ∧
        g.Fills front slots out ∧
        ∀ role others slots' out',
          travelInto objective leader threat s others slots' = .ok out' →
          (others.take slots'.size).count role = front.count role →
          placesOf role (others.take slots'.size) out'.toList =
            placesOf role front out.toList) ∧
    ∀ (threat : Position) (axis : Heading), Heading.between? objective threat = some axis →
      let g : Ground := ⟨objective, leader, axis, some axis.angle, s⟩
      ∃ out, combatInto objective leader threat s roles slots = .ok (roles.map combatRole, out) ∧
        g.Fills (front.map combatRole) slots out ∧
        (∀ i role, front[i]? = some role →
          out[i]? = some (g.spot (combatCount role (front.take i)) (combatCount role front)
            (combatRole role))) ∧
        ∀ role others slots' rewritten out',
          combatInto objective leader threat s others slots' = .ok (rewritten, out') →
          combatCount role (others.take slots'.size) = combatCount role front →
          placesOf (combatRole role) (rewritten.take slots'.size) out'.toList =
            placesOf (combatRole role) (front.map combatRole) out.toList := by
  intro front
  constructor
  · intro threat axis haxis bearing g
    have hout := travelInto_ok haxis threat s roles slots
    have hfills := fills_of_travelInto haxis hout
    exact ⟨_, hout, hfills, fun role others slots' out' hother hcount =>
      hfills.placesOf_eq (fills_of_travelInto haxis hother) hcount⟩
  · intro threat axis haxis g
    have hout := combatInto_ok haxis leader s roles slots
    have hfills := (fills_of_combatInto haxis hout).2
    refine ⟨_, hout, hfills, fun i role => slot_of_fills hfills, ?_⟩
    intro role others slots' rewritten out' hother hcount
    obtain ⟨rfl, hfills'⟩ := fills_of_combatInto haxis hother
    rw [← List.map_take]
    refine hfills.placesOf_eq hfills' ?_
    rwa [count_map_combatRole, count_map_combatRole]

/-- On the way two escorts take different sides behind the leader. Under fire an escort
takes one side and the flanker after it the other one. The last slot belongs to nobody. -/
theorem sides_of_escort_and_flanker :
    let slots : Array Position := #[.origin, .origin, .origin, ⟨7, 0, 7⟩]
    let ground (p : Position) : Float32 × Float32 := (p.x, p.z)
    (∃ axis, Heading.between? ⟨0, 0, -40⟩ .origin = some axis ∧
      ∃ out, travelInto .origin ⟨0, 0, -40⟩ none {} [.escort, .guard, .escort] slots = .ok out ∧
        out[0]?.map ground = some (-2, -45) ∧ out[2]?.map ground = some (2, -45) ∧
        out[3]?.map ground = some (7, 7)) ∧
    ∃ axis, Heading.between? .origin ⟨100, 0, 0⟩ = some axis ∧
      ∃ out, combatInto .origin ⟨0, 0, -40⟩ ⟨100, 0, 0⟩ {} [.escort, .guard, .flanker] slots =
          .ok ([.flanker, .guard, .flanker], out) ∧
        out[0]?.map ground = some (0, 15) ∧ out[2]?.map ground = some (0, -15) ∧
        out[3]?.map ground = some (7, 7) := by
  intro slots ground
  have htravel : (Heading.between? ⟨0, 0, -40⟩ .origin).map (fun h => (h.x, h.z)) =
      some (0, 1) := by decide +kernel
  have hcombat : (Heading.between? .origin ⟨100, 0, 0⟩).map (fun h => (h.x, h.z)) =
      some (1, 0) := by decide +kernel
  constructor
  · obtain ⟨⟨x, z⟩, haxis, hxz⟩ := Option.map_eq_some_iff.1 htravel
    obtain ⟨rfl, rfl⟩ := Prod.mk.inj hxz
    obtain ⟨out, hout, hfills, -⟩ := (slots_have_closed_form .origin ⟨0, 0, -40⟩ {}
      [.escort, .guard, .escort] slots).1 none _ haxis
    refine ⟨_, haxis, out, hout, ?_, ?_, ?_⟩
    · rw [hfills.slot 0 .escort rfl]
      decide +kernel
    · rw [hfills.slot 2 .escort rfl]
      decide +kernel
    · rw [hfills.rest 3 (Nat.le_refl 3)]
      rfl
  · obtain ⟨⟨x, z⟩, haxis, hxz⟩ := Option.map_eq_some_iff.1 hcombat
    obtain ⟨rfl, rfl⟩ := Prod.mk.inj hxz
    obtain ⟨out, hout, hfills, hslot, -⟩ := (slots_have_closed_form .origin ⟨0, 0, -40⟩ {}
      [.escort, .guard, .flanker] slots).2 ⟨100, 0, 0⟩ _ haxis
    refine ⟨_, haxis, out, hout, ?_, ?_, ?_⟩
    · rw [hslot 0 .escort rfl]
      decide +kernel
    · rw [hslot 2 .flanker rfl]
      decide +kernel
    · rw [hfills.rest 3 (Nat.le_refl 3)]
      rfl

end Layout

end Warband
