import Warband.Assignment.Patrol
import Warband.Proofs.Numeric.Choice
import Warband.Squad.Basic

/-!
# Selected routes and strategies

A bot takes the foremost of the routes that accept it, and a squad the foremost
of its scored strategies that have a handle. Nothing is selected only if there is
nothing to select from, and no other score is ever strictly greater.

Neither scan leaves out undefined scores, and NaN is a possible score: a route
for every aggression without an upper bound has no middle, so nobody's
aggression fits it by any definite amount. At the front of the row such a score
is selected whatever the others are.
-/
namespace Warband

open Numeric

/-! ## Routes -/

namespace Route

/-- The scores of the routes that accept a bot. -/
def Accepting (routes : List Route) (c : Chooser) (s : PatrolSettings) : Row := fun i x =>
  ∃ r, routes[i]? = some r ∧ r.score? i c s = some x

variable {routes : List Route} {r : Route} {c : Chooser} {s : PatrolSettings} {i : Nat}

theorem isSome_score? (r : Route) (i : Nat) (c : Chooser) (s : PatrolSettings) :
    (r.score? i c s).isSome = r.accepts c.aggression c.raidTime := by
  unfold score?
  split
  · rename_i h
    rw [h]
    rfl
  · rename_i h
    rw [Bool.eq_false_of_not_eq_true h]
    rfl

theorem rowOf_accepting (routes : List Route) (c : Chooser) (s : PatrolSettings) :
    rowOf (fun e : Route × Nat => (e.1.score? e.2 c s).map (·, e.2)) (·.1) routes.zipIdx =
      Accepting routes c s := by
  funext i x
  refine propext ⟨?_, ?_⟩
  · rintro ⟨e, b, he, hb, rfl⟩
    obtain ⟨hr, rfl⟩ := getElem?_zipIdx_eq_some.1 he
    obtain ⟨x, hx, rfl⟩ := Option.map_eq_some_iff.1 hb
    exact ⟨e.1, hr, hx⟩
  · rintro ⟨r, hr, hx⟩
    exact ⟨(r, i), (x, i), getElem?_zipIdx_eq_some.2 ⟨hr, rfl⟩,
      Option.map_eq_some_iff.2 ⟨x, hx, rfl⟩, rfl⟩

theorem settles_select? (routes : List Route) (c : Chooser) (s : PatrolSettings) :
    Settles (Accepting routes c s) (select? routes c s) := by
  rw [← rowOf_accepting]
  refine settles_firstBest? fun he hb => ?_
  obtain ⟨x, -, rfl⟩ := Option.map_eq_some_iff.1 hb
  exact (getElem?_zipIdx_eq_some.1 he).2

/-- No route is selected iff none accepts the bot. -/
theorem select?_eq_none_iff :
    select? routes c s = none ↔ ∀ r ∈ routes, r.accepts c.aggression c.raidTime = false := by
  rw [(settles_select? routes c s).none_iff]
  constructor
  · intro hempty r hr
    obtain ⟨i, hi⟩ := List.getElem?_of_mem hr
    rw [← isSome_score? r i c s, Option.isSome_eq_false_iff, Option.isNone_iff_eq_none,
      Option.eq_none_iff_forall_ne_some]
    exact fun x hx => hempty i x ⟨r, hi, hx⟩
  · rintro hnone i x ⟨r, hr, hx⟩
    have haccepts := hnone r (List.mem_of_getElem? hr)
    rw [← isSome_score? r i c s, hx] at haccepts
    cases haccepts

theorem accepts_of_select? (h : select? routes c s = some i) :
    ∃ r, routes[i]? = some r ∧ r.accepts c.aggression c.raidTime = true := by
  obtain ⟨x, hx, -⟩ := (settles_select? routes c s).picked i h
  obtain ⟨r, hr, hscore⟩ := hx.stands
  exact ⟨r, hr, by rw [← isSome_score? r i c s, hscore]; rfl⟩

end Route

/-! ## Strategies -/

namespace Squad

/-- The scores of the strategies that have a handle. -/
def Scored (q : Squad) (handles : List UInt32) : Row := fun i x =>
  i < handles.length ∧ q.scores[i]? = some x

theorem rowOf_scored (q : Squad) (handles : List UInt32) :
    rowOf some (·.1) (q.scores.zip handles.zipIdx) = q.Scored handles := by
  funext i x
  refine propext ⟨?_, ?_⟩
  · rintro ⟨e, b, he, hb, rfl⟩
    cases hb
    obtain ⟨hscore, hhandle⟩ := List.getElem?_zip_eq_some.1 he
    have hi := (List.getElem?_eq_some_iff.1 (getElem?_zipIdx_eq_some.1 hhandle).1).1
    exact ⟨hi, hscore⟩
  · rintro ⟨hi, hscore⟩
    refine ⟨(x, handles[i], i), _, List.getElem?_zip_eq_some.2 ⟨hscore, ?_⟩, rfl, rfl⟩
    exact getElem?_zipIdx_eq_some.2 ⟨List.getElem?_eq_getElem hi, rfl⟩

variable {q : Squad} {handles : List UInt32} {t : Strategy}

theorem settles_bestStrategy? (q : Squad) (handles : List UInt32) :
    Settles (q.Scored handles) ((q.bestStrategy? handles).map (·.ordinal)) := by
  rw [bestStrategy?, Option.map_map, ← List.filterMap_some (l := q.scores.zip _), ← rowOf_scored]
  refine settles_firstBest? fun he hb => ?_
  cases hb
  exact (getElem?_zipIdx_eq_some.1 (List.getElem?_zip_eq_some.1 he).2).2

/-- The best strategy has the handle of its place. -/
theorem handle_of_bestStrategy? (h : q.bestStrategy? handles = some t) :
    handles[t.ordinal]? = some t.handle := by
  obtain ⟨e, he, rfl⟩ := Option.map_eq_some_iff.1 h
  exact List.mem_zipIdx_iff_getElem?.1 (List.of_mem_zip (mem_of_firstBest? he)).2

end Squad

/-! ## Both -/

/-- Routes and strategies are selected by one rule, each from its own row. -/
theorem selections_settle (routes : List Route) (c : Chooser) (s : PatrolSettings) (q : Squad)
    (handles : List UInt32) :
    (Settles (Route.Accepting routes c s) (Route.select? routes c s) ∧
      (Route.select? routes c s = none ↔
        ∀ r ∈ routes, r.accepts c.aggression c.raidTime = false) ∧
      ∀ i, Route.select? routes c s = some i →
        ∃ r, routes[i]? = some r ∧ r.accepts c.aggression c.raidTime = true) ∧
      Settles (q.Scored handles) ((q.selectStrategy handles).strategy.map (·.ordinal)) ∧
      ∀ t, (q.selectStrategy handles).strategy = some t → handles[t.ordinal]? = some t.handle :=
  ⟨⟨Route.settles_select? routes c s, Route.select?_eq_none_iff, fun _ => Route.accepts_of_select?⟩,
    q.settles_bestStrategy? handles, fun _ => Squad.handle_of_bestStrategy?⟩

/-- A route for every aggression without an upper bound has an undefined score. At
the front it is selected although the route behind it has a number for a score,
and so is a strategy with such a score. -/
theorem selections_of_undefined_score :
    let c : Chooser := { aggression := 0.5, raidTime := 0.25, seed := 17 }
    let unbounded : Route := { waypoints := [.origin], maxAggression := .infinity }
    let usual : Route := { waypoints := [.origin] }
    let q : Squad := { scores := [.nan, 1] }
    (Route.select? [unbounded, usual] c {} = some 0 ∧
      ∀ x, ¬ Foremost (Route.Accepting [unbounded, usual] c {}) 0 x) ∧
      (q.selectStrategy [10, 20]).strategy = some ⟨10, 0⟩ ∧
        ∀ x, ¬ Foremost (q.Scored [10, 20]) 0 x := by
  intro c unbounded usual q
  have hfront : (unbounded.score? 0 c {}).map Float32.isNaN = some true := by decide +kernel
  have hbehind : (usual.score? 1 c {}).map Float32.isNaN = some false := by decide +kernel
  refine ⟨⟨by decide +kernel, fun x hx => ?_⟩, by decide +kernel, fun x hx => ?_⟩
  · obtain ⟨r, hr, hscore⟩ := hx.stands
    cases hr
    obtain ⟨y, hy, hnumber⟩ := Option.map_eq_some_iff.1 hbehind
    have hx := hx.isNaN_eq_false ⟨usual, rfl, hy⟩ hnumber
    rw [hscore, Option.map_some, hx] at hfront
    cases hfront
  · obtain ⟨-, hscore⟩ := hx.stands
    cases hscore
    have hbehind : q.Scored [10, 20] 1 1 := ⟨by decide, rfl⟩
    exact absurd (hx.isNaN_eq_false hbehind (by decide +kernel)) (by decide +kernel)

end Warband
