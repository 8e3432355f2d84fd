import Warband.Combat.Log
import Warband.Proofs.Numeric.Order

/-!
# The nearest event

A query for the nearest event goes once through the live events. It carries the
event found so far and a bound on the squared distance, at first that of the
range and then that of the event found. An event is taken unless it lies outside
the bound, so of several at the same distance the one in the highest slot is the
answer. A distance that is undefined is within no bound.
-/
namespace Warband.Combat

open Numeric

/-- How far an event is from a point on the plane, squared. -/
abbrev Event.farSq (e : Event) (point : Position) : Float32 :=
  e.position.horizontalDistanceSq point

namespace Log

/-- The slot that a query for the nearest event is to be answered from. -/
structure Nearest (l : Log) (point : Position) (range : Float32) (now : Time) (maxAge : Float32)
    (i : Nat) (e : Event) : Prop where
  stored : l.slots[i]? = some e
  live : e.live now maxAge
  inRange : e.farSq point ≤ range * range
  closest : ∀ (j : Nat) (other : Event), l.slots[j]? = some other → other.live now maxAge →
    ¬ other.farSq point < e.farSq point
  highest : ∀ (j : Nat) (other : Event), l.slots[j]? = some other → other.live now maxAge →
    other.farSq point ≤ e.farSq point → j ≤ i

/-! ## The scan -/

/-- What a scan has come to when it has gone through some events: nothing and
the bound it began with, or an event and its distance. -/
inductive Found (point : Position) (bound : Float32) (seen : List Event) :
    Option Event × Float32 → Prop
  | nothing (outside : ∀ e ∈ seen, ¬ e.farSq point ≤ bound) : Found point bound seen (none, bound)
  | event {before behind : List Event} {e : Event} (split : seen = before ++ e :: behind)
      (inside : e.farSq point ≤ bound)
      (closest : ∀ other ∈ before, ¬ other.farSq point < e.farSq point)
      (last : ∀ other ∈ behind, ¬ other.farSq point ≤ e.farSq point) :
      Found point bound seen (some e, e.farSq point)

variable {point : Position} {bound : Float32} {seen : List Event} {found : Option Event × Float32}

/-- An event within the bound becomes the one that is found. -/
theorem Found.take (h : Found point bound seen found) {e : Event} (hle : e.farSq point ≤ found.2) :
    Found point bound (seen ++ [e]) (some e, e.farSq point) := by
  have hsplit : seen ++ [e] = seen ++ e :: [] := rfl
  cases h with
  | nothing outside =>
      refine .event hsplit hle (fun other hother hlt => ?_) (by simp)
      exact outside other hother (Single.le_trans (Single.le_of_lt hlt) hle)
  | @event before behind former split inside closest last =>
      refine .event hsplit (Single.le_trans hle inside) (fun other hother hlt => ?_) (by simp)
      -- what is closer than the new event would be closer than the former one too
      have hcloser : other.farSq point < former.farSq point := Single.lt_of_lt_of_le hlt hle
      rw [split, List.mem_append, List.mem_cons] at hother
      rcases hother with hbefore | rfl | hbehind
      · exact closest other hbefore hcloser
      · exact Single.not_lt_iff.2 (.inl hle) hlt
      · exact last other hbehind (Single.le_of_lt hcloser)

/-- An event outside the bound changes nothing. -/
theorem Found.pass (h : Found point bound seen found) {e : Event}
    (hfar : ¬ e.farSq point ≤ found.2) : Found point bound (seen ++ [e]) found := by
  cases h with
  | nothing outside =>
      refine .nothing fun other hother => ?_
      rcases List.mem_append.1 hother with hseen | hnew
      · exact outside other hseen
      · rwa [List.mem_singleton.1 hnew]
  | @event before behind former split inside closest last =>
      have hsplit : seen ++ [e] = before ++ former :: (behind ++ [e]) := by simp [split]
      refine .event hsplit inside closest fun other hother => ?_
      rcases List.mem_append.1 hother with hbehind | hnew
      · exact last other hbehind
      · rwa [List.mem_singleton.1 hnew]

theorem Found.step (h : Found point bound seen found) (e : Event) :
    Found point bound (seen ++ [e]) (closer point found e) := by
  unfold closer
  split
  · rename_i hnear
    exact h.take (of_decide_eq_true hnear)
  · rename_i hfar
    exact h.pass fun hle => hfar (decide_eq_true hle)

theorem Found.foldl (h : Found point bound seen found) (es : List Event) :
    Found point bound (seen ++ es) (es.foldl (closer point) found) := by
  induction es generalizing seen found with
  | nil => simpa using h
  | cons e es ih => simpa using ih (h.step e)

theorem found_live (l : Log) (point : Position) (range : Float32) (now : Time)
    (maxAge : Float32) :
    Found point (range * range) (l.live now maxAge)
      ((l.live now maxAge).foldl (closer point) (none, range * range)) := by
  have hstart : Found point (range * range) [] (none, range * range) :=
    .nothing fun e he => absurd he (List.not_mem_nil)
  exact hstart.foldl (l.live now maxAge)

/-! ## The answer -/

variable {l : Log} {range : Float32} {now : Time} {maxAge : Float32} {i j : Nat} {e e' : Event}

/-- Where an event stands among the live ones, it stands in a slot, and every
live event of a lower or a higher slot is before or behind it. -/
theorem exists_slot_of_live_eq {before behind : List Event}
    (split : l.live now maxAge = before ++ e :: behind) :
    ∃ i, l.slots[i]? = some e ∧ e.live now maxAge ∧
      ∀ (j : Nat) (other : Event), l.slots[j]? = some other → other.live now maxAge →
        j < i ∧ other ∈ before ∨ j = i ∧ other = e ∨ i < j ∧ other ∈ behind := by
  obtain ⟨early, late, hslots, hearly, hlate⟩ := List.filter_eq_append_iff.1 split
  obtain ⟨idle, rest, rfl, hidle, hlive, hrest⟩ := List.filter_eq_cons_iff.1 hlate
  have hread : ∀ j : Nat, l.slots[j]? = ((early ++ idle) ++ e :: rest)[j]? := by
    intro j
    rw [← Array.getElem?_toList, hslots, List.append_assoc]
  refine ⟨(early ++ idle).length, ?_, hlive, fun j other hj hon => ?_⟩
  · rw [hread, List.getElem?_append_right (Nat.le_refl _), Nat.sub_self]
    rfl
  · rw [hread] at hj
    rcases Nat.lt_or_ge j (early ++ idle).length with hlt | hge
    · rw [List.getElem?_append_left hlt] at hj
      rcases List.mem_append.1 (List.mem_of_getElem? hj) with hmem | hmem
      · exact .inl ⟨hlt, hearly ▸ List.mem_filter.2 ⟨hmem, hon⟩⟩
      · exact absurd hon (hidle other hmem)
    · rw [List.getElem?_append_right hge] at hj
      cases hk : j - (early ++ idle).length with
      | zero =>
          rw [hk, List.getElem?_cons_zero] at hj
          exact .inr (.inl ⟨by omega, (Option.some.inj hj).symm⟩)
      | succ k =>
          rw [hk, List.getElem?_cons_succ] at hj
          have hmem := List.mem_of_getElem? hj
          exact .inr (.inr ⟨by omega, hrest ▸ List.mem_filter.2 ⟨hmem, hon⟩⟩)

/-- What a scan of the live events finds is the event to answer with. -/
theorem Nearest.of_split {before behind : List Event}
    (split : l.live now maxAge = before ++ e :: behind) (inside : e.farSq point ≤ range * range)
    (closest : ∀ other ∈ before, ¬ other.farSq point < e.farSq point)
    (last : ∀ other ∈ behind, ¬ other.farSq point ≤ e.farSq point) :
    ∃ i, l.Nearest point range now maxAge i e := by
  obtain ⟨i, hi, hlive, hplace⟩ := exists_slot_of_live_eq split
  refine ⟨i, hi, hlive, inside, fun j other hj hon hlt => ?_, fun j other hj hon hle => ?_⟩
  · rcases hplace j other hj hon with ⟨-, hmem⟩ | ⟨-, rfl⟩ | ⟨-, hmem⟩
    · exact closest other hmem hlt
    · exact Single.not_lt_iff.2 (.inl (Single.le_of_lt hlt)) hlt
    · exact last other hmem (Single.le_of_lt hlt)
  · rcases hplace j other hj hon with ⟨hlt, -⟩ | ⟨rfl, -⟩ | ⟨-, hmem⟩
    · exact Nat.le_of_lt hlt
    · exact Nat.le_refl _
    · exact absurd hle (last other hmem)

theorem Nearest.isNaN_farSq (h : l.Nearest point range now maxAge i e) :
    (e.farSq point).isNaN = false :=
  (Single.le_iff_altitude.1 h.inRange).1

/-- Neither of two such events is closer than the other, and both distances are
numbers. -/
theorem Nearest.farSq_le (h : l.Nearest point range now maxAge i e)
    (h' : l.Nearest point range now maxAge j e') : e.farSq point ≤ e'.farSq point := by
  rcases Single.not_lt_iff.1 (h.closest j e' h'.stored h'.live) with hle | hnan | hnan
  · exact hle
  · rw [h'.isNaN_farSq] at hnan
    cases hnan
  · rw [h.isNaN_farSq] at hnan
    cases hnan

/-- No two slots can both be the one to answer from. -/
theorem Nearest.unique (h : l.Nearest point range now maxAge i e)
    (h' : l.Nearest point range now maxAge j e') : i = j :=
  Nat.le_antisymm (h'.highest i e h.stored h.live (h.farSq_le h'))
    (h.highest j e' h'.stored h'.live (h'.farSq_le h))

/-- A query finds nothing only where no live event is in range. -/
theorem exists_nearest_or_none (l : Log) (point : Position) (range : Float32) (now : Time)
    (maxAge : Float32) :
    (∃ i e, l.nearest? point range now maxAge = some e ∧ l.Nearest point range now maxAge i e) ∨
      l.nearest? point range now maxAge = none ∧
        ∀ e ∈ l.live now maxAge, ¬ e.farSq point ≤ range * range := by
  have hfound := found_live l point range now maxAge
  rw [nearest?]
  generalize (l.live now maxAge).foldl (closer point) (none, range * range) = found at hfound
  cases hfound with
  | nothing outside => exact .inr ⟨rfl, outside⟩
  | @event before behind e split inside closest last =>
      obtain ⟨i, hi⟩ := Nearest.of_split split inside closest last
      exact .inl ⟨i, e, rfl, hi⟩

/-- The answer to a query is the live event in range that no other one is closer
than, and of several such events the one in the highest slot. There is an answer
whenever there is a live event in range, however the range and the distances are
given, and its distance is a number. -/
theorem nearest_is_exact (l : Log) (point : Position) (range : Float32) (now : Time)
    (maxAge : Float32) :
    ((l.nearest? point range now maxAge).isSome ↔
        ∃ (i : Nat) (e : Event), l.slots[i]? = some e ∧ e.live now maxAge ∧
          e.farSq point ≤ range * range) ∧
      (∀ e, l.nearest? point range now maxAge = some e ↔
        ∃ i, l.Nearest point range now maxAge i e) ∧
      ∀ e, l.nearest? point range now maxAge = some e → (e.farSq point).isNaN = false := by
  have hmem : ∀ {i : Nat} {e : Event}, l.slots[i]? = some e → e.live now maxAge →
      e ∈ l.live now maxAge :=
    fun hi hlive => mem_live.2 ⟨Array.mem_toList_iff.2 (Array.mem_of_getElem? hi), hlive⟩
  rcases exists_nearest_or_none l point range now maxAge with
    ⟨i, e, hfound, hi⟩ | ⟨hnone, hout⟩
  · refine ⟨iff_of_true (by rw [hfound]; rfl) ⟨i, e, hi.stored, hi.live, hi.inRange⟩,
      fun e' => ⟨fun he' => ?_, ?_⟩, fun e' he' => ?_⟩
    · obtain rfl := Option.some.inj (hfound.symm.trans he')
      exact ⟨i, hi⟩
    · rintro ⟨j, hj⟩
      obtain rfl := hi.unique hj
      rw [hfound, ← hi.stored, hj.stored]
    · obtain rfl := Option.some.inj (hfound.symm.trans he')
      exact hi.isNaN_farSq
  · rw [hnone]
    refine ⟨iff_of_false Bool.false_ne_true ?_, fun e => iff_of_false nofun ?_, nofun⟩
    · rintro ⟨i, e, hi, hlive, hin⟩
      exact hout e (hmem hi hlive) hin
    · rintro ⟨i, hi⟩
      exact hout e (hmem hi.stored hi.live) hi.inRange

end Log

end Warband.Combat
