import Warband.Numeric.Choice
import Warband.Proofs.Numeric.Order

/-!
# The first best of a row

Candidates stand in a row, each with a score, and some places of the row are
empty. Among scores a greater number is better and NaN is no better than
anything, which is a total preorder. The foremost candidate is the first one
that none is better than.

A scan that gives way to strictly greater scores only finds the foremost
candidate of every row that has a number at its front. Nothing is greater than
NaN, so a NaN at the front stays whatever follows.
-/
namespace Warband.Numeric

open Single

/-! ## Better and worse scores -/

/-- One score is no better than another one. -/
def NoBetter (x y : Float32) : Prop := x.isNaN ∨ x ≤ y

/-- The place of a score among all scores, NaN at the bottom. -/
def merit (x : Float32) : WithBot Int := if x.isNaN then ⊥ else altitude x

section merit

variable {x y : Float32}

theorem merit_of_isNaN (h : x.isNaN) : merit x = ⊥ := if_pos h

theorem merit_of_number (h : x.isNaN = false) : merit x = altitude x := by
  rw [merit, h, if_neg Bool.false_ne_true]

theorem merit_eq_bot_iff : merit x = ⊥ ↔ x.isNaN := by
  cases h : x.isNaN with
  | true => simp [merit_of_isNaN h]
  | false => simp [merit_of_number h]

theorem noBetter_iff_merit : NoBetter x y ↔ merit x ≤ merit y := by
  cases hx : x.isNaN with
  | true => exact iff_of_true (.inl hx) (by simp [merit_of_isNaN hx])
  | false =>
      rw [NoBetter, le_iff_altitude, hx, merit_of_number hx]
      cases hy : y.isNaN with
      | true => simp [merit_of_isNaN hy]
      | false => simp [merit_of_number hy]

theorem lt_iff_merit : x < y ↔ x.isNaN = false ∧ merit x < merit y := by
  rw [lt_iff_altitude]
  cases hx : x.isNaN with
  | true => simp
  | false =>
      cases hy : y.isNaN with
      | true => simp [merit_of_isNaN hy]
      | false => simp [merit_of_number hx, merit_of_number hy]

/-- Beside a number nothing but a strictly greater number is better. -/
theorem not_noBetter_iff (hx : x.isNaN = false) : ¬ NoBetter y x ↔ x < y := by
  rw [noBetter_iff_merit, not_le, lt_iff_merit, hx]
  simp

end merit

/-! ## Rows -/

/-- Which score stands at which place of a row, if any. -/
abbrev Row := Nat → Float32 → Prop

variable {row : Row} {i j : Nat} {x y : Float32}

/-- The candidate with nobody before it. -/
structure Front (row : Row) (i : Nat) (x : Float32) : Prop where
  stands : row i x
  first : ∀ j < i, ∀ y, ¬ row j y

/-- The first candidate that none is better than. -/
structure Foremost (row : Row) (i : Nat) (x : Float32) : Prop where
  stands : row i x
  best : ∀ j y, row j y → NoBetter y x
  first : ∀ j < i, ∀ y, row j y → ¬ NoBetter x y

/-- The front of the row, if any, has a number. -/
def Fronted (row : Row) : Prop := ∀ j y, Front row j y → y.isNaN = false

/-- What a scan settles on: the foremost candidate of a row with a number at its
front, and a NaN at the front itself. -/
inductive Picked (row : Row) (i : Nat) (x : Float32) : Prop
  | foremost (h : Foremost row i x) (hfront : Fronted row)
  | front (h : Front row i x) (hnan : x.isNaN)

theorem Foremost.unique (h : Foremost row i x) (h' : Foremost row j y) : i = j := by
  rcases Nat.lt_trichotomy i j with hlt | heq | hgt
  · exact absurd (h.best j y h'.stands) (h'.first i hlt x h.stands)
  · exact heq
  · exact absurd (h'.best i x h.stands) (h.first j hgt y h'.stands)

/-- The foremost candidate of a row with a number has a number. -/
theorem Foremost.isNaN_eq_false (h : Foremost row i x) (hrow : row j y) (hy : y.isNaN = false) :
    x.isNaN = false := by
  rcases h.best j y hrow with hnan | hle
  · rw [hy] at hnan
    cases hnan
  · exact isNaN_of_le hle

/-- Every row with a candidate has a front. -/
theorem exists_front (h : row i x) : ∃ j ≤ i, ∃ y, Front row j y := by
  induction i using Nat.strong_induction_on generalizing x with
  | _ i ih =>
    by_cases hfirst : ∀ j < i, ∀ y, ¬ row j y
    · exact ⟨i, le_refl i, x, h, hfirst⟩
    · push Not at hfirst
      obtain ⟨j, hj, y, hy⟩ := hfirst
      obtain ⟨k, hk, z, hz⟩ := ih j hj hy
      exact ⟨k, hk.trans hj.le, z, hz⟩

namespace Picked

theorem stands (h : Picked row i x) : row i x := by
  cases h with
  | foremost h => exact h.stands
  | front h => exact h.stands

/-- No score of the row is strictly greater than the one picked. -/
theorem not_lt (h : Picked row i x) (hy : row j y) : ¬ x < y := by
  intro hlt
  obtain ⟨hx, hlt⟩ := lt_iff_merit.1 hlt
  cases h with
  | foremost h => exact absurd (noBetter_iff_merit.1 (h.best j y hy)) (not_le.2 hlt)
  | front h hnan =>
      rw [hx] at hnan
      cases hnan

/-- A number is picked only as the foremost candidate. -/
theorem foremost_of_number (h : Picked row i x) (hx : x.isNaN = false) : Foremost row i x := by
  cases h with
  | foremost h => exact h
  | front h hnan =>
      rw [hx] at hnan
      cases hnan

/-- The pick is the foremost candidate unless a NaN stands in front of a number. -/
theorem foremost_iff (h : Picked row i x) :
    Foremost row i x ↔ Fronted row ∨ ∀ j y, row j y → y.isNaN := by
  cases h with
  | foremost h hfront => exact iff_of_true h (.inl hfront)
  | front h hnan =>
      constructor
      · intro hbest
        refine .inr fun j y hy => ?_
        have hle := noBetter_iff_merit.1 (hbest.best j y hy)
        rw [merit_of_isNaN hnan, le_bot_iff] at hle
        exact merit_eq_bot_iff.1 hle
      · rintro (hfront | hall)
        · rw [hfront i x h] at hnan
          cases hnan
        · exact ⟨h.stands, fun j y hy => .inl (hall j y hy), fun j hj y hy =>
            absurd hy (h.first j hj y)⟩

end Picked

/-! ## A row that grows -/

/-- The row with one more candidate. -/
def Row.extended (row : Row) (n : Nat) (z : Float32) : Row := fun j y => row j y ∨ j = n ∧ y = z

/-- All candidates stand below a place. -/
def Row.Below (row : Row) (n : Nat) : Prop := ∀ j y, row j y → j < n

section extended

variable {n : Nat} {z : Float32}

/-- A candidate behind others is not the front. -/
theorem Front.of_extended (hbelow : row.Below n) (h : row i x) (hy : Front (row.extended n z) j y) :
    Front row j y := by
  have hfirst : ∀ k < j, ∀ w, ¬ row k w := fun k hk w hw => hy.first k hk w (.inl hw)
  rcases hy.stands with hrow | ⟨rfl, -⟩
  · exact ⟨hrow, hfirst⟩
  · exact absurd h (hfirst i (hbelow i x h) x)

/-- The only candidate is picked. -/
theorem Picked.of_first (hempty : ∀ j y, ¬ row j y) : Picked (row.extended n z) n z := by
  have hfront : Front (row.extended n z) n z := by
    refine ⟨.inr ⟨rfl, rfl⟩, fun j hj y hy => ?_⟩
    rcases hy with hrow | ⟨rfl, -⟩
    · exact hempty j y hrow
    · exact absurd hj (lt_irrefl _)
  have hsole : ∀ j y, row.extended n z j y → j = n ∧ y = z :=
    fun j y hy => hy.resolve_left (hempty j y)
  cases hz : z.isNaN with
  | true => exact .front hfront hz
  | false =>
      refine .foremost ⟨hfront.stands, fun j y hy => ?_, fun j hj y hy => ?_⟩ fun j y hy => ?_
      · rw [(hsole j y hy).2, noBetter_iff_merit]
      · exact absurd hy (hfront.first j hj y)
      · rw [(hsole j y hy.stands).2, hz]

/-- A pick gives way to a strictly greater score behind all others. -/
theorem Picked.give (hbelow : row.Below n) (h : Picked row i x) (hlt : x < z) :
    Picked (row.extended n z) n z := by
  have hbest := h.foremost_of_number (lt_iff_merit.1 hlt).1
  have hmerit := (lt_iff_merit.1 hlt).2
  have hworse : ∀ j y, row j y → merit y < merit z := fun j y hy =>
    (noBetter_iff_merit.1 (hbest.best j y hy)).trans_lt hmerit
  refine .foremost ⟨.inr ⟨rfl, rfl⟩, fun j y hy => ?_, fun j hj y hy => ?_⟩ fun j y hy => ?_
  · rw [noBetter_iff_merit]
    rcases hy with hrow | ⟨-, rfl⟩
    · exact (hworse j y hrow).le
    · exact le_refl _
  · rw [noBetter_iff_merit, not_le]
    rcases hy with hrow | ⟨rfl, -⟩
    · exact hworse j y hrow
    · exact absurd hj (lt_irrefl _)
  · cases h with
    | foremost h hfront => exact hfront j y (hy.of_extended hbelow h.stands)
    | front h hnan =>
        rw [(lt_iff_merit.1 hlt).1] at hnan
        cases hnan

/-- A pick stays beside any other score behind all others. -/
theorem Picked.keep (hbelow : row.Below n) (h : Picked row i x) (hlt : ¬ x < z) :
    Picked (row.extended n z) i x := by
  have hi : i < n := hbelow i x h.stands
  have hfirst : ∀ j < i, ∀ y, row.extended n z j y → row j y := by
    rintro j hj y (hrow | ⟨rfl, -⟩)
    · exact hrow
    · exact absurd (hj.trans hi) (lt_irrefl _)
  cases h with
  | front h hnan =>
      exact .front ⟨.inl h.stands, fun j hj y hy => h.first j hj y (hfirst j hj y hy)⟩ hnan
  | foremost h hfront =>
      obtain ⟨k, -, w, hw⟩ := exists_front h.stands
      have hx := h.isNaN_eq_false hw.stands (hfront k w hw)
      refine .foremost ⟨.inl h.stands, fun j y hy => ?_, fun j hj y hy =>
        h.first j hj y (hfirst j hj y hy)⟩ fun j y hy => hfront j y (hy.of_extended hbelow h.stands)
      rcases hy with hrow | ⟨-, rfl⟩
      · exact h.best j y hrow
      · by_contra hbetter
        exact hlt ((not_noBetter_iff hx).1 hbetter)

end extended

/-! ## A scan -/

variable {α β : Type}

theorem firstBest?_concat (score : α → Float32) (l : List α) (b : α) :
    firstBest? score (l ++ [b]) =
      some (match firstBest? score l with
        | none => b
        | some a => keepBest score a b) := by
  cases l with
  | nil => rfl
  | cons a l => simp [firstBest?]

/-- The row of a list whose members may each be a candidate. -/
def rowOf (f : α → Option β) (score : β → Float32) (l : List α) : Row := fun i x =>
  ∃ a b, l[i]? = some a ∧ f a = some b ∧ score b = x

section scan

variable {f : α → Option β} {score : β → Float32} {l : List α} {a : α} {b : β}

theorem rowOf_below (f : α → Option β) (score : β → Float32) (l : List α) :
    (rowOf f score l).Below l.length := by
  rintro i x ⟨a, b, ha, -⟩
  exact (List.getElem?_eq_some_iff.1 ha).1

/-- A member that is no candidate leaves the row as it is. -/
theorem rowOf_concat_none (h : f a = none) : rowOf f score (l ++ [a]) = rowOf f score l := by
  funext i x
  refine propext ⟨?_, ?_⟩
  · rintro ⟨a', b, ha, hb, hx⟩
    rw [List.getElem?_append] at ha
    split at ha
    · exact ⟨a', b, ha, hb, hx⟩
    · rw [← List.mem_singleton.1 (List.mem_of_getElem? ha)] at h
      rw [h] at hb
      cases hb
  · rintro ⟨a', b, ha, hb, hx⟩
    exact ⟨a', b, by rw [List.getElem?_append_left (List.getElem?_eq_some_iff.1 ha).1, ha], hb, hx⟩

/-- A member that is a candidate stands behind all others. -/
theorem rowOf_concat_some (h : f a = some b) :
    rowOf f score (l ++ [a]) = (rowOf f score l).extended l.length (score b) := by
  funext i x
  refine propext ⟨?_, ?_⟩
  · rintro ⟨a', b', ha, hb, hx⟩
    rw [List.getElem?_append] at ha
    split at ha
    · exact .inl ⟨a', b', ha, hb, hx⟩
    · rename_i hi
      obtain rfl := List.mem_singleton.1 (List.mem_of_getElem? ha)
      rw [h] at hb
      cases hb
      have hlast := (List.getElem?_eq_some_iff.1 ha).1
      rw [List.length_singleton] at hlast
      exact .inr ⟨by omega, hx.symm⟩
  · rintro (⟨a', b', ha, hb, hx⟩ | ⟨rfl, rfl⟩)
    · have hi := (List.getElem?_eq_some_iff.1 ha).1
      exact ⟨a', b', by rw [List.getElem?_append_left hi, ha], hb, hx⟩
    · exact ⟨a, b, List.getElem?_concat_length, h, rfl⟩

/-- A scan of the candidates of a list settles on one of them by the rule for its row. -/
theorem exists_of_firstBest? (h : firstBest? score (l.filterMap f) = some b) :
    ∃ i a, l[i]? = some a ∧ f a = some b ∧ Picked (rowOf f score l) i (score b) := by
  induction l using List.reverseRecOn generalizing b with
  | nil => cases h
  | append_singleton l a ih =>
      have hbelow := rowOf_below f score l
      rw [List.filterMap_append] at h
      cases hf : f a with
      | none =>
          rw [List.filterMap_cons_none hf, List.filterMap_nil, List.append_nil] at h
          obtain ⟨i, a', ha, hb, hpick⟩ := ih h
          rw [rowOf_concat_none hf]
          exact ⟨i, a', by rw [List.getElem?_append_left (hbelow i _ hpick.stands), ha], hb, hpick⟩
      | some c =>
          rw [List.filterMap_cons_some hf, List.filterMap_nil, firstBest?_concat,
            Option.some_inj] at h
          rw [rowOf_concat_some hf]
          cases hl : firstBest? score (l.filterMap f) with
          | none =>
              rw [hl] at h
              subst h
              refine ⟨l.length, a, List.getElem?_concat_length, hf, .of_first ?_⟩
              rintro j y ⟨a', b', ha, hb, -⟩
              rw [firstBest?_eq_none, List.filterMap_eq_nil_iff] at hl
              rw [hl a' (List.mem_of_getElem? ha)] at hb
              cases hb
          | some best =>
              obtain ⟨i, a', ha, hb, hpick⟩ := ih hl
              rw [hl] at h
              dsimp only [keepBest] at h
              split at h
              · rename_i hlt
                subst h
                exact ⟨l.length, a, List.getElem?_concat_length, hf, hpick.give hbelow hlt⟩
              · rename_i hlt
                subst h
                exact ⟨i, a', by rw [List.getElem?_append_left (hbelow i _ hpick.stands), ha], hb,
                  hpick.keep hbelow hlt⟩

/-- A scan finds nothing iff the row is empty. -/
theorem firstBest?_filterMap_eq_none :
    firstBest? score (l.filterMap f) = none ↔ ∀ i x, ¬ rowOf f score l i x := by
  rw [firstBest?_eq_none, List.filterMap_eq_nil_iff]
  constructor
  · rintro hnone i x ⟨a, b, ha, hb, -⟩
    rw [hnone a (List.mem_of_getElem? ha)] at hb
    cases hb
  · intro hempty a ha
    obtain ⟨i, hi⟩ := List.getElem?_of_mem ha
    exact Option.eq_none_iff_forall_ne_some.2 fun b hb => hempty i _ ⟨a, b, hi, hb, rfl⟩

end scan

section filtered

variable {p : α → Bool} {score : α → Float32} {l : List α} {a : α} {i : Nat} {x : Float32}

theorem rowOf_guard_iff :
    rowOf (Option.guard p) score l i x ↔ ∃ a, l[i]? = some a ∧ p a = true ∧ score a = x := by
  constructor
  · rintro ⟨a, b, ha, hb, hx⟩
    obtain ⟨rfl, hp⟩ := Option.guard_eq_some_iff.1 hb
    exact ⟨a, ha, hp, hx⟩
  · rintro ⟨a, ha, hp, hx⟩
    exact ⟨a, a, ha, Option.guard_eq_some_iff.2 ⟨rfl, hp⟩, hx⟩

theorem exists_of_firstBest?_filter (h : firstBest? score (l.filter p) = some a) :
    ∃ i, l[i]? = some a ∧ p a = true ∧ Picked (rowOf (Option.guard p) score l) i (score a) := by
  rw [← List.filterMap_eq_filter] at h
  obtain ⟨i, a', ha, hb, hpick⟩ := exists_of_firstBest? h
  obtain ⟨rfl, hp⟩ := Option.guard_eq_some_iff.1 hb
  exact ⟨i, ha, hp, hpick⟩

theorem firstBest?_filter_eq_none :
    firstBest? score (l.filter p) = none ↔ ∀ i x, ¬ rowOf (Option.guard p) score l i x := by
  rw [← List.filterMap_eq_filter]
  exact firstBest?_filterMap_eq_none

end filtered

theorem getElem?_zipIdx_eq_some {l : List α} {c : α × Nat} {i : Nat} :
    l.zipIdx[i]? = some c ↔ l[i]? = some c.1 ∧ c.2 = i := by
  rw [List.getElem?_zipIdx, Option.map_eq_some_iff, Nat.zero_add]
  constructor
  · rintro ⟨a, ha, rfl⟩
    exact ⟨ha, rfl⟩
  · rintro ⟨ha, hi⟩
    exact ⟨c.1, ha, by rw [← hi]⟩

/-! ## Selections -/

/-- The place that a scan settles on: nothing only in an empty row, and otherwise
a candidate that no strictly greater score beats. It is the foremost candidate
unless a NaN stands in front of a number. -/
structure Settles (row : Row) (pick : Option Nat) : Prop where
  none_iff : pick = none ↔ ∀ i x, ¬ row i x
  picked : ∀ i, pick = some i → ∃ x, Picked row i x ∧ (∀ j y, row j y → ¬ x < y) ∧
    (Foremost row i x ↔ Fronted row ∨ ∀ j y, row j y → y.isNaN)

/-- An exact selection: nothing only from an empty row, and otherwise the foremost
candidate. -/
structure Selects (row : Row) (pick : Option Nat) : Prop where
  none_iff : pick = none ↔ ∀ i x, ¬ row i x
  some_iff : ∀ i, pick = some i ↔ ∃ x, Foremost row i x

variable {pick : Option Nat}

theorem Settles.of (hsome : ∀ i, pick = some i → ∃ x, Picked row i x)
    (hnone : pick = none → ∀ i x, ¬ row i x) : Settles row pick where
  none_iff := by
    refine ⟨hnone, fun hempty => ?_⟩
    cases pick with
    | none => rfl
    | some i =>
        obtain ⟨x, hx⟩ := hsome i rfl
        exact absurd hx.stands (hempty i x)
  picked i hi := by
    obtain ⟨x, hx⟩ := hsome i hi
    exact ⟨x, hx, fun j y hy => hx.not_lt hy, hx.foremost_iff⟩

/-- A scan of candidates that know their places settles on one of these. -/
theorem settles_firstBest? {f : α → Option β} {score : β → Float32} {l : List α} {place : β → Nat}
    (hplace : ∀ {i a b}, l[i]? = some a → f a = some b → place b = i) :
    Settles (rowOf f score l) ((firstBest? score (l.filterMap f)).map place) := by
  refine .of (fun i h => ?_) fun h => ?_
  · obtain ⟨b, hb, rfl⟩ := Option.map_eq_some_iff.1 h
    obtain ⟨i, a, ha, hf, hpick⟩ := exists_of_firstBest? hb
    rw [hplace ha hf]
    exact ⟨score b, hpick⟩
  · exact firstBest?_filterMap_eq_none.1 (Option.map_eq_none_iff.1 h)

theorem settles_firstBest?_zipIdx (p : α × Nat → Bool) (score : α × Nat → Float32) (l : List α) :
    Settles (rowOf (Option.guard p) score l.zipIdx)
      ((firstBest? score (l.zipIdx.filter p)).map (·.2)) := by
  rw [← List.filterMap_eq_filter]
  refine settles_firstBest? fun ha hb => ?_
  obtain ⟨rfl, -⟩ := Option.guard_eq_some_iff.1 hb
  exact (getElem?_zipIdx_eq_some.1 ha).2

/-- In a row of numbers a scan selects exactly. -/
theorem Settles.selects (h : Settles row pick) (hnumber : ∀ i x, row i x → x.isNaN = false) :
    Selects row pick where
  none_iff := h.none_iff
  some_iff i := by
    have hforemost : ∀ k, pick = some k → ∃ z, Foremost row k z := fun k hk => by
      obtain ⟨z, hz, -⟩ := h.picked k hk
      exact ⟨z, hz.foremost_of_number (hnumber k z hz.stands)⟩
    refine ⟨hforemost i, fun ⟨x, hx⟩ => ?_⟩
    cases hpick : pick with
    | none => exact absurd hx.stands (h.none_iff.1 hpick i x)
    | some k =>
        obtain ⟨z, hz⟩ := hforemost k hpick
        exact congrArg some (hz.unique hx)

end Warband.Numeric
