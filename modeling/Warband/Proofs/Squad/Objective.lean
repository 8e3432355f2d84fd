import Mathlib.Data.List.Basic
import Warband.Squad.Objective

/-!
# The life of an objective

An objective is given orders, each a new point or a withdrawal. Between two
orders its slots are written, its duration is scaled and its squad may hold at
the point. The version counts the orders, so two states of an objective with the
same version are under the same order, unless 2³² orders lie between them.

An order does not erase the slots, it only lowers the mark below which they count
as written, and writing a slot raises the mark past it. So a slot that was
written since the order shows what was written last. A slot that was skipped
while a later one was written shows what it held under an earlier order.
-/
namespace Warband.Objective

inductive Op where
  | set (position : Position) (now : Time) (duration : Float32)
  | clear
  | adjust (factor : Float32)
  | setSlot (index : Nat) (slot : Slot)
  | hold

namespace Op

/-- A new point or a withdrawal. -/
def isOrder : Op → Bool
  | .set .. | .clear => true
  | .adjust _ | .setSlot .. | .hold => false

/-- Where an order sends the squad. -/
def point? : Op → Option Position
  | .set p .. => some p
  | _ => none

def factor? : Op → Option Float32
  | .adjust factor => some factor
  | _ => none

/-- The slot that is written, if there is one at the index. -/
def write? : Op → Option (Nat × Slot)
  | .setSlot i x => if i < maxSquadSize then some (i, x) else none
  | _ => none

end Op

def perform (o : Objective) : Op → Objective
  | .set p now duration => o.set p now duration
  | .clear => o.clear
  | .adjust factor => o.adjust factor
  | .setSlot i x => o.setSlot i x
  | .hold => o.hold

/-- A new objective after a history of operations, the newest first. -/
def after : List Op → Objective
  | [] => {}
  | op :: ops => (after ops).perform op

/-! ## Orders -/

/-- What an order does. -/
structure Renewed (point : Option Position) (o o' : Objective) : Prop where
  version : o'.version = o.version + 1
  position : o'.position = point
  previous : o'.previous = o.position
  adjusted : o'.adjusted = false
  used : o'.used = 0

/-- What can have become of an objective without an order. Of the factors that
its duration was to be scaled by, the newest first, only the oldest counts, and
that only if the duration had not been scaled before. -/
structure Continued (factors : List Float32) (o o' : Objective) : Prop where
  version : o'.version = o.version
  position : o'.position = o.position
  previous : o'.previous = o.previous
  used_le : o.used ≤ o'.used
  adjusted : o'.adjusted = (o.adjusted || !factors.isEmpty)
  duration : o'.duration =
    match o.adjusted, factors.getLast? with
    | false, some factor => o.duration * factor
    | _, _ => o.duration

theorem renewed_perform (o : Objective) {op : Op} (h : op.isOrder) :
    Renewed op.point? o (o.perform op) := by
  cases op with
  | set | clear => exact ⟨rfl, rfl, rfl, rfl, rfl⟩
  | adjust | setSlot | hold => cases h

namespace Continued

variable {factors : List Float32} {o o' : Objective}

theorem refl (o : Objective) : Continued [] o o := by
  constructor <;> simp

theorem setSlot (h : Continued factors o o') (i : Nat) (x : Slot) :
    Continued factors o (o'.setSlot i x) := by
  unfold Objective.setSlot
  split
  · exact { h with used_le := Nat.le_trans h.used_le (Nat.le_max_left ..) }
  · exact h

theorem hold (h : Continued factors o o') : Continued factors o o'.hold := by
  unfold Objective.hold
  split
  · exact { h with }
  · exact h

/-- The duration is scaled by the first factor only. -/
theorem adjust (h : Continued factors o o') (factor : Float32) :
    Continued (factor :: factors) o (o'.adjust factor) := by
  have hadjusted := h.adjusted
  have hduration := h.duration
  unfold Objective.adjust
  split
  · rename_i hscaled
    refine { h with adjusted := by simp [hscaled], duration := ?_ }
    rw [hduration]
    cases factors with
    | nil => simp_all
    | cons f fs => rw [List.getLast?_cons_cons]
  · rename_i hfresh
    obtain ⟨hbefore, rfl⟩ : o.adjusted = false ∧ factors = [] := by simp_all
    refine { h with adjusted := by simp, duration := ?_ }
    simp [hduration, hbefore]

theorem perform (h : Continued factors o o') {op : Op} (hop : op.isOrder = false) :
    Continued (op.factor?.toList ++ factors) o (o'.perform op) := by
  cases op with
  | set | clear => cases hop
  | adjust factor => exact h.adjust factor
  | setSlot i x => exact h.setSlot i x
  | hold => exact h.hold

end Continued

theorem continued_after (ops : List Op) {later : List Op} (h : ∀ op ∈ later, op.isOrder = false) :
    Continued (later.filterMap Op.factor?) (after ops) (after (later ++ ops)) := by
  induction later with
  | nil => exact .refl _
  | cons op later ih =>
      obtain ⟨hop, hlater⟩ := List.forall_mem_cons.1 h
      have hnext := (ih hlater).perform hop
      cases hfactor : op.factor? <;> simpa [hfactor, after] using hnext

theorem version_perform (o : Objective) (op : Op) :
    (o.perform op).version = o.version + UInt32.ofNat op.isOrder.toNat := by
  cases horder : op.isOrder with
  | true => exact (renewed_perform o horder).version
  | false => simpa using ((Continued.refl o).perform horder).version

theorem version_after (ops : List Op) :
    (after ops).version = UInt32.ofNat (ops.countP Op.isOrder) := by
  induction ops with
  | nil => rfl
  | cons op ops ih =>
      rw [after, version_perform, ih, List.countP_cons, UInt32.ofNat_add]
      cases op.isOrder <;> rfl

/-- An order lowers the mark of the written slots, and a write raises it. -/
theorem used_perform (o : Objective) (op : Op) :
    (o.perform op).used =
      if op.isOrder then 0 else op.write?.elim o.used fun w => max o.used (w.1 + 1) := by
  cases op with
  | set | clear | adjust | hold => simp [perform, set, clear, Op.isOrder, Op.write?]
  | setSlot i x => by_cases hi : i < maxSquadSize <;> simp [perform, Op.isOrder, Op.write?, hi]

/-- Only a write touches a slot. -/
theorem slots_perform (o : Objective) (op : Op) :
    (o.perform op).slots = op.write?.elim o.slots fun w => o.slots.setIfInBounds w.1 w.2 := by
  cases op with
  | set | clear | adjust | hold => simp [perform, set, clear, Op.write?]
  | setSlot i x =>
      by_cases hi : i < maxSquadSize
      · simp [perform, slots_setSlot, Op.write?, hi]
      · simp [perform, setSlot, Op.write?, hi]

theorem Op.lt_of_write? {op : Op} {w : Nat × Slot} (h : op.write? = some w) :
    w.1 < maxSquadSize := by
  cases op with
  | set | clear | adjust | hold => cases h
  | setSlot i x =>
      by_cases hi : i < maxSquadSize
      · simp only [write?, if_pos hi, Option.some.injEq] at h
        rwa [← h]
      · simp [write?, hi] at h

theorem used_after_le (ops : List Op) : (after ops).used ≤ maxSquadSize := by
  induction ops with
  | nil => exact Nat.zero_le _
  | cons op ops ih =>
      rw [after, used_perform]
      split
      · exact Nat.zero_le _
      · cases hw : op.write? with
        | none => exact ih
        | some w => exact Nat.max_le.2 ⟨ih, Op.lt_of_write? hw⟩

/-- The version of an objective counts its orders, an order keeps the point
before it, and everything else that is done leaves the point, the point before
it and the version alone. States of one objective have the same version only if
no order lies between them, or a multiple of 2³². -/
theorem version_of_orders (ops : List Op) :
    (after ops).version.toNat = ops.countP Op.isOrder % UInt32.size ∧
      (after ops).used ≤ maxSquadSize ∧
      (∀ op : Op, op.isOrder → Renewed op.point? (after ops) (after (op :: ops))) ∧
      ∀ later : List Op,
        ((after (later ++ ops)).version = (after ops).version ↔
          UInt32.size ∣ later.countP Op.isOrder) ∧
        ((∀ op ∈ later, op.isOrder = false) →
          Continued (later.filterMap Op.factor?) (after ops) (after (later ++ ops))) := by
  refine ⟨?_, used_after_le ops, fun op => renewed_perform _, fun later => ⟨?_, ?_⟩⟩
  · rw [version_after, UInt32.toNat_ofNat']
  · rw [version_after, version_after, List.countP_append, ← UInt32.toNat_inj,
      UInt32.toNat_ofNat', UInt32.toNat_ofNat']
    unfold UInt32.size
    omega
  · exact continued_after ops

/-! ## Slots -/

/-- What was done since the last order. -/
def sinceOrder (ops : List Op) : List Op := ops.takeWhile (!·.isOrder)

/-- The slots that were written, the newest first. -/
def writes (ops : List Op) : List (Nat × Slot) := ops.filterMap Op.write?

theorem writes_cons (op : Op) (ops : List Op) :
    writes (op :: ops) = op.write?.toList ++ writes ops := by
  cases hw : op.write? <;> simp [writes, hw]

theorem writes_sinceOrder_cons (op : Op) (ops : List Op) :
    writes (sinceOrder (op :: ops)) =
      if op.isOrder then [] else op.write?.toList ++ writes (sinceOrder ops) := by
  cases horder : op.isOrder with
  | true => simp [sinceOrder, writes, horder]
  | false => simp [sinceOrder, writes_cons, horder]

/-- A slot that was written since the order was not written later than that. -/
theorem lookup_writes {ops : List Op} {i : Nat} {x : Slot}
    (h : (writes (sinceOrder ops)).lookup i = some x) : (writes ops).lookup i = some x := by
  have hsplit : writes ops =
      writes (sinceOrder ops) ++ writes (ops.dropWhile (!·.isOrder)) := by
    rw [writes, writes, writes, ← List.filterMap_append, sinceOrder,
      List.takeWhile_append_dropWhile]
  rw [hsplit, List.lookup_append, h, Option.some_or]

/-- Every slot holds what was written to it last, whatever was ordered since. -/
theorem slots_after (ops : List Op) {i : Nat} (h : i < maxSquadSize) :
    (after ops).slots[i]? = some (((writes ops).lookup i).getD .blank) := by
  induction ops with
  | nil => simp [after, writes, h]
  | cons op ops ih =>
      rw [after, slots_perform, writes_cons]
      cases hw : op.write? with
      | none => exact ih
      | some w =>
          obtain ⟨j, x⟩ := w
          simp only [Option.elim_some, Vector.getElem?_setIfInBounds, Option.toList_some,
            List.singleton_append, List.lookup_cons]
          rcases eq_or_ne i j with rfl | hne
          · simp [h]
          · simpa only [if_neg hne.symm, beq_eq_false_iff_ne.2 hne] using ih

/-- The mark stands right past the highest slot written since the order. -/
theorem lt_used_after_iff (ops : List Op) (i : Nat) :
    i < (after ops).used ↔ ∃ w ∈ writes (sinceOrder ops), i ≤ w.1 := by
  induction ops with
  | nil => simp [after, writes, sinceOrder]
  | cons op ops ih =>
      rw [after, used_perform, writes_sinceOrder_cons]
      split
      · simp
      · cases hw : op.write? with
        | none => exact ih
        | some w =>
            simp only [Option.elim_some, Option.toList_some, List.singleton_append,
              List.mem_cons, exists_eq_or_imp, ← ih]
            omega

/-- A slot reads as what it holds if it is below the mark. -/
theorem slot?_after (ops : List Op) (i : Nat) :
    (after ops).slot? i =
      if ∃ w ∈ writes (sinceOrder ops), i ≤ w.1 then some (((writes ops).lookup i).getD .blank)
      else none := by
  unfold slot?
  simp only [lt_used_after_iff]
  split
  · rename_i hmark
    have hused : i < (after ops).used := (lt_used_after_iff ops i).2 hmark
    exact slots_after ops (Nat.lt_of_lt_of_le hused (used_after_le ops))
  · rfl

theorem lookup_eq_none_iff {written : List (Nat × Slot)} {i : Nat} :
    written.lookup i = none ↔ ∀ w ∈ written, w.1 ≠ i := by
  simp [List.lookup_eq_none_iff, ne_comm]

/-- A slot reads as what was written to it last since the order. Only a slot that
was skipped, while a later one was written, reads as what it held before the
order. -/
theorem slot_of_writes (ops : List Op) :
    let written := writes (sinceOrder ops)
    (∀ i x, (after ops).slot? i = some x ↔
      written.lookup i = some x ∨
        written.lookup i = none ∧ (∃ w ∈ written, i < w.1) ∧
          ((writes ops).lookup i).getD .blank = x) ∧
      ((∀ w ∈ written, ∀ i < w.1, written.lookup i ≠ none) →
        ∀ i, (after ops).slot? i = written.lookup i) := by
  intro written
  have hread : ∀ i x, (after ops).slot? i = some x ↔
      written.lookup i = some x ∨ written.lookup i = none ∧ (∃ w ∈ written, i < w.1) ∧
        ((writes ops).lookup i).getD .blank = x := by
    intro i x
    rw [slot?_after]
    cases hi : written.lookup i with
    | some y =>
        obtain ⟨before, behind, hsplit, -⟩ := List.lookup_eq_some_iff.1 hi
        have hmark : ∃ w ∈ written, i ≤ w.1 := ⟨(i, y), by simp [hsplit], Nat.le_refl i⟩
        rw [if_pos hmark, lookup_writes hi]
        simp
    | none =>
        have hskipped : (∃ w ∈ written, i ≤ w.1) ↔ ∃ w ∈ written, i < w.1 := by
          have hne := lookup_eq_none_iff.1 hi
          constructor
          · rintro ⟨w, hw, hle⟩
            exact ⟨w, hw, Nat.lt_of_le_of_ne hle (hne w hw).symm⟩
          · rintro ⟨w, hw, hlt⟩
            exact ⟨w, hw, Nat.le_of_lt hlt⟩
        by_cases hmark : ∃ w ∈ written, i ≤ w.1
        · rw [if_pos hmark]
          simp [hskipped.1 hmark]
        · rw [if_neg hmark]
          simp [mt hskipped.2 hmark]
  refine ⟨hread, fun hgapless i => ?_⟩
  refine Option.ext fun x => ?_
  rw [hread]
  constructor
  · rintro (hlast | ⟨hnone, ⟨w, hw, hlt⟩, -⟩)
    · exact hlast
    · exact absurd hnone (hgapless w hw i hlt)
  · exact .inl

/-- A squad is sent to a point and its second slot is written, then it is sent to
another point and its fourth slot is written. The second slot was not written
since, but it reads as it did before. -/
theorem slot_of_former_order :
    let ops : List Op := [.setSlot 3 ⟨⟨9, 0, 9⟩, .guard⟩, .set ⟨100, 0, 100⟩ 10 60,
      .setSlot 1 ⟨⟨5, 0, 5⟩, .flanker⟩, .set ⟨0, 0, 0⟩ 0 60]
    (after ops).slot? 1 = some ⟨⟨5, 0, 5⟩, .flanker⟩ ∧
      (writes (sinceOrder ops)).lookup 1 = none := by
  exact ⟨rfl, rfl⟩

end Warband.Objective
