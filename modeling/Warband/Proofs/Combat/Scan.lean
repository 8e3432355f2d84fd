import Warband.Proofs.Cells
import Warband.Proofs.Combat.Partition

/-!
# The scan for clusters

The clusters can be found in place, with a table that marks the slots that have
been given away. A scan takes the slots in turn; the first one that is eligible
and not marked becomes a seed, and the slots behind it are gone through for
what joins it. The scan stops when there are enough clusters. The table is kept
between scans, but each scan starts it anew with one mark for each slot.

What is pending at a slot are the eligible slots from there on that are not
marked. The slots behind a seed give it what joins it, and what is left of them
is pending for the next seed. So the scan makes the greedy partition, and no
access of it is out of range.
-/
namespace Warband.Combat.Log

open Cells

section scan

variable (l : Log) (now : Time) (maxAge radiusSq : Float32)

/-- Goes through `k` slots from slot `j` on for what joins a draft. -/
def gather : (k j : Nat) → Array Bool → Draft → Checked (Array Bool × Draft)
  | 0, _, marks, d => .ok (marks, d)
  | k + 1, j, marks, d => do
    let taken ← read marks j
    if taken then gather k (j + 1) marks d
    else
      let e ← read l.slots j
      if e.clusters now maxAge && d.takes radiusSq e then
        let marks ← write marks j true
        gather k (j + 1) marks (d.absorb e)
      else gather k (j + 1) marks d

/-- Goes through `k` slots from slot `i` on for seeds. -/
def seek (limit : Nat) : (k i : Nat) → Array Bool → List Cluster →
    Checked (List Cluster × Array Bool)
  | 0, _, marks, found => .ok (found, marks)
  | k + 1, i, marks, found =>
    if limit ≤ found.length then .ok (found, marks)
    else do
      let taken ← read marks i
      if taken then seek limit k (i + 1) marks found
      else
        let e ← read l.slots i
        if e.clusters now maxAge then
          let marks ← write marks i true
          let (marks, d) ← l.gather now maxAge radiusSq k (i + 1) marks (.ofSeed e)
          seek limit k (i + 1) marks (found ++ [d.finish])
        else seek limit k (i + 1) marks found

/-- The clusters of the log, found with a table of marks that is left over from some other scan,
and the table as it is left. -/
def scan (limit : Nat) (marks : Array Bool) : Checked (List Cluster × Array Bool) :=
  l.seek now maxAge radiusSq limit l.slots.size 0
    (marks.shrink 0 ++ Array.replicate l.slots.size false) []

/-- The slot with its number, if it is eligible and not marked. -/
def open? (marks : Array Bool) (i : Nat) : Option (Event × Nat) :=
  (l.slots[i]?.filter fun e => e.clusters now maxAge && marks[i]? == some false).map fun e => (e, i)

/-- The slots among `k` from slot `i` on that are pending. -/
def pending (marks : Array Bool) (i k : Nat) : List (Event × Nat) :=
  (List.range' i k).filterMap (l.open? now maxAge marks)

end scan

variable {l : Log} {now : Time} {maxAge radiusSq : Float32} {marks : Array Bool}

theorem pending_succ (i k : Nat) :
    l.pending now maxAge marks i (k + 1) =
      (l.open? now maxAge marks i).toList ++ l.pending now maxAge marks (i + 1) k := by
  rw [pending, List.range'_succ, List.filterMap_cons]
  cases l.open? now maxAge marks i <;> rfl

theorem open?_congr {other : Array Bool} {i : Nat} (h : other[i]? = marks[i]?) :
    l.open? now maxAge other i = l.open? now maxAge marks i := by
  rw [open?, open?, h]

/-- Marks of slots that come earlier do not count. -/
theorem pending_congr {other : Array Bool} {i : Nat} (h : ∀ j, i ≤ j → other[j]? = marks[j]?)
    (k : Nat) : l.pending now maxAge other i k = l.pending now maxAge marks i k := by
  exact List.filterMap_congr fun j hj => open?_congr (h j (List.mem_range'_1.1 hj).1)

theorem open?_marked (l : Log) (now : Time) (maxAge : Float32) {i : Nat}
    (h : marks[i]? = some true) : l.open? now maxAge marks i = none := by
  simp [open?, h]

theorem open?_free (now : Time) (maxAge : Float32) {i : Nat} {e : Event}
    (hmark : marks[i]? = some false) (he : l.slots[i]? = some e) :
    l.open? now maxAge marks i = if e.clusters now maxAge then some (e, i) else none := by
  rw [open?, hmark, he]
  cases h : e.clusters now maxAge <;> simp [Option.filter, h]

/-! ## One seed -/

/-- What the slots behind a seed have come to once they have been gone through. -/
structure Gathered (l : Log) (now : Time) (maxAge radiusSq : Float32) (marks : Array Bool)
    (j k : Nat) (d : Draft) (marks' : Array Bool) (d' : Draft) : Prop where
  size : marks'.size = marks.size
  /-- The marks of earlier slots are as before. -/
  earlier : ∀ i, i < j → marks'[i]? = marks[i]?
  draft : d' = (((l.pending now maxAge marks j k).map Prod.fst).filter
    (d.takes radiusSq)).foldl Draft.absorb d
  pending : l.pending now maxAge marks' j k =
    (l.pending now maxAge marks j k).filter fun x => !d.takes radiusSq x.1

/-- One slot before those that have been gone through. -/
theorem Gathered.step {j k : Nat} {d d₁ d' : Draft} {marks₁ marks' : Array Bool}
    (h : Gathered l now maxAge radiusSq marks₁ (j + 1) k d₁ marks' d')
    (hsize : marks₁.size = marks.size) (hother : ∀ i, i ≠ j → marks₁[i]? = marks[i]?)
    (hseed : d₁.takes radiusSq = d.takes radiusSq)
    (hdraft : d₁ = (((l.open? now maxAge marks j).toList.map Prod.fst).filter
      (d.takes radiusSq)).foldl Draft.absorb d)
    (hopen : (l.open? now maxAge marks₁ j).toList =
      (l.open? now maxAge marks j).toList.filter fun x => !d.takes radiusSq x.1) :
    Gathered l now maxAge radiusSq marks j (k + 1) d marks' d' := by
  have hrest : l.pending now maxAge marks₁ (j + 1) k = l.pending now maxAge marks (j + 1) k :=
    pending_congr (fun i hi => hother i (by omega)) k
  have hdraft' := h.draft
  have hpending := h.pending
  rw [hseed, hrest] at hdraft' hpending
  exact {
    size := h.size.trans hsize
    earlier := fun i hi => (h.earlier i (by omega)).trans (hother i (by omega))
    draft := by
      rw [pending_succ, List.map_append, List.filter_append, List.foldl_append, ← hdraft]
      exact hdraft'
    pending := by
      rw [pending_succ, pending_succ, open?_congr (h.earlier j (by omega)), hopen, hpending,
        List.filter_append] }

theorem gather_ok (now : Time) (maxAge radiusSq : Float32) {j k : Nat}
    (hend : j + k = l.slots.size) (hsize : marks.size = l.slots.size) (d : Draft) :
    ∃ marks' d', l.gather now maxAge radiusSq k j marks d = .ok (marks', d') ∧
      Gathered l now maxAge radiusSq marks j k d marks' d' := by
  induction k generalizing j marks d with
  | zero => exact ⟨marks, d, rfl, rfl, fun _ _ => rfl, rfl, rfl⟩
  | succ k ih =>
      obtain ⟨mark, hmark⟩ : ∃ mark, marks[j]? = some mark :=
        ⟨_, Array.getElem?_eq_getElem (by omega)⟩
      obtain ⟨e, he⟩ : ∃ e, l.slots[j]? = some e := ⟨_, Array.getElem?_eq_getElem (by omega)⟩
      have hnext : j + 1 + k = l.slots.size := by omega
      simp only [gather, read_of_getElem? hmark, read_of_getElem? he, bind, Except.bind]
      cases mark with
      | true =>
          obtain ⟨marks', d', hrun, h⟩ := ih hnext hsize d
          have hopen := open?_marked l now maxAge hmark
          refine ⟨marks', d', hrun, h.step rfl (fun _ _ => rfl) rfl ?_ ?_⟩
          · simp [hopen]
          · simp [hopen]
      | false =>
          have hopen := open?_free now maxAge hmark he
          by_cases hjoin : e.clusters now maxAge && d.takes radiusSq e
          · have hlt : j < marks.size := by omega
            have hmarked : (marks.setIfInBounds j true)[j]? = some true :=
              Array.getElem?_setIfInBounds_self_of_lt hlt
            have hclosed := open?_marked l now maxAge hmarked
            obtain ⟨helig, htakes⟩ := Bool.and_eq_true_iff.1 hjoin
            rw [if_pos helig] at hopen
            have hsize₁ : (marks.setIfInBounds j true).size = l.slots.size := by
              rw [Array.size_setIfInBounds, hsize]
            obtain ⟨marks', d', hrun, h⟩ := ih hnext hsize₁ (d.absorb e)
            simp only [hjoin, if_true, write_of_lt hlt]
            refine ⟨marks', d', hrun, h.step Array.size_setIfInBounds
              (fun i hi => Array.getElem?_setIfInBounds_ne hi.symm) rfl ?_ ?_⟩
            · simp [hopen, htakes]
            · simp [hopen, hclosed, htakes]
          · obtain ⟨marks', d', hrun, h⟩ := ih hnext hsize d
            simp only [hjoin]
            refine ⟨marks', d', hrun, h.step rfl (fun _ _ => rfl) rfl ?_ ?_⟩
            all_goals
              rw [hopen]
              cases helig : e.clusters now maxAge <;> simp_all

/-! ## All seeds -/

/-- The first clusters of a list of slots. -/
def firstClusters (radiusSq : Float32) (room : Nat) (slots : List (Event × Nat)) : List Cluster :=
  ((partition (fun s e => joins radiusSq s.1 e.1) slots).take room).map
    fun g => (g.map Prod.fst).draft.finish

theorem firstClusters_cons (room : Nat) (seed : Event × Nat) (rest : List (Event × Nat)) :
    firstClusters radiusSq (room + 1) (seed :: rest) =
      (((rest.map Prod.fst).filter ((Draft.ofSeed seed.1).takes radiusSq)).foldl Draft.absorb
          (.ofSeed seed.1)).finish ::
        firstClusters radiusSq room
          (rest.filter fun x => !(Draft.ofSeed seed.1).takes radiusSq x.1) := by
  rw [firstClusters, partition_cons, List.take_succ_cons, List.map_cons, List.filter_map]
  rfl

theorem seek_ok (now : Time) (maxAge radiusSq : Float32) (limit : Nat) {i k : Nat}
    (hend : i + k = l.slots.size) (hsize : marks.size = l.slots.size) (found : List Cluster) :
    ∃ marks', l.seek now maxAge radiusSq limit k i marks found =
      .ok (found ++ firstClusters radiusSq (limit - found.length) (l.pending now maxAge marks i k),
        marks') := by
  induction k generalizing i marks found with
  | zero =>
      refine ⟨marks, ?_⟩
      have hnone : l.pending now maxAge marks i 0 = [] := rfl
      rw [hnone, firstClusters, partition_nil, List.take_nil, List.map_nil, List.append_nil]
      rfl
  | succ k ih =>
      by_cases hfull : limit ≤ found.length
      · refine ⟨marks, ?_⟩
        rw [Nat.sub_eq_zero_of_le hfull, firstClusters, List.take_zero, List.map_nil,
          List.append_nil, seek, if_pos hfull]
      · obtain ⟨mark, hmark⟩ : ∃ mark, marks[i]? = some mark :=
          ⟨_, Array.getElem?_eq_getElem (by omega)⟩
        obtain ⟨e, he⟩ : ∃ e, l.slots[i]? = some e := ⟨_, Array.getElem?_eq_getElem (by omega)⟩
        have hnext : i + 1 + k = l.slots.size := by omega
        simp only [seek, if_neg hfull, read_of_getElem? hmark, read_of_getElem? he, bind,
          Except.bind]
        rw [pending_succ]
        cases mark with
        | true =>
            rw [open?_marked l now maxAge hmark]
            exact ih hnext hsize found
        | false =>
            rw [open?_free now maxAge hmark he]
            cases helig : e.clusters now maxAge with
            | false => exact ih hnext hsize found
            | true =>
                have hlt : i < marks.size := by omega
                have hsize₁ : (marks.setIfInBounds i true).size = l.slots.size := by
                  rw [Array.size_setIfInBounds, hsize]
                obtain ⟨marks', d', hrun, h⟩ :=
                  gather_ok now maxAge radiusSq hnext hsize₁ (.ofSeed e)
                obtain ⟨last, hlast⟩ := ih hnext (h.size.trans hsize₁) (found ++ [d'.finish])
                have hbehind : l.pending now maxAge (marks.setIfInBounds i true) (i + 1) k =
                    l.pending now maxAge marks (i + 1) k :=
                  pending_congr (fun j hj => Array.getElem?_setIfInBounds_ne (by omega)) k
                have hroom : limit - found.length = limit - (found ++ [d'.finish]).length + 1 := by
                  rw [List.length_append, List.length_singleton]
                  omega
                have hdraft := h.draft
                have hpending := h.pending
                rw [hbehind] at hdraft hpending
                refine ⟨last, ?_⟩
                simp only [if_true, write_of_lt hlt, hrun, hlast]
                rw [hroom, Option.toList_some, List.singleton_append, firstClusters_cons, ← hdraft,
                  ← hpending, List.append_assoc]
                rfl

/-! ## The whole scan -/

/-- With nothing marked, the eligible slots are pending. -/
theorem pending_unmarked {i k : Nat} (hend : i + k = l.slots.size) :
    l.pending now maxAge (Array.replicate l.slots.size false) i k =
      ((l.slots.toList.drop i).zipIdx i).filter fun x => x.1.clusters now maxAge := by
  induction k generalizing i with
  | zero =>
      have hdrop : l.slots.toList.drop i = [] := List.drop_of_length_le (by simp; omega)
      rw [hdrop]
      rfl
  | succ k ih =>
      have hlt : i < l.slots.size := by omega
      have hmark : (Array.replicate l.slots.size false)[i]? = some false := by simp [hlt]
      have hdrop : l.slots.toList.drop i = l.slots[i] :: l.slots.toList.drop (i + 1) :=
        List.drop_eq_getElem_cons (by simpa using hlt)
      rw [pending_succ, open?_free now maxAge hmark (Array.getElem?_eq_getElem hlt),
        ih (by omega), hdrop, List.zipIdx_cons, List.filter_cons]
      cases h : (l.slots[i]).clusters now maxAge <;> simp

/-- Whatever its table was used for before, a scan stays in range and finds the clusters. -/
theorem scan_ok (l : Log) (now : Time) (maxAge radiusSq : Float32) (limit : Nat)
    (marks : Array Bool) :
    ∃ marks', l.scan now maxAge radiusSq limit marks =
      .ok (l.clusters now maxAge radiusSq limit, marks') := by
  have htable : marks.shrink 0 ++ Array.replicate l.slots.size false =
      Array.replicate l.slots.size false := by simp
  have hpending : l.pending now maxAge (Array.replicate l.slots.size false) 0 l.slots.size =
      l.eligible now maxAge := pending_unmarked (Nat.zero_add _)
  obtain ⟨marks', hseek⟩ := seek_ok now maxAge radiusSq limit (Nat.zero_add l.slots.size)
    Array.size_replicate []
  refine ⟨marks', ?_⟩
  rw [scan, htable, hseek, hpending, clusters_eq]
  rfl

end Warband.Combat.Log
