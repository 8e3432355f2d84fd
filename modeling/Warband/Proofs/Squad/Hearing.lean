import Mathlib.Data.List.TakeWhile
import Warband.Proofs.Cells
import Warband.Squad.Reach

/-!
# Who hears the leader, found in place

The tiers of a squad can be found in three buffers as large as a squad can be:
the followers in the order of their distances, the distances, and those that
hear the leader directly. Every access of these loops is checked here. As many
followers are considered as fit into the buffers, so all accesses are in range,
and the loops find the tiers. Those that are marked are counted along the way, each
of them once, so the count is the number of followers reached.
-/
namespace Warband

/-- A pass in which no step stops goes through. -/
theorem mapM_ok {ε α β : Type} {f : α → Except ε β} {g : α → β} {l : List α}
    (h : ∀ x ∈ l, f x = .ok (g x)) : l.mapM f = .ok (l.map g) := by
  induction l with
  | nil => rfl
  | cons a l ih =>
      rw [List.mapM_cons, h a List.mem_cons_self, ih fun x hx => h x (List.mem_cons_of_mem a hx)]
      rfl

namespace Reach

open Cells

section loops

variable (leader : Position) (range : Float32) (trusted : Nat)

/-- Numbers the followers and measures how far they are; a distance that is undefined stays
infinite. -/
def measure (followers : Array Position) :
    (k i : Nat) → Array Nat → Array Float32 → Checked (Array Nat × Array Float32)
  | 0, _, order, distances => .ok (order, distances)
  | k + 1, i, order, distances => do
    let order ← write order i i
    let p ← read followers i
    if p.isFinite then
      let distances ← write distances i (p.horizontalDistanceSq leader)
      measure followers k (i + 1) order distances
    else measure followers k (i + 1) order distances

/-- Sorts the first `n` numbers by distance, the lower number first of two at the same. -/
def sortByDistance (n : Nat) (order : Array Nat) (distances : Array Float32) :
    Checked (List Nat) := do
  let numbers ← front order n
  let keyed ← numbers.mapM fun i => do
    let d ← read distances i
    .ok (i, d)
  .ok ((keyed.mergeSort fun a b => !b.2.precedes a.2).map (·.1))

/-- Marks the closest followers as direct until enough are or one is out of range, and lists
them. -/
def markDirect (distances : Array Float32) :
    List Nat → Array Tier → Array Nat → (count : Nat) → Checked (Array Tier × Array Nat × Nat)
  | [], out, direct, count => .ok (out, direct, count)
  | i :: order, out, direct, count =>
    if trusted ≤ count then .ok (out, direct, count)
    else do
      let d ← read distances i
      if d ≤ range * range then
        let out ← write out i .direct
        let direct ← write direct count i
        markDirect distances order out direct (count + 1)
      else .ok (out, direct, count)

/-- Marks what is left of the followers as relayed if they are in range of a direct one, and goes
on counting who is reached. -/
def countRelayed (followers : Array Position) (direct : List Nat) :
    (k i : Nat) → Array Tier → (reached : Nat) → Checked (Array Tier × Nat)
  | 0, _, out, reached => .ok (out, reached)
  | k + 1, i, out, reached => do
    let t ← read out i
    if t = .direct then countRelayed followers direct k (i + 1) out reached
    else
      let p ← read followers i
      if p.isFinite then
        let others ← direct.mapM (read followers)
        if nearestSq p others ≤ range * range then
          let out ← write out i .relayed
          countRelayed followers direct k (i + 1) out (reached + 1)
        else countRelayed followers direct k (i + 1) out reached
      else countRelayed followers direct k (i + 1) out reached

/-- The tiers of `slots` followers and how many of them are reached. -/
def assign (slots : Nat) (followers : Array Position) : Checked (Array Tier × Nat) := do
  let n := min (min followers.size slots) maxSquadSize
  let (order, distances) ← measure leader followers n 0 (filled maxSquadSize 0 [])
    (filled maxSquadSize .infinity [])
  let order ← sortByDistance n order distances
  let (out, direct, count) ← markDirect range trusted distances order
    (Array.replicate slots .none) (filled maxSquadSize 0 []) 0
  let direct ← front direct count
  countRelayed range followers direct n 0 out count

end loops

variable {leader : Position} {range : Float32} {trusted : Nat} {followers : List Position}
  {cells : Array Position}

/-- The position of a follower by its number. -/
def placeOf (followers : List Position) (i : Nat) : Position := followers.getD i .origin

theorem placeOf_eq {i : Nat} (h : i < followers.length) : placeOf followers i = followers[i] := by
  rw [placeOf, List.getD_eq_getElem?_getD, List.getElem?_eq_getElem h, Option.getD_some]

/-- The followers stand in the first cells. -/
def InFront (followers : List Position) (cells : Array Position) : Prop :=
  ∀ i < followers.length, read cells i = .ok (placeOf followers i)

theorem inFront_take (followers : List Position) (m : Nat) :
    InFront (followers.take m) followers.toArray := by
  intro i hi
  have hlt : i < followers.length := Nat.lt_of_lt_of_le hi (List.length_take_le' m followers)
  refine read_of_getElem? ?_
  rw [List.getElem?_toArray, List.getElem?_eq_getElem hlt, placeOf_eq hi, List.getElem_take]

/-- The distance of a follower by its number. -/
def distanceOf (leader : Position) (followers : List Position) (i : Nat) : Float32 :=
  distanceSq leader (placeOf followers i)

theorem measure_ok (leader : Position) (hcells : InFront followers cells)
    (hmax : followers.length ≤ maxSquadSize) {k i : Nat} (hend : i + k = followers.length) :
    measure leader cells k i (filled maxSquadSize 0 (List.range i))
        (filled maxSquadSize .infinity ((List.range i).map (distanceOf leader followers))) =
      .ok (filled maxSquadSize 0 (List.range followers.length),
        filled maxSquadSize .infinity
          ((List.range followers.length).map (distanceOf leader followers))) := by
  induction k generalizing i with
  | zero =>
      have hi : i = followers.length := hend
      rw [hi]
      rfl
  | succ k ih =>
      have hwrite : write (filled maxSquadSize 0 (List.range i)) i i =
          .ok (filled maxSquadSize 0 (List.range (i + 1))) := by
        rw [List.range_succ]
        exact write_filled List.length_range (by omega) i
      have hlength : ((List.range i).map (distanceOf leader followers)).length = i := by
        rw [List.length_map, List.length_range]
      have hnext := ih (i := i + 1) (by omega)
      rw [measure]
      simp only [hwrite, hcells i (by omega), bind, Except.bind]
      have hmap : (List.range (i + 1)).map (distanceOf leader followers) =
          (List.range i).map (distanceOf leader followers) ++ [distanceOf leader followers i] := by
        rw [List.range_succ, List.map_append, List.map_singleton]
      by_cases hfinite : (placeOf followers i).isFinite
      · have hd : distanceOf leader followers i =
            (placeOf followers i).horizontalDistanceSq leader := if_pos hfinite
        have hwriteD : write (filled maxSquadSize .infinity
              ((List.range i).map (distanceOf leader followers))) i
              (distanceOf leader followers i) = .ok (filled maxSquadSize .infinity
                ((List.range (i + 1)).map (distanceOf leader followers))) := by
          rw [hmap]
          exact write_filled hlength (by omega) _
        simp only [if_pos hfinite, ← hd, hwriteD]
        exact hnext
      · have hd : distanceOf leader followers i = .infinity := if_neg hfinite
        rw [hd] at hmap
        rw [hmap, filled_blank (by omega)] at hnext
        simp only [if_neg hfinite]
        exact hnext

/-- The numbers of the followers, the closest first. -/
def ranks (leader : Position) (followers : List Position) : List Nat :=
  (ranking leader followers).map (·.1)

theorem zipIdx_numbered (followers : List Position) :
    followers.zipIdx.map (fun (p, i) => (i, p)) =
      (List.range followers.length).map fun i => (i, placeOf followers i) := by
  refine List.ext_getElem (by simp) fun i h₁ h₂ => ?_
  simp [placeOf, List.getElem?_eq_getElem (show i < followers.length by simpa using h₂)]

theorem mem_ranking {x : Nat × Position} (h : x ∈ ranking leader followers) :
    x.1 < followers.length ∧ x.2 = placeOf followers x.1 := by
  rw [ranking, List.mem_mergeSort, zipIdx_numbered, List.mem_map] at h
  obtain ⟨i, hi, rfl⟩ := h
  exact ⟨List.mem_range.1 hi, rfl⟩

theorem lt_of_mem_ranks {i : Nat} (h : i ∈ ranks leader followers) : i < followers.length := by
  obtain ⟨x, hx, rfl⟩ := List.mem_map.1 h
  exact (mem_ranking hx).1

theorem length_ranks (leader : Position) (followers : List Position) :
    (ranks leader followers).length = followers.length := by
  simp [ranks, ranking]

theorem ranks_perm (leader : Position) (followers : List Position) :
    (ranks leader followers).Perm (List.range followers.length) := by
  have hnumbers : (followers.zipIdx.map fun (p, i) => (i, p)).map (·.1) =
      List.range followers.length := by
    rw [zipIdx_numbered, List.map_map]
    exact List.map_id _
  rw [← hnumbers]
  exact (List.mergeSort_perm _ _).map _

theorem nodup_ranks (leader : Position) (followers : List Position) :
    (ranks leader followers).Nodup :=
  (ranks_perm leader followers).nodup_iff.2 List.nodup_range

theorem ranking_eq (leader : Position) (followers : List Position) :
    ranking leader followers =
      (ranks leader followers).map fun i => (i, placeOf followers i) := by
  rw [ranks, List.map_map]
  refine (List.map_id _).symm.trans (List.map_congr_left fun x hx => ?_)
  rw [Function.comp_apply, ← (mem_ranking hx).2]
  rfl

/-- Sorting the numbers by their distances is ranking the followers. -/
theorem sortByDistance_ok (leader : Position) (followers : List Position) :
    sortByDistance followers.length (filled maxSquadSize 0 (List.range followers.length))
        (filled maxSquadSize .infinity
          ((List.range followers.length).map (distanceOf leader followers))) =
      .ok (ranks leader followers) := by
  have hfront : front (filled maxSquadSize 0 (List.range followers.length)) followers.length =
      .ok (List.range followers.length) := front_filled List.length_range
  have hread : ∀ i ∈ List.range followers.length, (do
      let d ← read (filled maxSquadSize .infinity
        ((List.range followers.length).map (distanceOf leader followers))) i
      .ok (i, d) : Checked (Nat × Float32)) = .ok (i, distanceOf leader followers i) := by
    intro i hi
    have hd : ((List.range followers.length).map (distanceOf leader followers))[i]? =
        some (distanceOf leader followers i) := by
      rw [List.getElem?_map, List.getElem?_range (List.mem_range.1 hi), Option.map_some]
    rw [read_filled hd]
    rfl
  have hsort : ((List.range followers.length).map fun i =>
        (i, distanceOf leader followers i)).mergeSort (fun a b => !b.2.precedes a.2) =
        (ranking leader followers).map fun x => (x.1, distanceSq leader x.2) := by
    have hkeyed : (List.range followers.length).map (fun i => (i, distanceOf leader followers i)) =
        (followers.zipIdx.map fun (p, i) => (i, p)).map fun x => (x.1, distanceSq leader x.2) := by
      rw [zipIdx_numbered, List.map_map]
      rfl
    rw [hkeyed]
    exact (List.map_mergeSort (f := fun x : Nat × Position => (x.1, distanceSq leader x.2))
      fun _ _ _ _ => rfl).symm
  rw [sortByDistance, hfront]
  simp only [bind, Except.bind] at hread ⊢
  rw [mapM_ok hread]
  simp only [hsort, List.map_map]
  rfl

/-! ## The direct followers -/

/-- Tiers in which some followers are direct and nobody else is in reach. -/
def marked (slots : Nat) (heard : List Nat) : Array Tier :=
  ((List.range slots).map fun i => if i ∈ heard then Tier.direct else .none).toArray

theorem write_marked {slots i : Nat} (hi : i < slots) (heard : List Nat) :
    write (marked slots heard) i .direct = .ok (marked slots (heard ++ [i])) := by
  rw [write_of_lt (by simpa [marked] using hi)]
  refine congrArg Except.ok (Array.ext_getElem? fun j => ?_)
  rw [Array.getElem?_setIfInBounds]
  by_cases hij : i = j
  · subst hij
    simp [marked, hi]
  · by_cases hj : j < slots
    · simp [marked, hij, Ne.symm hij, hj]
    · simp [marked, hij, hj]

/-- The numbers that come to be direct, from an order of which some have been taken. -/
theorem markDirect_ok (trusted : Nat) {slots : Nat} {distances : Array Float32} {d : Nat → Float32}
    {order heard : List Nat} (hread : ∀ i ∈ order, read distances i = .ok (d i))
    (hslots : ∀ i ∈ order, i < slots) (hroom : heard.length + order.length ≤ maxSquadSize) :
    let now := (order.takeWhile fun i => d i ≤ range * range).take (trusted - heard.length)
    markDirect range trusted distances order (marked slots heard) (filled maxSquadSize 0 heard)
        heard.length =
      .ok (marked slots (heard ++ now), filled maxSquadSize 0 (heard ++ now),
        (heard ++ now).length) := by
  intro now
  induction order generalizing heard with
  | nil =>
      have hnow : now = [] := by simp [now]
      rw [hnow, List.append_nil]
      rfl
  | cons i order ih =>
      rw [List.length_cons] at hroom
      rw [markDirect]
      by_cases henough : trusted ≤ heard.length
      · have hnow : now = [] := by simp [now, Nat.sub_eq_zero_of_le henough]
        rw [if_pos henough, hnow, List.append_nil]
      · simp only [if_neg henough, hread i List.mem_cons_self, bind, Except.bind]
        by_cases hnear : d i ≤ range * range
        · have hroom' : (heard ++ [i]).length + order.length ≤ maxSquadSize := by
            rw [List.length_append, List.length_singleton]
            omega
          have hrest := ih (fun j hj => hread j (List.mem_cons_of_mem i hj))
            (fun j hj => hslots j (List.mem_cons_of_mem i hj)) hroom'
          have hnow : heard ++ now = heard ++ [i] ++ ((order.takeWhile fun i =>
              d i ≤ range * range).take (trusted - (heard ++ [i]).length)) := by
            have hleft : trusted - heard.length = trusted - (heard ++ [i]).length + 1 := by
              rw [List.length_append, List.length_singleton]
              omega
            simp only [now, List.takeWhile_cons, hnear, decide_true, if_true, hleft,
              List.take_succ_cons, List.append_assoc, List.singleton_append]
          have hwrite : write (filled maxSquadSize 0 heard) heard.length i =
              .ok (filled maxSquadSize 0 (heard ++ [i])) := write_filled rfl (by omega) i
          rw [if_pos hnear, write_marked (hslots i List.mem_cons_self)]
          simp only [hwrite, hnow]
          rw [List.length_append, List.length_singleton] at hrest
          simpa using hrest
        · have hnow : now = [] := by simp [now, hnear]
          rw [if_neg hnear, hnow, List.append_nil]

/-! ## The relayed followers -/

/-- The tier of a follower by its number, given the numbers of those that are direct. -/
def tierOf (range : Float32) (followers : List Position) (heard : List Nat) (i : Nat) : Tier :=
  tier range (heard.map fun j => (j, placeOf followers j)) i (placeOf followers i)

/-- Tiers that are settled for the followers before number `i`. -/
def settled (range : Float32) (followers : List Position) (slots : Nat) (heard : List Nat)
    (i : Nat) : Array Tier :=
  ((List.range slots).map fun j =>
    if j < i then tierOf range followers heard j else if j ∈ heard then .direct else .none).toArray

theorem tierOf_of_mem {heard : List Nat} {i : Nat} (h : i ∈ heard) :
    tierOf range followers heard i = .direct := by
  rw [tierOf, tier, if_pos]
  simpa [List.any_map] using h

theorem tierOf_of_not_mem (range : Float32) (followers : List Position) {heard : List Nat} {i : Nat}
    (h : i ∉ heard) :
    tierOf range followers heard i =
      if (placeOf followers i).isFinite &&
          nearestSq (placeOf followers i) (heard.map (placeOf followers)) ≤ range * range
        then .relayed else .none := by
  have hany : ((heard.map fun j => (j, placeOf followers j)).any fun x => decide (x.1 = i)) =
      false := by
    rw [List.any_map, List.any_eq_false]
    intro j hj
    simpa using fun hji : j = i => h (hji ▸ hj)
  rw [tierOf, tier, hany, List.map_map]
  rfl

/-- A tier that has been found is written where the marks stand. -/
theorem write_settled (range : Float32) (followers : List Position) (heard : List Nat)
    {slots i : Nat} (hi : i < slots) :
    write (settled range followers slots heard i) i (tierOf range followers heard i) =
      .ok (settled range followers slots heard (i + 1)) := by
  rw [write_of_lt (by simpa [settled] using hi)]
  refine congrArg Except.ok (Array.ext_getElem? fun j => ?_)
  rw [Array.getElem?_setIfInBounds]
  by_cases hij : i = j
  · subst hij
    simp [settled, hi]
  · have hiff : j < i ↔ j < i + 1 := by omega
    by_cases hj : j < slots
    · simp [settled, hij, hj, hiff]
    · simp [settled, hij, hj]

/-- A mark that is the tier already stays. -/
theorem settled_succ {slots i : Nat} {heard : List Nat}
    (h : tierOf range followers heard i = if i ∈ heard then .direct else .none) :
    settled range followers slots heard (i + 1) = settled range followers slots heard i := by
  refine congrArg List.toArray (List.map_congr_left fun j _ => ?_)
  rcases Nat.lt_trichotomy j i with hlt | rfl | hgt
  · rw [if_pos hlt, if_pos (by omega)]
  · rw [if_pos (Nat.lt_succ_self j), if_neg (Nat.lt_irrefl j), h]
  · rw [if_neg (show ¬ j < i + 1 by omega), if_neg (show ¬ j < i by omega)]

/-- How many followers have been reached by now. -/
def reached (out : Array Tier) : Nat := out.countP (· != .none)

theorem reached_mark {out : Array Tier} {i : Nat} (h : out[i]? = some .none) :
    reached (out.setIfInBounds i .relayed) = reached out + 1 := by
  obtain ⟨hi, hget⟩ := Array.getElem?_eq_some_iff.1 h
  rw [Array.setIfInBounds_def, dif_pos hi, reached, Array.countP_set, hget]
  rfl

theorem reached_marked {slots : Nat} {heard : List Nat} (hnodup : heard.Nodup)
    (hslots : ∀ i ∈ heard, i < slots) : reached (marked slots heard) = heard.length := by
  have hperm : ((List.range slots).filter (· ∈ heard)).Perm heard := by
    refine (List.perm_ext_iff_of_nodup (List.nodup_range.filter _) hnodup).2 fun i => ?_
    rw [List.mem_filter, List.mem_range, decide_eq_true_iff]
    exact and_iff_right_of_imp (hslots i)
  rw [reached, marked, List.countP_toArray, List.countP_map, ← hperm.length_eq,
    ← List.countP_eq_length_filter]
  refine List.countP_congr fun i _ => ?_
  by_cases hi : i ∈ heard <;> simp [hi]

/-- A follower that is relayed is one more. -/
theorem reached_settled_succ {slots i : Nat} {heard : List Nat} (hi : i < slots) (hmem : i ∉ heard)
    (h : tierOf range followers heard i = .relayed) :
    reached (settled range followers slots heard (i + 1)) =
      reached (settled range followers slots heard i) + 1 := by
  have hwrite := write_settled range followers heard hi
  rw [h, write_of_lt (by simpa [settled] using hi)] at hwrite
  rw [← Except.ok.inj hwrite]
  exact reached_mark (by simp [settled, hi, hmem])

theorem countRelayed_ok (range : Float32) (hcells : InFront followers cells) {slots : Nat}
    {heard : List Nat} (hslots : followers.length ≤ slots)
    (hheard : ∀ j ∈ heard, j < followers.length) {k i : Nat} (hend : i + k = followers.length) :
    countRelayed range cells heard k i (settled range followers slots heard i)
        (reached (settled range followers slots heard i)) =
      .ok (settled range followers slots heard followers.length,
        reached (settled range followers slots heard followers.length)) := by
  induction k generalizing i with
  | zero =>
      have hi : i = followers.length := hend
      rw [hi]
      rfl
  | succ k ih =>
      have hlt : i < slots := by omega
      have hnext := ih (i := i + 1) (by omega)
      have hread : read (settled range followers slots heard i) i =
          .ok (if i ∈ heard then .direct else .none) := by
        refine read_of_getElem? ?_
        simp [settled, hlt]
      have hothers : heard.mapM (read cells) = .ok (heard.map (placeOf followers)) :=
        mapM_ok fun j hj => hcells j (hheard j hj)
      rw [countRelayed]
      simp only [hread, hcells i (by omega), hothers, bind, Except.bind]
      by_cases hmem : i ∈ heard
      · rw [settled_succ (by rw [tierOf_of_mem hmem, if_pos hmem])] at hnext
        simp only [if_pos hmem, if_true]
        exact hnext
      · have htier := tierOf_of_not_mem range followers hmem
        simp only [if_neg hmem, reduceCtorEq, if_false]
        by_cases hrelay : (placeOf followers i).isFinite &&
            nearestSq (placeOf followers i) (heard.map (placeOf followers)) ≤ range * range
        · obtain ⟨hfinite, hnear⟩ := Bool.and_eq_true_iff.1 hrelay
          rw [if_pos hrelay] at htier
          have hwrite := write_settled range followers heard hlt
          rw [htier] at hwrite
          rw [reached_settled_succ hlt hmem htier] at hnext
          simp only [if_pos hfinite, if_pos (of_decide_eq_true hnear), hwrite]
          exact hnext
        · rw [if_neg hrelay] at htier
          rw [settled_succ (by rw [htier, if_neg hmem])] at hnext
          by_cases hfinite : (placeOf followers i).isFinite
          · have hfar : ¬ nearestSq (placeOf followers i) (heard.map (placeOf followers)) ≤
                range * range := by simpa [hfinite] using hrelay
            simp only [if_pos hfinite, if_neg hfar]
            exact hnext
          · simp only [if_neg hfinite]
            exact hnext

/-! ## All tiers -/

/-- The numbers of the followers that hear the leader directly. -/
def directNumbers (leader : Position) (range : Float32) (trusted : Nat)
    (followers : List Position) : List Nat :=
  ((ranks leader followers).takeWhile fun i =>
    distanceOf leader followers i ≤ range * range).take trusted

theorem direct_eq (leader : Position) (range : Float32) (trusted : Nat)
    (followers : List Position) :
    direct leader range trusted followers =
      (directNumbers leader range trusted followers).map fun i => (i, placeOf followers i) := by
  rw [direct, ranking_eq, List.takeWhile_map, directNumbers, List.map_take]
  rfl

theorem lt_of_mem_directNumbers {i : Nat} (h : i ∈ directNumbers leader range trusted followers) :
    i < followers.length :=
  lt_of_mem_ranks ((List.takeWhile_sublist _).mem (List.mem_of_mem_take h))

theorem nodup_directNumbers (leader : Position) (range : Float32) (trusted : Nat)
    (followers : List Position) : (directNumbers leader range trusted followers).Nodup :=
  (nodup_ranks leader followers).sublist
    ((List.take_sublist _ _).trans (List.takeWhile_sublist _))

/-- The tiers of the followers that are considered; nobody is in reach of the slots left over. -/
theorem settled_eq_tiers (leader : Position) (range : Float32) (trusted slots : Nat)
    (followers : List Position) :
    let considered := followers.take (min slots maxSquadSize)
    settled range considered slots (directNumbers leader range trusted considered)
        considered.length = (tiers leader range trusted slots followers).toArray := by
  intro considered
  have hlen : considered.length ≤ slots := by
    rw [List.length_take]
    omega
  refine congrArg List.toArray (List.ext_getElem (by simp) fun j h₁ h₂ => ?_)
  simp only [tiers, direct_eq, List.getElem_append, List.getElem_map, List.getElem_range]
  by_cases hj : j < considered.length
  · rw [if_pos hj, dif_pos (by rwa [List.length_map, List.length_zipIdx]), List.getElem_zipIdx,
      tierOf, placeOf_eq hj, Nat.zero_add]
  · have hmem : j ∉ directNumbers leader range trusted considered := fun h =>
      hj (lt_of_mem_directNumbers h)
    rw [if_neg hj, if_neg hmem, dif_neg (by rwa [List.length_map, List.length_zipIdx]),
      List.getElem_replicate]

/-- Marking goes through the followers by rank and finds those that hear the leader. -/
theorem markDirect_ranks (leader : Position) (range : Float32) (trusted : Nat) {slots : Nat}
    (hslots : followers.length ≤ slots) (hmax : followers.length ≤ maxSquadSize) :
    let heard := directNumbers leader range trusted followers
    markDirect range trusted
        (filled maxSquadSize .infinity
          ((List.range followers.length).map (distanceOf leader followers)))
        (ranks leader followers) (Array.replicate slots .none) (filled maxSquadSize 0 []) 0 =
      .ok (marked slots heard, filled maxSquadSize 0 heard, heard.length) := by
  have hread : ∀ i ∈ ranks leader followers,
      read (filled maxSquadSize .infinity
          ((List.range followers.length).map (distanceOf leader followers))) i =
        .ok (distanceOf leader followers i) := by
    intro i hi
    refine read_filled ?_
    rw [List.getElem?_map, List.getElem?_range (lt_of_mem_ranks hi), Option.map_some]
  have hmarks : Array.replicate slots Tier.none = marked slots [] :=
    Array.ext_getElem? fun j => by by_cases hj : j < slots <;> simp [marked, hj]
  have hroom : ([] : List Nat).length + (ranks leader followers).length ≤ maxSquadSize := by
    rwa [List.length_nil, Nat.zero_add, length_ranks]
  rw [hmarks]
  exact markDirect_ok trusted hread
    (fun i hi => Nat.lt_of_lt_of_le (lt_of_mem_ranks hi) hslots) hroom

/-- The tiers are assigned with no access out of range, and the count is right. -/
theorem assign_ok (leader : Position) (range : Float32) (trusted slots : Nat)
    (followers : List Position) :
    let out := tiers leader range trusted slots followers
    assign leader range trusted slots followers.toArray = .ok (out.toArray, reachable out) := by
  intro out
  have hout := settled_eq_tiers leader range trusted slots followers
  have hn : min (min followers.length slots) maxSquadSize =
      (followers.take (min slots maxSquadSize)).length := by
    rw [List.length_take]
    omega
  have hcells := inFront_take followers (min slots maxSquadSize)
  have hslots : (followers.take (min slots maxSquadSize)).length ≤ slots := by omega
  have hmax : (followers.take (min slots maxSquadSize)).length ≤ maxSquadSize := by omega
  simp only at hout
  generalize followers.take (min slots maxSquadSize) = considered at hn hcells hslots hmax hout
  let heard := directNumbers leader range trusted considered
  have hheard : ∀ j ∈ heard, j < considered.length := fun j hj => lt_of_mem_directNumbers hj
  have hcount : reached (marked slots heard) = heard.length :=
    reached_marked (nodup_directNumbers ..) fun j hj => (hheard j hj).trans_le hslots
  have hmeasure : measure leader followers.toArray considered.length 0 (filled maxSquadSize 0 [])
      (filled maxSquadSize .infinity []) = _ := measure_ok leader hcells hmax (Nat.zero_add _)
  have hrelayed : countRelayed range followers.toArray heard considered.length 0
      (marked slots heard) (reached (marked slots heard)) = _ :=
    countRelayed_ok range hcells hslots hheard (Nat.zero_add _)
  rw [hcount] at hrelayed
  rw [assign, List.size_toArray, hn]
  simp only [hmeasure, sortByDistance_ok, markDirect_ranks leader range trusted hslots hmax,
    front_filled rfl, bind, Except.bind]
  refine hrelayed.trans ?_
  rw [hout]
  exact congrArg (fun n => Except.ok (out.toArray, n)) List.countP_toArray

end Reach

end Warband
