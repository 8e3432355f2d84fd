import Warband.Proofs.Numeric.Order
import Warband.Proofs.Squad.Hearing

/-!
# The tiers of a squad

The followers are ranked by their distance from the leader, equally close ones
by their number. An undefined distance comes last, and a follower without a
proper position counts as infinitely far away. Going through the ranks and
stopping at the first follower out of range finds everyone in range only because
the ranks are sorted: whoever is behind is not closer.

Infinity also stands for the distance to the nearest direct follower when there
is none. As long as the square of the range is not infinite, neither kind of
infinity is in range, and the tiers are what one expects.
-/
namespace Warband.Reach

open Warband.Numeric

variable {leader : Position} {range : Float32} {trusted : Nat} {followers : List Position}

/-! ## Ranks -/

/-- A follower is ranked before another one: it is closer, or as close with a smaller number. -/
def Ahead (leader : Position) (followers : List Position) (i j : Nat) : Prop :=
  (distanceOf leader followers i).precedes (distanceOf leader followers j) ∨
    (distanceOf leader followers j).precedes (distanceOf leader followers i) = false ∧ i < j

instance (leader : Position) (followers : List Position) (i j : Nat) :
    Decidable (Ahead leader followers i j) := inferInstanceAs (Decidable (_ ∨ _))

/-- The test that the ranking sorts by. -/
def noFarther (leader : Position) (followers : List Position) (i j : Nat) : Bool :=
  !(distanceOf leader followers j).precedes (distanceOf leader followers i)

theorem noFarther_iff {i j : Nat} : noFarther leader followers i j ↔
    (distanceOf leader followers j).isNaN ∨ (distanceOf leader followers i).isNaN = false ∧
      Single.altitude (distanceOf leader followers i) ≤
        Single.altitude (distanceOf leader followers j) := by
  rw [noFarther, Bool.not_eq_true', Single.precedes_eq_false_iff]

theorem noFarther_trans (leader : Position) (followers : List Position) (i j k : Nat)
    (hij : noFarther leader followers i j) (hjk : noFarther leader followers j k) :
    noFarther leader followers i k := by
  rw [noFarther_iff] at *
  rcases hjk with hk | ⟨hj, hjk⟩
  · exact .inl hk
  · rcases hij with hnan | ⟨hi, hij⟩
    · rw [hj] at hnan
      cases hnan
    · exact .inr ⟨hi, hij.trans hjk⟩

theorem noFarther_total (leader : Position) (followers : List Position) (i j : Nat) :
    noFarther leader followers i j || noFarther leader followers j i := by
  rw [Bool.or_eq_true, noFarther_iff, noFarther_iff]
  cases hi : (distanceOf leader followers i).isNaN with
  | true => exact .inr (.inl rfl)
  | false =>
      cases hj : (distanceOf leader followers j).isNaN with
      | true => exact .inl (.inl rfl)
      | false =>
          rcases Int.le_total (Single.altitude (distanceOf leader followers i))
            (Single.altitude (distanceOf leader followers j)) with h | h
          · exact .inl (.inr ⟨rfl, h⟩)
          · exact .inr (.inr ⟨rfl, h⟩)

theorem ranks_eq_mergeSort (leader : Position) (followers : List Position) :
    ranks leader followers =
      (List.range followers.length).mergeSort (noFarther leader followers) := by
  rw [ranks, ranking, zipIdx_numbered, List.map_mergeSort (s := noFarther leader followers)]
  · rw [List.map_map]
    exact congrArg (List.mergeSort · _) (List.map_id _)
  · rintro a ha b hb
    obtain ⟨i, -, rfl⟩ := List.mem_map.1 ha
    obtain ⟨j, -, rfl⟩ := List.mem_map.1 hb
    rfl

/-- The ranks are sorted, and equally close followers are in the order of their numbers. -/
theorem pairwise_ranks (leader : Position) (followers : List Position) :
    (ranks leader followers).Pairwise (Ahead leader followers) := by
  have hnodup := nodup_ranks leader followers
  rw [ranks_eq_mergeSort, ← List.mergeSort_zipIdx] at hnodup ⊢
  have hsorted := List.pairwise_mergeSort
    (List.zipIdxLE_trans (noFarther_trans leader followers))
    (List.zipIdxLE_total (noFarther_total leader followers)) (List.range followers.length).zipIdx
  refine List.pairwise_map.2 ((hsorted.and (List.pairwise_map.1 hnodup)).imp_of_mem ?_)
  have hnumber : ∀ {x : Nat × Nat}, x ∈ (List.range followers.length).zipIdx.mergeSort
      (List.zipIdxLE (noFarther leader followers)) → x.2 = x.1 := by
    intro x hx
    obtain ⟨-, -, hget⟩ := List.mem_zipIdx (List.mem_mergeSort.1 hx)
    rw [hget, List.getElem_range]
    exact (Nat.sub_zero _).symm
  intro x y hx hy hxy
  obtain ⟨hle, hne⟩ := hxy
  rw [List.zipIdxLE, hnumber hx, hnumber hy] at hle
  split at hle
  · rename_i hxy
    split at hle
    · rename_i hyx
      have hlt : x.1 < y.1 := lt_of_le_of_ne (of_decide_eq_true hle) hne
      exact .inr ⟨by simpa [noFarther] using hxy, hlt⟩
    · rename_i hyx
      exact .inl (by simpa [noFarther] using hyx)
  · cases hle

theorem Ahead.asymm {i j : Nat} (h : Ahead leader followers i j) :
    ¬ Ahead leader followers j i := by
  have htotal := noFarther_total leader followers i j
  unfold noFarther at htotal
  rintro (hback | ⟨hsame, hback⟩)
  · rcases h with hcloser | ⟨hsame, -⟩
    · simp [hback, hcloser] at htotal
    · rw [hback] at hsame
      cases hsame
  · rcases h with hcloser | ⟨-, hlt⟩
    · rw [hcloser] at hsame
      cases hsame
    · omega

/-- There is only one way to rank the followers. -/
theorem eq_ranks {order : List Nat} (hperm : order.Perm (List.range followers.length))
    (hsorted : order.Pairwise (Ahead leader followers)) : order = ranks leader followers :=
  List.Perm.eq_of_pairwise (fun _ _ _ _ h hback => absurd hback h.asymm) hsorted
    (pairwise_ranks leader followers) (hperm.trans (ranks_perm leader followers).symm)

/-! ## The direct followers -/

/-- If passing a test behind someone means that everyone before passes it, those that pass come
first. -/
theorem takeWhile_eq_take {α : Type} {p : α → Bool} {l : List α}
    (h : l.Pairwise fun a b => p b → p a) : l.takeWhile p = l.take (l.countP p) := by
  induction l with
  | nil => rfl
  | cons a l ih =>
      obtain ⟨hfirst, hrest⟩ := List.pairwise_cons.1 h
      cases hp : p a with
      | true =>
          rw [List.takeWhile_cons_of_pos hp, List.countP_cons_of_pos hp, List.take_succ_cons,
            ih hrest]
      | false =>
          have hnone : ∀ b ∈ l, ¬ p b := fun b hb hpb => by
            rw [hfirst b hb hpb] at hp
            cases hp
          rw [List.takeWhile_cons_of_neg (by simp [hp]), List.countP_cons_of_neg (by simp [hp]),
            List.countP_eq_zero.2 hnone, List.take_zero]

/-- The follower is in range of the leader. -/
def near (leader : Position) (range : Float32) (followers : List Position) (i : Nat) : Bool :=
  distanceOf leader followers i ≤ range * range

/-- Whoever is ranked before a follower in range is in range. -/
theorem near_of_ahead (range : Float32) {i j : Nat} (h : Ahead leader followers i j)
    (hj : near leader range followers j) : near leader range followers i := by
  have hle : noFarther leader followers i j := by
    rcases h with hcloser | ⟨hsame, -⟩
    · simpa [noFarther, hcloser] using noFarther_total leader followers i j
    · simpa [noFarther] using hsame
  rw [noFarther_iff] at hle
  rw [near, decide_eq_true_iff, Single.le_iff_altitude] at hj ⊢
  obtain ⟨hnan, hrange, hbound⟩ := hj
  rcases hle with hundefined | ⟨hi, hcloser⟩
  · rw [hnan] at hundefined
    cases hundefined
  · exact ⟨hi, hrange, hcloser.trans hbound⟩

/-- As many followers hear the leader directly as are trusted and in range, the first ones by
rank. -/
theorem directNumbers_eq (leader : Position) (range : Float32) (trusted : Nat)
    (followers : List Position) :
    directNumbers leader range trusted followers =
      (ranks leader followers).take
        (min trusted ((List.range followers.length).countP (near leader range followers))) := by
  have hprefix := takeWhile_eq_take
    ((pairwise_ranks leader followers).imp (near_of_ahead range))
  have hcount := (ranks_perm leader followers).countP_eq (near leader range followers)
  rw [directNumbers, ← hcount, ← List.take_take, ← hprefix]
  rfl

/-! ## The relayed followers -/

/-- The nearest of some positions is in range iff one of them is, or if infinity is. -/
theorem nearestSq_le_iff {position : Position} {others : List Position} {r : Float32} :
    nearestSq position others ≤ r ↔
      (∃ p ∈ others, position.horizontalDistanceSq p ≤ r) ∨ Float32.infinity ≤ r := by
  have hfold : ∀ (ds : List Float32) (d : Float32),
      ds.foldl Float32.smaller d ≤ r ↔ (∃ x ∈ ds, x ≤ r) ∨ d ≤ r := by
    intro ds
    induction ds with
    | nil => simp
    | cons x ds ih =>
        intro d
        rw [List.foldl_cons, ih, Single.smaller_le_iff, List.exists_mem_cons_iff,
          or_comm (a := d ≤ r), ← or_assoc, or_comm (b := x ≤ r)]
  rw [nearestSq, hfold]
  simp

/-- A follower with a proper position is in range of one that hears the leader. -/
def Overhears (range : Float32) (followers : List Position) (heard : List Nat) (i : Nat) : Prop :=
  (placeOf followers i).isFinite ∧
    ∃ j ∈ heard, (placeOf followers i).horizontalDistanceSq (placeOf followers j) ≤ range * range

instance (range : Float32) (followers : List Position) (heard : List Nat) (i : Nat) :
    Decidable (Overhears range followers heard i) := inferInstanceAs (Decidable (_ ∧ _))

/-- The tier of a follower by its number, as one expects it. -/
def expected (range : Float32) (followers : List Position) (heard : List Nat) (i : Nat) : Tier :=
  if i ∈ heard then .direct
  else if i < followers.length ∧ Overhears range followers heard i then .relayed
  else .none

/-- With a range that is not infinite, the tiers are as expected. -/
theorem tierOf_eq_expected (hrange : (range * range).isInf = false) {heard : List Nat} {i : Nat}
    (hi : i < followers.length) :
    tierOf range followers heard i = expected range followers heard i := by
  unfold expected
  by_cases hmem : i ∈ heard
  · rw [if_pos hmem, tierOf_of_mem hmem]
  · have hiff : ((placeOf followers i).isFinite &&
        nearestSq (placeOf followers i) (heard.map (placeOf followers)) ≤ range * range) = true ↔
        i < followers.length ∧ Overhears range followers heard i := by
      rw [Bool.and_eq_true, decide_eq_true_iff, nearestSq_le_iff,
        or_iff_left (Single.not_infinity_le hrange), and_iff_right hi, Overhears]
      simp only [List.mem_map, exists_exists_and_eq_and]
    rw [if_neg hmem, tierOf_of_not_mem range followers hmem]
    exact if_congr hiff rfl rfl

/-- The tiers of all slots; nobody is in the slots left over. -/
theorem tiers_eq_tierOf (leader : Position) (range : Float32) (trusted slots : Nat)
    (followers : List Position) :
    let considered := followers.take (min slots maxSquadSize)
    let heard := directNumbers leader range trusted considered
    tiers leader range trusted slots followers = (List.range slots).map fun i =>
      if i < considered.length then tierOf range considered heard i else .none := by
  intro considered heard
  have hsettled := congrArg Array.toList (settled_eq_tiers leader range trusted slots followers)
  refine hsettled.symm.trans (List.map_congr_left fun i _ => ?_)
  by_cases hi : i < considered.length
  · rw [if_pos hi, if_pos hi]
  · rw [if_neg hi, if_neg hi, if_neg fun h => hi (lt_of_mem_directNumbers h)]

theorem tiers_eq_expected (leader : Position) (hrange : (range * range).isInf = false)
    (trusted slots : Nat) (followers : List Position) :
    let considered := followers.take (min slots maxSquadSize)
    tiers leader range trusted slots followers = (List.range slots).map
      (expected range considered (directNumbers leader range trusted considered)) := by
  intro considered
  rw [tiers_eq_tierOf]
  refine List.map_congr_left fun i _ => ?_
  by_cases hi : i < considered.length
  · rw [if_pos hi, tierOf_eq_expected hrange hi]
  · have hmem : i ∉ directNumbers leader range trusted considered := fun h =>
      hi (lt_of_mem_directNumbers h)
    rw [if_neg hi, expected, if_neg hmem, if_neg fun h => hi h.1]

/-! ## A range that is not infinite -/

/-- With a range that is not infinite, the followers that hear the leader directly are the first
ones by rank, as many as are trusted and in range; whoever else is in range of one of them hears
the leader second-hand, and nobody else does. -/
theorem tiers_are_exact (leader : Position) {range : Float32}
    (hrange : (range * range).isInf = false) (trusted slots : Nat) (followers : List Position) :
    let considered := followers.take (min slots maxSquadSize)
    let n := min (min followers.length slots) maxSquadSize
    let out := tiers leader range trusted slots followers
    assign leader range trusted slots followers.toArray =
        .ok (out.toArray, out.countP (· != .none)) ∧
      ∃ order : List Nat, order.Perm (List.range n) ∧ order.Pairwise (Ahead leader considered) ∧
        let heard := order.take (min trusted ((List.range n).countP (near leader range considered)))
        out = (List.range slots).map (expected range considered heard) := by
  intro considered n out
  have hn : considered.length = n := by
    rw [List.length_take]
    omega
  have hout := tiers_eq_expected leader hrange trusted slots followers
  simp only [directNumbers_eq] at hout
  refine ⟨assign_ok leader range trusted slots followers, ranks leader considered, ?_,
    pairwise_ranks leader considered, ?_⟩
  · rw [← hn]
    exact ranks_perm leader considered
  · rw [← hn]
    exact hout

/-- Of two followers at the same distance the first one is direct; one that is out of the leader's
range is in range of it, and one has no proper position. -/
theorem tiers_of_five :
    let followers : List Position :=
      [⟨15, 0, 0⟩, ⟨8, 3, 0⟩, ⟨0, 0, 30⟩, ⟨.infinity, 0, 0⟩, ⟨0, 0, 8⟩]
    let out : List Tier := [.relayed, .direct, .none, .none, .none, .none]
    ((10 : Float32) * 10).isInf = false ∧ tiers .origin 10 1 6 followers = out ∧
      assign .origin 10 1 6 followers.toArray = .ok (out.toArray, 2) := by
  intro followers out
  have hrange : ((10 : Float32) * 10).isInf = false := by decide +kernel
  obtain ⟨hassign, order, hperm, hsorted, hout⟩ := tiers_are_exact .origin hrange 1 6 followers
  have horder : order = [1, 4, 0, 2, 3] :=
    (eq_ranks hperm hsorted).trans (eq_ranks (by decide) (by decide +kernel)).symm
  have hexpected : (List.range 6).map (expected 10 followers
      (order.take (min 1 ((List.range 5).countP (near .origin 10 followers))))) = out := by
    rw [horder]
    decide +kernel
  have htiers : tiers .origin 10 1 6 followers = out := hout.trans hexpected
  rw [htiers] at hassign
  exact ⟨hrange, htiers, hassign⟩

/-! ## Any range -/

/-- A follower that has a tier is one that is considered. -/
theorem tierOf_of_getElem? {slots i : Nat} {t : Tier}
    (h : (tiers leader range trusted slots followers)[i]? = some t) (ht : t ≠ .none) :
    let considered := followers.take (min slots maxSquadSize)
    i < considered.length ∧
      tierOf range considered (directNumbers leader range trusted considered) i = t := by
  intro considered
  rw [tiers_eq_tierOf, List.getElem?_map] at h
  obtain ⟨j, hj, hvalue⟩ := Option.map_eq_some_iff.1 h
  obtain ⟨hslot, rfl⟩ := List.getElem?_eq_some_iff.1 hj
  rw [List.getElem_range] at hvalue
  by_cases hi : i < considered.length
  · rw [if_pos hi] at hvalue
    exact ⟨hi, hvalue⟩
  · rw [if_neg hi] at hvalue
    exact absurd hvalue.symm ht

theorem getElem?_tiers (leader : Position) (range : Float32) (trusted : Nat) {slots i : Nat} :
    let considered := followers.take (min slots maxSquadSize)
    i < considered.length → (tiers leader range trusted slots followers)[i]? =
      some (tierOf range considered (directNumbers leader range trusted considered) i) := by
  intro considered hi
  have hslot : i < slots := by
    rw [List.length_take] at hi
    omega
  rw [tiers_eq_tierOf, List.getElem?_map, List.getElem?_range hslot, Option.map_some, if_pos hi]

/-- Whoever hears the leader directly is in range of it. -/
theorem near_of_mem_directNumbers {i : Nat}
    (h : i ∈ directNumbers leader range trusted followers) : near leader range followers i :=
  List.mem_takeWhile_imp (List.mem_of_mem_take h)

theorem getElem?_of_lt_take {m i : Nat} (h : i < (followers.take m).length) :
    followers[i]? = some (placeOf (followers.take m) i) := by
  have hlt : i < followers.length := h.trans_le (List.length_take_le' m followers)
  rw [placeOf_eq h, List.getElem_take, List.getElem?_eq_getElem hlt]

/-- Whoever is relayed has a proper position and is in range of a direct follower, unless the range
is infinite. -/
theorem tierOf_eq_relayed {heard : List Nat} {i : Nat}
    (h : tierOf range followers heard i = .relayed) :
    (placeOf followers i).isFinite ∧
      (Overhears range followers heard i ∨ Float32.infinity ≤ range * range) := by
  have hmem : i ∉ heard := fun hmem => by
    rw [tierOf_of_mem hmem] at h
    cases h
  rw [tierOf_of_not_mem range followers hmem] at h
  split at h
  · rename_i hrelay
    obtain ⟨hfinite, hnearest⟩ := Bool.and_eq_true_iff.1 hrelay
    refine ⟨hfinite, (nearestSq_le_iff.1 (of_decide_eq_true hnearest)).imp_left fun hnear => ?_⟩
    exact ⟨hfinite, by simpa using hnear⟩
  · cases h

/-- A follower without a proper position is in no range but an infinite one. -/
theorem infinity_le_of_direct {heard : List Nat} {i : Nat}
    (hheard : ∀ j ∈ heard, near leader range followers j)
    (hfinite : (placeOf followers i).isFinite = false)
    (h : tierOf range followers heard i = .direct) : Float32.infinity ≤ range * range := by
  by_cases hmem : i ∈ heard
  · have hnear := of_decide_eq_true (hheard i hmem)
    rwa [distanceOf, distanceSq, hfinite, if_neg Bool.false_ne_true] at hnear
  · rw [tierOf_of_not_mem range followers hmem, hfinite, Bool.false_and,
      if_neg Bool.false_ne_true] at h
    cases h

/-- An infinite range leaves out nobody who has a proper position. -/
theorem tierOf_ne_none {heard : List Nat} {i : Nat} (hrange : Float32.infinity ≤ range * range)
    (hfinite : (placeOf followers i).isFinite) : tierOf range followers heard i ≠ .none := by
  by_cases hmem : i ∈ heard
  · rw [tierOf_of_mem hmem]
    decide
  · rw [tierOf_of_not_mem range followers hmem, if_pos]
    · decide
    · rw [hfinite, Bool.true_and]
      exact decide_eq_true (nearestSq_le_iff.2 (.inr hrange))

/-- Only a range that overflows reaches further than it says: a follower without a proper position
may then be direct, though never relayed, and one may be relayed with nobody in range of it. -/
theorem reach_is_justified (leader : Position) (range : Float32) (trusted slots : Nat)
    (followers : List Position) :
    let out := tiers leader range trusted slots followers
    (∀ (i : Nat) (p : Position), followers[i]? = some p → p.isFinite = false →
      out[i]? ≠ some .relayed ∧ (out[i]? = some .direct → (range * range).isInf)) ∧
    (∀ i : Nat, out[i]? = some .relayed → ∃ p, followers[i]? = some p ∧ p.isFinite ∧
      ((∃ (j : Nat) (q : Position), out[j]? = some .direct ∧ followers[j]? = some q ∧
        p.horizontalDistanceSq q ≤ range * range) ∨ (range * range).isInf)) ∧
    ((range * range).isInf → ∀ (i : Nat) (p : Position), i < min slots maxSquadSize →
      followers[i]? = some p → p.isFinite → out[i]? ≠ some .none) := by
  intro out
  have hinf : Float32.infinity ≤ range * range → (range * range).isInf := fun hle =>
    Bool.of_not_eq_false fun hfinite => Single.not_infinity_le hfinite hle
  refine ⟨fun i p hp hfinite => ⟨fun hrelayed => ?_, fun hdirect => hinf ?_⟩, fun i hrelayed => ?_,
    fun hrange i p hi hp hfinite => ?_⟩
  · obtain ⟨hi, htier⟩ := tierOf_of_getElem? hrelayed (by decide)
    obtain rfl := Option.some.inj (hp.symm.trans (getElem?_of_lt_take hi))
    rw [(tierOf_eq_relayed htier).1] at hfinite
    cases hfinite
  · obtain ⟨hi, htier⟩ := tierOf_of_getElem? hdirect (by decide)
    obtain rfl := Option.some.inj (hp.symm.trans (getElem?_of_lt_take hi))
    exact infinity_le_of_direct (fun j hj => near_of_mem_directNumbers hj) hfinite htier
  · obtain ⟨hi, htier⟩ := tierOf_of_getElem? hrelayed (by decide)
    obtain ⟨hfinite, hreach⟩ := tierOf_eq_relayed htier
    refine ⟨_, getElem?_of_lt_take hi, hfinite, hreach.imp ?_ hinf⟩
    rintro ⟨-, j, hj, hnear⟩
    have hlt := lt_of_mem_directNumbers hj
    have hdirect := getElem?_tiers leader range trusted hlt
    rw [tierOf_of_mem hj] at hdirect
    exact ⟨j, _, hdirect, getElem?_of_lt_take hlt, hnear⟩
  · have hlt : i < (followers.take (min slots maxSquadSize)).length := by
      have hlength := (List.getElem?_eq_some_iff.1 hp).1
      rw [List.length_take]
      omega
    obtain rfl := Option.some.inj (hp.symm.trans (getElem?_of_lt_take hlt))
    have hget : out[i]? = _ := getElem?_tiers leader range trusted hlt
    rw [hget, Ne, Option.some_inj]
    exact tierOf_ne_none (Single.infinity_le_square hrange) hfinite

/-- In a range of ten a follower without a proper position has no tier, and one that is out of
range of the leader is in range of one that hears it. -/
theorem reach_of_three :
    let nowhere : Position := ⟨.ofBits 0x7fc00000, 0, 0⟩
    let followers : List Position := [nowhere, ⟨8, 0, 0⟩, ⟨15, 0, 0⟩]
    let out := tiers .origin 10 1 3 followers
    nowhere.isFinite = false ∧ out = [.none, .direct, .relayed] ∧ out[0]? ≠ some .relayed ∧
      ∃ (j : Nat) (q : Position), out[j]? = some .direct ∧ followers[j]? = some q ∧
        (⟨15, 0, 0⟩ : Position).horizontalDistanceSq q ≤ 10 * 10 := by
  intro nowhere followers out
  have hfinite : nowhere.isFinite = false := by decide +kernel
  have hranks : ranks .origin (followers.take (min 3 maxSquadSize)) = [1, 2, 0] :=
    (eq_ranks (by decide) (by decide +kernel)).symm
  have hout : out = [.none, .direct, .relayed] := by
    rw [show out = _ from tiers_eq_tierOf .origin 10 1 3 followers]
    simp only [directNumbers, hranks]
    decide +kernel
  obtain ⟨hnowhere, hrelayed, -⟩ := reach_is_justified .origin 10 1 3 followers
  obtain ⟨p, hp, -, hreach⟩ := hrelayed 2 (congrArg (·[2]?) hout)
  obtain rfl : p = ⟨15, 0, 0⟩ := (Option.some.inj hp).symm
  exact ⟨hfinite, hout, (hnowhere 0 nowhere rfl hfinite).1,
    hreach.resolve_right (by decide +kernel)⟩

/-- The square of a range of 1e20 overflows. Then a follower without a proper position hears the
leader directly, and one that hears it second-hand need not have anybody to hear it from. -/
theorem reach_of_overflowing_range :
    let range : Float32 := 1e20
    let nowhere : Position := ⟨.ofBits 0x7fc00000, 0, 0⟩
    0 ≤ range ∧ nowhere.isFinite = false ∧ tiers .origin range 1 1 [nowhere] = [.direct] ∧
      tiers .origin range 0 1 [.origin] = [.relayed] := by
  intro range nowhere
  have hranks : ∀ p : Position, ranks .origin ([p].take (min 1 maxSquadSize)) = [0] := fun p =>
    (eq_ranks (List.Perm.refl _) (List.pairwise_singleton _ _)).symm
  refine ⟨by decide +kernel, by decide +kernel, ?_, ?_⟩
  · rw [tiers_eq_tierOf]
    simp only [directNumbers, hranks]
    decide +kernel
  · rw [tiers_eq_tierOf]
    simp only [directNumbers, hranks]
    decide +kernel

end Warband.Reach
