import Mathlib.Data.List.Rotate
import Warband.Metrics.Timer
import Warband.Proofs.Combat.Ring
import Warband.Proofs.Numeric.Double

/-!
# The window of a timer

A timer describes the last durations, as many as its ring has cells. Duration number k
is kept in cell k mod 256 until number k + 256 takes its place, so what is kept is the
window of the last durations, turned around by the cell that is written next. While the
ring is not full the kept cells are the ones written so far.

A percentile is the duration with a certain number in ascending order. Which duration
has a number can be told by counting the smaller ones and those that are not greater, so
it is a matter of the multiset. The numbers are found in double precision; for as many
durations as a ring holds they are the exact percentages, rounded down.
-/
namespace Warband.Metrics

/-! ## The ring -/

namespace Timer

/-- A new timer after some durations, the oldest one first. -/
def session (budget : Duration) (durations : List Duration) : Timer :=
  durations.foldl record (ofBudget budget)

/-- The last durations, as many as are kept. -/
def window (durations : List Duration) : List Duration :=
  durations.drop (durations.length - history)

theorem length_window (durations : List Duration) :
    (window durations).length = min durations.length history := by
  rw [window, List.length_drop]
  omega

/-- A timer whose ring keeps the last of some durations. -/
structure Keeps (t : Timer) (past : List Duration) : Prop where
  size : t.ring.size = history
  next : t.next = past.length % history
  count : t.count = past.length
  held : ∀ k d, past[k]? = some d → past.length ≤ k + history → t.ring[k % history]? = some d

theorem keeps_ofBudget (budget : Duration) : Keeps (ofBudget budget) [] where
  size := Array.size_replicate
  next := rfl
  count := rfl
  held _ _ h := by cases h

namespace Keeps

variable {t : Timer} {past : List Duration}

theorem record (h : Keeps t past) (d : Duration) : Keeps (t.record d) (past ++ [d]) := by
  have hnext : t.next < t.ring.size := by
    rw [h.next, h.size]
    exact Nat.mod_lt _ (by decide)
  have hlen : (past ++ [d]).length = past.length + 1 := by simp
  refine ⟨Array.size_setIfInBounds.trans h.size, ?_, ?_, fun k e hk hroom => ?_⟩
  · change (t.next + 1) % history = _
    rw [h.next, Nat.mod_add_mod, hlen]
  · rw [count_record, h.count, hlen]
  · change (t.ring.setIfInBounds t.next d)[k % history]? = some e
    rw [hlen] at hroom
    rcases Nat.lt_or_ge k past.length with hold | hnew
    · rw [List.getElem?_append_left hold] at hk
      have hne : t.next ≠ k % history := by
        rw [h.next]
        exact (Combat.Log.mod_ne_mod hold (by omega)).symm
      rw [Array.getElem?_setIfInBounds_ne hne]
      exact h.held k e hk (by omega)
    · have hlt : k < past.length + 1 := hlen ▸ (List.getElem?_eq_some_iff.1 hk).1
      have hlast : k = past.length := by omega
      subst hlast
      rw [List.getElem?_concat_length] at hk
      rw [← h.next, Array.getElem?_setIfInBounds_self_of_lt hnext, hk]

theorem foldl (h : Keeps t past) (durations : List Duration) :
    Keeps (durations.foldl Timer.record t) (past ++ durations) := by
  induction durations generalizing t past with
  | nil => rwa [List.append_nil]
  | cons d durations ih =>
      rw [List.append_cons]
      exact ih (h.record d)

theorem length_kept (h : Keeps t past) : t.kept.length = min past.length history := by
  rw [kept, List.length_take, Array.length_toList, h.size, h.count]
  omega

/-- Counting from the cell that is written next, cell `i` belongs to entry `i` of the
window. -/
theorem cell_eq (h : Keeps t past) {i : Nat} (hi : i < min past.length history) :
    (i + t.next) % min past.length history = (past.length - history + i) % history := by
  have hhistory : history = 256 := rfl
  rw [h.next, hhistory] at *
  rcases Nat.lt_or_ge past.length 256 with hfew | hmany
  · rw [Nat.min_eq_left hfew.le, Nat.mod_eq_of_lt hfew, Nat.add_mod_right]
    rw [Nat.mod_eq_of_lt (by omega), Nat.mod_eq_of_lt (by omega)]
    omega
  · rw [Nat.min_eq_right hmany]
    omega

/-- The cells that are kept are the window, turned around. -/
theorem rotate_kept (h : Keeps t past) : t.kept.rotate t.next = window past := by
  refine List.ext_getElem? fun i => ?_
  rcases Nat.lt_or_ge i (min past.length history) with hi | hi
  · have hk : past.length - history + i < past.length := by omega
    have hcell : (past.length - history + i) % history < min t.count history := by
      rw [← h.cell_eq hi, h.count]
      exact Nat.mod_lt _ (by omega)
    rw [List.getElem?_rotate (h.length_kept ▸ hi), h.length_kept, h.cell_eq hi, kept,
      List.getElem?_take_of_lt hcell, Array.getElem?_toList, window, List.getElem?_drop,
      List.getElem?_eq_getElem hk]
    exact h.held _ _ (List.getElem?_eq_getElem hk) (by omega)
  · rw [List.getElem?_eq_none, List.getElem?_eq_none]
    · rwa [length_window]
    · rwa [List.length_rotate, h.length_kept]

theorem kept_perm (h : Keeps t past) : t.kept.Perm (window past) :=
  h.rotate_kept ▸ (List.rotate_perm t.kept t.next).symm

end Keeps

theorem keeps_session (budget : Duration) (durations : List Duration) :
    Keeps (session budget durations) durations :=
  (keeps_ofBudget budget).foldl durations

end Timer

/-! ## Order -/

theorem Duration.rank_injective {d e : Duration} (h : d.rank = e.rank) : d = e := by
  obtain ⟨bits⟩ := d
  obtain ⟨bits'⟩ := e
  exact congrArg Duration.mk (UInt64.toNat_inj.1 (Numeric.Format.rank_injective _ h))

/-- A duration that has number `k` among some durations in ascending order, the least one
being number zero. -/
structure HasNumber (durations : List Duration) (k : Nat) (d : Duration) : Prop where
  mem : d ∈ durations
  before : durations.countP (·.rank < d.rank) ≤ k
  upTo : k < durations.countP (·.rank ≤ d.rank)

namespace HasNumber

variable {durations others : List Duration} {k l : Nat} {d e : Duration}

theorem rank_le (hd : HasNumber durations k d) (he : HasNumber durations l e) (hkl : k ≤ l) :
    d.rank ≤ e.rank := by
  by_contra hlt
  have hcount : durations.countP (·.rank ≤ e.rank) ≤ durations.countP (·.rank < d.rank) := by
    refine List.countP_mono_left fun x _ hx => ?_
    simp only [decide_eq_true_eq] at hx ⊢
    omega
  have hbefore := hd.before
  have hupTo := he.upTo
  omega

theorem unique (hd : HasNumber durations k d) (he : HasNumber durations k e) : d = e :=
  Duration.rank_injective (le_antisymm (hd.rank_le he le_rfl) (he.rank_le hd le_rfl))

theorem perm (h : HasNumber durations k d) (hperm : durations.Perm others) :
    HasNumber others k d where
  mem := hperm.mem_iff.1 h.mem
  before := hperm.countP_eq _ ▸ h.before
  upTo := hperm.countP_eq _ ▸ h.upTo

/-- The last number is that of the greatest duration. -/
theorem greatest (h : HasNumber durations (durations.length - 1) d) :
    ∀ e ∈ durations, e.rank ≤ d.rank := by
  have hall : durations.countP (·.rank ≤ d.rank) = durations.length := by
    have hle : durations.countP (·.rank ≤ d.rank) ≤ durations.length := List.countP_le_length
    have hupTo := h.upTo
    omega
  exact fun e he => of_decide_eq_true (List.countP_eq_length.1 hall e he)

theorem of_sorted (hsorted : durations.Pairwise fun d e => d.rank ≤ e.rank)
    (hk : durations[k]? = some d) : HasNumber durations k d := by
  obtain ⟨hlt, hd⟩ := List.getElem?_eq_some_iff.1 hk
  have hsplit : durations = durations.take k ++ d :: durations.drop (k + 1) := by
    rw [← hd, List.getElem_cons_drop, List.take_append_drop]
  have hlen : (durations.take k).length = k := List.length_take_of_le hlt.le
  generalize durations.take k = smaller, durations.drop (k + 1) = greater at hsplit hlen
  subst hsplit
  obtain ⟨-, hgreater, hbelow⟩ := List.pairwise_append.1 hsorted
  refine ⟨List.mem_of_getElem? hk, ?_, ?_⟩
  · have hnone : (d :: greater).countP (·.rank < d.rank) = 0 := by
      refine List.countP_eq_zero.2 fun e he => ?_
      have hle : d.rank ≤ e.rank := by
        rcases List.mem_cons.1 he with rfl | he
        · exact le_rfl
        · exact (List.pairwise_cons.1 hgreater).1 e he
      simpa using hle
    rw [List.countP_append, hnone, ← hlen]
    exact List.countP_le_length
  · have hall : smaller.countP (·.rank ≤ d.rank) = smaller.length :=
      List.countP_eq_length.2 fun e he => decide_eq_true (hbelow e he d List.mem_cons_self)
    have hself : 0 < (d :: greater).countP (·.rank ≤ d.rank) :=
      List.countP_pos_iff.2 ⟨d, List.mem_cons_self, decide_eq_true le_rfl⟩
    rw [List.countP_append, hall, hlen]
    omega

end HasNumber

/-! ## Percentiles -/

/-- What percentiles say of some durations. -/
structure Describes (p : Percentiles) (budget : Duration) (durations : List Duration) : Prop where
  p50 : HasNumber durations (durations.length * 50 / 100) p.p50
  p95 : HasNumber durations (durations.length * 95 / 100) p.p95
  p99 : HasNumber durations (durations.length * 99 / 100) p.p99
  max : HasNumber durations (durations.length - 1) p.max
  overBudget : p.overBudget =
    Float.ofNat (durations.countP fun d => budget.toFloat < d.toFloat) /
      Float.ofNat durations.length

namespace Describes

variable {p q : Percentiles} {budget : Duration} {durations others : List Duration}

theorem perm (h : Describes p budget durations) (hperm : durations.Perm others) :
    Describes p budget others where
  p50 := hperm.length_eq ▸ h.p50.perm hperm
  p95 := hperm.length_eq ▸ h.p95.perm hperm
  p99 := hperm.length_eq ▸ h.p99.perm hperm
  max := hperm.length_eq ▸ h.max.perm hperm
  overBudget := by rw [h.overBudget, hperm.countP_eq, hperm.length_eq]

theorem unique (hp : Describes p budget durations) (hq : Describes q budget durations) : p = q := by
  obtain ⟨p50, p95, p99, max, overBudget⟩ := p
  obtain ⟨q50, q95, q99, max', overBudget'⟩ := q
  obtain rfl : p50 = q50 := hp.p50.unique hq.p50
  obtain rfl : p95 = q95 := hp.p95.unique hq.p95
  obtain rfl : p99 = q99 := hp.p99.unique hq.p99
  obtain rfl : max = max' := hp.max.unique hq.max
  obtain rfl : overBudget = overBudget' := hp.overBudget.trans hq.overBudget.symm
  rfl

end Describes

namespace Timer

open Numeric.Double

/-- The rounded product of a whole number and a fraction has the whole part of the percentage. -/
def Exact (m percent n : Nat) : Prop :=
  (share n m).log2 = 52 ∧
    share n m / 2 ^ (105 - n.log2 - surplus n m) = n * percent / 100

instance (m percent n : Nat) : Decidable (Exact m percent n) :=
  inferInstanceAs (Decidable (_ ∧ _))

theorem full_half : Full 0.5 (2 ^ 52) (-53) where
  pos := by decide
  log := by decide
  parts := rfl

/-- The double next to 0.95. -/
theorem full_p95 : Full 0.95 8556839292003942 (-53) where
  pos := by decide
  log := by decide
  parts := rfl

/-- The double next to 0.99. -/
theorem full_p99 : Full 0.99 8917127262193582 (-53) where
  pos := by decide
  log := by decide
  parts := rfl

/-- The products are rounded, but never past a whole number. -/
theorem exact_places : ∀ n ≤ history, 0 < n →
    Exact (2 ^ 52) 50 n ∧ Exact 8556839292003942 95 n ∧ Exact 8917127262193582 99 n := by
  decide +kernel

theorem Exact.place {m percent n : Nat} {fraction : Float} (h : Exact m percent n)
    (hfull : Full fraction m (-53)) (hpos : 0 < n) (hle : n ≤ history) :
    (Float.ofNat n * fraction).toUInt64.toNat = n * percent / 100 :=
  (toUInt64_share hpos (hle.trans_lt (by decide)) hfull h.1).trans h.2

/-- Durations in ascending order. -/
def ascending (durations : List Duration) : List Duration :=
  durations.mergeSort fun a b => a.rank ≤ b.rank

theorem ascending_perm (durations : List Duration) : (ascending durations).Perm durations :=
  List.mergeSort_perm durations _

theorem pairwise_ascending (durations : List Duration) :
    (ascending durations).Pairwise fun d e => d.rank ≤ e.rank := by
  have htrans : ∀ a b c : Duration, decide (a.rank ≤ b.rank) → decide (b.rank ≤ c.rank) →
      decide (a.rank ≤ c.rank) := by
    simpa using fun a b c : Duration => le_trans
  have htotal : ∀ a b : Duration, decide (a.rank ≤ b.rank) || decide (b.rank ≤ a.rank) := by
    simpa using fun a b : Duration => le_total a.rank b.rank
  exact (List.pairwise_mergeSort htrans htotal durations).imp of_decide_eq_true

theorem quantile_number {sorted : List Duration} {fraction : Float} {k : Nat}
    (hsorted : sorted.Pairwise fun d e => d.rank ≤ e.rank)
    (hplace : (Float.ofNat sorted.length * fraction).toUInt64.toNat = k) (hk : k < sorted.length) :
    HasNumber sorted k (quantile sorted fraction) := by
  refine .of_sorted hsorted ?_
  have hmin : min k (sorted.length - 1) = k := by omega
  rw [quantile, hplace]
  simp [hmin, hk]

theorem percentiles_of_kept {t : Timer} (h : t.kept ≠ []) :
    t.percentiles =
      { p50 := quantile (ascending t.kept) 0.5
        p95 := quantile (ascending t.kept) 0.95
        p99 := quantile (ascending t.kept) 0.99
        max := (ascending t.kept).getLastD .zero
        overBudget := t.overBudget (ascending t.kept) } := by
  have hne : (ascending t.kept).isEmpty = false := by
    rw [List.isEmpty_eq_false_iff]
    exact fun hnil => h (List.nil_perm.1 (hnil ▸ ascending_perm t.kept))
  unfold percentiles
  exact if_neg (Bool.eq_false_iff.1 hne)

theorem Keeps.describes {t : Timer} {past : List Duration} (h : Keeps t past) (hne : past ≠ []) :
    Describes t.percentiles t.budget (window past) := by
  have hperm : (ascending t.kept).Perm (window past) := (ascending_perm _).trans h.kept_perm
  have hlen : (ascending t.kept).length = min past.length history :=
    hperm.length_eq.trans (length_window past)
  have hpos : 0 < past.length := List.length_pos_iff.2 hne
  have hhistory : 0 < history := by decide
  have hkept : t.kept ≠ [] := by
    rw [← List.length_pos_iff, h.length_kept]
    omega
  have hsorted := pairwise_ascending t.kept
  rw [percentiles_of_kept hkept]
  generalize ascending t.kept = sorted at hperm hlen hsorted
  obtain ⟨h50, h95, h99⟩ := exact_places sorted.length (by omega) (by omega)
  have hmax : HasNumber sorted (sorted.length - 1) (sorted.getLastD .zero) := by
    refine .of_sorted hsorted ?_
    have hlast : sorted.length - 1 < sorted.length := by omega
    rw [List.getLastD_eq_getLast?, List.getLast?_eq_getElem?, List.getElem?_eq_getElem hlast,
      Option.getD_some]
  have hplace : ∀ {m percent : Nat} {fraction : Float}, Exact m percent sorted.length →
      Full fraction m (-53) → percent < 100 →
      HasNumber sorted (sorted.length * percent / 100) (quantile sorted fraction) := by
    intro m percent fraction hexact hfull hpercent
    exact quantile_number hsorted (hexact.place hfull (by omega) (by omega))
      ((Nat.div_lt_iff_lt_mul (by omega)).2 (Nat.mul_lt_mul_of_pos_left hpercent (by omega)))
  exact Describes.perm ⟨hplace h50 full_half (by omega), hplace h95 full_p95 (by omega),
    hplace h99 full_p99 (by omega), hmax, rfl⟩ hperm

theorem budget_foldl (t : Timer) (durations : List Duration) :
    (durations.foldl record t).budget = t.budget := by
  induction durations generalizing t with
  | nil => rfl
  | cons d durations ih => exact ih (t.record d)

/-- The percentiles of a timer describe the window of what it recorded. -/
theorem describes_session (budget : Duration) {durations : List Duration} (hne : durations ≠ []) :
    Describes (session budget durations).percentiles budget (window durations) := by
  have h := (keeps_session budget durations).describes hne
  rwa [session, budget_foldl] at h

end Timer

/-- The percentiles describe the last durations and nothing else. Each is one of them,
and together they are in order, up to the greatest one; the share over the budget is
taken of as many. Another timer with the same budget and the same last durations, in
whatever order and after whatever others, has the same percentiles. -/
theorem percentiles_describe_window (budget first : Duration) (rest : List Duration) :
    let recorded := first :: rest
    let last := Timer.window recorded
    let n := last.length
    let p := (Timer.session budget recorded).percentiles
    n = min recorded.length 256 ∧
      (HasNumber last (n * 50 / 100) p.p50 ∧ HasNumber last (n * 95 / 100) p.p95 ∧
        HasNumber last (n * 99 / 100) p.p99 ∧ HasNumber last (n - 1) p.max) ∧
      (p.p50 ∈ last ∧ p.p95 ∈ last ∧ p.p99 ∈ last ∧ p.max ∈ last) ∧
      (p.p50.rank ≤ p.p95.rank ∧ p.p95.rank ≤ p.p99.rank ∧ p.p99.rank ≤ p.max.rank) ∧
      (∀ d ∈ last, d.rank ≤ p.max.rank) ∧
      p.overBudget =
        Float.ofNat (last.countP fun d => budget.toFloat < d.toFloat) / Float.ofNat n ∧
      ∀ others, (Timer.window others).Perm last →
        (Timer.session budget others).percentiles = p := by
  intro recorded last n p
  have hn : n = min recorded.length 256 := Timer.length_window recorded
  have hpos : 0 < n := by
    have hrecorded : 0 < recorded.length := Nat.succ_pos rest.length
    omega
  have h : Describes p budget last := Timer.describes_session budget (List.cons_ne_nil first rest)
  refine ⟨hn, ⟨h.p50, h.p95, h.p99, h.max⟩, ⟨h.p50.mem, h.p95.mem, h.p99.mem, h.max.mem⟩,
    ⟨h.p50.rank_le h.p95 (by omega), h.p95.rank_le h.p99 (by omega),
      h.p99.rank_le h.max (by omega)⟩, h.max.greatest, h.overBudget, fun others hperm => ?_⟩
  have hne : others ≠ [] := by
    rintro rfl
    exact hpos.ne (hperm.length_eq.symm.trans rfl).symm
  exact ((Timer.describes_session budget hne).perm hperm).unique h

end Warband.Metrics
