import Warband.Numeric.Comparison

/-!
# Choosing the best

The best of several candidates is the first one whose score no later one
exceeds. A candidate gives way only to a strictly greater score, so ties keep
the earlier one, and a NaN score at the front is never displaced.
-/
namespace Warband.Numeric

variable {α : Type}

/-- The candidate kept of the best one so far and the next one. -/
def keepBest (score : α → Float32) (best next : α) : α :=
  if score best < score next then next else best

/-- The first best candidate of a list. -/
def firstBest? (score : α → Float32) : List α → Option α
  | [] => none
  | a :: rest => some (rest.foldl (keepBest score) a)

@[simp] theorem firstBest?_eq_none {score : α → Float32} {l : List α} :
    firstBest? score l = none ↔ l = [] := by
  cases l <;> simp [firstBest?]

theorem foldl_keepBest_mem (score : α → Float32) (l : List α) (a : α) :
    l.foldl (keepBest score) a ∈ a :: l := by
  induction l generalizing a with
  | nil => simp
  | cons b l ih =>
    rw [List.foldl_cons]
    have h := ih (keepBest score a b)
    unfold keepBest at h ⊢
    split at h <;> rename_i c <;> simp only [c, if_true, if_false] <;> grind

theorem mem_of_firstBest? {score : α → Float32} {l : List α} {a : α}
    (h : firstBest? score l = some a) : a ∈ l := by
  cases l with
  | nil => simp [firstBest?] at h
  | cons b l =>
    simp only [firstBest?, Option.some.injEq] at h
    exact h ▸ foldl_keepBest_mem score l b

end Warband.Numeric
