/-!
# Cells

The stores of a session are arrays. An access to a cell that an array does not
have stops the computation that makes it; what an operation would do with such
stops is written with the accesses of this module, and then shown to be what the
operation does.

A buffer of fixed size is filled from the front. Beside the entries it holds so
far it has blank cells.
-/
namespace Warband

/-- An access to a cell that a store of some size does not have. -/
structure OutOfRange where
  index : Nat
  size : Nat
deriving DecidableEq, Repr

/-- A computation that stops at an access out of range. -/
abbrev Checked := Except OutOfRange

namespace Cells

variable {α : Type}

def read (cells : Array α) (i : Nat) : Checked α :=
  match cells[i]? with
  | some x => .ok x
  | none => .error ⟨i, cells.size⟩

def write (cells : Array α) (i : Nat) (x : α) : Checked (Array α) :=
  if i < cells.size then .ok (cells.setIfInBounds i x) else .error ⟨i, cells.size⟩

/-- The first `n` cells. -/
def front (cells : Array α) (n : Nat) : Checked (List α) :=
  if n ≤ cells.size then .ok (cells.toList.take n) else .error ⟨n, cells.size⟩

/-- Writes a list over the first cells. -/
def overwrite (cells : Array α) (xs : List α) : Checked (Array α) :=
  if xs.length ≤ cells.size then .ok (xs ++ cells.toList.drop xs.length).toArray
  else .error ⟨xs.length, cells.size⟩

theorem read_of_getElem? {cells : Array α} {i : Nat} {x : α} (h : cells[i]? = some x) :
    read cells i = .ok x := by
  rw [read, h]

theorem write_of_lt {cells : Array α} {i : Nat} (h : i < cells.size) (x : α) :
    write cells i x = .ok (cells.setIfInBounds i x) := if_pos h

/-- A cell made at the end can be written. -/
theorem write_push (cells : Array α) (blank x : α) :
    write (cells.push blank) cells.size x = .ok (cells.push x) := by
  rw [write_of_lt (by rw [Array.size_push]; omega)]
  refine congrArg Except.ok (Array.ext_getElem? fun i => ?_)
  rw [Array.getElem?_setIfInBounds, Array.getElem?_push, Array.getElem?_push, Array.size_push]
  grind

/-! ## Buffers -/

/-- A buffer of `size` cells with entries in front. -/
def filled (size : Nat) (blank : α) (entries : List α) : Array α :=
  (entries ++ List.replicate (size - entries.length) blank).toArray

variable {size : Nat} {blank : α} {entries : List α}

theorem read_filled {i : Nat} {x : α} (h : entries[i]? = some x) :
    read (filled size blank entries) i = .ok x := by
  refine read_of_getElem? ?_
  have hi : i < entries.length := (List.getElem?_eq_some_iff.1 h).1
  rw [filled, List.getElem?_toArray, List.getElem?_append_left hi, h]

theorem front_filled {n : Nat} (h : entries.length = n) :
    front (filled size blank entries) n = .ok entries := by
  subst h
  have hsize : entries.length ≤ (filled size blank entries).size := by
    simp [filled]
  rw [front, if_pos hsize, filled, List.take_left]

/-- The next entry goes to the first blank cell. -/
theorem write_filled {n : Nat} (h : entries.length = n) (hn : n < size) (x : α) :
    write (filled size blank entries) n x = .ok (filled size blank (entries ++ [x])) := by
  subst h
  have hsize : entries.length < (filled size blank entries).size := by
    simp only [filled, List.size_toArray, List.length_append, List.length_replicate]
    omega
  have hblank : size - entries.length = (size - (entries ++ [x]).length) + 1 := by
    rw [List.length_append, List.length_singleton]
    omega
  rw [write_of_lt hsize, filled, filled, hblank, List.replicate_succ, List.setIfInBounds_toArray,
    List.set_append_right _ _ (Nat.le_refl _), Nat.sub_self, List.set_cons_zero, List.append_assoc]
  rfl

/-- A cell that stays blank holds the next entry if that is the blank one. -/
theorem filled_blank (h : entries.length < size) :
    filled size blank (entries ++ [blank]) = filled size blank entries := by
  have hblank : size - entries.length = (size - (entries ++ [blank]).length) + 1 := by
    rw [List.length_append, List.length_singleton]
    omega
  rw [filled, filled, hblank, List.replicate_succ, List.append_assoc]
  rfl

/-- A list that reaches beyond the entries takes their place. -/
theorem overwrite_filled {xs : List α} (h : entries.length ≤ xs.length) (hsize : xs.length ≤ size) :
    overwrite (filled size blank entries) xs = .ok (filled size blank xs) := by
  have hroom : xs.length ≤ (filled size blank entries).size := by
    simp only [filled, List.size_toArray, List.length_append, List.length_replicate]
    omega
  have hrest : size - entries.length - (xs.length - entries.length) = size - xs.length := by omega
  rw [overwrite, if_pos hroom, filled, filled, List.drop_append, List.drop_of_length_le h,
    List.nil_append, List.drop_replicate, hrest]

end Cells

end Warband
