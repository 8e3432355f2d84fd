/-!
# Tables

A finite map as a list of bindings with at most one binding per key. Writing a
binding removes the older one of the same key, so the number of bindings is the
number of keys.
-/
namespace Warband

structure Table (κ β : Type) where
  bindings : List (κ × β)

namespace Table

variable {κ β : Type} [DecidableEq κ]

def empty : Table κ β := ⟨[]⟩

def find? (t : Table κ β) (key : κ) : Option β :=
  (t.bindings.find? fun b => b.1 = key).map (·.2)

def erase (t : Table κ β) (key : κ) : Table κ β :=
  ⟨t.bindings.filter fun b => b.1 ≠ key⟩

def insert (t : Table κ β) (key : κ) (value : β) : Table κ β :=
  ⟨(key, value) :: (t.erase key).bindings⟩

def size (t : Table κ β) : Nat := t.bindings.length

@[simp] theorem find?_empty (key : κ) : (empty : Table κ β).find? key = none := rfl

@[simp] theorem find?_erase (t : Table κ β) (key other : κ) :
    (t.erase key).find? other = if other = key then none else t.find? other := by
  unfold find? erase
  induction t.bindings with
  | nil => simp
  | cons b l ih => grind

@[simp] theorem find?_insert (t : Table κ β) (key other : κ) (value : β) :
    (t.insert key value).find? other = if other = key then some value else t.find? other := by
  have h := find?_erase t key other
  unfold insert
  unfold find? at h ⊢
  grind

end Table

end Warband
