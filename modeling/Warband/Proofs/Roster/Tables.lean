import Warband.Proofs.Cells
import Warband.Proofs.Roster.View

/-!
# The tables of a roster

A roster is three tables: the dense records, the slots of all handles ever given
out and the free handles. The operations are written here on bare tables, which
nothing obliges to agree, with every access checked. On the tables of a roster
they stay in range and do what the operations of the roster do.
-/
namespace Warband

open Cells

/-- Dense records, slots and free handles, in no particular relation. -/
structure Tables (k : Kind) (α : Type) where
  dense : Array (Entry k α)
  slots : Array (Option Nat)
  free : List Nat

namespace Tables

variable {k : Kind} {α : Type}

/-- The dense place that a slot leads to; a handle without a slot leads nowhere. -/
def place? (t : Tables k α) (id : Handle k) : Option Nat := t.slots[id.index]?.join

/-- The entry of a handle. -/
def lookUp (t : Tables k α) (id : Handle k) : Checked (Option (Entry k α)) :=
  match t.place? id with
  | none => .ok none
  | some place => do
    let e ← read t.dense place
    .ok (some e)

/-- Rewrites the entry of a handle where it stands. -/
def rewrite (t : Tables k α) (id : Handle k) (f : Entry k α → Entry k α) :
    Checked (Tables k α) :=
  match t.place? id with
  | none => .ok t
  | some place => do
    let e ← read t.dense place
    let dense ← write t.dense place (f e)
    .ok { t with dense := dense }

/-- Takes a free handle or makes a slot for a new one, and puts a record last. -/
def add (t : Tables k α) (a : α) : Checked (Handle k × Tables k α) :=
  match t.free with
  | i :: rest => do
    let slots ← write t.slots i (some t.dense.size)
    .ok (⟨i⟩, ⟨t.dense.push ⟨⟨i⟩, none, a⟩, slots, rest⟩)
  | [] => do
    let slots ← write (t.slots.push none) t.slots.size (some t.dense.size)
    .ok (⟨t.slots.size⟩, ⟨t.dense.push ⟨⟨t.slots.size⟩, none, a⟩, slots, []⟩)

/-- Takes the entry at a place out; the last one moves into the gap. -/
def takeOut (dense : Array (Entry k α)) (place : Nat) :
    Checked (Entry k α × Array (Entry k α)) := do
  let gone ← read dense place
  let last ← read dense (dense.size - 1)
  let dense ← write dense place last
  .ok (gone, dense.pop)

/-- Takes the record of a handle out. The slot of the record that has moved, if one has, and the
slot of the handle are rewritten. -/
def remove (t : Tables k α) (id : Handle k) : Checked (Option (Entry k α × Tables k α)) :=
  match t.place? id with
  | none => .ok none
  | some place => do
    let (gone, dense) ← takeOut t.dense place
    let slots ← match dense[place]? with
      | some moved => write t.slots moved.id.index (some place)
      | none => .ok t.slots
    let slots ← write slots id.index none
    .ok (some (gone, ⟨dense, slots, id.index :: t.free⟩))

end Tables

namespace Roster

variable {k : Kind} {α : Type} (r : Roster k α)

def tables : Tables k α := ⟨r.dense, r.slots, r.free⟩

theorem place?_tables (id : Handle k) : r.tables.place? id = r.place? id := rfl

theorem lookUp_tables (id : Handle k) : r.tables.lookUp id = .ok (r.entryAt? id) := by
  rw [Tables.lookUp, place?_tables, entryAt?]
  cases hplace : r.place? id with
  | none => rfl
  | some place =>
      obtain ⟨e, he, -⟩ := place?_eq_some_iff.1 hplace
      have hread : read r.tables.dense place = .ok e := read_of_getElem? he
      simp only [hread, bind, Except.bind, Option.bind_some, he]

theorem rewrite_tables (id : Handle k) (f : Entry k α → Entry k α) (hf : ∀ e, (f e).id = e.id) :
    r.tables.rewrite id f = .ok (r.modifyEntry id f hf).tables := by
  rw [Tables.rewrite, place?_tables]
  unfold modifyEntry
  cases hplace : r.place? id with
  | none => rfl
  | some place =>
      obtain ⟨e, he, -⟩ := place?_eq_some_iff.1 hplace
      have hlt : place < r.dense.size := (Array.getElem?_eq_some_iff.1 he).1
      have hread : read r.tables.dense place = .ok e := read_of_getElem? he
      have hmodify : r.dense.modify place f = r.dense.setIfInBounds place (f e) := by
        refine Array.ext_getElem? fun d => ?_
        rw [Array.getElem?_modify, Array.getElem?_setIfInBounds]
        by_cases hd : place = d
        · subst hd
          rw [if_pos rfl, if_pos rfl, if_pos hlt, he]
          rfl
        · simp [hd]
      have hwrite : write r.tables.dense place (f e) = .ok (r.dense.modify place f) := by
        rw [hmodify]
        exact write_of_lt hlt _
      simp only [hread, bind, Except.bind, hwrite]
      rfl

theorem tables_add_reuse {i : Nat} {rest : List Nat} (h : r.free = i :: rest) (a : α) :
    (r.add a).2.tables =
      ⟨r.dense.push ⟨⟨i⟩, none, a⟩, r.slots.setIfInBounds i (some r.dense.size), rest⟩ := by
  have hindex : r.nextIndex = i := by rw [nextIndex, h]; rfl
  unfold add tables
  dsimp only
  split
  · rename_i j later hfree
    rw [h] at hfree
    cases hfree
    simp only [hindex]
  · rename_i hfree
    rw [h] at hfree
    cases hfree

theorem tables_add_extend (h : r.free = []) (a : α) :
    (r.add a).2.tables =
      ⟨r.dense.push ⟨⟨r.slots.size⟩, none, a⟩, r.slots.push (some r.dense.size), []⟩ := by
  have hindex : r.nextIndex = r.slots.size := by rw [nextIndex, h]; rfl
  unfold add tables
  dsimp only
  split
  · rename_i j later hfree
    rw [h] at hfree
    cases hfree
  · simp only [hindex]

/-- A free handle has a slot to reuse, and a new one is made for the others. -/
theorem add_tables (a : α) : r.tables.add a = .ok ((r.add a).1, (r.add a).2.tables) := by
  have hfree : r.tables.free = r.free := rfl
  rw [Tables.add, hfree, add_id, nextIndex]
  cases h : r.free with
  | nil =>
      have hwrite : write (r.tables.slots.push none) r.tables.slots.size
          (some r.tables.dense.size) = .ok (r.slots.push (some r.dense.size)) :=
        write_push r.slots none _
      simp only [hwrite, bind, Except.bind, tables_add_extend r h]
      rfl
  | cons i rest =>
      obtain ⟨hlt, -⟩ := Array.getElem?_eq_some_iff.1 ((r.mem_free i).1 (by simp [h]))
      have hwrite : write r.tables.slots i (some r.tables.dense.size) =
          .ok (r.slots.setIfInBounds i (some r.dense.size)) := write_of_lt hlt _
      simp only [hwrite, bind, Except.bind, tables_add_reuse r h]
      rfl

theorem takeOut_ok {place : Nat} {gone last : Entry k α} (hgone : r.dense[place]? = some gone)
    (hlast : r.dense.back? = some last) :
    Tables.takeOut r.dense place = .ok (gone, (r.dense.setIfInBounds place last).pop) := by
  have hback : r.dense[r.dense.size - 1]? = some last := by rwa [← Array.back?_eq_getElem?]
  have hlt : place < r.dense.size := (Array.getElem?_eq_some_iff.1 hgone).1
  simp only [Tables.takeOut, read_of_getElem? hgone, read_of_getElem? hback, write_of_lt hlt, bind,
    Except.bind]

theorem remove_tables (id : Handle k) :
    r.tables.remove id = .ok ((r.remove? id).map fun x => (x.1, x.2.tables)) := by
  rw [Tables.remove, place?_tables]
  cases hremove : r.remove? id with
  | none =>
      have hgone : ¬ r.contains id := by
        rw [← remove?_isSome_iff, hremove]
        exact Bool.false_ne_true
      have hplace : r.place? id = none := by simpa [contains] using hgone
      rw [hplace]
      rfl
  | some x =>
      obtain ⟨gone, r'⟩ := x
      obtain ⟨place, last, hplace, hlast, hgone, hdense, hslots, hfree, -⟩ := remove?_spec hremove
      have hback : r.dense[r.dense.size - 1]? = some last := by rwa [← Array.back?_eq_getElem?]
      have hlt : place < r.dense.size := (Array.getElem?_eq_some_iff.1 hgone).1
      have hindex : gone.id.index = id.index := index_of_place? hplace hgone
      have hid : id.index < r.slots.size :=
        hindex ▸ (Array.getElem?_eq_some_iff.1 (r.slot_of_dense place gone hgone)).1
      have hmovedId : last.id.index < r.slots.size :=
        (Array.getElem?_eq_some_iff.1 (r.slot_of_dense _ last hback)).1
      have htake : Tables.takeOut r.tables.dense place =
          .ok (gone, (r.dense.setIfInBounds place last).pop) := takeOut_ok r hgone hlast
      have htables : r'.tables = ⟨(r.dense.setIfInBounds place last).pop,
          (r.slots.setIfInBounds last.id.index (some place)).setIfInBounds id.index none,
          id.index :: r.free⟩ := by
        rw [tables, hdense, hslots, hfree]
      simp only [hplace, htake, bind, Except.bind, Option.map_some, htables]
      by_cases hend : place = r.dense.size - 1
      · -- the record was the last one, so none moves, and its slot is written once
        have hsame : last = gone := by
          rw [← hend, hgone] at hback
          exact (Option.some.inj hback).symm
        have hnone : ((r.dense.setIfInBounds place last).pop)[place]? = none := by
          rw [Array.getElem?_pop, Array.size_setIfInBounds, if_neg (by omega)]
        have htwice : (r.slots.setIfInBounds last.id.index (some place)).setIfInBounds id.index
            none = r.slots.setIfInBounds id.index none := by
          rw [hsame, hindex, Array.setIfInBounds_setIfInBounds]
        have hwrite : write r.tables.slots id.index none =
            .ok (r.slots.setIfInBounds id.index none) := write_of_lt hid _
        simp only [hnone, hwrite, htwice]
        rfl
      · have hsome : ((r.dense.setIfInBounds place last).pop)[place]? = some last := by
          rw [Array.getElem?_pop, Array.size_setIfInBounds, if_pos (by omega),
            Array.getElem?_setIfInBounds_self_of_lt hlt]
        have hfirst : write r.tables.slots last.id.index (some place) =
            .ok (r.slots.setIfInBounds last.id.index (some place)) := write_of_lt hmovedId _
        have hwrite : write (r.slots.setIfInBounds last.id.index (some place)) id.index none =
            .ok ((r.slots.setIfInBounds last.id.index (some place)).setIfInBounds id.index none) :=
          write_of_lt (by rw [Array.size_setIfInBounds]; exact hid) _
        simp only [hsome, hfirst, hwrite]
        rfl

end Roster

end Warband
