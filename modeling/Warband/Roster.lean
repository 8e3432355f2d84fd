import Warband.Error
import Warband.Table

/-!
# Rosters

A roster holds the live records of one kind in a dense array without gaps and
gives each a handle that stays the same while the record lives. A slot table
leads from handles to places in the array. Removing a record moves the last one
into its place, and the freed handle is the next to be given out again; only
when none is free a new one is made.

The slot table and the array agree by construction: every roster carries the
proof. So every look-up is in bounds, and reading after writing needs no
hypothesis about how the roster came about.
-/
namespace Warband

/-- A live record with its handle and the host's id for it. -/
structure Entry (k : Kind) (α : Type) where
  id : Handle k
  hostId : Option HostId
  record : α

structure Roster (k : Kind) (α : Type) where
  dense : Array (Entry k α)
  /-- The place of every handle ever given out, none for a free one. -/
  slots : Array (Option Nat)
  /-- Free handles, the most recently freed first. -/
  free : List Nat
  hosts : Table HostId (Handle k)
  slot_of_dense : ∀ d (e : Entry k α), dense[d]? = some e → slots[e.id.index]? = some (some d)
  dense_of_slot : ∀ i d, slots[i]? = some (some d) →
    ∃ e : Entry k α, dense[d]? = some e ∧ e.id.index = i
  mem_free : ∀ i, i ∈ free ↔ slots[i]? = some none
  free_nodup : free.Nodup

namespace Roster

variable {k : Kind} {α : Type}

def empty : Roster k α where
  dense := #[]
  slots := #[]
  free := []
  hosts := .empty
  slot_of_dense := by simp
  dense_of_slot := by simp
  mem_free := by simp
  free_nodup := by simp

instance : Inhabited (Roster k α) := ⟨empty⟩

def size (r : Roster k α) : Nat := r.dense.size

/-- The live records in dense order. -/
def entries (r : Roster k α) : List (Entry k α) := r.dense.toList

def ids (r : Roster k α) : List (Handle k) := r.entries.map (·.id)

/-- The place of a live handle. -/
def place? (r : Roster k α) (id : Handle k) : Option Nat := r.slots[id.index]?.join

def entryAt? (r : Roster k α) (id : Handle k) : Option (Entry k α) :=
  (r.place? id).bind (r.dense[·]?)

def get? (r : Roster k α) (id : Handle k) : Option α := (r.entryAt? id).map (·.record)

def contains (r : Roster k α) (id : Handle k) : Bool := (r.place? id).isSome

/-- The record of a handle that is taken to be live. -/
def fetch (r : Roster k α) (id : Handle k) : Except Fault α :=
  match r.get? id with
  | some a => .ok a
  | none => .error (.noLive id)

/-- The handle of a host id. -/
def find? (r : Roster k α) (hostId : HostId) : Option (Handle k) := r.hosts.find? hostId

/-- The place of a handle and the handle at a place determine each other. -/
theorem place?_eq_some_iff {r : Roster k α} {id : Handle k} {d : Nat} :
    r.place? id = some d ↔ ∃ e, r.dense[d]? = some e ∧ e.id = id := by
  unfold place?
  constructor
  · intro h
    have hs : r.slots[id.index]? = some (some d) := by
      cases hi : r.slots[id.index]? <;> simp_all
    obtain ⟨e, he, hid⟩ := r.dense_of_slot _ _ hs
    exact ⟨e, he, Handle.index_injective hid⟩
  · rintro ⟨e, he, rfl⟩
    simp [r.slot_of_dense d e he]

theorem entryAt?_eq_some_iff {r : Roster k α} {id : Handle k} {e : Entry k α} :
    r.entryAt? id = some e ↔ e ∈ r.entries ∧ e.id = id := by
  unfold entryAt? entries
  rw [Option.bind_eq_some_iff, Array.mem_toList_iff, Array.mem_iff_getElem?]
  constructor
  · rintro ⟨d, hd, he⟩
    obtain ⟨e', he', hid⟩ := place?_eq_some_iff.1 hd
    grind
  · rintro ⟨⟨d, hd⟩, hid⟩
    exact ⟨d, place?_eq_some_iff.2 ⟨e, hd, hid⟩, hd⟩

theorem contains_iff {r : Roster k α} {id : Handle k} :
    r.contains id ↔ ∃ a, r.get? id = some a := by
  unfold contains get? entryAt?
  cases h : r.place? id with
  | none => simp
  | some d =>
    obtain ⟨e, he, -⟩ := place?_eq_some_iff.1 h
    simp [he]

theorem contains_eq_false_iff {r : Roster k α} {id : Handle k} :
    r.contains id = false ↔ r.get? id = none := by
  rw [← Bool.not_eq_true, contains_iff]
  cases r.get? id <;> simp

theorem fetch_of_get? {r : Roster k α} {id : Handle k} {a : α} (h : r.get? id = some a) :
    r.fetch id = .ok a := by
  simp [fetch, h]

/-! ## Rewriting entries in place -/

/-- Applies a function to every entry. Handles must stay what they are. -/
def mapEntries (r : Roster k α) (f : Entry k α → Entry k α) (hf : ∀ e, (f e).id = e.id) :
    Roster k α where
  dense := r.dense.map f
  slots := r.slots
  free := r.free
  hosts := r.hosts
  slot_of_dense := by
    intro d e h
    simp only [Array.getElem?_map, Option.map_eq_some_iff] at h
    obtain ⟨e', he', rfl⟩ := h
    rw [hf]
    exact r.slot_of_dense d e' he'
  dense_of_slot := by
    intro i d h
    obtain ⟨e, he, hid⟩ := r.dense_of_slot i d h
    exact ⟨f e, by simp [he], by rw [hf, hid]⟩
  mem_free := r.mem_free
  free_nodup := r.free_nodup

/-- Applies a function to the entry of a handle, if it is live. -/
def modifyEntry (r : Roster k α) (id : Handle k) (f : Entry k α → Entry k α)
    (hf : ∀ e, (f e).id = e.id) : Roster k α :=
  match r.place? id with
  | none => r
  | some place =>
    { dense := r.dense.modify place f
      slots := r.slots
      free := r.free
      hosts := r.hosts
      slot_of_dense := by
        intro d e h
        rw [Array.getElem?_modify] at h
        split at h
        · obtain ⟨e', he', rfl⟩ := Option.map_eq_some_iff.1 h
          rw [hf]
          exact r.slot_of_dense d e' he'
        · exact r.slot_of_dense d e h
      dense_of_slot := by
        intro i d h
        obtain ⟨e, he, hid⟩ := r.dense_of_slot i d h
        rw [Array.getElem?_modify, he]
        split
        · exact ⟨f e, rfl, by rw [hf, hid]⟩
        · exact ⟨e, rfl, hid⟩
      mem_free := r.mem_free
      free_nodup := r.free_nodup }

/-- Applies a function to the record of a handle, if it is live. -/
def modify (r : Roster k α) (id : Handle k) (f : α → α) : Roster k α :=
  r.modifyEntry id (fun e => { e with record := f e.record }) fun _ => rfl

/-- Sets or forgets the host id that a live record is known by. -/
def setHost (r : Roster k α) (id : Handle k) (hostId : Option HostId) : Roster k α :=
  r.modifyEntry id (fun e => { e with hostId := hostId }) fun _ => rfl

/-- Applies a function to every record. -/
def map (r : Roster k α) (f : Handle k → α → α) : Roster k α :=
  r.mapEntries (fun e => { e with record := f e.id e.record }) fun _ => rfl

@[simp] theorem entries_mapEntries (r : Roster k α) (f : Entry k α → Entry k α)
    (hf : ∀ e, (f e).id = e.id) : (r.mapEntries f hf).entries = r.entries.map f := by
  simp [entries, mapEntries]

@[simp] theorem ids_mapEntries (r : Roster k α) (f : Entry k α → Entry k α)
    (hf : ∀ e, (f e).id = e.id) : (r.mapEntries f hf).ids = r.ids := by
  simp [ids, Function.comp_def, hf]

@[simp] theorem place?_mapEntries (r : Roster k α) (f : Entry k α → Entry k α)
    (hf : ∀ e, (f e).id = e.id) (id : Handle k) :
    (r.mapEntries f hf).place? id = r.place? id := rfl

@[simp] theorem entryAt?_mapEntries (r : Roster k α) (f : Entry k α → Entry k α)
    (hf : ∀ e, (f e).id = e.id) (id : Handle k) :
    (r.mapEntries f hf).entryAt? id = (r.entryAt? id).map f := by
  unfold entryAt?
  rw [place?_mapEntries]
  cases r.place? id <;> simp [mapEntries]

theorem id_of_entryAt? {r : Roster k α} {id : Handle k} {e : Entry k α}
    (h : r.entryAt? id = some e) : e.id = id := (entryAt?_eq_some_iff.1 h).2

@[simp] theorem place?_modifyEntry (r : Roster k α) (id other : Handle k)
    (f : Entry k α → Entry k α) (hf : ∀ e, (f e).id = e.id) :
    (r.modifyEntry id f hf).place? other = r.place? other := by
  unfold modifyEntry; split <;> rfl

@[simp] theorem contains_modifyEntry (r : Roster k α) (id other : Handle k)
    (f : Entry k α → Entry k α) (hf : ∀ e, (f e).id = e.id) :
    (r.modifyEntry id f hf).contains other = r.contains other := by
  simp [contains]

@[simp] theorem entryAt?_modifyEntry (r : Roster k α) (id other : Handle k)
    (f : Entry k α → Entry k α) (hf : ∀ e, (f e).id = e.id) :
    (r.modifyEntry id f hf).entryAt? other =
      if other = id then (r.entryAt? other).map f else r.entryAt? other := by
  unfold entryAt?
  rw [place?_modifyEntry]
  cases h : r.place? other with
  | none => simp
  | some d =>
    obtain ⟨e, he, hid⟩ := place?_eq_some_iff.1 h
    unfold modifyEntry
    split
    · rename_i hn
      have : other ≠ id := by rintro rfl; simp [h] at hn
      simp [this]
    · rename_i place hp
      obtain ⟨e', he', hid'⟩ := place?_eq_some_iff.1 hp
      simp only [Option.bind_some, Array.getElem?_modify]
      grind

/-- An entry is rewritten where it stands. -/
theorem entries_modifyEntry (r : Roster k α) (id : Handle k) (f : Entry k α → Entry k α)
    (hf : ∀ e, (f e).id = e.id) :
    (r.modifyEntry id f hf).entries = r.entries.map fun e => if e.id = id then f e else e := by
  unfold modifyEntry entries
  split
  · rename_i hn
    refine (List.map_id' _ |>.symm.trans ?_)
    refine List.map_congr_left fun e he => ?_
    have : e.id ≠ id := by
      rintro rfl
      have := (entryAt?_eq_some_iff (r := r)).2 ⟨he, rfl⟩
      simp [entryAt?, hn] at this
    simp [this]
  · rename_i place hp
    obtain ⟨e', he', hid'⟩ := place?_eq_some_iff.1 hp
    apply List.ext_getElem?
    intro d
    simp only [Array.getElem?_toList, Array.getElem?_modify, List.getElem?_map]
    cases hd : r.dense[d]? with
    | none => simp
    | some e =>
      have h1 := r.slot_of_dense d e hd
      have h2 := r.slot_of_dense place e' he'
      simp only [Option.map_some]
      grind

@[simp] theorem ids_modifyEntry (r : Roster k α) (id : Handle k) (f : Entry k α → Entry k α)
    (hf : ∀ e, (f e).id = e.id) : (r.modifyEntry id f hf).ids = r.ids := by
  unfold ids
  rw [entries_modifyEntry, List.map_map]
  refine List.map_congr_left fun e _ => ?_
  simp only [Function.comp_apply]
  split <;> simp [hf]

@[simp] theorem get?_modify (r : Roster k α) (id other : Handle k) (f : α → α) :
    (r.modify id f).get? other = if other = id then (r.get? other).map f else r.get? other := by
  unfold modify get?
  rw [entryAt?_modifyEntry]
  split <;> simp [Function.comp_def]

@[simp] theorem get?_setHost (r : Roster k α) (id other : Handle k) (hostId : Option HostId) :
    (r.setHost id hostId).get? other = r.get? other := by
  unfold setHost get?
  rw [entryAt?_modifyEntry]
  split <;> simp [Function.comp_def]

@[simp] theorem get?_map (r : Roster k α) (f : Handle k → α → α) (id : Handle k) :
    (r.map f).get? id = (r.get? id).map (f id) := by
  unfold map get?
  rw [entryAt?_mapEntries]
  cases h : r.entryAt? id with
  | none => rfl
  | some e => simp [id_of_entryAt? h]

@[simp] theorem contains_modify (r : Roster k α) (id other : Handle k) (f : α → α) :
    (r.modify id f).contains other = r.contains other := contains_modifyEntry ..

@[simp] theorem contains_setHost (r : Roster k α) (id other : Handle k)
    (hostId : Option HostId) : (r.setHost id hostId).contains other = r.contains other :=
  contains_modifyEntry ..

/-! ## Adding and removing -/

/-- The handle that the next record gets: the one freed last, or a new one. -/
def nextIndex (r : Roster k α) : Nat := r.free.headD r.slots.size

/-- Dense order, slot table and free list agree. -/
structure Linked (dense : Array (Entry k α)) (slots : Array (Option Nat)) (free : List Nat) :
    Prop where
  slot_of_dense : ∀ d (e : Entry k α), dense[d]? = some e → slots[e.id.index]? = some (some d)
  dense_of_slot : ∀ i d, slots[i]? = some (some d) →
    ∃ e : Entry k α, dense[d]? = some e ∧ e.id.index = i
  mem_free : ∀ i, i ∈ free ↔ slots[i]? = some none
  free_nodup : free.Nodup

/-- The handle freed last goes to the new record, which comes last. -/
theorem linked_reuse (r : Roster k α) {i : Nat} {rest : List Nat} (h : r.free = i :: rest)
    {e : Entry k α} (he : e.id.index = i) :
    Linked (r.dense.push e) (r.slots.setIfInBounds i (some r.dense.size)) rest where
  slot_of_dense := by
    have hi := (r.mem_free i).1 (by simp [h])
    intro d e' hd
    rw [Array.getElem?_push] at hd
    split at hd
    · rename_i hlast
      cases hd
      obtain ⟨hbound, -⟩ := Array.getElem?_eq_some_iff.1 hi
      rw [he, hlast, Array.getElem?_setIfInBounds_self_of_lt hbound]
    · have hold := r.slot_of_dense d e' hd
      have hne : i ≠ e'.id.index := by
        rintro rfl
        rw [hi] at hold
        cases hold
      rw [Array.getElem?_setIfInBounds_ne hne, hold]
  dense_of_slot := by
    intro j d hj
    by_cases hij : i = j
    · exact ⟨e, by grind, by grind⟩
    · obtain ⟨e', he', hid⟩ := r.dense_of_slot j d (by grind)
      exact ⟨e', by grind, hid⟩
  mem_free := by
    have hnd := r.free_nodup
    intro j
    have := r.mem_free j
    grind
  free_nodup := by
    have hnd := r.free_nodup
    grind

/-- Without a free handle the next one is made, and the new record comes last. -/
theorem linked_extend (r : Roster k α) (h : r.free = []) {e : Entry k α}
    (he : e.id.index = r.slots.size) :
    Linked (r.dense.push e) (r.slots.push (some r.dense.size)) [] where
  slot_of_dense := by
    intro d e' hd
    have := r.slot_of_dense d e'
    grind
  dense_of_slot := by
    intro j d hj
    by_cases hij : j = r.slots.size
    · exact ⟨e, by grind, by grind⟩
    · obtain ⟨e', he', hid⟩ := r.dense_of_slot j d (by grind)
      exact ⟨e', by grind, hid⟩
  mem_free := by
    intro j
    have := r.mem_free j
    grind
  free_nodup := List.nodup_nil

/-- The last record moves into the gap, and the freed handle comes first. -/
theorem linked_remove (r : Roster k α) {d : Nat} {gone last : Entry k α}
    (hd : r.dense[d]? = some gone) (hl : r.dense.back? = some last) :
    Linked (r.dense.setIfInBounds d last).pop
      ((r.slots.setIfInBounds last.id.index (some d)).setIfInBounds gone.id.index none)
      (gone.id.index :: r.free) where
  slot_of_dense := by
    have hgone := r.slot_of_dense d gone hd
    have hlast := r.slot_of_dense (r.dense.size - 1) last (by rwa [← Array.back?_eq_getElem?])
    -- two places of the dense order never hold one handle
    have hne : ∀ {a b : Handle k} {j j' : Nat}, r.slots[a.index]? = some (some j) →
        r.slots[b.index]? = some (some j') → j ≠ j' → a.index ≠ b.index := by
      intro a b j j' ha hb hj heq
      rw [heq, hb] at ha
      cases ha
      exact hj rfl
    intro j e he
    rw [Array.getElem?_pop, Array.size_setIfInBounds] at he
    split at he
    case isFalse => cases he
    rename_i hj
    by_cases hdj : d = j
    · subst hdj
      rw [Array.getElem?_setIfInBounds_self_of_lt (by omega)] at he
      cases he
      have hother := hne hgone hlast (by omega)
      obtain ⟨hbound, -⟩ := Array.getElem?_eq_some_iff.1 hlast
      rw [Array.getElem?_setIfInBounds_ne hother, Array.getElem?_setIfInBounds_self_of_lt hbound]
    · rw [Array.getElem?_setIfInBounds_ne hdj] at he
      have hold := r.slot_of_dense j e he
      rw [Array.getElem?_setIfInBounds_ne (hne hgone hold hdj),
        Array.getElem?_setIfInBounds_ne (hne hlast hold (by omega)), hold]
  dense_of_slot := by
    intro i j hj
    have h2 := r.slot_of_dense d gone hd
    have h3 := r.slot_of_dense (r.dense.size - 1) last
    by_cases hi : last.id.index = i
    · exact ⟨last, by grind, hi⟩
    · obtain ⟨e, he, hid⟩ := r.dense_of_slot i j (by grind)
      exact ⟨e, by grind, hid⟩
  mem_free := by
    have hgone := r.slot_of_dense d gone hd
    have hlast := r.slot_of_dense (r.dense.size - 1) last (by rwa [← Array.back?_eq_getElem?])
    intro i
    have hold := r.mem_free i
    by_cases hi : gone.id.index = i
    · subst hi
      obtain ⟨hbound, -⟩ := Array.getElem?_eq_some_iff.1 hgone
      simp [hbound]
    · rw [Array.getElem?_setIfInBounds_ne hi, List.mem_cons]
      by_cases hmoved : last.id.index = i
      · subst hmoved
        obtain ⟨hbound, -⟩ := Array.getElem?_eq_some_iff.1 hlast
        rw [hlast] at hold
        simp [hbound, hold, Ne.symm hi]
      · rw [Array.getElem?_setIfInBounds_ne hmoved, ← hold]
        simp [Ne.symm hi]
  free_nodup := by
    have h1 := r.mem_free gone.id.index
    have h2 := r.slot_of_dense d gone hd
    have h3 := r.free_nodup
    grind

/-- The record at the place of a handle has this handle. -/
theorem index_of_place? {r : Roster k α} {id : Handle k} {d : Nat} {gone : Entry k α}
    (hp : r.place? id = some d) (hd : r.dense[d]? = some gone) : gone.id.index = id.index := by
  obtain ⟨e, he, hid⟩ := place?_eq_some_iff.1 hp
  rw [hd] at he
  cases he
  rw [hid]

/-- Adds a record that no host id leads to. -/
def add (r : Roster k α) (a : α) : Handle k × Roster k α :=
  let id : Handle k := ⟨r.nextIndex⟩
  let entry : Entry k α := ⟨id, none, a⟩
  (id,
    match h : r.free with
    | i :: rest =>
      have linked := r.linked_reuse h (e := entry) (by simp [entry, id, nextIndex, h])
      { dense := r.dense.push entry
        slots := r.slots.setIfInBounds i (some r.dense.size)
        free := rest
        hosts := r.hosts
        slot_of_dense := linked.slot_of_dense
        dense_of_slot := linked.dense_of_slot
        mem_free := linked.mem_free
        free_nodup := linked.free_nodup }
    | [] =>
      have linked := r.linked_extend h (e := entry) (by simp [entry, id, nextIndex, h])
      { dense := r.dense.push entry
        slots := r.slots.push (some r.dense.size)
        free := []
        hosts := r.hosts
        slot_of_dense := linked.slot_of_dense
        dense_of_slot := linked.dense_of_slot
        mem_free := linked.mem_free
        free_nodup := linked.free_nodup })

/-- Takes a record out, with the roster that is left. The last record moves into
the gap. -/
def remove? (r : Roster k α) (id : Handle k) : Option (Entry k α × Roster k α) :=
  match hp : r.place? id, hl : r.dense.back? with
  | some d, some last =>
    match hd : r.dense[d]? with
    | some gone =>
      have linked := index_of_place? hp hd ▸ r.linked_remove hd hl
      some (gone,
        { dense := (r.dense.setIfInBounds d last).pop
          slots := (r.slots.setIfInBounds last.id.index (some d)).setIfInBounds id.index none
          free := id.index :: r.free
          hosts := match gone.hostId with
            | some hostId =>
              if r.hosts.find? hostId = some id then r.hosts.erase hostId else r.hosts
            | none => r.hosts
          slot_of_dense := linked.slot_of_dense
          dense_of_slot := linked.dense_of_slot
          mem_free := linked.mem_free
          free_nodup := linked.free_nodup })
    | none => none
  | _, _ => none

/-- Forgets every record, handle and host id. -/
def clear (_ : Roster k α) : Roster k α := empty

/-- Rewrites the record of a handle that is taken to be live. -/
def update (r : Roster k α) (id : Handle k) (f : α → α) : Except Fault (Roster k α) :=
  if r.contains id then .ok (r.modify id f) else .error (.noLive id)

theorem update_of_contains {r : Roster k α} {id : Handle k} (f : α → α) (h : r.contains id) :
    r.update id f = .ok (r.modify id f) := by
  simp [update, h]

/-- Adds a record under a host id. If the host id already led to a record, that
record is known by none from now on. -/
def adopt (r : Roster k α) (hostId : HostId) (a : α) : Except Fault (Handle k × Roster k α) :=
  let (id, added) := r.add a
  let led := { added with hosts := added.hosts.insert hostId id }
  let freed := match r.hosts.find? hostId with
    | some previous => led.setHost previous none
    | none => led
  if freed.contains id then .ok (id, freed.setHost id (some hostId)) else .error (.noLive id)

@[simp] theorem get?_empty (id : Handle k) : (empty : Roster k α).get? id = none := by
  simp [get?, entryAt?, place?, empty]

theorem add_id (r : Roster k α) (a : α) : (r.add a).1 = ⟨r.nextIndex⟩ := rfl

/-- The new handle was not live before. -/
theorem place?_nextIndex (r : Roster k α) : r.place? ⟨r.nextIndex⟩ = none := by
  unfold place? nextIndex
  cases h : r.free with
  | nil => simp
  | cons i rest => simp [(r.mem_free i).1 (by simp [h])]

theorem get?_nextIndex (r : Roster k α) : r.get? ⟨r.nextIndex⟩ = none := by
  simp [get?, entryAt?, place?_nextIndex]

/-- Added records come last. -/
@[simp] theorem entries_add (r : Roster k α) (a : α) :
    (r.add a).2.entries = r.entries ++ [⟨(r.add a).1, none, a⟩] := by
  unfold add entries
  dsimp only
  split <;> simp

/-- Adding a record changes no other. -/
@[simp] theorem get?_add (r : Roster k α) (a : α) (id : Handle k) :
    (r.add a).2.get? id = if id = (r.add a).1 then some a else r.get? id := by
  have key : ∀ e, (r.add a).2.entryAt? id = some e ↔
      (id = (r.add a).1 ∧ e = ⟨(r.add a).1, none, a⟩) ∨
        (id ≠ (r.add a).1 ∧ r.entryAt? id = some e) := by
    intro e
    have hfresh : r.entryAt? (r.add a).1 = none := by
      simp [entryAt?, add_id, place?_nextIndex]
    rw [entryAt?_eq_some_iff, entryAt?_eq_some_iff, entries_add]
    have hold : ∀ e ∈ r.entries, e.id ≠ (r.add a).1 := by
      intro e he hid
      have := (entryAt?_eq_some_iff (r := r)).2 ⟨he, hid⟩
      simp [hfresh] at this
    grind
  unfold get?
  split
  · rename_i h
    simp [(key ⟨(r.add a).1, none, a⟩).2 (.inl ⟨h, rfl⟩)]
  · rename_i h
    congr 1
    apply Option.ext
    intro e
    rw [key]
    simp [h]

@[simp] theorem contains_add_self (r : Roster k α) (a : α) :
    (r.add a).2.contains (r.add a).1 := by
  rw [contains_iff]
  exact ⟨a, by simp⟩

/-- Adding under a host id always succeeds. -/
theorem adopt_ok (r : Roster k α) (hostId : HostId) (a : α) :
    ∃ r', r.adopt hostId a = .ok ((r.add a).1, r') := by
  unfold adopt
  have h : (r.add a).2.contains (r.add a).1 := contains_add_self r a
  dsimp only
  split <;> (rw [if_pos]; exact ⟨_, rfl⟩)
  · rw [contains_setHost]; exact h
  · exact h

theorem remove?_isSome_iff {r : Roster k α} {id : Handle k} :
    (r.remove? id).isSome ↔ r.contains id := by
  unfold remove? contains
  split
  · rename_i d last hp hl
    obtain ⟨e, he, -⟩ := place?_eq_some_iff.1 hp
    split
    · simp [hp]
    · rename_i hd; simp [hd] at he
  · rename_i h
    cases hp : r.place? id with
    | none => simp
    | some d =>
      obtain ⟨e, he, -⟩ := place?_eq_some_iff.1 hp
      cases hb : r.dense.back? with
      | none => grind
      | some last => exact (h d last hp hb).elim

/-! ## Passes over all records -/

/-- A pass over entries in order that carries a state along. -/
def sweepEntries {σ : Type} (f : Handle k → α → σ → α × σ) :
    List (Entry k α) → σ → List (Entry k α) × σ
  | [], s => ([], s)
  | e :: es, s =>
    let (a, s) := f e.id e.record s
    let (rest, s) := sweepEntries f es s
    ({ e with record := a } :: rest, s)

theorem map_id_sweepEntries {σ : Type} (f : Handle k → α → σ → α × σ) (es : List (Entry k α))
    (s : σ) : (sweepEntries f es s).1.map (·.id) = es.map (·.id) := by
  induction es generalizing s with
  | nil => rfl
  | cons e es ih => simp [sweepEntries, ih]

/-- Puts other entries in the places of the live ones, handle by handle. -/
def replaceEntries (r : Roster k α) (es : List (Entry k α)) (h : es.map (·.id) = r.ids) :
    Roster k α where
  dense := es.toArray
  slots := r.slots
  free := r.free
  hosts := r.hosts
  slot_of_dense := by
    intro d e he
    have hd : es[d]? = some e := by simpa using he
    have hid : r.ids[d]? = some e.id := by rw [← h]; simp [hd]
    simp only [ids, entries, List.getElem?_map, Array.getElem?_toList,
      Option.map_eq_some_iff] at hid
    obtain ⟨e', he', hid⟩ := hid
    rw [← hid]
    exact r.slot_of_dense d e' he'
  dense_of_slot := by
    intro i d hs
    obtain ⟨e, he, hid⟩ := r.dense_of_slot i d hs
    have : (es.map (·.id))[d]? = some e.id := by
      rw [h]; simp [ids, entries, he]
    simp only [List.getElem?_map, Option.map_eq_some_iff] at this
    obtain ⟨e', he', hid'⟩ := this
    exact ⟨e', by simpa using he', by rw [hid', hid]⟩
  mem_free := r.mem_free
  free_nodup := r.free_nodup

/-- Rewrites every record in dense order, carrying a state along. -/
def sweep {σ : Type} (r : Roster k α) (f : Handle k → α → σ → α × σ) (s : σ) :
    Roster k α × σ :=
  (r.replaceEntries (sweepEntries f r.entries s).1 (map_id_sweepEntries f r.entries s),
    (sweepEntries f r.entries s).2)

@[simp] theorem ids_sweep {σ : Type} (r : Roster k α) (f : Handle k → α → σ → α × σ) (s : σ) :
    (r.sweep f s).1.ids = r.ids := by
  simp only [sweep, replaceEntries, ids, entries]
  exact map_id_sweepEntries f r.dense.toList s

end Roster

end Warband
