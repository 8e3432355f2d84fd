import Mathlib.Data.List.Forall2
import Mathlib.Data.List.Nodup
import Warband.Roster

/-!
# What the operations of a roster do

A roster is read through its entries: `entryAt?` finds the entry of a handle,
`hostOf` its host id, and a view shows one aspect of every live record. Each
operation is described once here by what it does to these readings, so that no
later proof has to look at the array, the slot table or the free list.
-/
namespace Warband

/-- What comes out of two steps came out of each of them. -/
theorem bind_eq_ok {ε α β : Type} {x : Except ε α} {f : α → Except ε β} {b : β} :
    (x >>= f) = .ok b ↔ ∃ a, x = .ok a ∧ f a = .ok b := by
  cases x <;> simp [bind, Except.bind]

namespace Roster

variable {k : Kind} {α β : Type}

/-- One aspect of every live record. -/
def view (r : Roster k α) (π : α → β) (id : Handle k) : Option β := (r.get? id).map π

/-- The host id that a live record carries. -/
def hostOf (r : Roster k α) (id : Handle k) : Option HostId := (r.entryAt? id).bind (·.hostId)

theorem get?_eq_some_iff {r : Roster k α} {id : Handle k} {a : α} :
    r.get? id = some a ↔ ∃ e, r.entryAt? id = some e ∧ e.record = a := by
  simp [get?]

theorem contains_eq_isSome (r : Roster k α) (id : Handle k) :
    r.contains id = (r.get? id).isSome := by
  rw [Bool.eq_iff_iff, contains_iff, Option.isSome_iff_exists]

theorem contains_of_get? {r : Roster k α} {id : Handle k} {a : α} (h : r.get? id = some a) :
    r.contains id := contains_iff.2 ⟨a, h⟩

/-- The entry of a handle is its record under its host id. -/
theorem entryAt?_eq (r : Roster k α) (id : Handle k) :
    r.entryAt? id = (r.get? id).map (⟨id, r.hostOf id, ·⟩) := by
  unfold get? hostOf
  cases h : r.entryAt? id with
  | none => rfl
  | some e =>
    have hid := id_of_entryAt? h
    cases e
    simp_all

/-- What is said of every live record is said of every entry of the dense order. -/
theorem get?_of_mem_entries {r : Roster k α} {e : Entry k α} (h : e ∈ r.entries) :
    r.get? e.id = some e.record := by
  rw [get?, entryAt?_eq_some_iff.2 ⟨h, rfl⟩, Option.map_some]

theorem any_entries (r : Roster k α) (id : Handle k) (p : α → Bool) :
    (r.entries.any fun e => e.id = id && p e.record) = (r.get? id).any p := by
  rw [Bool.eq_iff_iff, List.any_eq_true, Option.any_eq_true]
  constructor
  · rintro ⟨e, he, h⟩
    obtain ⟨rfl, hp⟩ : e.id = id ∧ p e.record = true := by simpa using h
    exact ⟨e.record, get?_of_mem_entries he, hp⟩
  · rintro ⟨a, ha, hp⟩
    obtain ⟨e, he, rfl⟩ := get?_eq_some_iff.1 ha
    obtain ⟨hmem, hid⟩ := entryAt?_eq_some_iff.1 he
    exact ⟨e, hmem, by simpa [hid] using hp⟩

theorem mem_ids_iff {r : Roster k α} {id : Handle k} : id ∈ r.ids ↔ r.contains id := by
  rw [contains_iff]
  constructor
  · intro h
    obtain ⟨e, he, rfl⟩ := List.mem_map.1 h
    exact ⟨e.record, get?_of_mem_entries he⟩
  · rintro ⟨a, ha⟩
    obtain ⟨e, he, -⟩ := get?_eq_some_iff.1 ha
    obtain ⟨hmem, rfl⟩ := entryAt?_eq_some_iff.1 he
    exact List.mem_map.2 ⟨e, hmem, rfl⟩

/-- Two places of the dense order never hold the same handle. -/
theorem ids_nodup (r : Roster k α) : r.ids.Nodup := by
  rw [List.nodup_iff_getElem?_ne_getElem?]
  intro i j hij hj heq
  simp only [ids, entries, List.length_map, Array.length_toList] at hj
  have hi : i < r.dense.size := by omega
  have h₁ := r.slot_of_dense i _ (Array.getElem?_eq_getElem hi)
  have h₂ := r.slot_of_dense j _ (Array.getElem?_eq_getElem hj)
  simp only [ids, entries, List.getElem?_map, Array.getElem?_toList,
    Array.getElem?_eq_getElem hi, Array.getElem?_eq_getElem hj, Option.map_some,
    Option.some.injEq] at heq
  rw [heq, h₂] at h₁
  simp only [Option.some.injEq] at h₁
  omega

theorem length_ids (r : Roster k α) : r.ids.length = r.dense.size := by
  rw [ids, entries, List.length_map, Array.length_toList]

/-- The size is told by who is live. -/
theorem size_congr {r r' : Roster k α} (h : ∀ id, r'.contains id = r.contains id) :
    r'.size = r.size := by
  have hperm : r'.ids.Perm r.ids := by
    rw [List.perm_ext_iff_of_nodup r'.ids_nodup r.ids_nodup]
    intro id
    rw [mem_ids_iff, mem_ids_iff, h]
  rw [size, size, ← length_ids, ← length_ids, hperm.length_eq]

theorem size_insert {r r' : Roster k α} (id : Handle k) (hid : r.contains id = false)
    (h : ∀ x, r'.contains x ↔ x = id ∨ r.contains x) : r'.size = r.size + 1 := by
  have hnew : (id :: r.ids).Nodup := by
    rw [List.nodup_cons, mem_ids_iff, hid]
    exact ⟨Bool.false_ne_true, r.ids_nodup⟩
  have hperm : r'.ids.Perm (id :: r.ids) := by
    rw [List.perm_ext_iff_of_nodup r'.ids_nodup hnew]
    intro x
    rw [mem_ids_iff, h, List.mem_cons, mem_ids_iff]
  rw [size, size, ← length_ids, ← length_ids, hperm.length_eq, List.length_cons]

/-! ## Rewriting in place -/

/-- Whatever is read of a record is read of the rewritten one after a write. -/
theorem bind_modify (r : Roster k α) (id other : Handle k) (f : α → α) (g : α → Option β) :
    ((r.modify id f).get? other).bind g =
      if other = id then (r.get? other).bind fun a => g (f a) else (r.get? other).bind g := by
  rw [get?_modify]
  split
  · rw [Option.bind_map]
    rfl
  · rfl

theorem getD_modify (r : Roster k α) (id other : Handle k) (f : α → α) (g : α → β) (b : β) :
    (((r.modify id f).get? other).map g).getD b =
      if other = id then ((r.get? other).map fun a => g (f a)).getD b
      else ((r.get? other).map g).getD b := by
  rw [get?_modify]
  split
  · rw [Option.map_map]
    rfl
  · rfl

/-- Writing to some handles in turn leaves all others as they were. -/
theorem get?_foldl_modify_of_not_mem {γ : Type} (key : γ → Handle k) (f : γ → α → α)
    {xs : List γ} {id : Handle k} (h : id ∉ xs.map key) (r : Roster k α) :
    (xs.foldl (fun r x => r.modify (key x) (f x)) r).get? id = r.get? id := by
  induction xs generalizing r with
  | nil => rfl
  | cons x xs ih =>
      obtain ⟨hne, hrest⟩ := not_or.1 (mt List.mem_cons.2 h)
      rw [List.foldl_cons, ih hrest, get?_modify, if_neg hne]

/-- Where no handle is written twice, every write finds the record as it was. -/
theorem get?_foldl_modify_of_mem {γ : Type} (key : γ → Handle k) (f : γ → α → α)
    {xs : List γ} (hxs : (xs.map key).Nodup) {x : γ} (hx : x ∈ xs) (r : Roster k α) :
    (xs.foldl (fun r x => r.modify (key x) (f x)) r).get? (key x) =
      (r.get? (key x)).map (f x) := by
  induction xs generalizing r with
  | nil => cases hx
  | cons y xs ih =>
      obtain ⟨hfresh, hrest⟩ := List.nodup_cons.1 hxs
      rw [List.foldl_cons]
      rcases List.mem_cons.1 hx with rfl | hx
      · rw [get?_foldl_modify_of_not_mem key f hfresh, get?_modify, if_pos rfl]
      · have hne : key x ≠ key y := fun heq => hfresh (heq ▸ List.mem_map_of_mem hx)
        rw [ih hrest hx, get?_modify, if_neg hne]

theorem view_modify_of {r : Roster k α} {id : Handle k} {f : α → α} {π : α → β}
    (h : ∀ a, r.get? id = some a → π (f a) = π a) : (r.modify id f).view π = r.view π := by
  funext other
  unfold view
  rw [get?_modify]
  split
  · subst other
    cases hid : r.get? id with
    | none => rfl
    | some a => simp [h a hid]
  · rfl

theorem entryAt?_modify (r : Roster k α) (id other : Handle k) (f : α → α) :
    (r.modify id f).entryAt? other =
      if other = id then (r.entryAt? other).map fun e => { e with record := f e.record }
      else r.entryAt? other := entryAt?_modifyEntry ..

@[simp] theorem hostOf_modify (r : Roster k α) (id other : Handle k) (f : α → α) :
    (r.modify id f).hostOf other = r.hostOf other := by
  unfold hostOf
  rw [entryAt?_modify]
  split
  · cases r.entryAt? other <;> rfl
  · rfl

@[simp] theorem hosts_modifyEntry (r : Roster k α) (id : Handle k)
    (f : Entry k α → Entry k α) (hf : ∀ e, (f e).id = e.id) :
    (r.modifyEntry id f hf).hosts = r.hosts := by
  unfold modifyEntry; split <;> rfl

@[simp] theorem find?_modify (r : Roster k α) (id : Handle k) (f : α → α) (h : HostId) :
    (r.modify id f).find? h = r.find? h := by
  simp [find?, modify]

@[simp] theorem slots_modifyEntry (r : Roster k α) (id : Handle k)
    (f : Entry k α → Entry k α) (hf : ∀ e, (f e).id = e.id) :
    (r.modifyEntry id f hf).slots = r.slots := by
  unfold modifyEntry; split <;> rfl

@[simp] theorem free_modifyEntry (r : Roster k α) (id : Handle k)
    (f : Entry k α → Entry k α) (hf : ∀ e, (f e).id = e.id) :
    (r.modifyEntry id f hf).free = r.free := by
  unfold modifyEntry; split <;> rfl

theorem update_eq_ok {r r' : Roster k α} {id : Handle k} {f : α → α}
    (h : r.update id f = .ok r') : r.contains id ∧ r' = r.modify id f := by
  unfold update at h
  split at h
  · rename_i hid
    exact ⟨hid, (Except.ok.inj h).symm⟩
  · simp at h

theorem view_map_of {r : Roster k α} {f : Handle k → α → α} {π : α → β}
    (h : ∀ id a, π (f id a) = π a) : (r.map f).view π = r.view π := by
  funext id
  simp [view, Function.comp_def, h]

@[simp] theorem hostOf_map (r : Roster k α) (f : Handle k → α → α) (id : Handle k) :
    (r.map f).hostOf id = r.hostOf id := by
  unfold hostOf map
  rw [entryAt?_mapEntries]
  cases r.entryAt? id <;> rfl

@[simp] theorem find?_map (r : Roster k α) (f : Handle k → α → α) (h : HostId) :
    (r.map f).find? h = r.find? h := rfl

@[simp] theorem hosts_setHost (r : Roster k α) (id : Handle k) (h : Option HostId) :
    (r.setHost id h).hosts = r.hosts := hosts_modifyEntry ..

/-! ## Adding -/

theorem entryAt?_nextIndex (r : Roster k α) : r.entryAt? ⟨r.nextIndex⟩ = none := by
  simp [entryAt?, place?_nextIndex]

/-- The new entry is the given record without a host id; no other entry changes. -/
theorem entryAt?_add (r : Roster k α) (a : α) (id : Handle k) :
    (r.add a).2.entryAt? id =
      if id = (r.add a).1 then some ⟨(r.add a).1, none, a⟩ else r.entryAt? id := by
  have hold : ∀ e ∈ r.entries, e.id ≠ (r.add a).1 := by
    intro e he hid
    have := entryAt?_eq_some_iff.2 ⟨he, hid⟩
    simp [add_id, entryAt?_nextIndex] at this
  apply Option.ext
  intro e
  rw [entryAt?_eq_some_iff, entries_add]
  split
  · subst id
    constructor
    · rintro ⟨he, hid⟩
      rcases List.mem_append.1 he with he | he
      · exact absurd hid (hold e he)
      · exact (congrArg some (List.mem_singleton.1 he)).symm
    · rintro he
      cases he
      exact ⟨by simp, rfl⟩
  · rename_i hne
    rw [entryAt?_eq_some_iff]
    constructor
    · rintro ⟨he, rfl⟩
      rcases List.mem_append.1 he with he | he
      · exact ⟨he, rfl⟩
      · rw [List.mem_singleton.1 he] at hne
        exact absurd rfl hne
    · rintro ⟨he, rfl⟩
      exact ⟨List.mem_append_left _ he, rfl⟩

@[simp] theorem hosts_add (r : Roster k α) (a : α) : (r.add a).2.hosts = r.hosts := by
  unfold add; dsimp only; split <;> rfl

@[simp] theorem free_add (r : Roster k α) (a : α) : (r.add a).2.free = r.free.tail := by
  unfold add; dsimp only; split <;> simp_all

/-- A slot is added only when no handle is free. -/
theorem size_slots_add (r : Roster k α) (a : α) :
    (r.add a).2.slots.size = if r.free = [] then r.slots.size + 1 else r.slots.size := by
  unfold add
  dsimp only
  split <;> simp_all

/-- The adopted entry is the given record under the host id. The older owner of
the host id loses it, and nothing else changes. -/
theorem adopt_spec {r r' : Roster k α} {hostId : HostId} {a : α} {id : Handle k}
    (h : r.adopt hostId a = .ok (id, r')) :
    id = (r.add a).1 ∧ r'.hosts = r.hosts.insert hostId id ∧
      r'.slots = (r.add a).2.slots ∧ r'.free = (r.add a).2.free ∧
      ∀ other, r'.entryAt? other =
        if other = id then some ⟨id, some hostId, a⟩
        else if r.find? hostId = some other then
          (r.entryAt? other).map fun e => { e with hostId := none }
        else r.entryAt? other := by
  have key : ∀ other, ({ (r.add a).2 with hosts := (r.add a).2.hosts.insert hostId (r.add a).1 } :
      Roster k α).entryAt? other = (r.add a).2.entryAt? other := fun _ => rfl
  unfold adopt at h
  unfold find?
  cases hfind : r.hosts.find? hostId with
  | none =>
      simp only [hfind] at h
      split at h
      case isFalse => simp at h
      simp only [Except.ok.injEq, Prod.mk.injEq] at h
      obtain ⟨rfl, rfl⟩ := h
      refine ⟨rfl, by simp, slots_modifyEntry .., free_modifyEntry .., fun other => ?_⟩
      simp only [setHost, entryAt?_modifyEntry, key, entryAt?_add]
      split <;> simp_all
  | some previous =>
      simp only [hfind] at h
      split at h
      case isFalse => simp at h
      simp only [Except.ok.injEq, Prod.mk.injEq] at h
      obtain ⟨rfl, rfl⟩ := h
      refine ⟨rfl, by simp, ?_, ?_, fun other => ?_⟩
      · exact (slots_modifyEntry ..).trans (slots_modifyEntry ..)
      · exact (free_modifyEntry ..).trans (free_modifyEntry ..)
      · simp only [setHost, entryAt?_modifyEntry, key, entryAt?_add, Option.some.injEq]
        by_cases h₁ : other = (r.add a).1
        · by_cases h₂ : other = previous <;> simp_all
        · by_cases h₂ : other = previous
          · subst h₂; simp [h₁]
          · simp [h₁, h₂, Ne.symm h₂]

theorem get?_adopt {r r' : Roster k α} {hostId : HostId} {a : α} {id : Handle k}
    (h : r.adopt hostId a = .ok (id, r')) (other : Handle k) :
    r'.get? other = if other = id then some a else r.get? other := by
  unfold get?
  rw [(adopt_spec h).2.2.2.2 other]
  split
  · rfl
  · split
    · cases r.entryAt? other <;> rfl
    · rfl

/-- Adopting gives out a handle that was not live. -/
theorem get?_of_adopt {r r' : Roster k α} {hostId : HostId} {a : α} {id : Handle k}
    (h : r.adopt hostId a = .ok (id, r')) : r.get? id = none := by
  rw [(adopt_spec h).1, add_id, get?_nextIndex]

/-- A reading that tells nothing of the new record is as before. -/
theorem reading_adopt {r r' : Roster k α} {hostId : HostId} {a : α} {id : Handle k}
    (h : r.adopt hostId a = .ok (id, r')) (g : Option α → β) (hg : g (some a) = g none)
    (other : Handle k) : g (r'.get? other) = g (r.get? other) := by
  rw [get?_adopt h]
  split
  · rename_i hother
    rw [hother, get?_of_adopt h, hg]
  · rfl

theorem find?_adopt {r r' : Roster k α} {hostId : HostId} {a : α} {id : Handle k}
    (h : r.adopt hostId a = .ok (id, r')) (other : HostId) :
    r'.find? other = if other = hostId then some id else r.find? other := by
  unfold find?
  rw [(adopt_spec h).2.1, Table.find?_insert]

theorem hostOf_adopt {r r' : Roster k α} {hostId : HostId} {a : α} {id : Handle k}
    (h : r.adopt hostId a = .ok (id, r')) (other : Handle k) :
    r'.hostOf other =
      if other = id then some hostId
      else if r.find? hostId = some other then none
      else r.hostOf other := by
  unfold hostOf
  rw [(adopt_spec h).2.2.2.2 other]
  split
  · rfl
  · split
    · cases r.entryAt? other <;> rfl
    · rfl

theorem size_adopt {r r' : Roster k α} {hostId : HostId} {a : α} {id : Handle k}
    (h : r.adopt hostId a = .ok (id, r')) : r'.size = r.size + 1 := by
  refine size_insert id ?_ fun x => ?_
  · rw [contains_eq_false_iff, get?_of_adopt h]
  · rw [contains_eq_isSome, contains_eq_isSome, get?_adopt h]
    by_cases hx : x = id <;> simp [hx]

/-! ## Removing -/

/-- The parts of a roster after a removal. -/
theorem remove?_spec {r r' : Roster k α} {id : Handle k} {gone : Entry k α}
    (h : r.remove? id = some (gone, r')) :
    ∃ d last, r.place? id = some d ∧ r.dense.back? = some last ∧ r.dense[d]? = some gone ∧
      r'.dense = (r.dense.setIfInBounds d last).pop ∧
      r'.slots = (r.slots.setIfInBounds last.id.index (some d)).setIfInBounds id.index none ∧
      r'.free = id.index :: r.free ∧
      r'.hosts = match gone.hostId with
        | some hostId => if r.hosts.find? hostId = some id then r.hosts.erase hostId else r.hosts
        | none => r.hosts := by
  unfold remove? at h
  split at h
  · rename_i d last hp hl
    split at h
    · rename_i e hd
      simp only [Option.some.injEq, Prod.mk.injEq] at h
      obtain ⟨rfl, rfl⟩ := h
      exact ⟨d, last, hp, hl, hd, rfl, rfl, rfl, rfl⟩
    · simp at h
  · simp at h

/-- The entries after a removal are all others. -/
theorem mem_entries_remove? {r r' : Roster k α} {id : Handle k} {gone : Entry k α}
    (h : r.remove? id = some (gone, r')) (e : Entry k α) :
    e ∈ r'.entries ↔ e ∈ r.entries ∧ e.id ≠ id := by
  obtain ⟨d, last, hp, hl, hd, hdense, -⟩ := remove?_spec h
  obtain ⟨e', he', hid⟩ := place?_eq_some_iff.1 hp
  have hgone : gone.id = id := by rw [← hid]; congr 1; simpa [hd] using he'
  have unique : ∀ (i j : Nat) (x y : Entry k α), r.dense[i]? = some x → r.dense[j]? = some y →
      x.id = y.id → i = j := by
    intro i j x y hx hy hxy
    have h₁ := r.slot_of_dense i x hx
    have h₂ := r.slot_of_dense j y hy
    rw [hxy, h₂] at h₁
    simpa using h₁.symm
  unfold entries
  rw [Array.mem_toList_iff, Array.mem_toList_iff, Array.mem_iff_getElem?, Array.mem_iff_getElem?,
    hdense]
  constructor
  · rintro ⟨i, hi⟩
    have := unique i d
    have := unique (r.dense.size - 1) d
    grind
  · rintro ⟨⟨i, hi⟩, hne⟩
    by_cases hlast : i = r.dense.size - 1
    · exact ⟨d, by grind⟩
    · exact ⟨i, by grind⟩

/-- Removing a handle takes its entry away and changes no other. -/
theorem entryAt?_remove? {r r' : Roster k α} {id : Handle k} {gone : Entry k α}
    (h : r.remove? id = some (gone, r')) (other : Handle k) :
    r'.entryAt? other = if other = id then none else r.entryAt? other := by
  apply Option.ext
  intro e
  rw [entryAt?_eq_some_iff, mem_entries_remove? h]
  split
  · subst other; simp_all
  · rw [entryAt?_eq_some_iff]
    constructor
    · rintro ⟨⟨he, -⟩, hid⟩; exact ⟨he, hid⟩
    · rintro ⟨he, rfl⟩; exact ⟨⟨he, ‹_›⟩, rfl⟩

/-- What a removal hands out is the entry that was removed. -/
theorem entryAt?_of_remove? {r r' : Roster k α} {id : Handle k} {gone : Entry k α}
    (h : r.remove? id = some (gone, r')) : r.entryAt? id = some gone := by
  obtain ⟨d, last, hp, -, hd, -⟩ := remove?_spec h
  simp [entryAt?, hp, hd]

theorem get?_remove? {r r' : Roster k α} {id : Handle k} {gone : Entry k α}
    (h : r.remove? id = some (gone, r')) (other : Handle k) :
    r'.get? other = if other = id then none else r.get? other := by
  unfold get?
  rw [entryAt?_remove? h]
  split <;> rfl

/-- A reading that told nothing of the removed record is as before. -/
theorem reading_remove? {r r' : Roster k α} {id : Handle k} {gone : Entry k α}
    (h : r.remove? id = some (gone, r')) (g : Option α → β) (hg : g (r.get? id) = g none)
    (other : Handle k) : g (r'.get? other) = g (r.get? other) := by
  rw [get?_remove? h]
  split
  · rename_i hother
    rw [hother, hg]
  · rfl

theorem hostOf_remove? {r r' : Roster k α} {id : Handle k} {gone : Entry k α}
    (h : r.remove? id = some (gone, r')) (other : Handle k) :
    r'.hostOf other = if other = id then none else r.hostOf other := by
  unfold hostOf
  rw [entryAt?_remove? h]
  split <;> rfl

theorem size_remove? {r r' : Roster k α} {id : Handle k} {gone : Entry k α}
    (h : r.remove? id = some (gone, r')) : r.size = r'.size + 1 := by
  refine size_insert id ?_ fun x => ?_
  · rw [contains_eq_false_iff, get?_remove? h, if_pos rfl]
  · rw [contains_eq_isSome, contains_eq_isSome, get?_remove? h]
    by_cases hx : x = id
    · simp [hx, get?, entryAt?_of_remove? h]
    · simp [hx]

theorem remove?_eq_none_iff {r : Roster k α} {id : Handle k} :
    r.remove? id = none ↔ r.entryAt? id = none := by
  rw [← Option.not_isSome_iff_eq_none, remove?_isSome_iff, contains_iff, get?]
  cases r.entryAt? id <;> simp

/-! ## Passes -/

/-- A pass over all records, told of one record at a time: an invariant of the
carried state holds at the end, and every record is what the pass made of it in
some state that satisfied the invariant. -/
theorem sweepEntries_spec {σ : Type} {f : Handle k → α → σ → α × σ} {P : σ → Prop}
    (es : List (Entry k α)) {s : σ} (hs : P s)
    (step : ∀ e ∈ es, ∀ s, P s → P (f e.id e.record s).2) :
    P (sweepEntries f es s).2 ∧
      List.Forall₂ (fun e e' => e'.id = e.id ∧ e'.hostId = e.hostId ∧
        ∃ s, P s ∧ e'.record = (f e.id e.record s).1) es (sweepEntries f es s).1 := by
  induction es generalizing s with
  | nil => exact ⟨hs, .nil⟩
  | cons e es ih =>
      have hhead := step e (by simp) s hs
      obtain ⟨hend, htail⟩ := ih hhead fun e he => step e (by simp [he])
      exact ⟨hend, .cons ⟨rfl, rfl, s, hs, rfl⟩ htail⟩

/-- What the turn of a record settles, and no later turn unsettles, is settled for
all records in the end. -/
theorem sweepEntries_settles {σ : Type} {f : Handle k → α → σ → α × σ} {I : σ → Prop}
    {Q : Handle k → α → σ → Prop} (es : List (Entry k α)) {s : σ} (hs : I s)
    (turn : ∀ e ∈ es, ∀ s, I s →
      I (f e.id e.record s).2 ∧ Q e.id (f e.id e.record s).1 (f e.id e.record s).2)
    (keep : ∀ e ∈ es, ∀ s, I s → ∀ id a, Q id a s → Q id a (f e.id e.record s).2) :
    ∀ e ∈ (sweepEntries f es s).1, Q e.id e.record (sweepEntries f es s).2 := by
  induction es generalizing s with
  | nil => exact fun e he => nomatch he
  | cons e es ih =>
      obtain ⟨hnext, hsettled⟩ := turn e List.mem_cons_self s hs
      intro e' he'
      rcases List.mem_cons.1 he' with rfl | he'
      · refine (sweepEntries_spec (P := fun s => I s ∧ Q e.id _ s) es ⟨hnext, hsettled⟩ ?_).1.2
        intro later hlater s hboth
        exact ⟨(turn later (List.mem_cons_of_mem _ hlater) s hboth.1).1,
          keep later (List.mem_cons_of_mem _ hlater) s hboth.1 _ _ hboth.2⟩
      · exact ih hnext (fun e he => turn e (List.mem_cons_of_mem _ he))
          (fun e he => keep e (List.mem_cons_of_mem _ he)) e' he'

theorem rel_getElem? {γ δ : Type} {R : γ → δ → Prop} {xs : List γ} {ys : List δ}
    (h : List.Forall₂ R xs ys) (i : Nat) : Option.Rel R xs[i]? ys[i]? := by
  induction h generalizing i with
  | nil => exact .none
  | cons hxy _ ih =>
      cases i with
      | zero => exact .some hxy
      | succ i => simpa using ih i

section Sweep

variable {σ : Type} {f : Handle k → α → σ → α × σ} {s : σ} {r : Roster k α}

theorem sweep_induction {P : σ → Prop} (hs : P s)
    (step : ∀ id a, r.get? id = some a → ∀ s, P s → P (f id a s).2) : P (r.sweep f s).2 :=
  (sweepEntries_spec r.entries hs
    fun e he s h => step e.id e.record (get?_of_mem_entries he) s h).1

theorem sweep_settles {I : σ → Prop} {Q : Handle k → α → σ → Prop} (hs : I s)
    (turn : ∀ id a, r.get? id = some a → ∀ s, I s →
      I (f id a s).2 ∧ Q id (f id a s).1 (f id a s).2)
    (keep : ∀ id a, r.get? id = some a → ∀ s, I s → ∀ id' a', Q id' a' s →
      Q id' a' (f id a s).2) {id : Handle k} {a : α}
    (h : (r.sweep f s).1.get? id = some a) : Q id a (r.sweep f s).2 := by
  obtain ⟨e, he, rfl⟩ := get?_eq_some_iff.1 h
  obtain ⟨hmem, rfl⟩ := entryAt?_eq_some_iff.1 he
  have hswept : e ∈ (sweepEntries f r.entries s).1 := by
    simpa [sweep, replaceEntries, entries] using hmem
  exact sweepEntries_settles r.entries hs
    (fun e he => turn e.id e.record (get?_of_mem_entries he))
    (fun e he => keep e.id e.record (get?_of_mem_entries he)) e hswept

/-- A pass finds every entry where it was and rewrites its record only. -/
theorem entryAt?_sweep {P : σ → Prop} (hs : P s)
    (step : ∀ id a, r.get? id = some a → ∀ s, P s → P (f id a s).2) (id : Handle k) :
    Option.Rel (fun e e' : Entry k α => e'.id = e.id ∧ e'.hostId = e.hostId ∧
      ∃ s, P s ∧ e'.record = (f e.id e.record s).1)
      (r.entryAt? id) ((r.sweep f s).1.entryAt? id) := by
  have h := (sweepEntries_spec (f := f) r.entries hs
    fun e he s h => step e.id e.record (get?_of_mem_entries he) s h).2
  unfold entryAt?
  change Option.Rel _ _ ((r.place? id).bind ((sweepEntries f r.entries s).1.toArray[·]?))
  cases r.place? id with
  | none => exact .none
  | some d => simpa [entries] using rel_getElem? h d

theorem get?_sweep {P : σ → Prop} (hs : P s)
    (step : ∀ id a, r.get? id = some a → ∀ s, P s → P (f id a s).2) (id : Handle k) :
    Option.Rel (fun a a' => ∃ s, P s ∧ a' = (f id a s).1)
      (r.get? id) ((r.sweep f s).1.get? id) := by
  have h := entryAt?_sweep hs step id
  unfold get?
  revert h
  cases he : r.entryAt? id with
  | none =>
      cases (r.sweep f s).1.entryAt? id with
      | none => exact fun _ => .none
      | some e' => exact fun h => nomatch h
  | some e =>
      have hid := id_of_entryAt? he
      cases (r.sweep f s).1.entryAt? id with
      | none => exact fun h => nomatch h
      | some e' =>
          rintro ⟨-, -, s, hs, hrec⟩
          exact .some ⟨s, hs, hid ▸ hrec⟩

/-- An aspect that every turn keeps is kept by the pass. -/
theorem view_sweep_of {π : α → β} (h : ∀ id a s, π (f id a s).1 = π a) :
    (r.sweep f s).1.view π = r.view π := by
  funext id
  unfold view
  have := get?_sweep (P := fun _ => True) (f := f) (s := s) (r := r) trivial
    (fun _ _ _ _ _ => trivial) id
  revert this
  cases r.get? id <;> cases (r.sweep f s).1.get? id <;> intro hrel
  · rfl
  · exact nomatch hrel
  · exact nomatch hrel
  · obtain ⟨s', -, rfl⟩ := (Option.rel_some_some).1 hrel
    simp [h]

/-- Counting the entries together with what a pass makes of their records. -/
theorem countP_zip_sweepEntries (q : Entry k α → α → Bool) :
    ((r.entries.zip (sweepEntries f r.entries s).1).countP fun p => q p.1 p.2.record) =
      r.entries.countP fun e => ((r.sweep f s).1.get? e.id).any (q e) := by
  have hpairs := (sweepEntries_spec (P := fun _ => True) (f := f) (s := s) r.entries trivial
    fun _ _ _ _ => trivial).2
  obtain ⟨hlength, hid⟩ := List.forall₂_iff_zip.1 hpairs
  conv_rhs => rw [← List.map_fst_zip (Nat.le_of_eq hlength), List.countP_map]
  refine List.countP_congr fun p hp => ?_
  have hswept : p.2 ∈ (r.sweep f s).1.entries := by
    simpa [sweep, replaceEntries, entries] using (List.of_mem_zip hp).2
  have hget := get?_of_mem_entries hswept
  rw [(hid hp).1] at hget
  simp [hget]

@[simp] theorem hostOf_sweep (id : Handle k) : (r.sweep f s).1.hostOf id = r.hostOf id := by
  unfold hostOf
  have := entryAt?_sweep (P := fun _ => True) (f := f) (s := s) (r := r) trivial
    (fun _ _ _ _ _ => trivial) id
  revert this
  cases r.entryAt? id <;> cases (r.sweep f s).1.entryAt? id <;> intro hrel
  · rfl
  · exact nomatch hrel
  · exact nomatch hrel
  · obtain ⟨-, hhost, -⟩ := (Option.rel_some_some).1 hrel
    simp [hhost]

@[simp] theorem find?_sweep (h : HostId) : (r.sweep f s).1.find? h = r.find? h := rfl

end Sweep

/-! ## What an edit keeps -/

/-- No record comes or goes, host ids lead where they led, and one aspect of
every record stays what it was. -/
structure Kept (π : α → β) (r r' : Roster k α) : Prop where
  view : r'.view π = r.view π
  hostOf : r'.hostOf = r.hostOf
  find? : r'.find? = r.find?

namespace Kept

variable {π : α → β} {r r' r'' : Roster k α}

theorem refl (r : Roster k α) : Kept π r r := ⟨rfl, rfl, rfl⟩

theorem trans (h : Kept π r r') (h' : Kept π r' r'') : Kept π r r'' :=
  ⟨h'.view.trans h.view, h'.hostOf.trans h.hostOf, h'.find?.trans h.find?⟩

/-- Who keeps an aspect keeps what can be told from it. -/
theorem comp {γ : Type} (h : Kept π r r') (g : β → γ) : Kept (fun a => g (π a)) r r' := by
  refine ⟨funext fun id => ?_, h.hostOf, h.find?⟩
  have hid := congrArg (Option.map g) (congrFun h.view id)
  simpa [Roster.view, Function.comp_def] using hid

theorem contains (h : Kept π r r') (id : Handle k) : r'.contains id = r.contains id := by
  have hid := congrArg Option.isSome (congrFun h.view id)
  rw [contains_eq_isSome, contains_eq_isSome]
  simpa [Roster.view] using hid

/-- Every record comes from one with the same aspect. -/
theorem exists_get? (h : Kept π r r') {id : Handle k} {a' : α} (ha : r'.get? id = some a') :
    ∃ a, r.get? id = some a ∧ π a = π a' := by
  have hid := congrFun h.view id
  unfold Roster.view at hid
  rw [ha] at hid
  exact Option.map_eq_some_iff.1 hid.symm

/-- Every record is still there, with the same aspect. -/
theorem exists_get?_after (h : Kept π r r') {id : Handle k} {a : α} (ha : r.get? id = some a) :
    ∃ a', r'.get? id = some a' ∧ π a' = π a := by
  have hid := congrFun h.view id
  unfold Roster.view at hid
  rw [ha] at hid
  exact Option.map_eq_some_iff.1 hid

theorem any (h : Kept π r r') (p : β → Bool) (id : Handle k) :
    ((r'.get? id).any fun a => p (π a)) = (r.get? id).any fun a => p (π a) := by
  have hid := congrArg (Option.any p) (congrFun h.view id)
  unfold Roster.view at hid
  rwa [Option.any_map, Option.any_map] at hid

theorem modify_of {id : Handle k} {f : α → α} (h : ∀ a, r.get? id = some a → π (f a) = π a) :
    Kept π r (r.modify id f) :=
  ⟨view_modify_of h, funext fun _ => hostOf_modify .., funext fun _ => find?_modify ..⟩

theorem modify {id : Handle k} {f : α → α} (h : ∀ a, π (f a) = π a) :
    Kept π r (r.modify id f) := modify_of fun a _ => h a

theorem map {f : Handle k → α → α} (h : ∀ id a, π (f id a) = π a) : Kept π r (r.map f) :=
  ⟨view_map_of h, funext fun _ => hostOf_map .., funext fun _ => find?_map ..⟩

theorem sweep {σ : Type} {f : Handle k → α → σ → α × σ} {s : σ}
    (h : ∀ id a s, π (f id a s).1 = π a) : Kept π r (r.sweep f s).1 :=
  ⟨view_sweep_of h, funext fun _ => hostOf_sweep _, funext fun _ => find?_sweep _⟩

theorem foldl {γ : Type} {step : Roster k α → γ → Roster k α} {xs : List γ}
    (h : ∀ x ∈ xs, ∀ r', Kept π r r' → Kept π r' (step r' x)) : Kept π r (xs.foldl step r) := by
  induction xs generalizing r with
  | nil => exact refl r
  | cons x xs ih =>
      have hhead := h x (by simp) r (refl r)
      exact hhead.trans (ih fun y hy r' hr' => h y (by simp [hy]) r' (hhead.trans hr'))

end Kept

/-! ## Rewriting every record -/

/-- A roster is its entries, in their order, and the tables that lead to them. -/
theorem ext_entries {r r' : Roster k α} (hentries : r'.entries = r.entries)
    (hslots : r'.slots = r.slots) (hfree : r'.free = r.free) (hhosts : r'.hosts = r.hosts) :
    r' = r := by
  have hdense : r'.dense = r.dense := Array.toList_inj.1 hentries
  cases r
  cases r'
  simp_all

theorem entries_map (r : Roster k α) (f : Handle k → α → α) : (r.map f).entries =
    r.entries.map fun e => { e with record := f e.id e.record } := entries_mapEntries ..

/-- Only what is done to the records that are there matters. -/
theorem map_congr {r : Roster k α} {f g : Handle k → α → α}
    (h : ∀ id a, r.get? id = some a → f id a = g id a) : r.map f = r.map g := by
  refine ext_entries ?_ rfl rfl rfl
  rw [entries_map, entries_map]
  refine List.map_congr_left fun e he => ?_
  rw [h e.id e.record (get?_of_mem_entries he)]

@[simp] theorem map_self (r : Roster k α) : (r.map fun _ a => a) = r := by
  refine ext_entries ?_ rfl rfl rfl
  rw [entries_map]
  exact List.map_id _

@[simp] theorem map_map (r : Roster k α) (f g : Handle k → α → α) :
    (r.map f).map g = r.map fun id a => g id (f id a) := by
  refine ext_entries ?_ rfl rfl rfl
  simp only [entries_map, List.map_map, Function.comp_def]

theorem modify_eq_map (r : Roster k α) (id : Handle k) (f : α → α) :
    r.modify id f = r.map fun other a => if other = id then f a else a := by
  refine ext_entries ?_ (slots_modifyEntry ..) (free_modifyEntry ..) (hosts_modifyEntry ..)
  rw [entries_map, modify, entries_modifyEntry]
  refine List.map_congr_left fun e _ => ?_
  split <;> rfl

/-- Every record is rewritten where it is, and one aspect of it is kept. -/
def Rewritten (π : α → β) (r r' : Roster k α) : Prop :=
  ∃ f : Handle k → α → α, (∀ id a, π (f id a) = π a) ∧ r' = r.map f

namespace Rewritten

variable {π : α → β} {r r' r'' : Roster k α}

theorem refl (r : Roster k α) : Rewritten π r r :=
  ⟨fun _ a => a, fun _ _ => rfl, r.map_self.symm⟩

theorem trans (h : Rewritten π r r') (h' : Rewritten π r' r'') : Rewritten π r r'' := by
  obtain ⟨f, hf, rfl⟩ := h
  obtain ⟨g, hg, rfl⟩ := h'
  exact ⟨fun id a => g id (f id a), fun id a => (hg id _).trans (hf id a), r.map_map f g⟩

theorem modify {id : Handle k} {f : α → α} (h : ∀ a, π (f a) = π a) :
    Rewritten π r (r.modify id f) := by
  refine ⟨_, fun other a => ?_, r.modify_eq_map id f⟩
  split
  · exact h a
  · rfl

theorem foldl {γ : Type} {step : Roster k α → γ → Roster k α}
    (h : ∀ x r, Rewritten π r (step r x)) (xs : List γ) : Rewritten π r (xs.foldl step r) := by
  induction xs generalizing r with
  | nil => exact refl r
  | cons x xs ih => exact (h x r).trans ih

theorem kept (h : Rewritten π r r') : Kept π r r' := by
  obtain ⟨f, hf, rfl⟩ := h
  exact .map hf

theorem ids (h : Rewritten π r r') : r'.ids = r.ids := by
  obtain ⟨f, -, rfl⟩ := h
  exact ids_mapEntries ..

/-- What has become of every record tells what has become of the roster. -/
theorem eq_map (h : Rewritten π r r') {g : Handle k → α → α}
    (hget : ∀ id, r'.get? id = (r.get? id).map (g id)) : r' = r.map g := by
  obtain ⟨f, -, rfl⟩ := h
  refine map_congr fun id a ha => ?_
  have hid := hget id
  rw [get?_map, ha] at hid
  exact Option.some.inj hid

end Rewritten

/-! ## Host ids -/

/-- Whoever a host id leads to carries that host id. -/
def Known (r : Roster k α) : Prop := ∀ h id, r.find? h = some id → r.hostOf id = some h

namespace Known

variable {r r' : Roster k α}

theorem contains (hr : Known r) {h : HostId} {id : Handle k} (hid : r.find? h = some id) :
    r.contains id := by
  obtain ⟨e, he, -⟩ := Option.bind_eq_some_iff.1 (hr h id hid)
  exact contains_iff.2 ⟨e.record, get?_eq_some_iff.2 ⟨e, he, rfl⟩⟩

theorem kept {π : α → β} (hr : Known r) (h : Kept π r r') : Known r' := by
  unfold Known
  rw [h.find?, h.hostOf]
  exact hr

theorem empty : Known (Roster.empty : Roster k α) := by
  intro h id hid
  cases hid

/-- The adopted host id leads to the new record, and the older owner of it does
not carry it any more. -/
theorem adopt (hr : Known r) {hostId : HostId} {a : α} {id : Handle k}
    (h : r.adopt hostId a = .ok (id, r')) : Known r' := by
  intro other x hx
  rw [find?_adopt h] at hx
  rw [hostOf_adopt h]
  split at hx
  · rename_i hsame
    cases hx
    rw [if_pos rfl, hsame]
  · rename_i hne
    have hcarries := hr other x hx
    rw [if_neg, if_neg]
    · exact hcarries
    · intro hold
      rw [hr hostId x hold, Option.some.injEq] at hcarries
      exact hne hcarries.symm
    · rintro rfl
      have hlive := hr.contains hx
      rw [contains_eq_isSome, get?_of_adopt h] at hlive
      simp at hlive

/-- With a record its host id goes, and no other. -/
theorem find?_remove? (hr : Known r) {id : Handle k} {gone : Entry k α}
    (h : r.remove? id = some (gone, r')) (other : HostId) :
    r'.find? other = if r.find? other = some id then none else r.find? other := by
  have hgone : r.hostOf id = gone.hostId := by simp [hostOf, entryAt?_of_remove? h]
  obtain ⟨-, -, -, -, -, -, -, -, hhosts⟩ := remove?_spec h
  have hr := hr other id
  rw [hgone] at hr
  unfold find? at hr ⊢
  rw [hhosts]
  cases hcarried : gone.hostId with
  | none =>
      rw [hcarried] at hr
      dsimp only
      rw [if_neg]
      intro hid
      simpa using hr hid
  | some carried =>
      simp only [hcarried, Option.some.injEq] at hr ⊢
      by_cases hid : r.hosts.find? other = some id
      · have hsame := hr hid
        subst hsame
        rw [if_pos hid, if_pos hid, Table.find?_erase, if_pos rfl]
      · rw [if_neg hid]
        split
        · rename_i hcid
          rw [Table.find?_erase, if_neg]
          rintro rfl
          exact hid hcid
        · rfl

theorem remove (hr : Known r) {id : Handle k} {gone : Entry k α}
    (h : r.remove? id = some (gone, r')) : Known r' := by
  intro other x hx
  rw [hr.find?_remove? h] at hx
  split at hx
  case isTrue => simp at hx
  rename_i hne
  rw [hostOf_remove? h, if_neg]
  · exact hr other x hx
  · rintro rfl
    exact hne hx

end Known

end Roster

end Warband
