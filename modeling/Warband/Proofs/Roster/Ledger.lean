import Warband.Proofs.Roster.View
import Warband.Squad.Enrollment

/-!
# Rosters as finite maps

A session of a roster is a list of operations on an empty one. It leaves a
ledger, newest note first: which handles were given out, which were freed, and
when everything was forgotten. From the ledger alone one can tell the handle that
is due next. The main theorem says that after every session the dense order has
no gap, every slot is accounted for once, the due handle is the one given out,
and each operation changes the entry of one handle only.
-/
namespace Warband.Roster

variable {k : Kind} {α ρ : Type}

inductive Note (k : Kind) where
  | issued (id : Handle k)
  | freed (id : Handle k)
  | wiped
deriving DecidableEq, Repr

/-- What a caller does with a roster whose new records are made from forms. -/
inductive Op (k : Kind) (α ρ : Type) where
  | add (form : ρ)
  | adopt (hostId : HostId) (form : ρ)
  | remove (id : Handle k)
  | clear
  /-- The caller rewrites a record in place. -/
  | write (id : Handle k) (f : α → α)

/-- The handles given out since everything was last forgotten. -/
def issued : List (Note k) → List (Handle k)
  | [] => []
  | .issued id :: log => id :: issued log
  | .freed _ :: log => issued log
  | .wiped :: _ => []

/-- The handles freed and not given out again, the most recently freed first. -/
def idle : List (Note k) → List (Handle k)
  | [] => []
  | .issued id :: log => (idle log).erase id
  | .freed id :: log => id :: idle log
  | .wiped :: _ => []

/-- The handle to be given out next: the most recently freed idle one, or else
the first that was never given out. -/
def Due (log : List (Note k)) (id : Handle k) : Prop :=
  match idle log with
  | recent :: _ => id = recent
  | [] => ∀ other, other ∈ issued log ↔ other.index < id.index

/-- One operation on a ledger and a roster. -/
def perform (blank : ρ → α) : Op k α ρ → List (Note k) × Roster k α →
    Except Fault (List (Note k) × Roster k α)
  | .add form, (log, r) =>
    let (id, r) := r.add (blank form)
    .ok (.issued id :: log, r)
  | .adopt hostId form, (log, r) => do
    let (id, r) ← r.adopt hostId (blank form)
    return (.issued id :: log, r)
  | .remove id, (log, r) =>
    match r.remove? id with
    | some (_, r) => .ok (.freed id :: log, r)
    | none => .ok (log, r)
  | .clear, (log, r) => .ok (.wiped :: log, r.clear)
  | .write id f, (log, r) => .ok (log, r.modify id f)

def session (blank : ρ → α) (ops : List (Op k α ρ)) : Except Fault (List (Note k) × Roster k α) :=
  ops.foldlM (fun s op => perform blank op s) ([], empty)

/-- The dense order and the slot table agree, and every slot is either live or
free, once. -/
structure Gapless (r : Roster k α) : Prop where
  place : ∀ (d : Nat) (e : Entry k α), r.dense[d]? = some e → r.place? e.id = some d
  distinct : r.ids.Nodup
  once : ∀ i < r.slots.size, r.ids.count ⟨i⟩ + r.free.count i = 1
  live_lt : ∀ id, r.contains id → id.index < r.slots.size
  free_lt : ∀ i ∈ r.free, i < r.slots.size

/-- The roster answers like a finite map from handles to entries: adding binds
the due handle to a blank record, removing unbinds one handle, and no other
binding changes. Adopting takes the host id from its older owner and changes
nothing else of it. -/
structure MapLike (blank : ρ → α) (log : List (Note k)) (r : Roster k α) : Prop where
  add_due : ∀ form, Due log (r.add (blank form)).1 ∧ r.entryAt? (r.add (blank form)).1 = none
  add : ∀ form id, (r.add (blank form)).2.entryAt? id =
    if id = (r.add (blank form)).1 then some ⟨id, none, blank form⟩ else r.entryAt? id
  adopt : ∀ hostId form, ∃ id r', r.adopt hostId (blank form) = .ok (id, r') ∧
    Due log id ∧ r.entryAt? id = none ∧ ∀ other, r'.entryAt? other =
      if other = id then some ⟨id, some hostId, blank form⟩
      else if r.find? hostId = some other then
        (r.entryAt? other).map fun e => { e with hostId := none }
      else r.entryAt? other
  remove_live : ∀ id e, r.entryAt? id = some e → ∃ r', r.remove? id = some (e, r') ∧
    ∀ other, r'.entryAt? other = if other = id then none else r.entryAt? other
  remove_dead : ∀ id, r.entryAt? id = none → r.remove? id = none
  clear : ∀ id, r.clear.entryAt? id = none

theorem count_ids (r : Roster k α) (id : Handle k) :
    r.ids.count id = if r.contains id then 1 else 0 := by
  rw [r.ids_nodup.count]
  simp only [mem_ids_iff]

theorem gapless (r : Roster k α) : Gapless r where
  place d e h := place?_eq_some_iff.2 ⟨e, h, rfl⟩
  distinct := r.ids_nodup
  once i hi := by
    rw [count_ids, r.free_nodup.count]
    have hfree := r.mem_free i
    cases hslot : r.slots[i]? with
    | none => simp at hslot; omega
    | some place => cases place <;> simp_all [contains, place?]
  live_lt id h := by
    obtain ⟨d, hd⟩ := Option.isSome_iff_exists.1 h
    unfold place? at hd
    by_contra hge
    simp [Array.getElem?_eq_none (Nat.le_of_not_lt hge)] at hd
  free_lt i h := by
    have := (r.mem_free i).1 h
    by_contra hge
    simp [Array.getElem?_eq_none (Nat.le_of_not_lt hge)] at this

/-- The invariant of a session: the free list holds the idle handles in order,
and the handles given out are those that have a slot. -/
structure Recorded (log : List (Note k)) (r : Roster k α) : Prop where
  free_eq : r.free.map Handle.mk = idle log
  issued_iff : ∀ id, id ∈ issued log ↔ id.index < r.slots.size

namespace Recorded

variable {log : List (Note k)} {r r' : Roster k α}

theorem due (h : Recorded log r) (a : α) : Due log (r.add a).1 := by
  unfold Due
  rw [← h.free_eq, add_id, nextIndex]
  cases hf : r.free with
  | nil => simpa using h.issued_iff
  | cons i rest => rfl

/-- A roster whose free list and slots are those of an added one has recorded
the handle given out. -/
theorem issue (h : Recorded log r) (a : α) (hfree : r'.free = r.free.tail)
    (hslots : r'.slots.size = if r.free = [] then r.slots.size + 1 else r.slots.size) :
    Recorded (.issued (r.add a).1 :: log) r' := by
  have hid : (r.add a).1 = ⟨r.free.headD r.slots.size⟩ := rfl
  cases hf : r.free with
  | nil =>
      refine ⟨?_, fun id => ?_⟩
      · simp [hfree, hf, idle, ← h.free_eq]
      · rw [hslots, if_pos hf, hid, hf]
        simp only [issued, List.mem_cons, h.issued_iff, List.headD_nil]
        constructor
        · rintro (rfl | hlt)
          · exact Nat.lt_succ_self _
          · exact Nat.lt_succ_of_lt hlt
        · intro hlt
          rcases Nat.lt_succ_iff_lt_or_eq.1 hlt with hlt | heq
          · exact .inr hlt
          · exact .inl (Handle.index_injective heq)
  | cons i rest =>
      have hi : i < r.slots.size := (gapless r).free_lt i (by simp [hf])
      refine ⟨?_, fun id => ?_⟩
      · simp [hfree, hf, idle, ← h.free_eq, hid]
      · rw [hslots, if_neg (by simp [hf]), hid, hf]
        simp only [issued, List.mem_cons, h.issued_iff, List.headD_cons]
        constructor
        · rintro (rfl | hlt)
          · exact hi
          · exact hlt
        · exact .inr

theorem free {id : Handle k} {gone : Entry k α} (h : Recorded log r)
    (hr : r.remove? id = some (gone, r')) : Recorded (.freed id :: log) r' := by
  obtain ⟨d, last, -, -, -, -, hslots, hfree, -⟩ := remove?_spec hr
  refine ⟨?_, fun other => ?_⟩
  · simp [hfree, idle, h.free_eq]
  · simp [hslots, issued, h.issued_iff]

theorem perform (h : Recorded log r) (blank : ρ → α) (op : Op k α ρ) :
    ∃ log' r', Roster.perform blank op (log, r) = .ok (log', r') ∧ Recorded log' r' := by
  cases op with
  | add form =>
      exact ⟨_, _, rfl, h.issue (blank form) (free_add ..) (size_slots_add ..)⟩
  | adopt hostId form =>
      obtain ⟨r', hr⟩ := adopt_ok r hostId (blank form)
      obtain ⟨-, -, hslots, hfree, -⟩ := adopt_spec hr
      refine ⟨_, r', by simp only [Roster.perform, hr]; rfl, h.issue (blank form) ?_ ?_⟩
      · rw [hfree, free_add]
      · rw [hslots, size_slots_add]
  | remove id =>
      cases hr : r.remove? id with
      | none => exact ⟨log, r, by simp only [Roster.perform, hr], h⟩
      | some p => exact ⟨_, p.2, by simp only [Roster.perform, hr], h.free hr⟩
  | clear => exact ⟨_, _, rfl, rfl, fun id => by simp [issued, Roster.clear, empty]⟩
  | write id f =>
      refine ⟨_, _, rfl, ?_, fun other => ?_⟩
      · simpa [modify] using h.free_eq
      · simpa [modify] using h.issued_iff other

theorem mapLike (h : Recorded log r) (blank : ρ → α) : MapLike blank log r where
  add_due form := ⟨h.due _, entryAt?_nextIndex r⟩
  add form id := by
    rw [entryAt?_add]
    exact ite_congr rfl (fun hid => by rw [hid]) fun _ => rfl
  adopt hostId form := by
    obtain ⟨r', hr⟩ := adopt_ok r hostId (blank form)
    exact ⟨_, r', hr, h.due _, entryAt?_nextIndex r, (adopt_spec hr).2.2.2.2⟩
  remove_live id e he := by
    cases hr : r.remove? id with
    | none => simp [remove?_eq_none_iff.1 hr] at he
    | some p =>
        obtain rfl : p.1 = e := by simpa [he] using (entryAt?_of_remove? hr).symm
        exact ⟨p.2, rfl, entryAt?_remove? hr⟩
  remove_dead id he := remove?_eq_none_iff.2 he
  clear id := by simp [Roster.clear, entryAt?, place?, empty]

end Recorded

theorem session_from (blank : ρ → α) (ops : List (Op k α ρ)) {log : List (Note k)}
    {r : Roster k α} (h : Recorded log r) :
    ∃ log' r', ops.foldlM (fun s op => perform blank op s) (log, r) = .ok (log', r') ∧
      Recorded log' r' := by
  induction ops generalizing log r with
  | nil => exact ⟨log, r, rfl, h⟩
  | cons op ops ih =>
      obtain ⟨log₁, r₁, hop, h₁⟩ := h.perform blank op
      obtain ⟨log', r', hops, h'⟩ := ih h₁
      exact ⟨log', r', by rw [List.foldlM_cons, hop]; exact hops, h'⟩

/-- Every session of a roster ends, and what it ends with is a finite map without
gaps. -/
theorem session_mapLike (blank : ρ → α) (ops : List (Op k α ρ)) :
    ∃ log r, session blank ops = .ok (log, r) ∧ Gapless r ∧ MapLike blank log r := by
  obtain ⟨log, r, hops, h⟩ := session_from blank ops
    (⟨rfl, fun id => by simp [issued, empty]⟩ : Recorded ([] : List (Note k)) (empty : Roster k α))
  exact ⟨log, r, hops, gapless r, h.mapLike blank⟩

end Warband.Roster

namespace Warband

open Roster

/-- Both registries of a mind refine finite maps. A new bot knows nothing, a new
squad is recruited for a number of strategies and a target size, and a disbanded
squad leaves its registry by a removal. -/
theorem registries_refine_maps :
    (∀ ops : List (Op .bot Bot Unit), ∃ log bots, session (fun _ => {}) ops = .ok (log, bots) ∧
      Gapless bots ∧ MapLike (fun _ : Unit => ({} : Bot)) log bots) ∧
    (∀ ops : List (Op .squad Squad (Nat × Nat)), ∃ log squads,
      session (fun form => .recruit form.1 form.2) ops = .ok (log, squads) ∧
      Gapless squads ∧ MapLike (fun form : Nat × Nat => Squad.recruit form.1 form.2) log squads) ∧
    (∀ (squads : Squads) (bots : Bots) (id : SquadId),
      (Enrollment.disband squads bots id).2.1 = ((squads.remove? id).map (·.2)).getD squads) := by
  refine ⟨session_mapLike _, session_mapLike _, fun squads bots id => ?_⟩
  unfold Enrollment.disband
  cases squads.remove? id <;> rfl

end Warband
