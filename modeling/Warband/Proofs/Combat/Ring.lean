import Mathlib.Data.List.Basic
import Mathlib.Data.Nat.ModEq
import Warband.Combat.Cluster

/-!
# The log as a bounded history

The history of a log is a list without a bound: the events recorded since the
log was made or last cleared, each with the expiries that came after it. Of this
history the log keeps the last events, as many as it has slots. Event number k
is kept in slot k mod c, where c is the number of slots, until event number k + c
takes its place, and it is active unless one of its expiries found it too old.
Slots that no event has reached hold the blank event.

Every answer of the log is read off its active slots.
-/
namespace Warband.Combat.Log

/-! ## Histories -/

/-- One thing that is done to a log. -/
inductive Edit where
  | record (e : Event)
  | expire (now : Time) (maxAge : Float32)
  | clear

def edit (l : Log) : Edit → Log
  | .record e => l.record e
  | .expire now maxAge => l.expire now maxAge
  | .clear => l.clear

/-- A new log after a list of edits. -/
def session (capacity : Nat) (edits : List Edit) : Log :=
  edits.foldl edit (ofCapacity capacity)

/-- An event that was recorded and the expiries since then. -/
structure Entry where
  event : Event
  expiries : List (Time × Float32)

namespace Entry

/-- Some expiry found the event too old. -/
def outdated (t : Entry) : Bool := t.expiries.any fun x => t.event.expired x.1 x.2

/-- The event as its slot holds it. -/
def kept (t : Entry) : Event := { t.event with isActive := !t.outdated }

def age (now : Time) (maxAge : Float32) (t : Entry) : Entry :=
  { t with expiries := t.expiries ++ [(now, maxAge)] }

theorem outdated_age (t : Entry) (now : Time) (maxAge : Float32) :
    (t.age now maxAge).outdated = (t.outdated || t.event.expired now maxAge) := by
  simp [outdated, age]

end Entry

/-- What one edit makes of the history. -/
def note (told : List Entry) : Edit → List Entry
  | .record e => told ++ [⟨e, []⟩]
  | .expire now maxAge => told.map (Entry.age now maxAge)
  | .clear => []

/-- The history that a list of edits leaves behind, the oldest event first. -/
def history (edits : List Edit) : List Entry := edits.foldl note []

/-! ## The slots -/

/-- What an expiry makes of one slot. -/
def retire (now : Time) (maxAge : Float32) (e : Event) : Event :=
  if e.isActive && e.expired now maxAge then { e with isActive := false } else e

theorem slots_expire (l : Log) (now : Time) (maxAge : Float32) :
    (l.expire now maxAge).slots = l.slots.map (retire now maxAge) := rfl

theorem retire_kept (t : Entry) (now : Time) (maxAge : Float32) :
    retire now maxAge t.kept = (t.age now maxAge).kept := by
  have hexp : t.kept.expired now maxAge = t.event.expired now maxAge := rfl
  have hkept : (t.age now maxAge).kept =
      { t.event with isActive := !(t.outdated || t.event.expired now maxAge) } := by
    rw [← Entry.outdated_age]
    rfl
  rw [retire, hexp, hkept]
  cases hout : t.outdated <;> cases hnow : t.event.expired now maxAge <;> simp [Entry.kept, hout]

theorem retire_blank (now : Time) (maxAge : Float32) : retire now maxAge {} = {} := rfl

/-- Event `k` of a history is among the last that `c` slots have room for. -/
def Held (told : List Entry) (c k : Nat) (t : Entry) : Prop :=
  told[k]? = some t ∧ told.length ≤ k + c

/-- A log of `c` slots that keeps the last events of a history. -/
structure Keeps (l : Log) (c : Nat) (told : List Entry) : Prop where
  pos : 0 < c
  size : l.slots.size = c
  head : l.head = told.length % c
  count : l.count = min told.length c
  held : ∀ k t, Held told c k t → l.slots[k % c]? = some t.kept
  /-- A slot that no event has reached. -/
  blank : ∀ i, told.length ≤ i → i < c → l.slots[i]? = some {}

theorem keeps_blank {c : Nat} (hpos : 0 < c) : Keeps ⟨Array.replicate c {}, 0, 0⟩ c [] where
  pos := hpos
  size := Array.size_replicate
  head := (Nat.zero_mod c).symm
  count := (Nat.zero_min c).symm
  held k t h := by simp [Held] at h
  blank i _ hi := by simp [hi]

/-- Two events that are held at the same time are in different slots. -/
theorem mod_ne_mod {c k n : Nat} (hkn : k < n) (hnk : n < k + c) : k % c ≠ n % c := by
  intro heq
  have hdvd : c ∣ n - k := (Nat.modEq_iff_dvd' hkn.le).1 heq
  have hle : c ≤ n - k := Nat.le_of_dvd (by omega) hdvd
  omega

theorem Keeps.record {l : Log} {c : Nat} {told : List Entry} (h : Keeps l c told) (e : Event) :
    Keeps (l.record e) c (told ++ [⟨e, []⟩]) := by
  have hhead : l.head < l.slots.size := by
    rw [h.head, h.size]
    exact Nat.mod_lt _ h.pos
  have hcap : l.capacity = c := h.size
  have hlen : (told ++ [Entry.mk e []]).length = told.length + 1 := by simp
  have hslots : (l.record e).slots = l.slots.setIfInBounds l.head { e with isActive := true } := rfl
  refine ⟨h.pos, (capacity_record l e).trans hcap, ?_, ?_, ?_, ?_⟩
  · change (l.head + 1) % l.capacity = _
    rw [hcap, h.head, Nat.mod_add_mod, hlen]
  · change min (l.count + 1) l.capacity = _
    rw [hcap, h.count, hlen]
    omega
  · rintro k t ⟨hk, hroom⟩
    rw [hlen] at hroom
    rw [hslots]
    rcases Nat.lt_or_ge k told.length with hold | hnew
    · rw [List.getElem?_append_left hold] at hk
      have hne : k % c ≠ l.head := by
        rw [h.head]
        exact mod_ne_mod hold (by omega)
      rw [Array.getElem?_setIfInBounds_ne hne.symm]
      exact h.held k t ⟨hk, by omega⟩
    · have hlt : k < told.length + 1 := hlen ▸ (List.getElem?_eq_some_iff.1 hk).1
      have hkn : k = told.length := by omega
      subst hkn
      simp only [List.getElem?_concat_length, Option.some.injEq] at hk
      subst hk
      rw [← h.head, Array.getElem?_setIfInBounds_self_of_lt hhead]
      rfl
  · intro i hi hic
    rw [hlen] at hi
    have hne : l.head ≠ i := by
      rw [h.head, Nat.mod_eq_of_lt (by omega)]
      omega
    rw [hslots, Array.getElem?_setIfInBounds_ne hne]
    exact h.blank i (by omega) hic

theorem Keeps.expire {l : Log} {c : Nat} {told : List Entry} (h : Keeps l c told) (now : Time)
    (maxAge : Float32) : Keeps (l.expire now maxAge) c (told.map (Entry.age now maxAge)) where
  pos := h.pos
  size := (capacity_expire l now maxAge).trans h.size
  head := by rw [List.length_map]; exact h.head
  count := by rw [List.length_map]; exact h.count
  held k t ht := by
    obtain ⟨hk, hroom⟩ := ht
    rw [List.length_map] at hroom
    rw [List.getElem?_map] at hk
    obtain ⟨s, hs, rfl⟩ := Option.map_eq_some_iff.1 hk
    rw [slots_expire, Array.getElem?_map, h.held k s ⟨hs, hroom⟩, Option.map_some, retire_kept]
  blank i hi hic := by
    rw [List.length_map] at hi
    rw [slots_expire, Array.getElem?_map, h.blank i hi hic, Option.map_some, retire_blank]

theorem Keeps.edit {l : Log} {c : Nat} {told : List Entry} (h : Keeps l c told) (x : Edit) :
    Keeps (l.edit x) c (note told x) := by
  cases x with
  | record e => exact h.record e
  | expire now maxAge => exact h.expire now maxAge
  | clear =>
      have hclear : l.clear = ⟨Array.replicate c {}, 0, 0⟩ := by rw [clear, capacity, h.size]
      change Keeps l.clear c []
      rw [hclear]
      exact keeps_blank h.pos

theorem keeps_foldl {l : Log} {c : Nat} {told : List Entry} (h : Keeps l c told)
    (edits : List Edit) : Keeps (edits.foldl Log.edit l) c (edits.foldl note told) := by
  induction edits generalizing l told with
  | nil => exact h
  | cons x edits ih => exact ih (h.edit x)

theorem keeps_session (capacity : Nat) (edits : List Edit) :
    Keeps (session capacity edits) (max capacity 1) (history edits) :=
  keeps_foldl (keeps_blank (by omega)) edits

/-- The last event that slot `i` can have been given. -/
theorem exists_held {told : List Entry} {c i : Nat} (hic : i < c) (hi : i < told.length) :
    ∃ k t, Held told c k t ∧ k % c = i := by
  let k := i + c * ((told.length - 1 - i) / c)
  have hdiv := Nat.div_add_mod (told.length - 1 - i) c
  have hmod := Nat.mod_lt (told.length - 1 - i) (by omega : 0 < c)
  have hlt : k < told.length := by omega
  refine ⟨k, told[k], ⟨List.getElem?_eq_getElem hlt, by omega⟩, ?_⟩
  rw [Nat.add_mul_mod_self_left, Nat.mod_eq_of_lt hic]

/-- A slot is active iff it holds an event that no expiry found too old. -/
theorem Keeps.isActive_iff {l : Log} {c : Nat} {told : List Entry} (h : Keeps l c told) {i : Nat}
    {e : Event} (he : l.slots[i]? = some e) :
    e.isActive ↔ ∃ k t, Held told c k t ∧ k % c = i ∧ t.outdated = false := by
  have hic : i < c := h.size ▸ (Array.getElem?_eq_some_iff.1 he).1
  constructor
  · intro hactive
    rcases Nat.lt_or_ge i told.length with hlt | hge
    · obtain ⟨k, t, hheld, hk⟩ := exists_held hic hlt
      have hkept : e = t.kept := by
        have hslot := h.held k t hheld
        rw [hk, he] at hslot
        exact Option.some.inj hslot
      rw [hkept] at hactive
      exact ⟨k, t, hheld, hk, by simpa [Entry.kept] using hactive⟩
    · rw [h.blank i hge hic] at he
      cases he
      cases hactive
  · rintro ⟨k, t, hheld, rfl, hout⟩
    rw [h.held k t hheld] at he
    cases he
    simp [Entry.kept, hout]

/-! ## Expiry -/

/-- How many slots are active in one state of the slots and inactive in the next. -/
def lapsed (before after : Array Event) : Nat :=
  (before.zip after).countP fun p => p.1.isActive && !p.2.isActive

theorem expiring_eq_lapsed (l : Log) (now : Time) (maxAge : Float32) :
    l.expiring now maxAge = lapsed l.slots (l.expire now maxAge).slots := by
  have hzip : l.slots.zip (l.slots.map (retire now maxAge)) =
      l.slots.map fun e => (e, retire now maxAge e) := by
    refine Array.ext (by simp) fun i _ _ => ?_
    simp
  rw [lapsed, slots_expire, hzip, Array.countP_map, expiring]
  congr 1
  funext e
  cases hactive : e.isActive <;> cases hexp : e.expired now maxAge <;>
    simp [retire, hactive, hexp]

/-! ## Answers -/

/-- The active events in storage order. -/
def active (l : Log) : List Event := l.slots.toList.filter (·.isActive)

/-- A test that only active events pass may be put to the active events alone. -/
theorem filter_slots (l : Log) {p : Event → Bool} (hp : ∀ e : Event, p e → e.isActive) :
    l.slots.toList.filter p = l.active.filter p := by
  rw [active, List.filter_filter]
  refine List.filter_congr fun e _ => ?_
  cases hpe : p e with
  | false => simp
  | true => simp [hp e hpe]

theorem any_slots (l : Log) {p : Event → Bool} (hp : ∀ e : Event, p e → e.isActive) :
    l.slots.toList.any p = l.active.any p := by
  rw [active, List.any_filter]
  congr 1
  funext e
  cases hpe : p e with
  | false => simp
  | true => simp [hp e hpe]

/-- Two logs give the same answers. -/
structure Alike (a b : Log) : Prop where
  live : ∀ now maxAge, a.live now maxAge = b.live now maxAge
  nearest : ∀ point range now maxAge,
    a.nearest? point range now maxAge = b.nearest? point range now maxAge
  intensity : ∀ point radius window now,
    a.intensity point radius window now = b.intensity point radius window now
  inBossZone : ∀ point radius decay now,
    a.inBossZone point radius decay now = b.inBossZone point radius decay now
  deaths : ∀ now maxAge limit, a.deaths now maxAge limit = b.deaths now maxAge limit
  clusters : ∀ now maxAge radiusSq limit,
    a.clusters now maxAge radiusSq limit = b.clusters now maxAge radiusSq limit

/-- Logs with the same active events answer alike, whatever else they hold. -/
theorem alike_of_active {a b : Log} (h : a.active = b.active) : Alike a b := by
  have hslots : ∀ {p : Event → Bool}, (∀ e : Event, p e → e.isActive) →
      a.slots.toList.filter p = b.slots.toList.filter p := by
    intro p hp
    rw [filter_slots a hp, filter_slots b hp, h]
  have hlive : ∀ now maxAge, a.live now maxAge = b.live now maxAge :=
    fun now maxAge => hslots fun e => Event.isActive_of_live
  have hany : ∀ {p : Event → Bool}, (∀ e : Event, p e → e.isActive) →
      a.slots.toList.any p = b.slots.toList.any p := by
    intro p hp
    rw [any_slots a hp, any_slots b hp, h]
  exact {
    live := hlive
    nearest := fun point range now maxAge => by rw [nearest?, nearest?, hlive]
    intensity := fun point radius window now => by
      rw [intensity, intensity, hslots]
      simp +contextual
    inBossZone := fun point radius decay now => by
      rw [inBossZone, inBossZone, hany]
      simp +contextual
    deaths := fun now maxAge limit => by rw [deaths, deaths, hlive]
    clusters := fun now maxAge radiusSq limit => by
      rw [clusters, clusters, hslots]
      intro e he
      rw [Event.clusters, Bool.and_eq_true] at he
      exact Event.isActive_of_live he.1 }

/-- A log is the bounded history of what was done to it. -/
theorem session_is_bounded_history (capacity : Nat) (edits : List Edit) :
    let l := session capacity edits
    let told := history edits
    let c := max capacity 1
    l.capacity = c ∧
      (∀ k t, Held told c k t → l.slots[k % c]? = some t.kept) ∧
      (∀ i e, l.slots[i]? = some e →
        (e.isActive ↔ ∃ k t, Held told c k t ∧ k % c = i ∧ t.outdated = false)) ∧
      l.count = min told.length c ∧
      (∀ now maxAge, l.expiring now maxAge = lapsed l.slots (l.expire now maxAge).slots) ∧
      ∀ other : Log, other.active = l.active → Alike other l := by
  have h := keeps_session capacity edits
  exact ⟨h.size, h.held, fun i e he => h.isActive_iff he, h.count,
    fun now maxAge => expiring_eq_lapsed _ now maxAge, fun other hsame => alike_of_active hsame⟩

end Warband.Combat.Log
