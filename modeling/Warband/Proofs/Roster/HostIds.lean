import Warband.Proofs.Roster.Ledger

/-!
# Host ids and their owners

A host id is written down twice: in the table that leads from host ids to
handles, and in the record of the handle. Adopting writes both and strikes the
host id off the record that carried it before; removing takes the binding out of
the table only if it still leads to the removed record. So the table and the
records tell the same after every session of a roster. A handle that is given
out again brings no host id along, since none led to it any more when it was
freed.
-/
namespace Warband

namespace Roster

variable {k : Kind} {α β ρ : Type}

/-- The table leads from a host id to the records that carry it, and to no
others. -/
def Agreed (r : Roster k α) : Prop := ∀ h id, r.find? h = some id ↔ r.hostOf id = some h

/-- The readings that a host cares for: who is found under a host id, that this
is one record only, and what the edits of a roster do to the answers. -/
structure Resolves (blank : ρ → α) (r : Roster k α) : Prop where
  owner : ∀ h id, r.find? h = some id ↔ ∃ e, r.entryAt? id = some e ∧ e.hostId = some h
  unique : ∀ e ∈ r.entries, ∀ e' ∈ r.entries, ∀ h, e.hostId = some h → e'.hostId = some h → e = e'
  /-- A new handle, also one that was in use before, is found under no host id. -/
  add : ∀ form h, (r.add (blank form)).2.find? h = r.find? h ∧
    r.find? h ≠ some (r.add (blank form)).1
  /-- An adopted record is found under its host id only, and the removal of any
  other record, the former owner too, leaves it there. -/
  adopt : ∀ hostId form, ∃ id r', r.adopt hostId (blank form) = .ok (id, r') ∧
    (∀ h, r'.find? h = if h = hostId then some id else r.find? h) ∧
    (∀ h, r.find? h ≠ some id) ∧
    ∀ other gone left, other ≠ id → r'.remove? other = some (gone, left) →
      left.find? hostId = some id
  /-- A record takes its own host id along and no other. -/
  remove : ∀ id gone r', r.remove? id = some (gone, r') →
    ∀ h, r'.find? h = if r.find? h = some id then none else r.find? h

theorem hostOf_eq_some_iff {r : Roster k α} {id : Handle k} {h : HostId} :
    r.hostOf id = some h ↔ ∃ e, r.entryAt? id = some e ∧ e.hostId = some h :=
  Option.bind_eq_some_iff

theorem hostOf_nextIndex (r : Roster k α) : r.hostOf ⟨r.nextIndex⟩ = none := by
  simp [hostOf, entryAt?_nextIndex]

@[simp] theorem find?_add (r : Roster k α) (a : α) (h : HostId) :
    (r.add a).2.find? h = r.find? h := by
  simp [find?]

/-- The added record carries no host id, and neither did its handle before. -/
@[simp] theorem hostOf_add (r : Roster k α) (a : α) (id : Handle k) :
    (r.add a).2.hostOf id = r.hostOf id := by
  unfold hostOf
  rw [entryAt?_add]
  split
  · rename_i hid
    rw [hid, add_id, entryAt?_nextIndex]
    rfl
  · rfl

namespace Agreed

variable {r r' : Roster k α}

theorem known (hr : Agreed r) : Known r := fun h id => (hr h id).1

theorem empty : Agreed (Roster.empty : Roster k α) := by
  intro h id
  simp [find?, hostOf, entryAt?, place?, Roster.empty]

theorem kept {π : α → β} (hr : Agreed r) (h : Kept π r r') : Agreed r' := by
  unfold Agreed
  rw [h.find?, h.hostOf]
  exact hr

/-- No host id leads to a handle that is yet to be given out. -/
theorem find?_ne_nextIndex (hr : Agreed r) (h : HostId) : r.find? h ≠ some ⟨r.nextIndex⟩ := by
  intro hid
  have hcarries := (hr h _).1 hid
  rw [hostOf_nextIndex] at hcarries
  cases hcarries

theorem add (hr : Agreed r) (a : α) : Agreed (r.add a).2 := by
  intro h id
  rw [find?_add, hostOf_add]
  exact hr h id

theorem adopt (hr : Agreed r) {hostId : HostId} {a : α} {new : Handle k}
    (h : r.adopt hostId a = .ok (new, r')) : Agreed r' := by
  have hnew : new = ⟨r.nextIndex⟩ := (adopt_spec h).1
  intro other id
  rw [find?_adopt h, hostOf_adopt h]
  by_cases hid : id = new
  · -- the new handle carries the adopted host id, and no other one leads to it
    subst hid
    rw [if_pos rfl]
    by_cases hother : other = hostId
    · simp [hother]
    · rw [if_neg hother, Option.some.injEq]
      constructor
      · intro hfound
        exact absurd (hnew ▸ hfound) (hr.find?_ne_nextIndex other)
      · intro heq
        exact absurd heq.symm hother
  · rw [if_neg hid]
    by_cases hother : other = hostId
    · -- the adopted host id leads to the new handle, so its former owner gave it up
      rw [hother, if_pos rfl, Option.some.injEq]
      constructor
      · intro heq
        exact absurd heq.symm hid
      · intro hcarries
        split at hcarries
        · cases hcarries
        · rename_i hformer
          exact absurd ((hr hostId id).2 hcarries) hformer
    · rw [if_neg hother]
      split
      · rename_i hformer
        have hcarried := (hr hostId id).1 hformer
        rw [hr other id, hcarried, Option.some.injEq]
        constructor
        · intro heq
          exact absurd heq.symm hother
        · intro hnone
          cases hnone
      · exact hr other id

theorem remove (hr : Agreed r) {id : Handle k} {gone : Entry k α}
    (h : r.remove? id = some (gone, r')) : Agreed r' := by
  intro other x
  rw [hr.known.find?_remove? h, hostOf_remove? h]
  by_cases hx : x = id
  · subst hx
    rw [if_pos rfl]
    split
    · simp
    · rename_i hne
      simp [hne]
  · rw [if_neg hx]
    split
    · rename_i hid
      have hcarried := hr other x
      rw [hid, Option.some.injEq] at hcarried
      rw [← hcarried]
      simp [Ne.symm hx]
    · exact hr other x

theorem perform (hr : Agreed r) {blank : ρ → α} {op : Op k α ρ} {log log' : List (Note k)}
    (h : Roster.perform blank op (log, r) = .ok (log', r')) : Agreed r' := by
  cases op with
  | add form =>
      cases h
      exact hr.add _
  | adopt hostId form =>
      obtain ⟨⟨id, bound⟩, hadopt, h⟩ := bind_eq_ok.1 h
      cases h
      exact hr.adopt hadopt
  | remove id =>
      simp only [Roster.perform] at h
      cases hremove : r.remove? id with
      | none =>
          rw [hremove] at h
          cases h
          exact hr
      | some p =>
          rw [hremove] at h
          cases h
          exact hr.remove hremove
  | clear =>
      cases h
      exact Agreed.empty
  | write id f =>
      cases h
      exact hr.kept (Kept.modify (π := fun _ => ()) fun _ => rfl)

/-- What holds before a list of operations holds after it. -/
theorem session_from {blank : ρ → α} {ops : List (Op k α ρ)} {s s' : List (Note k) × Roster k α}
    (hr : Agreed s.2) (h : ops.foldlM (fun s op => Roster.perform blank op s) s = .ok s') :
    Agreed s'.2 := by
  induction ops generalizing s with
  | nil =>
      cases h
      exact hr
  | cons op ops ih =>
      rw [List.foldlM_cons] at h
      obtain ⟨s₁, hop, hops⟩ := bind_eq_ok.1 h
      apply ih _ hops
      exact hr.perform hop

theorem unique (hr : Agreed r) {e e' : Entry k α} {h : HostId} (he : e ∈ r.entries)
    (he' : e' ∈ r.entries) (hcarries : e.hostId = some h) (hcarries' : e'.hostId = some h) :
    e = e' := by
  have hentry : r.entryAt? e.id = some e := entryAt?_eq_some_iff.2 ⟨he, rfl⟩
  have hentry' : r.entryAt? e'.id = some e' := entryAt?_eq_some_iff.2 ⟨he', rfl⟩
  have hfound : r.find? h = some e.id :=
    (hr h e.id).2 (hostOf_eq_some_iff.2 ⟨e, hentry, hcarries⟩)
  have hfound' : r.find? h = some e'.id :=
    (hr h e'.id).2 (hostOf_eq_some_iff.2 ⟨e', hentry', hcarries'⟩)
  have hid : e.id = e'.id := Option.some.inj (hfound.symm.trans hfound')
  rw [hid, hentry'] at hentry
  exact (Option.some.inj hentry).symm

theorem resolves (hr : Agreed r) (blank : ρ → α) : Resolves blank r where
  owner h id := (hr h id).trans hostOf_eq_some_iff
  unique _ he _ he' _ hcarries hcarries' := hr.unique he he' hcarries hcarries'
  add form h := ⟨find?_add r _ h, hr.find?_ne_nextIndex h⟩
  adopt hostId form := by
    obtain ⟨r', hadopt⟩ := adopt_ok r hostId (blank form)
    refine ⟨_, r', hadopt, find?_adopt hadopt, hr.find?_ne_nextIndex, ?_⟩
    intro other gone left hne hremove
    have hfound : r'.find? hostId = some (r.add (blank form)).1 := by
      rw [find?_adopt hadopt, if_pos rfl]
    rw [(hr.adopt hadopt).known.find?_remove? hremove, hfound, if_neg]
    intro heq
    exact hne (Option.some.inj heq).symm
  remove _ _ _ h := hr.known.find?_remove? h

end Agreed

/-- After every session of a roster, host ids lead to their owners. -/
theorem session_resolves (blank : ρ → α) (ops : List (Op k α ρ)) :
    ∃ log r, session blank ops = .ok (log, r) ∧ Resolves blank r := by
  obtain ⟨log, r, hops, -⟩ := session_mapLike blank ops
  have hagreed : Agreed r := Agreed.session_from Agreed.empty hops
  exact ⟨log, r, hops, hagreed.resolves blank⟩

end Roster

open Roster in
/-- In both registries of a mind host ids resolve exactly to their owners, after
any operations. -/
theorem host_ids_resolve_to_owners :
    (∀ ops : List (Op .bot Bot Unit), ∃ log bots, session (fun _ => {}) ops = .ok (log, bots) ∧
      Resolves (fun _ : Unit => ({} : Bot)) bots) ∧
    (∀ ops : List (Op .squad Squad (Nat × Nat)), ∃ log squads,
      session (fun form => .recruit form.1 form.2) ops = .ok (log, squads) ∧
      Resolves (fun form : Nat × Nat => Squad.recruit form.1 form.2) squads) ∧
    (∀ (squads : Squads) (bots : Bots) (id : SquadId),
      (Enrollment.disband squads bots id).2.1 = ((squads.remove? id).map (·.2)).getD squads) := by
  refine ⟨session_resolves _, session_resolves _, fun squads bots id => ?_⟩
  -- disbanding is a removal as far as the squads are concerned
  unfold Enrollment.disband
  cases squads.remove? id <;> rfl

end Warband
