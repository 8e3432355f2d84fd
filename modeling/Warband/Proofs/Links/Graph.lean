import Warband.Bot.Basic
import Warband.Proofs.Roster.View

/-!
# The graph of bosses and followers

The links of all bots form a graph with an edge from a follower to its boss. It
is consistent when both ends of every edge know of it. Tearing down links is a
restriction of the graph: an edge is kept or lost at both ends at once. Whatever
an edit does to the records, its effect is told by the edges it leaves.
-/
namespace Warband

/-- What a bot's record says beside its links. -/
def Bot.unlinked (b : Bot) : Bot := { b with boss := none, followers := [] }

/-- A bot's record with only some of its edges left. -/
def Bot.restrict (keep : BotId → BotId → Bool) (id : BotId) (b : Bot) : Bot :=
  { b with boss := b.boss.filter (keep id), followers := b.followers.filter (keep · id) }

/-- The two ends that a bot's record holds of edges. -/
def Bot.ties (b : Bot) : Option BotId × List BotId := (b.boss, b.followers)

namespace Links

def boss? (bots : Bots) (id : BotId) : Option BotId := (bots.get? id).bind (·.boss)

def followers (bots : Bots) (id : BotId) : List BotId :=
  ((bots.get? id).map (·.followers)).getD []

/-- Both ends of every link agree, no follower is listed twice and no bot leads
itself. As dead bots have no ends, no link leads to one. -/
structure Consistent (bots : Bots) : Prop where
  boss?_iff : ∀ a b, boss? bots a = some b ↔ a ∈ followers bots b
  nodup : ∀ b, (followers bots b).Nodup
  ne : ∀ a, boss? bots a ≠ some a

/-- Both ends of every link agree. This is all that separating bots relies on. -/
def Matched (bots : Bots) : Prop := ∀ a b, boss? bots a = some b ↔ a ∈ followers bots b

theorem contains_of_boss? {bots : Bots} {a b : BotId} (h : boss? bots a = some b) :
    bots.contains a := by
  obtain ⟨r, hr, -⟩ := Option.bind_eq_some_iff.1 h
  exact Roster.contains_of_get? hr

theorem contains_of_mem_followers {bots : Bots} {a b : BotId} (h : a ∈ followers bots b) :
    bots.contains b := by
  unfold followers at h
  cases hb : bots.get? b with
  | none => simp [hb] at h
  | some r => exact Roster.contains_of_get? hb

theorem boss?_of_get? {bots : Bots} {id : BotId} {r : Bot} (h : bots.get? id = some r) :
    boss? bots id = r.boss := by
  simp [boss?, h]

theorem followers_of_get? {bots : Bots} {id : BotId} {r : Bot} (h : bots.get? id = some r) :
    followers bots id = r.followers := by
  simp [followers, h]

theorem boss?_congr {bots bots' : Bots} (h : bots'.view Bot.ties = bots.view Bot.ties)
    (id : BotId) : boss? bots' id = boss? bots id := by
  have hid := congrArg (Option.bind · Prod.fst) (congrFun h id)
  simpa [Roster.view, boss?, Option.bind_map, Function.comp_def, Bot.ties] using hid

theorem followers_congr {bots bots' : Bots} (h : bots'.view Bot.ties = bots.view Bot.ties)
    (id : BotId) : followers bots' id = followers bots id := by
  have hid := congrArg (Option.map Prod.snd) (congrFun h id)
  simp only [Roster.view, Option.map_map, Function.comp_def, Bot.ties] at hid
  simp only [followers, hid]

namespace Matched

variable {bots bots' : Bots}

theorem contains_boss (h : Matched bots) {a b : BotId} (hab : boss? bots a = some b) :
    bots.contains b := contains_of_mem_followers ((h a b).1 hab)

theorem contains_follower (h : Matched bots) {a b : BotId} (hab : a ∈ followers bots b) :
    bots.contains a := contains_of_boss? ((h a b).2 hab)

/-- Only what is read of the links matters. -/
theorem of_readings (h : Matched bots) (hb : ∀ a, boss? bots' a = boss? bots a)
    (hf : ∀ b, followers bots' b = followers bots b) : Matched bots' := fun a b => by
  rw [hb, hf, h a b]

end Matched

/-- Whether the links agree can be seen from the live records. -/
theorem matched_iff {bots : Bots} : Matched bots ↔ ∀ e ∈ bots.entries,
    (∀ b ∈ e.record.boss, e.id ∈ followers bots b) ∧
      ∀ a ∈ e.record.followers, boss? bots a = some e.id := by
  constructor
  · intro h e he
    have hget := Roster.get?_of_mem_entries he
    constructor
    · intro b hb
      exact (h e.id b).1 ((boss?_of_get? hget).trans hb)
    · intro a ha
      rw [← followers_of_get? hget] at ha
      exact (h a e.id).2 ha
  · intro h a b
    constructor
    · intro hab
      obtain ⟨r, hr, hb⟩ := Option.bind_eq_some_iff.1 hab
      obtain ⟨e, he, rfl⟩ := Roster.get?_eq_some_iff.1 hr
      obtain ⟨hmem, rfl⟩ := Roster.entryAt?_eq_some_iff.1 he
      exact (h e hmem).1 b hb
    · intro hab
      obtain ⟨r, hr⟩ := Roster.contains_iff.1 (contains_of_mem_followers hab)
      obtain ⟨e, he, rfl⟩ := Roster.get?_eq_some_iff.1 hr
      obtain ⟨hmem, rfl⟩ := Roster.entryAt?_eq_some_iff.1 he
      rw [followers_of_get? hr] at hab
      exact (h e hmem).2 a hab

instance (bots : Bots) : Decidable (Matched bots) := decidable_of_iff' _ matched_iff

namespace Consistent

variable {bots bots' : Bots}

theorem matched (h : Consistent bots) : Matched bots := h.boss?_iff

theorem contains_boss (h : Consistent bots) {a b : BotId} (hab : boss? bots a = some b) :
    bots.contains b := h.matched.contains_boss hab

theorem contains_follower (h : Consistent bots) {a b : BotId} (hab : a ∈ followers bots b) :
    bots.contains a := h.matched.contains_follower hab

theorem of_readings (h : Consistent bots) (hb : ∀ a, boss? bots' a = boss? bots a)
    (hf : ∀ b, followers bots' b = followers bots b) : Consistent bots' where
  boss?_iff := h.matched.of_readings hb hf
  nodup b := by rw [hf]; exact h.nodup b
  ne a := by rw [hb]; exact h.ne a

theorem congr (h : Consistent bots) (hv : bots'.view Bot.ties = bots.view Bot.ties) :
    Consistent bots' := h.of_readings (boss?_congr hv) (followers_congr hv)

/-- A new bot without links changes no edge. -/
theorem adopt (h : Consistent bots) {hostId : HostId} {r : Bot} {id : BotId}
    (hadopt : bots.adopt hostId r = .ok (id, bots')) (hb : r.boss = none)
    (hf : r.followers = []) : Consistent bots' :=
  h.of_readings (Roster.reading_adopt hadopt (·.bind (·.boss)) hb)
    (Roster.reading_adopt hadopt (fun o => (o.map Bot.followers).getD []) hf)

/-- A bot that no edge touches can be removed. -/
theorem remove (h : Consistent bots) {id : BotId} {gone : Entry .bot Bot}
    (hremove : bots.remove? id = some (gone, bots')) (hb : boss? bots id = none)
    (hf : followers bots id = []) : Consistent bots' :=
  h.of_readings (Roster.reading_remove? hremove (·.bind (·.boss)) hb)
    (Roster.reading_remove? hremove (fun o => (o.map Bot.followers).getD []) hf)

end Consistent

/-! ## Restrictions -/

/-- The edges that some rule keeps are left, at both ends, and nothing else of
any record changes. -/
def Restricts (keep : BotId → BotId → Bool) (bots bots' : Bots) : Prop :=
  ∀ id, bots'.get? id = (bots.get? id).map (Bot.restrict keep id)

namespace Restricts

variable {keep : BotId → BotId → Bool} {bots bots' : Bots}

theorem boss? (h : Restricts keep bots bots') (id : BotId) :
    boss? bots' id = (boss? bots id).filter (keep id) := by
  unfold Links.boss?
  rw [h id]
  cases bots.get? id <;> rfl

theorem followers (h : Restricts keep bots bots') (id : BotId) :
    followers bots' id = (followers bots id).filter (keep · id) := by
  unfold Links.followers
  rw [h id]
  cases bots.get? id <;> rfl

/-- An edge is lost at both ends. -/
theorem matched (h : Restricts keep bots bots') (hm : Matched bots) : Matched bots' := by
  intro a b
  rw [h.boss?, h.followers, List.mem_filter, ← hm a b, Option.filter_eq_some_iff]

/-- A restriction of a consistent graph is consistent. -/
theorem consistent (h : Restricts keep bots bots') (hc : Consistent bots) : Consistent bots' where
  boss?_iff := h.matched hc.matched
  nodup b := by
    rw [h.followers]
    exact (hc.nodup b).filter _
  ne a ha := by
    rw [h.boss?, Option.filter_eq_some_iff] at ha
    exact hc.ne a ha.1

theorem view_unlinked (h : Restricts keep bots bots') :
    bots'.view Bot.unlinked = bots.view Bot.unlinked := by
  funext id
  unfold Roster.view
  rw [h id]
  cases bots.get? id <;> rfl

end Restricts

theorem bot_ext {b b' : Bot} (hu : b.unlinked = b'.unlinked) (hb : b.boss = b'.boss)
    (hf : b.followers = b'.followers) : b = b' := by
  cases b
  cases b'
  simp_all [Bot.unlinked]

/-- Whether a graph is a restriction of another can be seen from its edges. -/
theorem restricts_of_edges {keep : BotId → BotId → Bool} {bots bots' : Bots}
    (hu : bots'.view Bot.unlinked = bots.view Bot.unlinked)
    (hb : ∀ id, boss? bots' id = (boss? bots id).filter (keep id))
    (hf : ∀ id, followers bots' id = (followers bots id).filter (keep · id)) :
    Restricts keep bots bots' := by
  intro id
  have hu := congrFun hu id
  have hb := hb id
  have hf := hf id
  unfold Roster.view at hu
  cases hid : bots.get? id with
  | none => simpa [hid] using hu
  | some r =>
      cases hid' : bots'.get? id with
      | none => simp [hid, hid'] at hu
      | some r' =>
          rw [boss?_of_get? hid, boss?_of_get? hid'] at hb
          rw [followers_of_get? hid, followers_of_get? hid'] at hf
          simp only [hid, hid', Option.map_some, Option.some.injEq] at hu ⊢
          exact bot_ext hu hb hf

namespace Restricts

variable {keep keep' : BotId → BotId → Bool} {bots bots' bots'' : Bots}

theorem trans (h : Restricts keep bots bots') (h' : Restricts keep' bots' bots'') :
    Restricts (fun a b => keep a b && keep' a b) bots bots'' := by
  intro id
  rw [h' id, h id, Option.map_map]
  congr 1
  funext r
  simp [Bot.restrict, Option.filter_filter, List.filter_filter, Bool.and_comm]

/-- Only what a rule says of existing edges matters. -/
theorem congr (h : Restricts keep bots bots') (hm : Matched bots)
    (hk : ∀ a b, Links.boss? bots a = some b → keep a b = keep' a b) :
    Restricts keep' bots bots' := by
  refine restricts_of_edges h.view_unlinked (fun a => ?_) fun b => ?_
  · rw [h.boss?]
    cases ha : Links.boss? bots a with
    | none => rfl
    | some b => simp only [Option.filter, hk a b ha]
  · rw [h.followers]
    exact List.filter_congr fun a ha => hk a b ((hm a b).2 ha)

theorem refl (bots : Bots) : Restricts (fun _ _ => true) bots bots :=
  restricts_of_edges rfl (fun a => by cases Links.boss? bots a <;> rfl) fun a => by simp

end Restricts

/-! ## Rewiring -/

/-- An edit of links that leaves exactly the edges of a relation. The graph stays
consistent, followers listed before and after keep their order, and nothing but
links is written. -/
structure Rewires (edge : BotId → BotId → Prop) (bots bots' : Bots) : Prop where
  edge_iff : ∀ a b, boss? bots' a = some b ↔ edge a b
  consistent : Consistent bots'
  order : ∀ b, (followers bots' b).filter (· ∈ followers bots b) =
    (followers bots b).filter (· ∈ followers bots' b)
  rest : bots'.view Bot.unlinked = bots.view Bot.unlinked

theorem Restricts.rewires {keep : BotId → BotId → Bool} {bots bots' : Bots}
    (h : Restricts keep bots bots') (hc : Consistent bots) :
    Rewires (fun a b => Links.boss? bots a = some b ∧ keep a b) bots bots' where
  edge_iff a b := by rw [h.boss?, Option.filter_eq_some_iff]
  consistent := h.consistent hc
  order b := by
    simp only [h.followers, List.filter_filter]
    refine List.filter_congr fun a ha => ?_
    simp [ha]
  rest := h.view_unlinked

end Links

end Warband
