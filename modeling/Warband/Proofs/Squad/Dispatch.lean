import Mathlib.Data.List.Induction
import Warband.Proofs.Session.Places
import Warband.Proofs.Squad.Scratch

/-!
# What reaches the followers

A refresh works on lists that belong together place by place: the active
followers, their roles and targets, the tiers they hear in, and the slots of the
objective. Records are found by handle instead. What follows is that the two
never slip: the follower at a place of the list has the role of that place, the
target of that place as far as it hears it, and the slot of that place. Orders
are delivered in turn, each with the numbers that the ones before left over.
-/
namespace Warband

open Enrollment Warband.Random

/-! ## Deliveries -/

/-- Who hears the leader learns of the very place. -/
theorem Relay.eq_of_direct {p q : Position} {noise : Float32} {coordination : UInt8}
    {g : Generator} (h : (share .direct p noise coordination g).1 = some q) : q = p := by
  change finite? p = some q at h
  unfold finite? at h
  split at h
  · exact (Option.some.inj h).symm
  · cases h

namespace Order

section deliver

variable (noise : Float32) (coordination : UInt8)

/-- The generator when the first `i` orders are delivered. -/
def draws (os : List Order) (g : Generator) (i : Nat) : Generator :=
  (deliver noise coordination (os.take i) g).2

@[simp] theorem draws_length (os : List Order) (g : Generator) :
    draws noise coordination os g os.length = (deliver noise coordination os g).2 := by
  rw [draws, List.take_length]

/-- An order is delivered with what is left of the generator when its turn comes. -/
theorem deliver_spec (os : List Order) (g : Generator) {i : Nat} {o : Order}
    (h : os[i]? = some o) : ∃ learnt,
      (deliver noise coordination os g).1[i]? = some (o, learnt) ∧
        Relay.share o.tier o.target noise coordination (draws noise coordination os g i) =
          (learnt, draws noise coordination os g (i + 1)) := by
  induction os generalizing g i with
  | nil => cases h
  | cons p os ih =>
      cases i with
      | zero =>
          cases h
          exact ⟨_, rfl, rfl⟩
      | succ i => exact ih _ h

theorem map_fst_deliver (os : List Order) (g : Generator) :
    (deliver noise coordination os g).1.map (·.1) = os := by
  induction os generalizing g with
  | nil => rfl
  | cons o os ih => exact congrArg (o :: ·) (ih _)

end deliver

/-! ## Slots -/

theorem slot?_setSlot_self (o : Objective) {i : Nat} (h : i < maxSquadSize) (x : Slot) :
    (o.setSlot i x).slot? i = some x := by
  have hused : i < max o.used (i + 1) := by omega
  simp [Objective.setSlot, Objective.slot?, h, hused]

theorem slot?_setSlot_of_ne {o : Objective} {i j : Nat} (hne : j ≠ i) (x : Slot) {y : Slot}
    (h : o.slot? j = some y) : (o.setSlot i x).slot? j = some y := by
  unfold Objective.slot? at h
  split at h
  · rename_i hused
    unfold Objective.setSlot
    split
    · have hgrown : j < max o.used (i + 1) := by omega
      simpa [Objective.slot?, hgrown, Ne.symm hne] using h
    · simpa [Objective.slot?, hused] using h
  · cases h

/-- No order is written over the one before. -/
theorem slot?_inscribe {os : List Order} (hos : os.length ≤ maxSquadSize) {i : Nat} {x : Order}
    (h : os[i]? = some x) (o : Objective) :
    (os.zipIdx.foldl inscribe o).slot? i = some ⟨x.target, x.role⟩ := by
  induction os using List.reverseRecOn with
  | nil => cases h
  | append_singleton os last ih =>
      rw [List.length_append, List.length_singleton] at hos
      rw [List.zipIdx_append, List.foldl_append]
      rcases Nat.lt_or_ge i os.length with hi | hi
      · rw [List.getElem?_append_left hi] at h
        exact slot?_setSlot_of_ne (by omega) _ (ih (by omega) h)
      · obtain ⟨rfl, rfl⟩ : i = os.length ∧ last = x := by
          rw [List.getElem?_append_right hi, List.getElem?_singleton] at h
          split at h
          · exact ⟨by omega, Option.some.inj h⟩
          · cases h
        rw [Nat.zero_add]
        exact slot?_setSlot_self _ hos _

/-! ## Counts -/

theorem tally_foldl {bots : Bots} {ds : List (Order × Option Position)}
    (h : ∀ d ∈ ds, ((bots.get? d.1.bot).bind (·.membership)).isSome) (n : Dispatch) :
    ds.foldl (tally bots) n =
      { positioned := n.positioned + ds.countP (·.2.isSome)
        relayed := n.relayed + ds.countP fun d => d.1.tier = .relayed && d.2.isSome
        unreachable := n.unreachable + ds.countP (!·.2.isSome) } := by
  induction ds generalizing n with
  | nil => rfl
  | cons d ds ih =>
      have hwritten := h d List.mem_cons_self
      rw [List.foldl_cons, ih fun d hd => h d (List.mem_cons_of_mem _ hd), tally, if_pos hwritten]
      cases hlearnt : d.2 with
      | none => simp [hlearnt, Nat.add_assoc, Nat.add_comm 1]
      | some p =>
          by_cases hrelayed : d.1.tier = .relayed <;>
            simp [hlearnt, hrelayed, Nat.add_assoc, Nat.add_comm 1]

/-- What happens to the record that an order is for. -/
def write (d : Order × Option Position) (b : Bot) : Bot :=
  b.modifyMembership fun m =>
    match d.2 with
    | some position => m.assign d.1.role position
    | none => m.dismiss

theorem carryOut_foldl (ds : List (Order × Option Position)) (bots : Bots) :
    ds.foldl carryOut bots = ds.foldl (fun bots d => bots.modify d.1.bot (write d)) bots := rfl

end Order

/-! ## Who is to be reached -/

/-- A member's record is as it was, but for the given role and place. -/
def Posted (bots bots' : Bots) (f : BotId) (role : Role) (place : Option Position) : Prop :=
  ∃ b m m', bots.get? f = some b ∧ b.membership = some m ∧
    bots'.get? f = some { b with membership := some m' } ∧ m'.squad = m.squad ∧
    m'.approachingLoot = m.approachingLoot ∧ m'.role = role ∧ m'.assigned? = place

theorem Posted.placed {bots bots' : Bots} {f : BotId} {role : Role} {place : Option Position}
    (h : Posted bots bots' f role place) : placed bots' f = place.isSome := by
  obtain ⟨b, m, m', -, -, hf, -, -, -, rfl⟩ := h
  cases hp : m'.hasPosition <;> simp [Warband.placed, hf, Bot.isPlaced, Membership.assigned?, hp]

/-- The role of the follower of a rank. In a fight nobody trails the leader. -/
def Situation.role (situation : Situation) (rank : Nat) : Role :=
  let role := situation.action.pattern.role rank
  if situation.engaged ∧ situation.threat.isSome then Layout.combatRole role else role

namespace Squad

/-- The list of a squad and the records of the bots agree on who is in it. -/
structure Manned (s : Squad) (id : SquadId) (bots : Bots) : Prop where
  squadOf_iff : ∀ b, squadOf bots b = some id ↔ b ∈ s.members
  nodup : s.members.Nodup
  length_le : s.members.length ≤ maxSquadSize

/-- Where all lists and records agree, those of every squad do. -/
theorem manned_of_consistent {limit : Nat} {squads : Squads} {bots : Bots}
    (h : Consistent limit squads bots) (hlimit : limit ≤ maxSquadSize) {id : SquadId} {s : Squad}
    (hs : squads.get? id = some s) : s.Manned id bots where
  squadOf_iff b := by rw [h.squadOf_iff, members_of_get? hs]
  nodup := members_of_get? hs ▸ h.nodup id
  length_le := (members_of_get? hs ▸ h.length_le id).trans hlimit

/-- The followers that are active, in the order they joined. -/
def activeIds (s : Squad) (bots : Bots) : List BotId :=
  s.followers.filter fun id => (bots.get? id).any (·.isActive)

namespace Manned

variable {s : Squad} {id : SquadId} {bots : Bots}

theorem nodup_followers (h : s.Manned id bots) : s.followers.Nodup := h.nodup.filter _

theorem nodup_activeIds (h : s.Manned id bots) : (s.activeIds bots).Nodup :=
  h.nodup_followers.filter _

/-- Every follower has a record, and the record names the squad. -/
theorem exists_membership (h : s.Manned id bots) {f : BotId} (hf : f ∈ s.followers) :
    ∃ b m, bots.get? f = some b ∧ b.membership = some m ∧ m.squad = id := by
  obtain ⟨b, hb, hsquad⟩ :=
    Option.bind_eq_some_iff.1 ((h.squadOf_iff f).2 (List.mem_of_mem_filter hf))
  obtain ⟨m, hm, hid⟩ := Option.map_eq_some_iff.1 hsquad
  exact ⟨b, m, hb, hm, hid⟩

theorem length_activeIds_le (h : s.Manned id bots) : (s.activeIds bots).length ≤ maxSquadSize :=
  calc
    (s.activeIds bots).length ≤ s.followers.length := List.length_filter_le _ _
    _ ≤ s.members.length := List.length_filter_le _ _
    _ ≤ maxSquadSize := h.length_le

theorem mem_activeIds_iff (h : s.Manned id bots) {b : BotId} : b ∈ s.activeIds bots ↔
    squadOf bots b = some id ∧ s.leader ≠ some b ∧ (bots.get? b).any (·.isActive) := by
  rw [activeIds, List.mem_filter, followers, List.mem_filter, h.squadOf_iff, and_assoc,
    decide_eq_true_eq, ne_comm]

/-- All active followers fit into one squad. -/
theorem activeFollowers_eq (h : s.Manned id bots) :
    s.activeFollowers bots = s.followers.filterMap (present? bots) := by
  refine List.take_of_length_le ?_
  calc
    (s.followers.filterMap (present? bots)).length ≤ s.followers.length :=
      List.length_filterMap_le _ _
    _ ≤ s.members.length := List.length_filter_le _ _
    _ ≤ maxSquadSize := h.length_le

theorem map_fst_activeFollowers (h : s.Manned id bots) :
    (s.activeFollowers bots).map (·.1) = s.activeIds bots := by
  rw [h.activeFollowers_eq, List.map_filterMap, activeIds, ← List.filterMap_eq_filter]
  refine List.filterMap_congr fun f _ => ?_
  cases hf : bots.get? f with
  | none => simp [present?, hf, Option.guard]
  | some b => cases hb : b.isActive <;> simp [present?, hf, hb, Option.guard, Option.filter]

theorem map_snd_activeFollowers (h : s.Manned id bots) :
    (s.activeFollowers bots).map (·.2) =
      (s.activeIds bots).filterMap fun f => (bots.get? f).map (·.position) := by
  rw [h.activeFollowers_eq, List.map_filterMap, activeIds, List.filterMap_filter]
  refine List.filterMap_congr fun f _ => ?_
  cases hf : bots.get? f with
  | none => simp [present?, hf]
  | some b => cases hb : b.isActive <;> simp [present?, hf, hb]

end Manned

section refresh

variable {s : Squad} {id : SquadId} {bots : Bots}

theorem role_of_arrange {situation : Situation} {objective leader : Position}
    {settings : SquadSettings} {n i : Nat} {place : Role × Position}
    (h : (arrange situation objective leader settings n)[i]? = some place) :
    place.1 = situation.role i := by
  have hroles : (arrange situation objective leader settings n).map (·.1) =
      (List.range n).map situation.role := by
    unfold arrange Situation.role
    split
    · rename_i hengaged hthreat
      rw [List.map_fst_zip (by simp)]
      simp [hengaged, hthreat, Action.roles]
    · rename_i hcalm
      rw [List.map_fst_zip (by simp)]
      refine List.map_congr_left fun rank _ => (if_neg fun hfight => ?_).symm
      obtain ⟨threat, hthreat⟩ := Option.isSome_iff_exists.1 hfight.2
      exact hcalm threat hfight.1 hthreat
  have hi := congrArg (·[i]?) hroles
  simp only [List.getElem?_map, h, Option.map_some] at hi
  obtain ⟨rank, hrank, hrole⟩ := Option.map_eq_some_iff.1 hi.symm
  obtain ⟨hlt, rfl⟩ := List.getElem?_eq_some_iff.1 hrank
  rw [← hrole, List.getElem_range]

variable {ds : List (Order × Option Position)}

/-- Every order is written to the one record that it is for. -/
theorem posted_of_delivery (h : s.Manned id bots) (hds : ds.map (·.1.bot) = s.activeIds bots)
    {d : Order × Option Position} (hd : d ∈ ds) :
    Posted bots (ds.foldl Order.carryOut bots) d.1.bot
      (if d.2.isSome then d.1.role else .none) d.2 := by
  have hactive : d.1.bot ∈ s.activeIds bots := hds ▸ List.mem_map_of_mem (f := (·.1.bot)) hd
  obtain ⟨b, m, hb, hm, -⟩ := h.exists_membership (List.mem_of_mem_filter hactive)
  have hwritten := Roster.get?_foldl_modify_of_mem (·.1.bot) Order.write
    (hds ▸ h.nodup_activeIds) hd bots
  rw [hb, Option.map_some] at hwritten
  rw [Order.carryOut_foldl]
  cases hlearnt : d.2 with
  | none =>
      refine ⟨b, m, m.dismiss, hb, hm, ?_, rfl, rfl, rfl, rfl⟩
      rw [hwritten, Order.write, Bot.modifyMembership, hm, hlearnt]
      rfl
  | some p =>
      refine ⟨b, m, m.assign d.1.role p, hb, hm, ?_, rfl, rfl, rfl, rfl⟩
      rw [hwritten, Order.write, Bot.modifyMembership, hm, hlearnt]
      rfl

/-- The counts are what can be counted in the records afterwards. -/
theorem tally_of_delivery (h : s.Manned id bots) (hds : ds.map (·.1.bot) = s.activeIds bots) :
    let after := ds.foldl Order.carryOut bots
    let n := ds.foldl (Order.tally bots) {}
    n.positioned = (s.activeIds bots).countP (placed after) ∧
      n.unreachable = (s.activeIds bots).countP (!placed after ·) ∧
      n.relayed = ((s.activeIds bots).zip (ds.map (·.1.tier))).countP fun p =>
        p.2 = .relayed && placed after p.1 := by
  intro after n
  have hplaced : ∀ d ∈ ds, placed after d.1.bot = d.2.isSome := fun d hd =>
    (posted_of_delivery h hds hd).placed
  have hwritten : ∀ d ∈ ds, ((bots.get? d.1.bot).bind (·.membership)).isSome := fun d hd => by
    obtain ⟨b, m, -, hb, hm, -⟩ := posted_of_delivery h hds hd
    simp [hb, hm]
  simp only [n, Order.tally_foldl hwritten, ← hds, List.countP_map, List.zip_map', Nat.zero_add]
  refine ⟨?_, ?_, ?_⟩ <;> refine List.countP_congr fun d hd => ?_ <;> simp [hplaced d hd]

/-- What a refresh with an active leader and an objective comes to. The places
and the tiers are those of the active followers, in the order they joined. -/
structure Sent (s : Squad) (bots : Bots) (situation : Situation) (places : List (Role × Position))
    (tiers : List Tier) (noise : Float32) (coordination : UInt8) (g : Generator) (r : Refreshed) :
    Prop where
  follower : ∃ draws : Nat → Generator,
    draws 0 = g ∧ draws (s.activeIds bots).length = r.generator ∧
    ∀ i f, (s.activeIds bots)[i]? = some f → ∃ role target tier learnt,
      places[i]? = some (role, target) ∧ role = situation.role i ∧ tiers[i]? = some tier ∧
      r.squad.objective.slot? i = some ⟨target, role⟩ ∧
      Relay.share tier target noise coordination (draws i) = (learnt, draws (i + 1)) ∧
      Posted bots r.bots f (if learnt.isSome then role else .none) learnt ∧
      (tier = .direct → ∀ p, learnt = some p → r.squad.objective.slot? i = some ⟨p, role⟩)
  others : ∀ b, b ∉ s.activeIds bots → r.bots.get? b = bots.get? b
  squad : r.squad = { s with objective := r.squad.objective }
  positioned : r.dispatch.positioned = (s.activeIds bots).countP (placed r.bots)
  unreachable : r.dispatch.unreachable = (s.activeIds bots).countP (!placed r.bots ·)
  relayed : r.dispatch.relayed =
    ((s.activeIds bots).zip tiers).countP fun p => p.2 = .relayed && placed r.bots p.1

section Sent

variable {situation : Situation} {places : List (Role × Position)} {tiers : List Tier}
  {noise : Float32} {coordination : UInt8} {g : Generator} {r : Refreshed}

/-- Every active follower is counted as one that has a place or one that is out of reach. -/
theorem Sent.total (h : s.Sent bots situation places tiers noise coordination g r) :
    r.dispatch.positioned + r.dispatch.unreachable = (s.activeIds bots).length := by
  rw [h.positioned, h.unreachable, List.length_eq_countP_add_countP (placed r.bots)]
  simp only [Bool.not_eq_true, Bool.decide_eq_false]

theorem Sent.relayed_le (h : s.Sent bots situation places tiers noise coordination g r)
    (htiers : (s.activeIds bots).length ≤ tiers.length) :
    r.dispatch.relayed ≤ r.dispatch.positioned := by
  have hmono : r.dispatch.relayed ≤
      ((s.activeIds bots).zip tiers).countP (placed r.bots ∘ Prod.fst) := by
    rw [h.relayed]
    exact List.countP_mono_left fun p _ hp => (Bool.and_eq_true_iff.1 hp).2
  rwa [← List.countP_map, List.map_fst_zip htiers, ← h.positioned] at hmono

end Sent

/-- Issuing orders to the active followers reaches them, place by place. -/
theorem sent_of_issue (h : s.Manned id bots) (situation : Situation) {os : List Order}
    {places : List (Role × Position)} (comm : CommunicationSettings) (g : Generator)
    (hbots : os.map (·.bot) = s.activeIds bots) (hroles : os.map (·.role) = places.map (·.1))
    (htargets : os.map (·.target) = places.map (·.2))
    (hplaces : ∀ i place, places[i]? = some place → place.1 = situation.role i) :
    s.Sent bots situation places (os.map (·.tier)) comm.baseNoise (s.coordination comm) g
      (s.issue bots comm os g) := by
  have hfst := Order.map_fst_deliver comm.baseNoise (s.coordination comm) os g
  have hspec := fun i o (ho : os[i]? = some o) =>
    Order.deliver_spec comm.baseNoise (s.coordination comm) os g ho
  have hdraws := Order.draws_length comm.baseNoise (s.coordination comm) os g
  unfold issue
  generalize Order.deliver comm.baseNoise (s.coordination comm) os g = delivered at *
  obtain ⟨ds, g'⟩ := delivered
  have hds : ds.map (·.1.bot) = s.activeIds bots := by
    rw [← hbots, ← hfst, List.map_map]
    rfl
  have htiers : ds.map (·.1.tier) = os.map (·.tier) := by
    rw [← hfst, List.map_map]
    rfl
  obtain ⟨hpositioned, hunreachable, hrelayed⟩ := tally_of_delivery h hds
  have hlength : os.length = (s.activeIds bots).length := by rw [← hbots, List.length_map]
  have hothers : ∀ b, b ∉ s.activeIds bots →
      (ds.foldl Order.carryOut bots).get? b = bots.get? b := by
    intro b hb
    rw [Order.carryOut_foldl]
    exact Roster.get?_foldl_modify_of_not_mem _ Order.write (hds ▸ hb) bots
  refine ⟨⟨Order.draws comm.baseNoise (s.coordination comm) os g, rfl, ?_, fun i f hi => ?_⟩,
    hothers, rfl, hpositioned, hunreachable, htiers ▸ hrelayed⟩
  · rw [← hlength]
    exact hdraws
  · have hbot := congrArg (·[i]?) hbots
    have hrole := congrArg (·[i]?) hroles
    have htarget := congrArg (·[i]?) htargets
    simp only [List.getElem?_map, hi] at hbot hrole htarget
    obtain ⟨o, ho, rfl⟩ := Option.map_eq_some_iff.1 hbot
    rw [ho, Option.map_some] at hrole htarget
    obtain ⟨⟨role, target⟩, hplace, rfl⟩ := Option.map_eq_some_iff.1 hrole.symm
    rw [hplace] at htarget
    obtain rfl : o.target = target := Option.some.inj htarget
    have hslot := Order.slot?_inscribe (hlength.trans_le h.length_activeIds_le) ho s.objective
    obtain ⟨learnt, hd, hshare⟩ := hspec i o ho
    refine ⟨o.role, o.target, o.tier, learnt, hplace, hplaces i _ hplace, ?_, hslot, hshare,
      posted_of_delivery h hds (List.mem_of_getElem? hd), fun hdirect p hp => ?_⟩
    · rw [List.getElem?_map, ho, Option.map_some]
    · rw [hdirect, hp] at hshare
      rw [Relay.eq_of_direct (congrArg Prod.fst hshare)]
      exact hslot

theorem sent_of_dispatch (h : s.Manned id bots) (situation : Situation)
    (objective leader : Position) (settings : SquadSettings) (comm : CommunicationSettings)
    (g : Generator) :
    let followers := s.activeIds bots
    s.Sent bots situation (arrange situation objective leader settings followers.length)
      (Reach.tiers leader comm.range comm.trustedCount followers.length
        (followers.filterMap fun f => (bots.get? f).map (·.position)))
      comm.baseNoise (s.coordination comm) g
      (s.dispatch bots situation objective leader settings comm g) := by
  intro followers
  have hlist := h.map_fst_activeFollowers
  have hcount : (s.activeFollowers bots).length = followers.length := by
    rw [← List.length_map (·.1), hlist]
  obtain ⟨-, hbots, hroles, htargets, htiers⟩ :=
    parts_of_orders s bots situation objective leader settings comm
  rw [hcount] at hroles htargets
  rw [hcount, h.map_snd_activeFollowers] at htiers
  have hsent := sent_of_issue h situation comm g (hbots.trans hlist) hroles htargets
    fun i place hplace => role_of_arrange hplace
  rw [htiers] at hsent
  exact hsent

/-- What a refresh without an active leader or an objective comes to. -/
structure Withdrawn (s : Squad) (bots : Bots) (g : Generator) (r : Refreshed) : Prop where
  followers : ∀ f ∈ s.followers, Posted bots r.bots f .none none
  others : ∀ b, b ∉ s.followers → r.bots.get? b = bots.get? b
  squad : r.squad = s
  dispatch : r.dispatch = { positioned := 0, relayed := 0, unreachable := 0 }
  generator : r.generator = g

theorem withdrawn_of_dismissFollowers (h : s.Manned id bots) (g : Generator) :
    s.Withdrawn bots g ⟨s, s.dismissFollowers bots, {}, g⟩ where
  followers f hf := by
    obtain ⟨b, m, hb, hm, -⟩ := h.exists_membership hf
    refine ⟨b, m, m.dismiss, hb, hm, ?_, rfl, rfl, rfl, rfl⟩
    rw [get?_dismissFollowers, hb, Option.map_some, if_pos hf, Bot.modifyMembership, hm,
      Option.map_some]
  others b hb := by simp [get?_dismissFollowers, hb]
  squad := rfl
  dispatch := rfl
  generator := rfl

/-- With an active leader and an objective, a refresh sends every active follower
of the squad off and leaves everyone else alone. Otherwise it withdraws the
followers. -/
theorem refresh_of_manned (h : s.Manned id bots) (situation : Situation)
    (settings : SquadSettings) (comm : CommunicationSettings) (g : Generator) :
    ∃ r, s.refreshInPlace bots situation settings comm g = .ok r ∧
      s.refresh bots situation settings comm g = r ∧
      (∀ leader objective, s.activeLeader? bots = some leader →
        s.objective.position = some objective →
        let followers := s.activeIds bots
        s.Sent bots situation (arrange situation objective leader settings followers.length)
            (Reach.tiers leader comm.range comm.trustedCount followers.length
              (followers.filterMap fun f => (bots.get? f).map (·.position)))
            comm.baseNoise (s.coordination comm) g r ∧
          r.dispatch.positioned + r.dispatch.unreachable = followers.length ∧
          r.dispatch.relayed ≤ r.dispatch.positioned ∧
          ∀ b, s.leader = some b ∨ ¬ (bots.get? b).any (·.isActive) ∨ squadOf bots b ≠ some id →
            r.bots.get? b = bots.get? b) ∧
      (s.activeLeader? bots = none ∨ s.objective.position = none → s.Withdrawn bots g r) := by
  refine ⟨_, refreshInPlace_ok .., rfl, fun leader objective hleader hobjective => ?_,
    fun hmissing => ?_⟩
  · intro followers
    have hrefresh : s.refresh bots situation settings comm g =
        s.dispatch bots situation objective leader settings comm g := by
      rw [refresh, hleader, hobjective]
    have hsent := sent_of_dispatch h situation objective leader settings comm g
    rw [hrefresh]
    refine ⟨hsent, hsent.total, ?_, fun b hb => hsent.others b fun hin => ?_⟩
    · exact hsent.relayed_le (Reach.length_tiers ..).symm.le
    · obtain ⟨hsquad, hfollows, hactive⟩ := h.mem_activeIds_iff.1 hin
      rcases hb with hleads | hinactive | hother
      · exact hfollows hleads
      · exact hinactive hactive
      · exact hother hsquad
  · have hrefresh : s.refresh bots situation settings comm g =
        ⟨s, s.dismissFollowers bots, {}, g⟩ := by
      unfold refresh
      split
      · rename_i hleader hobjective
        simp [hleader, hobjective] at hmissing
      · rfl
    rw [hrefresh]
    exact withdrawn_of_dismissFollowers h g

/-- In every session the lists and records of every squad agree. -/
theorem manned_of_history {settings : Settings} {m : Mind} {past : List Mind}
    (h : Mind.History Bot.post settings (m :: past)) (hs : m.squads.get? id = some s) :
    s.Manned id m.bots := by
  refine manned_of_consistent h.enrolled ?_ hs
  rw [h.settings_eq]
  exact h.acceptable.maxMembers_le.2

/-- The first follower is not active, so the second one is given the first place. -/
theorem refresh_of_two_followers :
    let m := (Mind.fresh {} (.ofSeed 1)).after [.register 7 .unknown, .register 8 .unknown,
      .register 9 .unknown, .createSquad 5, .join ⟨0⟩ ⟨0⟩, .join ⟨0⟩ ⟨1⟩, .join ⟨0⟩ ⟨2⟩,
      .patch ⟨1⟩ { isActive := some false }, .setObjective ⟨0⟩ ⟨0, 0, 20⟩ 0 60]
    ∃ q r, m.squads.get? ⟨0⟩ = some q ∧ q.Manned ⟨0⟩ m.bots ∧
      q.refreshInPlace m.bots ⟨.moveToObjective, none, false⟩ m.settings.squad
        m.settings.communication m.generator = .ok r ∧
      (q.activeIds m.bots, r.dispatch) = ([⟨2⟩], ⟨1, 0, 0⟩) ∧
      r.bots.get? ⟨1⟩ = m.bots.get? ⟨1⟩ := by
  intro m
  obtain ⟨past, h⟩ : ∃ past, Mind.History Bot.post {} (m :: past) :=
    (Mind.History.start rfl).after _
  have hlive : m.squads.contains ⟨0⟩ = true := by decide +kernel
  obtain ⟨q, hq⟩ := Roster.contains_iff.1 hlive
  have hmanned := manned_of_history h hq
  obtain ⟨r, hinPlace, hrefresh, hsent, -⟩ := refresh_of_manned hmanned
    ⟨.moveToObjective, none, false⟩ m.settings.squad m.settings.communication m.generator
  have hrun : (m.squads.get? ⟨0⟩).map (fun q =>
      ((q.activeIds m.bots, (q.refresh m.bots ⟨.moveToObjective, none, false⟩ m.settings.squad
        m.settings.communication m.generator).dispatch),
        (q.activeLeader? m.bots).isSome, q.objective.position.isSome)) =
      some (([⟨2⟩], ⟨1, 0, 0⟩), true, true) := by decide +kernel
  rw [hq, Option.map_some, hrefresh] at hrun
  obtain ⟨hnumbers, hpoints⟩ := Prod.mk.inj (Option.some.inj hrun)
  obtain ⟨leader, hleader⟩ := Option.isSome_iff_exists.1 (Prod.mk.inj hpoints).1
  obtain ⟨objective, hobjective⟩ := Option.isSome_iff_exists.1 (Prod.mk.inj hpoints).2
  obtain ⟨-, -, -, hothers⟩ := hsent leader objective hleader hobjective
  refine ⟨q, r, hq, hmanned, hinPlace, hnumbers, hothers ⟨1⟩ (.inr (.inl ?_))⟩
  decide +kernel

end refresh

end Squad

end Warband
