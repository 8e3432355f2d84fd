import Warband.Proofs.Squad.Hearing
import Warband.Squad.Refresh

/-!
# The refresh of a squad, in place

A refresh can work in buffers as large as a squad can be: the active followers
and their positions, then a role, a place and a tier for each of them. Every
access of these buffers is checked here. No squad, however long its list of
members is, makes an access out of range, and the refresh comes out the same.
-/
namespace Warband.Squad

open Cells

/-- Collects the active followers among some bots until the buffers are full. -/
def muster (bots : Bots) : List BotId → Array BotId → Array Position → (n : Nat) →
    Checked (Array BotId × Array Position × Nat)
  | [], ids, positions, n => .ok (ids, positions, n)
  | id :: rest, ids, positions, n =>
    if n = maxSquadSize then .ok (ids, positions, n)
    else
      match (bots.get? id).filter (·.isActive) with
      | some b => do
        let ids ← write ids n id
        let positions ← write positions n b.position
        muster bots rest ids positions (n + 1)
      | none => muster bots rest ids positions n

/-- Finds the places of the first `n` roles. In combat the roles are rewritten. -/
def arrangeInPlace (situation : Situation) (objective leader : Position)
    (settings : SquadSettings) (n : Nat) (roles : Array Role) (targets : Array Position) :
    Checked (Array Role × Array Position) := do
  let assigned ← front roles n
  match situation.engaged, situation.threat with
  | true, some threat =>
    let assigned := assigned.map Layout.combatRole
    let roles ← overwrite roles assigned
    let targets ← overwrite targets (Layout.combat objective leader threat settings assigned)
    .ok (roles, targets)
  | _, threat =>
    let targets ← overwrite targets (Layout.travel objective leader threat settings assigned)
    .ok (roles, targets)

/-- Reads `k` orders from the buffers, from number `i` on. -/
def collect (ids : Array BotId) (roles : Array Role) (targets : Array Position)
    (tiers : Array Tier) : (k i : Nat) → Checked (List Order)
  | 0, _ => .ok []
  | k + 1, i => do
    let target ← read targets i
    let role ← read roles i
    let tier ← read tiers i
    let id ← read ids i
    let rest ← collect ids roles targets tiers k (i + 1)
    .ok (⟨id, role, target, tier⟩ :: rest)

section refresh

variable (s : Squad) (bots : Bots) (situation : Situation) (objective leader : Position)
  (settings : SquadSettings) (comm : CommunicationSettings)

/-- The orders to the active followers, found in the buffers. -/
def ordersInPlace : Checked (List Order) := do
  let (ids, positions, n) ← muster bots s.followers (filled maxSquadSize ⟨0⟩ [])
    (filled maxSquadSize .origin []) 0
  let roles ← overwrite (filled maxSquadSize .none []) (situation.action.roles n)
  let (roles, targets) ← arrangeInPlace situation objective leader settings n roles
    (filled maxSquadSize .origin [])
  let followers ← front positions n
  let (tiers, _) ← Reach.assign leader comm.range comm.trustedCount n followers.toArray
  let tiers ← overwrite (filled maxSquadSize .none []) tiers.toList
  collect ids roles targets tiers n 0

/-- Writes and delivers some orders. -/
def issue (orders : List Order) (g : Random.Generator) : Refreshed :=
  let (deliveries, g) := Order.deliver comm.baseNoise (s.coordination comm) orders g
  { squad := { s with objective := orders.zipIdx.foldl Order.inscribe s.objective }
    bots := deliveries.foldl Order.carryOut bots
    dispatch := deliveries.foldl (Order.tally bots) {}
    generator := g }

def refreshInPlace (g : Random.Generator) : Checked Refreshed :=
  match s.activeLeader? bots, s.objective.position with
  | some leader, some objective => do
    let orders ← s.ordersInPlace bots situation objective leader settings comm
    .ok (s.issue bots comm orders g)
  | _, _ => .ok ⟨s, s.dismissFollowers bots, {}, g⟩

end refresh

/-! ## The followers -/

/-- A follower with its position, if it is live and active. -/
def present? (bots : Bots) (id : BotId) : Option (BotId × Position) :=
  ((bots.get? id).filter (·.isActive)).map fun b => (id, b.position)

/-- The buffers hold the followers found so far. -/
theorem muster_ok (bots : Bots) (ids : List BotId) {found : List (BotId × Position)}
    (h : found.length ≤ maxSquadSize) :
    let all := (found ++ ids.filterMap (present? bots)).take maxSquadSize
    muster bots ids (filled maxSquadSize ⟨0⟩ (found.map (·.1)))
        (filled maxSquadSize .origin (found.map (·.2))) found.length =
      .ok (filled maxSquadSize ⟨0⟩ (all.map (·.1)), filled maxSquadSize .origin (all.map (·.2)),
        all.length) := by
  intro all
  induction ids generalizing found with
  | nil =>
      have hall : all = found := by
        simp only [all, List.filterMap_nil, List.append_nil, List.take_of_length_le h]
      rw [hall]
      rfl
  | cons id rest ih =>
      rw [muster]
      by_cases hfull : found.length = maxSquadSize
      · have hall : all = found := by
          simp only [all, ← hfull, List.take_left]
        rw [if_pos hfull, hall]
      · rw [if_neg hfull]
        have hlt : found.length < maxSquadSize := by omega
        cases hget : (bots.get? id).filter (·.isActive) with
        | none =>
            have hpresent : present? bots id = none := by rw [present?, hget, Option.map_none]
            have hall : all = (found ++ rest.filterMap (present? bots)).take maxSquadSize := by
              simp only [all, List.filterMap_cons_none hpresent]
            rw [hall]
            exact ih h
        | some b =>
            have hpresent : present? bots id = some (id, b.position) := by
              rw [present?, hget, Option.map_some]
            have hall : all = (found ++ [(id, b.position)] ++
                rest.filterMap (present? bots)).take maxSquadSize := by
              simp only [all, List.filterMap_cons_some hpresent, List.append_assoc,
                List.singleton_append]
            have hids : write (filled maxSquadSize ⟨0⟩ (found.map (·.1))) found.length id =
                .ok (filled maxSquadSize ⟨0⟩ (found.map (·.1) ++ [id])) :=
              write_filled (List.length_map _) hlt id
            have hpositions : write (filled maxSquadSize .origin (found.map (·.2))) found.length
                b.position = .ok (filled maxSquadSize .origin (found.map (·.2) ++ [b.position])) :=
              write_filled (List.length_map _) hlt b.position
            have hroom : (found ++ [(id, b.position)]).length ≤ maxSquadSize := by
              rw [List.length_append, List.length_singleton]
              omega
            have hnext := ih hroom
            rw [List.length_append, List.length_singleton, List.map_append, List.map_append]
              at hnext
            simp only [hids, hpositions, bind, Except.bind, hall]
            exact hnext

theorem muster_followers (s : Squad) (bots : Bots) :
    muster bots s.followers (filled maxSquadSize ⟨0⟩ []) (filled maxSquadSize .origin []) 0 =
      .ok (filled maxSquadSize ⟨0⟩ ((s.activeFollowers bots).map (·.1)),
        filled maxSquadSize .origin ((s.activeFollowers bots).map (·.2)),
        (s.activeFollowers bots).length) :=
  muster_ok bots s.followers (show ([] : List (BotId × Position)).length ≤ maxSquadSize from
    Nat.zero_le maxSquadSize)

theorem length_activeFollowers_le (s : Squad) (bots : Bots) :
    (s.activeFollowers bots).length ≤ maxSquadSize := List.length_take_le _ _

/-! ## Roles and places -/

theorem length_arrange (situation : Situation) (objective leader : Position)
    (settings : SquadSettings) (n : Nat) :
    (arrange situation objective leader settings n).length = n := by
  unfold arrange
  split <;> simp

theorem arrangeInPlace_ok (situation : Situation) (objective leader : Position)
    (settings : SquadSettings) {n : Nat} (h : n ≤ maxSquadSize) :
    let places := arrange situation objective leader settings n
    arrangeInPlace situation objective leader settings n
        (filled maxSquadSize .none (situation.action.roles n)) (filled maxSquadSize .origin []) =
      .ok (filled maxSquadSize .none (places.map (·.1)),
        filled maxSquadSize .origin (places.map (·.2))) := by
  intro places
  have hroles : (situation.action.roles n).length = n := Action.length_roles _ n
  have hfront : front (filled maxSquadSize .none (situation.action.roles n)) n =
      .ok (situation.action.roles n) := front_filled hroles
  have htravel : ∀ threat, overwrite (filled maxSquadSize .origin [])
      (Layout.travel objective leader threat settings (situation.action.roles n)) =
        .ok (filled maxSquadSize .origin
          (Layout.travel objective leader threat settings (situation.action.roles n))) := fun _ =>
    overwrite_filled (Nat.zero_le _) (by rwa [Layout.length_travel, hroles])
  have hcombat : ∀ threat, overwrite (filled maxSquadSize .origin [])
      (Layout.combat objective leader threat settings
        ((situation.action.roles n).map Layout.combatRole)) = .ok (filled maxSquadSize .origin
          (Layout.combat objective leader threat settings
            ((situation.action.roles n).map Layout.combatRole))) := fun _ =>
    overwrite_filled (Nat.zero_le _) (by rwa [Layout.length_combat, List.length_map, hroles])
  have hrewrite : overwrite (filled maxSquadSize .none (situation.action.roles n))
      ((situation.action.roles n).map Layout.combatRole) = .ok (filled maxSquadSize .none
        ((situation.action.roles n).map Layout.combatRole)) :=
    overwrite_filled (by rw [List.length_map]) (by rwa [List.length_map, hroles])
  simp only [arrangeInPlace, places, arrange, hfront, bind, Except.bind]
  cases situation.engaged with
  | false =>
      simp only [htravel, List.map_fst_zip, List.map_snd_zip, Layout.length_travel, le_refl]
  | true =>
      cases situation.threat with
      | none =>
          simp only [htravel, List.map_fst_zip, List.map_snd_zip, Layout.length_travel, le_refl]
      | some threat =>
          simp only [hrewrite, hcombat, List.map_fst_zip, List.map_snd_zip, Layout.length_combat,
            le_refl]

/-! ## Orders -/

theorem collect_ok (orders : List Order) {k i : Nat} (hend : i + k = orders.length) :
    collect (filled maxSquadSize ⟨0⟩ (orders.map (·.bot)))
        (filled maxSquadSize .none (orders.map (·.role)))
        (filled maxSquadSize .origin (orders.map (·.target)))
        (filled maxSquadSize .none (orders.map (·.tier))) k i = .ok (orders.drop i) := by
  induction k generalizing i with
  | zero =>
      rw [collect, List.drop_of_length_le (by omega)]
  | succ k ih =>
      have hlt : i < orders.length := by omega
      have hread : ∀ {β : Type} (blank : β) (f : Order → β),
          read (filled maxSquadSize blank (orders.map f)) i = .ok (f orders[i]) := fun blank f =>
        read_filled (by rw [List.getElem?_map, List.getElem?_eq_getElem hlt, Option.map_some])
      rw [collect]
      simp only [hread, ih (show i + 1 + k = orders.length by omega), bind, Except.bind]
      rw [List.drop_eq_getElem_cons hlt]

theorem map_left_zip {β γ δ : Type} {xs : List β} {ys : List γ} (f : β → δ)
    (h : xs.length ≤ ys.length) : (xs.zip ys).map (fun x => f x.1) = xs.map f := by
  calc
    (xs.zip ys).map (fun x => f x.1) = ((xs.zip ys).map Prod.fst).map f :=
      (List.map_map ..).symm
    _ = xs.map f := by rw [List.map_fst_zip h]

theorem map_right_zip {β γ δ : Type} {xs : List β} {ys : List γ} (f : γ → δ)
    (h : ys.length ≤ xs.length) : (xs.zip ys).map (fun x => f x.2) = ys.map f := by
  calc
    (xs.zip ys).map (fun x => f x.2) = ((xs.zip ys).map Prod.snd).map f :=
      (List.map_map ..).symm
    _ = ys.map f := by rw [List.map_snd_zip h]

/-- The orders, part by part. -/
theorem parts_of_orders (s : Squad) (bots : Bots) (situation : Situation)
    (objective leader : Position) (settings : SquadSettings) (comm : CommunicationSettings) :
    let followers := s.activeFollowers bots
    let places := arrange situation objective leader settings followers.length
    let orders := s.orders bots situation objective leader settings comm
    orders.length = followers.length ∧ orders.map (·.bot) = followers.map (·.1) ∧
      orders.map (·.role) = places.map (·.1) ∧ orders.map (·.target) = places.map (·.2) ∧
      orders.map (·.tier) = Reach.tiers leader comm.range comm.trustedCount followers.length
        (followers.map (·.2)) := by
  intro followers places orders
  have hplaces : places.length = followers.length := length_arrange ..
  have htiers := Reach.length_tiers leader comm.range comm.trustedCount followers.length
    (followers.map (·.2))
  generalize htier : Reach.tiers leader comm.range comm.trustedCount followers.length
    (followers.map (·.2)) = tiers at htiers
  have hpairs : (followers.zip places).length = followers.length := by
    rw [List.length_zip, hplaces, Nat.min_self]
  have horders : orders = ((followers.zip places).zip tiers).map fun x =>
      ⟨x.1.1.1, x.1.2.1, x.1.2.2, x.2⟩ := by rw [← htier]; rfl
  have hpart : ∀ {β : Type} (f : Order → β), orders.map f =
      ((followers.zip places).zip tiers).map fun x => f ⟨x.1.1.1, x.1.2.1, x.1.2.2, x.2⟩ := by
    intro β f
    rw [horders, List.map_map]
    rfl
  have houter : (followers.zip places).length ≤ tiers.length := (hpairs.trans htiers.symm).le
  have hplaced : ∀ {β : Type} (f : Role × Position → β),
      ((followers.zip places).zip tiers).map (fun x => f x.1.2) = places.map f := fun f =>
    (map_left_zip (fun y => f y.2) houter).trans (map_right_zip f hplaces.le)
  refine ⟨?_, ?_, (hpart _).trans (hplaced Prod.fst), (hpart _).trans (hplaced Prod.snd), ?_⟩
  · rw [horders, List.length_map, List.length_zip, hpairs, htiers, Nat.min_self]
  · exact ((hpart _).trans (map_left_zip (fun y => y.1.1) houter)).trans
      (map_left_zip (fun y => y.1) hplaces.symm.le)
  · exact ((hpart _).trans (map_right_zip id (htiers.trans hpairs.symm).le)).trans
      (List.map_id tiers)

theorem ordersInPlace_ok (s : Squad) (bots : Bots) (situation : Situation)
    (objective leader : Position) (settings : SquadSettings) (comm : CommunicationSettings) :
    s.ordersInPlace bots situation objective leader settings comm =
      .ok (s.orders bots situation objective leader settings comm) := by
  have hmax := length_activeFollowers_le s bots
  have hroles : overwrite (filled maxSquadSize .none [])
      (situation.action.roles (s.activeFollowers bots).length) = .ok (filled maxSquadSize .none
        (situation.action.roles (s.activeFollowers bots).length)) :=
    overwrite_filled (Nat.zero_le _) (by rwa [Action.length_roles])
  have hfront : front (filled maxSquadSize .origin ((s.activeFollowers bots).map (·.2)))
      (s.activeFollowers bots).length = .ok ((s.activeFollowers bots).map (·.2)) :=
    front_filled (List.length_map _)
  have htiers : overwrite (filled maxSquadSize .none [])
      (Reach.tiers leader comm.range comm.trustedCount (s.activeFollowers bots).length
        ((s.activeFollowers bots).map (·.2))) = .ok (filled maxSquadSize .none
          (Reach.tiers leader comm.range comm.trustedCount (s.activeFollowers bots).length
            ((s.activeFollowers bots).map (·.2)))) :=
    overwrite_filled (Nat.zero_le _) (by rwa [Reach.length_tiers])
  simp only [ordersInPlace, muster_followers, hroles, arrangeInPlace_ok _ _ _ _ hmax, hfront,
    Reach.assign_ok, htiers, bind, Except.bind]
  obtain ⟨hlength, hbots, hassigned, htargets, hheard⟩ :=
    parts_of_orders s bots situation objective leader settings comm
  rw [← hbots, ← hassigned, ← htargets, ← hheard]
  exact collect_ok _ ((Nat.zero_add _).trans hlength.symm)

/-- A refresh in place makes no access out of range. -/
theorem refreshInPlace_ok (s : Squad) (bots : Bots) (situation : Situation)
    (settings : SquadSettings) (comm : CommunicationSettings) (g : Random.Generator) :
    s.refreshInPlace bots situation settings comm g =
      .ok (s.refresh bots situation settings comm g) := by
  unfold refreshInPlace refresh
  cases s.activeLeader? bots with
  | none => rfl
  | some leader =>
      cases s.objective.position with
      | none => rfl
      | some objective =>
          simp only [ordersInPlace_ok, bind, Except.bind]
          rfl

end Warband.Squad
