import Warband.Proofs.Claims.Ledger
import Warband.Proofs.Enrollment.Lists

/-!
# The loot phase

Squads loot one after the other: the leader picks, then its followers. In a turn
nobody loses an item and a bot gets one at most, a follower only if it holds
nothing and the leader only if it does not hold the pick of its squad. The turn
counts what it grants, and it also counts a leader that picks an item it holds
already.

No bot is in two squads, so what a turn changes is said of the members of one
squad, and the turns of a phase can be told from the claims before the phase.
-/
namespace Warband

open Loot Numeric

namespace Loot

namespace Claims

variable {c c' : Claims} {may : BotId → Prop}

/-- Nobody loses an item, and some bots may get one more each. -/
def Gains (may : BotId → Prop) (c c' : Claims) : Prop :=
  ∀ b, c'.ofBot b = c.ofBot b ∨ may b ∧ ∃ item, c'.ofBot b = c.ofBot b ++ [item]

theorem Gains.refl (may : BotId → Prop) (c : Claims) : Gains may c c := fun _ => .inl rfl

theorem Gains.of_not (h : Gains may c c') {b : BotId} (hb : ¬ may b) :
    c'.ofBot b = c.ofBot b := (h b).resolve_right fun hmay => hb hmay.1

/-- One gain after the other. No bot may be among both: whoever gains in the
second step has gained nothing in the first. -/
theorem Gains.comp {first second : BotId → Prop} {c'' : Claims} (h : Gains first c c')
    (h' : Gains second c' c'') (hfirst : ∀ b, first b → may b)
    (hsecond : ∀ b, second b → c'.ofBot b = c.ofBot b ∧ may b) : Gains may c c'' := fun b => by
  rcases h' b with hsame | ⟨hb, item, hitem⟩
  · rw [hsame]
    exact (h b).imp_right fun hgain => ⟨hfirst b hgain.1, hgain.2⟩
  · obtain ⟨hsame, hmay⟩ := hsecond b hb
    exact .inr ⟨hmay, item, by rw [hitem, hsame]⟩

/-- Whoever holds nothing has gained nothing. -/
theorem Gains.of_nil (h : Gains may c c') {b : BotId} (hb : c'.ofBot b = []) :
    c'.ofBot b = c.ofBot b := by
  refine (h b).resolve_right ?_
  rintro ⟨-, item, hitem⟩
  simp [hitem] at hb

theorem gains_claim {bot : BotId} {item : LootId} (hfree : c.owner? item = none) (hmay : may bot) :
    Gains may c (c.claim bot item).2 := fun b => by
  rw [ofBot_claim]
  by_cases hb : b = bot
  · subst hb
    exact .inr ⟨hmay, item, if_pos ⟨hfree, rfl⟩⟩
  · exact .inl (if_neg fun h => hb h.2)

/-- Whoever owns an item goes on owning it. -/
theorem Gains.owner? (h : Gains may c c') (ha : c.Agree) (ha' : c'.Agree) {item : LootId}
    {b : BotId} (howned : c.owner? item = some b) : c'.owner? item = some b := by
  rw [ha item b] at howned
  rw [ha' item b]
  rcases h b with heq | ⟨-, new, heq⟩
  · rwa [heq]
  · rw [heq]
    exact List.mem_append_left _ howned

/-- Whoever owns an item owned it before or was among those that may get one. -/
theorem Gains.owner_or (h : Gains may c c') (ha : c.Agree) (ha' : c'.Agree) {item : LootId}
    {b : BotId} (howned : c'.owner? item = some b) : c.owner? item = some b ∨ may b := by
  rw [ha' item b] at howned
  rw [ha item b]
  rcases h b with heq | ⟨hmay, -⟩
  · exact .inl (heq ▸ howned)
  · exact .inr hmay

/-- What is claimed afterwards and was free before. -/
def gained (c c' : Claims) : List LootId := c'.items.filter fun item => c.owner? item = none

/-- Where nobody loses an item, the claims grow by what is gained. -/
theorem size_eq_add_gained (ht : c.Tidy) (ht' : c'.Tidy)
    (hkept : ∀ item b, c.owner? item = some b → c'.owner? item = some b) :
    c'.size = c.size + (c.gained c').length := by
  have hold : (c'.items.filter fun item => c.owner? item ≠ none).Perm c.items := by
    rw [List.perm_ext_iff_of_nodup (ht'.items.filter _) ht.items]
    intro item
    rw [List.mem_filter, decide_eq_true_eq, Option.ne_none_iff_exists', mem_items_iff,
      mem_items_iff]
    constructor
    · exact fun h => h.2
    · intro h
      obtain ⟨b, hb⟩ := h
      exact ⟨⟨b, hkept item b hb⟩, b, hb⟩
  have hsplit := List.length_eq_length_filter_add (l := c'.items) (c.owner? · = none)
  have hother : (c'.items.filter fun item => !decide (c.owner? item = none)).length = c.size := by
    rw [← length_items, ← hold.length_eq]
    simp
  rw [← c'.length_items, hsplit, hother, Nat.add_comm]
  rfl

/-- What a bot owns can be told from what it holds. -/
theorem Agree.owner_congr (ha : c.Agree) (ha' : c'.Agree) {b : BotId}
    (hb : c'.ofBot b = c.ofBot b) (item : LootId) :
    c'.owner? item = some b ↔ c.owner? item = some b := by
  rw [ha item b, ha' item b, hb]

end Claims

/-! ## Picks -/

namespace Share

variable {c : Claims}

/-- The pick of the share is an item that the leader holds. -/
def picked (s : Share) (c : Claims) (boss : BotId) : Bool :=
  s.bossTarget.any fun target => c.owner? target = some boss

theorem picked_congr {c c' : Claims} (ha : c.Agree) (ha' : c'.Agree) {boss : BotId}
    (hb : c'.ofBot boss = c.ofBot boss) (s : Share) : s.picked c' boss = s.picked c boss := by
  unfold picked
  cases s.bossTarget with
  | none => rfl
  | some target => simp [ha.owner_congr ha' hb]

theorem owner?_of_mem_free {s : Share} {bot : BotId} {item : Shared} (h : item ∈ s.free c bot) :
    c.owner? item.id = none ∨ c.owner? item.id = some bot := by
  have hother := heldByOther_of_mem_free h
  unfold Claims.heldByOther at hother
  cases howner : c.owner? item.id with
  | none => exact .inl rfl
  | some owner =>
      simp only [howner, decide_eq_false_iff_not, not_not] at hother
      exact .inr (congrArg some hother)

/-- A leader finds nothing to claim, or picks an item that is free or its own. -/
theorem claimForBoss_cases (s : Share) (c : Claims) (boss : BotId) :
    s.claimForBoss c boss = (none, s, c) ∨
      ∃ item, (c.owner? item = none ∨ c.owner? item = some boss) ∧
        s.claimForBoss c boss =
          (some item, { s with bossTarget := some item }, (c.claim boss item).2) := by
  rw [claimForBoss_eq]
  split
  · exact .inl rfl
  · rename_i pick hpick
    exact .inr ⟨pick.id, owner?_of_mem_free (mem_of_firstBest? hpick), rfl⟩

/-- A follower that holds nothing finds nothing to claim or gets a free item. -/
theorem claimForFollower_cases (s : Share) {follower : BotId} (ha : c.Agree)
    (hnone : c.ofBot follower = []) :
    s.claimForFollower c follower = (none, c) ∨
      ∃ pick : Shared, c.owner? pick.id = none ∧
        s.claimForFollower c follower = (some pick, (c.claim follower pick.id).2) := by
  rw [claimForFollower_eq]
  split
  · exact .inl rfl
  · rename_i pick hpick
    have hfree : c.owner? pick.id = none := by
      refine (owner?_of_mem_free (List.mem_filter.1 (mem_of_firstBest? hpick)).1).resolve_right ?_
      rw [ha, hnone]
      exact List.not_mem_nil
    exact .inr ⟨pick, hfree, rfl⟩

end Share

end Loot

namespace Mind

open Claims

variable {c : Claims}

theorem bossTurn_of_picked {s : Share} {boss : BotId} (h : s.picked c boss = true) :
    bossTurn s c boss = (0, s, c) := by
  unfold Share.picked at h
  unfold bossTurn
  cases htarget : s.bossTarget with
  | none => simp [htarget] at h
  | some target =>
      have howned : c.owner? target = some boss := by simpa [htarget] using h
      simp only [howned, if_true, htarget]

theorem bossTurn_of_not_picked {s : Share} {boss : BotId} (h : s.picked c boss = false) :
    bossTurn s c boss =
      (if (s.forgetTarget.claimForBoss c boss).1.isSome then 1 else 0,
        (s.forgetTarget.claimForBoss c boss).2) := by
  unfold Share.picked at h
  unfold bossTurn
  cases htarget : s.bossTarget with
  | none =>
      have hsame : s.forgetTarget = s := by
        cases s
        simp_all [Share.forgetTarget]
      simp only [htarget, hsame]
  | some target =>
      have howned : c.owner? target ≠ some boss := by simpa [htarget] using h
      simp only [howned, if_false, Share.forgetTarget]
      rfl

/-- A leader that holds the pick of its squad stays with it. Any other forgets
the pick and makes a new one, if there is an item for it. -/
theorem bossTurn_cases (s : Share) (c : Claims) (boss : BotId) :
    s.picked c boss = true ∧ bossTurn s c boss = (0, s, c) ∨
      s.picked c boss = false ∧ bossTurn s c boss = (0, s.forgetTarget, c) ∨
      s.picked c boss = false ∧ ∃ item, (c.owner? item = none ∨ c.owner? item = some boss) ∧
        bossTurn s c boss = (1, { s with bossTarget := some item }, (c.claim boss item).2) := by
  cases hpicked : s.picked c boss with
  | true => exact .inl ⟨rfl, bossTurn_of_picked hpicked⟩
  | false =>
      rcases s.forgetTarget.claimForBoss_cases c boss with hnone | ⟨item, howner, hsome⟩
      · exact .inr (.inl ⟨rfl, by rw [bossTurn_of_not_picked hpicked, hnone]; rfl⟩)
      · exact .inr (.inr ⟨rfl, item, howner, by rw [bossTurn_of_not_picked hpicked, hsome]; rfl⟩)

/-- A share with a new pick that the leader held before the turn. -/
def repicked (s s' : Share) (c : Claims) (boss : BotId) : Bool :=
  s'.bossTarget ≠ s.bossTarget && s'.picked c boss

theorem repicked_self (s : Share) (c : Claims) (boss : BotId) : repicked s s c boss = false := by
  simp [repicked]

theorem bossTurn_gains (s : Share) (c : Claims) (boss : BotId) :
    Gains (fun b => b = boss ∧ s.picked c boss = false) c (bossTurn s c boss).2.2 ∧
      (bossTurn s c boss).1 + c.size = (bossTurn s c boss).2.2.size +
        if repicked s (bossTurn s c boss).2.1 c boss then 1 else 0 := by
  rcases bossTurn_cases s c boss with ⟨-, heq⟩ | ⟨-, heq⟩ | ⟨hpicked, item, howner, heq⟩
  · simp [heq, Gains.refl, repicked_self]
  · simp [heq, Gains.refl, repicked, Share.picked, Share.forgetTarget]
  · rw [heq]
    rcases howner with hfree | hown
    · refine ⟨gains_claim hfree ⟨rfl, hpicked⟩, ?_⟩
      simp [size_claim hfree, repicked, Share.picked, hfree, Nat.add_comm]
    · have hnew : s.bossTarget ≠ some item := by
        intro htarget
        simp [Share.picked, htarget, hown] at hpicked
      rw [claim_of_owner? boss hown]
      refine ⟨Gains.refl _ c, ?_⟩
      simp [repicked, Share.picked, hown, Ne.symm hnew, Nat.add_comm]

/-! ## The turn of a squad -/

/-- A follower's turn changes nothing, or the follower is active, held nothing
and gets a free item. -/
theorem followerTurn_cases (bots : Bots) (range : Float32) (s : Squad) (boss : Bot)
    {state : Nat × Claims} (ha : state.2.Agree) (id : BotId) :
    followerTurn bots range s boss state id = state ∨
      (bots.get? id).any (·.isActive) ∧ state.2.ofBot id = [] ∧
        ∃ item, state.2.owner? item = none ∧
          followerTurn bots range s boss state id = (state.1 + 1, (state.2.claim id item).2) := by
  unfold followerTurn
  split
  · exact .inl rfl
  · rename_i follower hfollower
    obtain ⟨hget, hactive⟩ := Option.filter_eq_some_iff.1 hfollower
    split
    · rename_i hmay
      have hnone : state.2.ofBot id = [] := by simpa using (Bool.and_eq_true_iff.1 hmay).1
      rcases s.share.claimForFollower_cases ha hnone with heq | ⟨pick, hfree, heq⟩
      · exact .inl (by rw [heq]; rfl)
      · exact .inr ⟨by simp [hget, hactive], hnone, pick.id, hfree, by rw [heq]; rfl⟩
    · exact .inl rfl

/-- A follower that may get an item. -/
def IdleFollower (bots : Bots) (ids : List BotId) (c : Claims) (b : BotId) : Prop :=
  b ∈ ids ∧ c.ofBot b = [] ∧ (bots.get? b).any (·.isActive)

theorem followerTurns_gains (bots : Bots) (range : Float32) (s : Squad) (boss : Bot)
    (ids : List BotId) (state : Nat × Claims) (ha : state.2.Agree) :
    Gains (IdleFollower bots ids state.2) state.2
        (ids.foldl (followerTurn bots range s boss) state).2 ∧
      (ids.foldl (followerTurn bots range s boss) state).1 + state.2.size =
        state.1 + (ids.foldl (followerTurn bots range s boss) state).2.size := by
  induction ids generalizing state with
  | nil => exact ⟨Gains.refl _ _, rfl⟩
  | cons id ids ih =>
      rw [List.foldl_cons]
      obtain ⟨hrest, hcount⟩ := ih _ (stable_agree.followerTurn bots range s boss ha id)
      have hturn : Gains (fun b => IdleFollower bots (id :: ids) state.2 b) state.2
            (followerTurn bots range s boss state id).2 ∧
          (followerTurn bots range s boss state id).1 + state.2.size =
            state.1 + (followerTurn bots range s boss state id).2.size := by
        rcases followerTurn_cases bots range s boss ha id with
          heq | ⟨hactive, hnone, item, hfree, heq⟩
        · rw [heq]
          exact ⟨Gains.refl _ _, rfl⟩
        · rw [heq, size_claim hfree]
          exact ⟨gains_claim hfree ⟨List.mem_cons_self, hnone, hactive⟩, by omega⟩
      refine ⟨hturn.1.comp hrest (fun _ h => h) fun b ⟨hin, hempty, hactive⟩ => ?_, by omega⟩
      have hsame := hturn.1.of_nil hempty
      exact ⟨hsame, List.mem_cons_of_mem _ hin, hsame ▸ hempty, hactive⟩

end Mind

open Claims

/-- Who may get an item in the turn of a squad: an active follower that holds
nothing, or an active leader that does not hold the pick of the squad. -/
def Squad.MayTake (s : Squad) (bots : Bots) (c : Claims) (b : BotId) : Prop :=
  Mind.IdleFollower bots s.followers c b ∨
    s.leader = some b ∧ s.share.picked c b = false ∧ (bots.get? b).any (·.isActive)

/-- The leader comes out of a turn with a new pick that it held before. -/
def Squad.repicks (s s' : Squad) (c : Claims) : Bool :=
  s.leader.any (Mind.repicked s.share s'.share c)

namespace Mind

theorem lootLeader?_eq_some {bots : Bots} {s : Squad} {id : BotId} {boss : Bot}
    (h : lootLeader? bots s = some (id, boss)) :
    s.leader = some id ∧ (bots.get? id).any (·.isActive) := by
  unfold lootLeader? at h
  split at h
  · rename_i leader hleader
    obtain ⟨b, hb, heq⟩ := Option.map_eq_some_iff.1 h
    cases heq
    obtain ⟨hget, hactive⟩ := Option.filter_eq_some_iff.1 hb
    exact ⟨hleader, by simpa [hget] using (Bool.and_eq_true_iff.1 hactive).1⟩
  · cases h

/-- What the turn of a squad does. -/
structure Turn (bots : Bots) (s s' : Squad) (state state' : Nat × Claims) : Prop where
  agree : state'.2.Agree
  gains : Gains (s.MayTake bots state.2) state.2 state'.2
  count : state'.1 + state.2.size =
    state.1 + state'.2.size + if s.repicks s' state.2 then 1 else 0

theorem Turn.refl (bots : Bots) (s : Squad) {state : Nat × Claims} (ha : state.2.Agree) :
    Turn bots s s state state where
  agree := ha
  gains := Gains.refl _ _
  count := by
    have hnot : s.repicks s state.2 = false := by
      unfold Squad.repicks
      cases s.leader <;> simp [repicked_self]
    simp [hnot]

/-- A squad has no turn, or its leader picks and then its followers do. -/
theorem lootTurn_cases (bots : Bots) (range : Float32) (s : Squad) (state : Nat × Claims) :
    lootTurn bots range s state = (s, state) ∨
      ∃ id boss, lootLeader? bots s = some (id, boss) ∧
        ∃ s' : Squad, s' = { s with share := (bossTurn s.share state.2 id).2.1 } ∧
          lootTurn bots range s state = (s', s.followers.foldl (followerTurn bots range s' boss)
            (state.1 + (bossTurn s.share state.2 id).1, (bossTurn s.share state.2 id).2.2)) := by
  unfold lootTurn
  split
  case isFalse => exact .inl rfl
  split
  · exact .inl rfl
  · rename_i id boss hlead
    exact .inr ⟨id, boss, hlead, _, rfl, rfl⟩

theorem turn_lootTurn (bots : Bots) (range : Float32) (s : Squad) {state : Nat × Claims}
    (ha : state.2.Agree) :
    Turn bots s (lootTurn bots range s state).1 state (lootTurn bots range s state).2 := by
  rcases lootTurn_cases bots range s state with heq | ⟨id, boss, hlead, s', hs', heq⟩
  · rw [heq]
    exact .refl bots s ha
  · obtain ⟨hleader, hactive⟩ := lootLeader?_eq_some hlead
    obtain ⟨hboss, hbosscount⟩ := bossTurn_gains s.share state.2 id
    have ha' := stable_agree.bossTurn ha s.share id
    have hrepicks : s.repicks s' state.2 =
        repicked s.share (bossTurn s.share state.2 id).2.1 state.2 id := by
      simp [Squad.repicks, hleader, hs']
    rw [heq]
    generalize bossTurn s.share state.2 id = picked at hboss hbosscount ha' hrepicks
    obtain ⟨hrest, hcount⟩ := followerTurns_gains bots range s' boss s.followers
      (state.1 + picked.1, picked.2.2) ha'
    refine ⟨stable_agree.followerTurns bots range s' boss _ ha', ?_, ?_⟩
    · refine hboss.comp hrest (fun b ⟨hb, hpicked⟩ => ?_) fun b ⟨hin, hempty, hbactive⟩ => ?_
      · subst hb
        exact .inr ⟨hleader, hpicked, hactive⟩
      · have hsame := hboss.of_nil hempty
        exact ⟨hsame, .inl ⟨hin, hsame ▸ hempty, hbactive⟩⟩
    · rw [hrepicks]
      dsimp only at hcount ⊢
      omega

end Mind

/-! ## The turns of all squads -/

namespace Squad

variable {s : Squad} {bots : Bots} {c c' : Claims} {b : BotId}

/-- Whoever leads the squad is in it. -/
def Led (s : Squad) : Prop := ∀ l, s.leader = some l → l ∈ s.members

theorem MayTake.mem (h : s.MayTake bots c b) (hs : s.Led) : b ∈ s.members := by
  rcases h with ⟨hin, -⟩ | ⟨hlead, -⟩
  · exact (List.mem_filter.1 hin).1
  · exact hs b hlead

theorem MayTake.active (h : s.MayTake bots c b) : (bots.get? b).any (·.isActive) := by
  rcases h with ⟨-, -, hactive⟩ | ⟨-, -, hactive⟩ <;> exact hactive

/-- Whether a bot may get an item depends on the claims by what it holds. -/
theorem MayTake.congr (ha : c.Agree) (ha' : c'.Agree) (hb : c'.ofBot b = c.ofBot b)
    (h : s.MayTake bots c' b) : s.MayTake bots c b := by
  rcases h with ⟨hin, hempty, hactive⟩ | ⟨hlead, hpicked, hactive⟩
  · exact .inl ⟨hin, hb ▸ hempty, hactive⟩
  · exact .inr ⟨hlead, by rwa [← s.share.picked_congr ha ha' hb], hactive⟩

theorem repicks_congr (ha : c.Agree) (ha' : c'.Agree)
    (h : ∀ l, s.leader = some l → c'.ofBot l = c.ofBot l) (s' : Squad) :
    s.repicks s' c' = s.repicks s' c := by
  unfold repicks
  cases hlead : s.leader with
  | none => rfl
  | some l => simp [Mind.repicked, s'.share.picked_congr ha ha' (h l hlead)]

end Squad

namespace Mind

/-- An entry before its turn and after it. -/
abbrev Played := Entry .squad Squad × Entry .squad Squad

/-- What the turns of several squads do, told from the claims before the first. -/
structure Turns (bots : Bots) (played : List Played) (state state' : Nat × Claims) : Prop where
  agree : state'.2.Agree
  gains : Gains (fun b => ∃ p ∈ played, p.1.record.MayTake bots state.2 b) state.2 state'.2
  count : state'.1 + state.2.size =
    state.1 + state'.2.size + played.countP fun p => p.1.record.repicks p.2.record state.2

/-- A turn changes nothing for the squads that come after it: none of their
members is in the squad whose turn it is. -/
theorem Turns.cons {bots : Bots} {e e' : Entry .squad Squad} {played : List Played}
    {state mid state' : Nat × Claims} (ha : state.2.Agree)
    (hturn : Turn bots e.record e'.record state mid) (hrest : Turns bots played mid state')
    (hled : e.record.Led)
    (hothers : ∀ p ∈ played, p.1.record.Led ∧ e.record.members.Disjoint p.1.record.members) :
    Turns bots ((e, e') :: played) state state' := by
  have hsame : ∀ p ∈ played, ∀ b ∈ p.1.record.members, mid.2.ofBot b = state.2.ofBot b :=
    fun p hp b hb => hturn.gains.of_not fun hmay => (hothers p hp).2 (hmay.mem hled) hb
  refine ⟨hrest.agree, hturn.gains.comp hrest.gains ?_ ?_, ?_⟩
  · exact fun b hmay => ⟨_, List.mem_cons_self, hmay⟩
  · rintro b ⟨p, hp, hmay⟩
    have hb := hsame p hp b (hmay.mem (hothers p hp).1)
    exact ⟨hb, p, List.mem_cons_of_mem _ hp, hmay.congr ha hturn.agree hb⟩
  · have hrepicks : (played.countP fun p => p.1.record.repicks p.2.record mid.2) =
        played.countP fun p => p.1.record.repicks p.2.record state.2 := by
      refine List.countP_congr fun p hp => ?_
      rw [Squad.repicks_congr ha hturn.agree fun l hl => hsame p hp l ((hothers p hp).1 l hl)]
    have hfirst := hturn.count
    have hlater := hrest.count
    rw [List.countP_cons]
    dsimp only
    omega

theorem turns_sweepEntries (bots : Bots) (range : Float32) (es : List (Entry .squad Squad))
    (state : Nat × Claims) (ha : state.2.Agree) (hled : ∀ e ∈ es, e.record.Led)
    (hdisjoint : es.Pairwise fun e e' => e.record.members.Disjoint e'.record.members) :
    Turns bots (es.zip (Roster.sweepEntries (fun _ => lootTurn bots range) es state).1) state
      (Roster.sweepEntries (fun _ => lootTurn bots range) es state).2 := by
  induction es generalizing state with
  | nil => exact ⟨ha, Gains.refl _ _, rfl⟩
  | cons e es ih =>
      obtain ⟨hapart, hdisjoint⟩ := List.pairwise_cons.1 hdisjoint
      have hturn := turn_lootTurn bots range e.record ha
      refine .cons ha hturn
        (ih _ hturn.agree (fun e he => hled e (List.mem_cons_of_mem _ he)) hdisjoint)
        (hled e List.mem_cons_self) fun p hp => ?_
      have hin := (List.of_mem_zip hp).1
      exact ⟨hled p.1 (List.mem_cons_of_mem _ hin), hapart p.1 hin⟩

/-! ## The whole phase -/

variable {m m' : Mind}

/-- Whoever owns an item after the loot phase owned it before or is active. -/
theorem owner_of_shareLoot (ha : m.claims.Agree) {item : LootId} {b : BotId}
    (howned : m.shareLoot.2.claims.owner? item = some b) :
    m.claims.owner? item = some b ∨ (m.bots.get? b).any (·.isActive) := by
  have hpass : m.shareLoot.2.claims.Agree ∧ ∀ item b,
      m.shareLoot.2.claims.owner? item = some b →
        m.claims.owner? item = some b ∨ (m.bots.get? b).any (·.isActive) := by
    refine Roster.sweep_induction (P := fun state : Nat × Claims => state.2.Agree ∧
      ∀ item b, state.2.owner? item = some b →
        m.claims.owner? item = some b ∨ (m.bots.get? b).any (·.isActive))
      (s := (0, m.claims)) ⟨ha, fun _ _ => .inl⟩ fun _ s _ state hstate => ?_
    have hturn := turn_lootTurn m.bots m.settings.communication.range s hstate.1
    refine ⟨hturn.agree, fun item b howned => ?_⟩
    rcases hturn.gains.owner_or hstate.1 hturn.agree howned with hbefore | hmay
    · exact hstate.2 item b hbefore
    · exact .inr hmay.active
  exact hpass.2 item b howned

/-- Who may get an item in the loot phase. -/
def MayTake (m : Mind) (b : BotId) : Prop :=
  ∃ e ∈ m.squads.entries, e.record.MayTake m.bots m.claims b

/-- How many squads have a leader that came out with a new pick that it held
before. -/
def repicks (m m' : Mind) : Nat :=
  m.squads.entries.countP fun e =>
    (m'.squads.get? e.id).any fun s => e.record.repicks s m.claims

/-- What the loot phase does. -/
structure Shares (m : Mind) (granted : Nat) (m' : Mind) : Prop where
  agree : m'.claims.Agree
  gains : Gains m.MayTake m.claims m'.claims
  count : granted + m.claims.size = m'.claims.size + m.repicks m'

theorem led_of_consistent {limit : Nat} (h : Enrollment.Consistent limit m.squads m.bots)
    {e : Entry .squad Squad} (he : e ∈ m.squads.entries) : e.record.Led := fun l hl => by
  have hget := Roster.get?_of_mem_entries he
  have hhead := h.leaderOf_eq e.id
  rw [Enrollment.leaderOf_of_get? hget, hl, Enrollment.members_of_get? hget] at hhead
  exact List.mem_of_mem_head? hhead.symm

theorem disjoint_of_consistent {limit : Nat} (h : Enrollment.Consistent limit m.squads m.bots) :
    m.squads.entries.Pairwise fun e e' => e.record.members.Disjoint e'.record.members := by
  have hids : m.squads.entries.Pairwise fun e e' => e.id ≠ e'.id :=
    List.pairwise_map.1 m.squads.ids_nodup
  refine hids.imp_of_mem fun {e e'} he he' hne b hb hb' => hne ?_
  rw [← Enrollment.members_of_get? (Roster.get?_of_mem_entries he), ← h.squadOf_iff] at hb
  rw [← Enrollment.members_of_get? (Roster.get?_of_mem_entries he'), ← h.squadOf_iff] at hb'
  exact Option.some.inj (hb.symm.trans hb')

theorem shares_shareLoot {limit : Nat} (h : Enrollment.Consistent limit m.squads m.bots)
    (ha : m.claims.Agree) : Shares m m.shareLoot.1 m.shareLoot.2 := by
  have hturns := turns_sweepEntries m.bots m.settings.communication.range m.squads.entries
    (0, m.claims) ha (fun e he => led_of_consistent h he) (disjoint_of_consistent h)
  refine ⟨hturns.agree, fun b => ?_, ?_⟩
  · refine (hturns.gains b).imp_right fun ⟨⟨p, hp, hmay⟩, hgain⟩ => ?_
    exact ⟨⟨p.1, (List.of_mem_zip hp).1, hmay⟩, hgain⟩
  · have hcount := hturns.count
    dsimp only at hcount
    rw [Nat.zero_add, Roster.countP_zip_sweepEntries fun (e : Entry .squad Squad) s =>
      e.record.repicks s m.claims] at hcount
    exact hcount

end Mind

end Warband
