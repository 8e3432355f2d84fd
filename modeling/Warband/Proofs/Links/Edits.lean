import Warband.Bot.Links
import Warband.Proofs.Links.Graph

/-!
# What the edits of links do

Every operation on links is described first by the boss and the followers that
it leaves every bot with, and then by the edges. Detaching and separating
restrict the graph, assigning replaces one edge, and none of them writes
anything but links.
-/
namespace Warband.Links

/-! ## Edits of single records -/

theorem boss?_modify (bots : Bots) (id other : BotId) (f : Bot → Bot) :
    boss? (bots.modify id f) other =
      if other = id then (bots.get? other).bind fun r => (f r).boss else boss? bots other :=
  Roster.bind_modify ..

theorem followers_modify (bots : Bots) (id other : BotId) (f : Bot → Bot) :
    followers (bots.modify id f) other =
      if other = id then ((bots.get? other).map fun r => (f r).followers).getD []
      else followers bots other := Roster.getD_modify ..

/-- A bot that is told whom to follow keeps its own followers. -/
theorem followers_setBoss (bots : Bots) (id other : BotId) (boss : Option BotId) :
    followers (bots.modify id fun r => { r with boss := boss }) other = followers bots other := by
  rw [followers_modify]
  split <;> rfl

theorem boss?_setFollowers (bots : Bots) (id other : BotId) (f : Bot → List BotId) :
    boss? (bots.modify id fun r => { r with followers := f r }) other = boss? bots other := by
  rw [boss?_modify]
  split <;> rfl

theorem rewritten_setBoss (bots : Bots) (id : BotId) (boss : Option BotId) :
    Roster.Rewritten Bot.unlinked bots (bots.modify id fun r => { r with boss := boss }) :=
  .modify fun _ => rfl

theorem rewritten_setFollowers (bots : Bots) (id : BotId) (f : Bot → List BotId) :
    Roster.Rewritten Bot.unlinked bots (bots.modify id fun r => { r with followers := f r }) :=
  .modify fun _ => rfl

@[simp] theorem boss?_unlist (bots : Bots) (boss follower id : BotId) :
    boss? (unlist bots boss follower) id = boss? bots id := boss?_setFollowers ..

theorem followers_unlist (bots : Bots) (boss follower id : BotId) :
    followers (unlist bots boss follower) id =
      if id = boss then (followers bots id).filter (· ≠ follower) else followers bots id := by
  unfold unlist
  rw [followers_modify]
  unfold followers
  split
  · cases bots.get? id <;> simp
  · rfl

theorem rewritten_unlist (bots : Bots) (boss follower : BotId) :
    Roster.Rewritten Bot.unlinked bots (unlist bots boss follower) := rewritten_setFollowers ..

theorem removeBoss_eq {bots : Bots} {follower boss : BotId} (h : boss? bots follower = some boss) :
    removeBoss bots follower =
      (true, unlist (bots.modify follower fun b => { b with boss := none }) boss follower) := by
  unfold boss? at h
  simp only [removeBoss, h]

theorem removeBoss_eq_self {bots : Bots} {follower : BotId} (h : boss? bots follower = none) :
    removeBoss bots follower = (false, bots) := by
  unfold boss? at h
  simp only [removeBoss, h]

theorem boss?_removeBoss (bots : Bots) (follower id : BotId) :
    boss? (removeBoss bots follower).2 id = if id = follower then none else boss? bots id := by
  cases h : boss? bots follower with
  | none =>
      rw [removeBoss_eq_self h]
      split
      · rename_i hid; rw [hid, h]
      · rfl
  | some boss =>
      rw [removeBoss_eq h, boss?_unlist, boss?_modify]
      split
      · cases bots.get? id <;> rfl
      · rfl

theorem followers_removeBoss (bots : Bots) (follower id : BotId) :
    followers (removeBoss bots follower).2 id =
      if boss? bots follower = some id then (followers bots id).filter (· ≠ follower)
      else followers bots id := by
  cases h : boss? bots follower with
  | none => rw [removeBoss_eq_self h, if_neg (by simp)]
  | some boss =>
      rw [removeBoss_eq h, followers_unlist, followers_setBoss]
      simp only [Option.some.injEq, eq_comm]

theorem rewritten_removeBoss (bots : Bots) (follower : BotId) :
    Roster.Rewritten Bot.unlinked bots (removeBoss bots follower).2 := by
  cases h : boss? bots follower with
  | none =>
      rw [removeBoss_eq_self h]
      exact .refl bots
  | some boss =>
      rw [removeBoss_eq h]
      exact (rewritten_setBoss ..).trans (rewritten_unlist ..)

/-- A bot is on no list but its boss's. -/
theorem Matched.filter_followers {bots : Bots} (hm : Matched bots) {a b : BotId}
    (h : boss? bots a ≠ some b) : (followers bots b).filter (· ≠ a) = followers bots b :=
  List.filter_eq_self.2 fun _ hmem => decide_eq_true fun heq =>
    h ((hm a b).2 (heq ▸ hmem))

/-- Detaching a bot removes its edge. -/
theorem removeBoss_restricts {bots : Bots} (hc : Consistent bots) (follower : BotId) :
    Restricts (fun a _ => a ≠ follower) bots (removeBoss bots follower).2 := by
  refine restricts_of_edges (rewritten_removeBoss bots follower).kept.view (fun id => ?_) fun id => ?_
  · rw [boss?_removeBoss]
    cases boss? bots id <;> by_cases h : id = follower <;> simp [h, Option.filter]
  · rw [followers_removeBoss]
    split
    · rfl
    · rename_i h
      exact (hc.matched.filter_followers h).symm

theorem rewritten_forgetBoss (boss : BotId) (bots : Bots) (follower : BotId) :
    Roster.Rewritten Bot.unlinked bots (forgetBoss boss bots follower) := by
  refine .modify fun r => ?_
  split <;> rfl

theorem boss?_forgetBoss (boss : BotId) (bots : Bots) (follower id : BotId) :
    boss? (forgetBoss boss bots follower) id =
      if id = follower ∧ boss? bots id = some boss then none else boss? bots id := by
  unfold forgetBoss
  rw [boss?_modify]
  by_cases h : id = follower
  · rw [if_pos h]
    unfold boss?
    cases bots.get? id with
    | none => simp
    | some r => by_cases hr : r.boss = some boss <;> simp [h, hr]
  · simp [h]

theorem followers_forgetBoss (boss : BotId) (bots : Bots) (follower id : BotId) :
    followers (forgetBoss boss bots follower) id = followers bots id := by
  unfold forgetBoss
  rw [followers_modify]
  split
  · unfold followers
    cases bots.get? id with
    | none => rfl
    | some r => by_cases hr : r.boss = some boss <;> simp [hr]
  · rfl

/-- Telling a list of bots to forget a boss changes the boss of those on the list
who had that boss. -/
theorem foldl_forgetBoss (boss : BotId) (ids : List BotId) (bots : Bots) (id : BotId) :
    followers (ids.foldl (forgetBoss boss) bots) id = followers bots id ∧
      boss? (ids.foldl (forgetBoss boss) bots) id =
        if id ∈ ids ∧ boss? bots id = some boss then none else boss? bots id := by
  induction ids generalizing bots with
  | nil => simp
  | cons f ids ih =>
      obtain ⟨hf, hb⟩ := ih (forgetBoss boss bots f)
      rw [List.foldl_cons, hf, hb, boss?_forgetBoss, followers_forgetBoss]
      refine ⟨rfl, ?_⟩
      by_cases h₁ : boss? bots id = some boss <;> by_cases h₂ : id = f <;> simp [h₁, h₂]

/-- Separating writes nothing but links, whatever the links were. -/
theorem rewritten_separate {bots bots' : Bots} {id : BotId} (h : separate bots id = .ok bots') :
    Roster.Rewritten Bot.unlinked bots bots' := by
  unfold separate at h
  split at h
  case isFalse =>
    cases h
    exact .refl bots
  obtain ⟨r, -, h⟩ := bind_eq_ok.1 h
  obtain ⟨-, rfl⟩ := Roster.update_eq_ok h
  refine (rewritten_removeBoss bots id).trans (.trans ?_ (rewritten_setFollowers ..))
  exact .foldl (fun f bots => rewritten_forgetBoss id bots f) _

theorem separate_of_not_contains {bots : Bots} {id : BotId} (h : bots.contains id = false) :
    separate bots id = .ok bots := by
  simp [separate, h]

/-- What separating a live bot does, edge by edge. -/
theorem separate_edges {bots : Bots} {id : BotId} (h : bots.contains id) :
    ∃ bots', separate bots id = .ok bots' ∧
      (∀ a, boss? bots' a =
        if a = id ∨ a ∈ followers bots id ∧ boss? bots a = some id then none else boss? bots a) ∧
      ∀ a, followers bots' a =
        if a = id then [] else if boss? bots id = some a then (followers bots a).filter (· ≠ id)
        else followers bots a := by
  have hdetached : (removeBoss bots id).2.contains id := by rw [contains_removeBoss]; exact h
  obtain ⟨r, hr⟩ := Roster.contains_iff.1 hdetached
  have hlist : ∀ a, a ≠ id → (a ∈ r.followers ↔ a ∈ followers bots id) := by
    intro a ha
    rw [← followers_of_get? hr, followers_removeBoss]
    split
    · simp [ha]
    · rfl
  have hfold := foldl_forgetBoss id r.followers (removeBoss bots id).2
  have hlive : (r.followers.foldl (forgetBoss id) (removeBoss bots id).2).contains id := by
    rw [contains_foldl_forgetBoss]; exact hdetached
  refine ⟨(r.followers.foldl (forgetBoss id) (removeBoss bots id).2).modify id
    fun b => { b with followers := [] }, ?_, fun a => ?_, fun a => ?_⟩
  · simp only [separate, h, if_true, Roster.fetch_of_get? hr, bind, Except.bind]
    exact Roster.update_of_contains _ hlive
  · rw [boss?_setFollowers, (hfold a).2, boss?_removeBoss]
    by_cases ha : a = id
    · simp [ha]
    · simp [ha, hlist a ha]
  · rw [followers_modify]
    by_cases ha : a = id
    · simp only [ha, if_true]
      cases (r.followers.foldl (forgetBoss id) (removeBoss bots id).2).get? id <;> rfl
    · simp only [ha, if_false, (hfold a).1, followers_removeBoss]

/-- Separating a bot removes the edges that touch it. -/
theorem Matched.separate {bots : Bots} (hm : Matched bots) (id : BotId) :
    ∃ bots', Links.separate bots id = .ok bots' ∧
      Restricts (fun a b => a ≠ id && b ≠ id) bots bots' := by
  cases h : bots.contains id with
  | false =>
      refine ⟨bots, separate_of_not_contains h, restricts_of_edges rfl (fun a => ?_) fun a => ?_⟩
      · cases ha : boss? bots a with
        | none => rfl
        | some b =>
            have h₁ : a ≠ id := by rintro rfl; simp [contains_of_boss? ha] at h
            have h₂ : b ≠ id := by rintro rfl; simp [hm.contains_boss ha] at h
            simp [Option.filter, h₁, h₂]
      · refine (List.filter_eq_self.2 fun b hb => ?_).symm
        have h₁ : b ≠ id := by rintro rfl; simp [hm.contains_follower hb] at h
        have h₂ : a ≠ id := by rintro rfl; simp [contains_of_mem_followers hb] at h
        simp [h₁, h₂]
  | true =>
      obtain ⟨bots', hsep, hboss, hlist⟩ := separate_edges h
      refine ⟨bots', hsep,
        restricts_of_edges (rewritten_separate hsep).kept.view (fun a => ?_) fun a => ?_⟩
      · simp only [hboss a, ← hm a id]
        cases boss? bots a with
        | none => simp
        | some b => by_cases h₁ : a = id <;> by_cases h₂ : b = id <;> simp [Option.filter, h₁, h₂]
      · rw [hlist a]
        by_cases ha : a = id
        · simp [ha]
        · simp only [ha, if_false, ne_eq, not_false_eq_true, decide_true, Bool.and_true]
          split
          · rfl
          · rename_i hb
            exact (hm.filter_followers hb).symm

theorem separate_restricts {bots : Bots} (hc : Consistent bots) (id : BotId) :
    ∃ bots', separate bots id = .ok bots' ∧
      Restricts (fun a b => a ≠ id && b ≠ id) bots bots' := hc.matched.separate id

/-! ## Assigning a boss -/

theorem boss?_leaveFormer (bots : Bots) (former : Option BotId) (follower boss id : BotId) :
    boss? (leaveFormer bots former follower boss) id = boss? bots id := by
  unfold leaveFormer
  split
  · split
    · exact boss?_unlist ..
    · rfl
  · rfl

theorem followers_leaveFormer (bots : Bots) (former : Option BotId) (follower boss id : BotId) :
    followers (leaveFormer bots former follower boss) id =
      if former = some id ∧ id ≠ boss then (followers bots id).filter (· ≠ follower)
      else followers bots id := by
  unfold leaveFormer
  cases former with
  | none => simp
  | some old =>
      by_cases h₁ : old = boss
      · simp only [h₁, Option.some.injEq]
        rw [if_neg (by simp), if_neg]
        rintro ⟨rfl, hne⟩
        exact hne rfl
      · simp only [ne_eq, h₁, not_false_eq_true, if_true, followers_unlist, Option.some.injEq]
        by_cases h₂ : id = old
        · simp [h₂, h₁]
        · simp [h₂, Ne.symm h₂]

theorem rewritten_leaveFormer (bots : Bots) (former : Option BotId) (follower boss : BotId) :
    Roster.Rewritten Bot.unlinked bots (leaveFormer bots former follower boss) := by
  unfold leaveFormer
  split
  · split
    · exact rewritten_unlist ..
    · exact .refl bots
  · exact .refl bots

theorem rewritten_assignBoss {bots bots' : Bots} {follower boss : BotId} {ok : Bool}
    (h : assignBoss bots follower boss = .ok (ok, bots')) :
    Roster.Rewritten Bot.unlinked bots bots' := by
  unfold assignBoss at h
  split at h
  · cases h
    exact .refl bots
  · obtain ⟨r, -, h⟩ := bind_eq_ok.1 h
    obtain ⟨bots₁, h₁, h⟩ := bind_eq_ok.1 h
    obtain ⟨bots₂, h₂, h⟩ := bind_eq_ok.1 h
    obtain ⟨-, rfl⟩ := Roster.update_eq_ok h₁
    obtain ⟨-, rfl⟩ := Roster.update_eq_ok h₂
    cases h
    exact (rewritten_leaveFormer ..).trans
      ((rewritten_setBoss ..).trans (rewritten_setFollowers ..))

/-- What assigning a boss does when it is not refused, edge by edge. -/
theorem assignBoss_edges {bots : Bots} {follower boss : BotId} (hne : follower ≠ boss)
    (hf : bots.contains follower) (hb : bots.contains boss) :
    ∃ bots', assignBoss bots follower boss = .ok (true, bots') ∧
      (∀ a, boss? bots' a = if a = follower then some boss else boss? bots a) ∧
      ∀ a, followers bots' a =
        if a = boss then enlist (followers bots a) follower
        else if boss? bots follower = some a then (followers bots a).filter (· ≠ follower)
        else followers bots a := by
  obtain ⟨r, hr⟩ := Roster.contains_iff.1 hf
  have hleft : (leaveFormer bots r.boss follower boss).contains follower := by
    rw [contains_leaveFormer]; exact hf
  have hthere : ((leaveFormer bots r.boss follower boss).modify follower
      fun b => { b with boss := some boss }).contains boss := by
    rw [Roster.contains_modify, contains_leaveFormer]; exact hb
  refine ⟨((leaveFormer bots r.boss follower boss).modify follower
    fun b => { b with boss := some boss }).modify boss
      fun b => { b with followers := enlist b.followers follower }, ?_, fun a => ?_, fun a => ?_⟩
  · simp [assignBoss, hne, hf, hb, Roster.fetch_of_get? hr, bind, Except.bind, pure, Except.pure,
      Roster.update_of_contains]
  · rw [boss?_setFollowers, boss?_modify, boss?_leaveFormer]
    by_cases ha : a = follower
    · obtain ⟨r', hr'⟩ := Roster.contains_iff.1 hleft
      simp [ha, hr']
    · simp [ha]
  · have hlist := followers_setBoss (leaveFormer bots r.boss follower boss) follower a (some boss)
    rw [followers_modify]
    by_cases ha : a = boss
    · subst ha
      obtain ⟨r', hr'⟩ := Roster.contains_iff.1 hthere
      rw [followers_leaveFormer, if_neg (fun h => h.2 rfl), followers_of_get? hr'] at hlist
      simp [hr', hlist]
    · rw [if_neg ha, if_neg ha, hlist, followers_leaveFormer, boss?_of_get? hr]
      simp [ha]

theorem assignBoss_refused {bots : Bots} {follower boss : BotId}
    (h : ¬(follower ≠ boss ∧ bots.contains follower ∧ bots.contains boss)) :
    assignBoss bots follower boss = .ok (false, bots) := by
  unfold assignBoss
  rw [if_pos]
  by_cases h₁ : follower = boss
  · simp [h₁]
  · cases h₂ : bots.contains follower <;> cases h₃ : bots.contains boss <;> simp_all

theorem mem_enlist {ids : List BotId} {id other : BotId} :
    other ∈ enlist ids id ↔ other ∈ ids ∨ other = id := by
  unfold enlist
  split
  · rename_i h
    exact ⟨.inl, fun ho => ho.elim (fun hin => hin) fun he => he ▸ h⟩
  · simp

theorem nodup_enlist {ids : List BotId} (h : ids.Nodup) (id : BotId) : (enlist ids id).Nodup := by
  unfold enlist
  split
  · exact h
  · rename_i hn
    rw [← List.concat_eq_append]
    exact h.concat hn

/-- Enlisting leaves those who were listed in their order. -/
theorem filter_enlist (ids : List BotId) (id : BotId) :
    (enlist ids id).filter (· ∈ ids) = ids.filter (· ∈ enlist ids id) := by
  have hnew : ids.filter (· ∈ enlist ids id) = ids :=
    List.filter_eq_self.2 fun a ha => decide_eq_true (mem_enlist.2 (.inl ha))
  have hold : ids.filter (· ∈ ids) = ids := List.filter_eq_self.2 fun a ha => decide_eq_true ha
  rw [hnew]
  unfold enlist
  split
  · exact hold
  · rename_i hnot
    rw [List.filter_append, hold]
    simp [hnot]

/-- The edge of the follower is replaced by the new one. -/
theorem assignBoss_rewires {bots : Bots} (hc : Consistent bots) {follower boss : BotId}
    (hne : follower ≠ boss) (hf : bots.contains follower) (hb : bots.contains boss) :
    ∃ bots', assignBoss bots follower boss = .ok (true, bots') ∧
      Rewires (fun a b => if a = follower then b = boss else boss? bots a = some b) bots bots' := by
  obtain ⟨bots', hassign, hboss, hlist⟩ := assignBoss_edges hne hf hb
  have hedge : ∀ a b, boss? bots' a = some b ↔
      if a = follower then b = boss else boss? bots a = some b := by
    intro a b
    rw [hboss a]
    split
    · rw [Option.some.injEq, eq_comm]
    · rfl
  have hmem : ∀ a b, a ∈ followers bots' b ↔
      if a = follower then b = boss else a ∈ followers bots b := by
    intro a b
    have hold := hc.boss?_iff follower b
    rw [hlist b]
    by_cases h₁ : b = boss
    · by_cases h₂ : a = follower <;> simp [h₁, h₂, mem_enlist]
    · by_cases h₂ : a = follower
      · by_cases h₃ : boss? bots follower = some b <;> simp_all
      · by_cases h₃ : boss? bots follower = some b <;> simp_all
  refine ⟨bots', hassign, hedge, ⟨fun a b => ?_, fun b => ?_, fun a => ?_⟩, fun b => ?_,
    (rewritten_assignBoss hassign).kept.view⟩
  · rw [hedge, hmem, hc.boss?_iff]
  · rw [hlist b]
    split
    · exact nodup_enlist (hc.nodup b) follower
    · split
      · exact (hc.nodup b).filter _
      · exact hc.nodup b
  · rw [ne_eq, hedge]
    split
    · rename_i ha
      exact fun he => hne (ha ▸ he)
    · exact hc.ne a
  · rw [hlist b]
    by_cases h₁ : b = boss
    · simp only [h₁, if_true]
      exact filter_enlist ..
    · simp only [h₁, if_false]
      split
      · rw [List.filter_filter]
        refine List.filter_congr fun a ha => ?_
        simp [ha]
      · rfl

/-! ## Separating the inactive bots -/

def inactive (bots : Bots) (id : BotId) : Bool := (bots.get? id).any (!·.isActive)

theorem inactive_congr {bots bots' : Bots}
    (h : bots'.view Bot.unlinked = bots.view Bot.unlinked) (id : BotId) :
    inactive bots' id = inactive bots id := by
  have hid := congrArg (Option.any (!·.isActive)) (congrFun h id)
  simpa only [Roster.view, inactive, Option.any_map, Function.comp_def, Bot.unlinked] using hid

/-- A pass over some bots removes the edges that touch the inactive ones of them. -/
theorem separateEach_restricts (ids : List BotId) {bots : Bots} (hm : Matched bots) (n : Nat) :
    ∃ m bots', separateEach ids bots n = .ok (m, bots') ∧
      Restricts (fun a b => !(a ∈ ids && inactive bots a) && !(b ∈ ids && inactive bots b))
        bots bots' := by
  induction ids generalizing bots n with
  | nil => exact ⟨n, bots, rfl, (Restricts.refl bots).congr hm fun _ _ _ => by simp⟩
  | cons id ids ih =>
      unfold separateEach
      cases hid : bots.get? id with
      | none =>
          obtain ⟨m, bots', hrun, hr⟩ := ih hm n
          have hdead : inactive bots id = false := by simp [inactive, hid]
          refine ⟨m, bots', hrun, hr.congr hm fun a b _ => ?_⟩
          by_cases ha : a = id <;> by_cases hb : b = id <;> simp [ha, hb, hdead]
      | some r =>
          by_cases hneed : needsSeparation r
          · obtain ⟨bots₁, hsep, h₁⟩ := hm.separate id
            obtain ⟨m, bots', hrun, hr⟩ := ih (h₁.matched hm) (n + 1)
            have hdead : inactive bots id = true := by
              simp_all [inactive, needsSeparation]
            refine ⟨m, bots', by simp only [hneed, if_true, hsep]; exact hrun,
              (h₁.trans hr).congr hm fun a b _ => ?_⟩
            simp only [inactive_congr h₁.view_unlinked]
            by_cases ha : a = id <;> by_cases hb : b = id <;> simp [ha, hb, hdead]
          · obtain ⟨m, bots', hrun, hr⟩ := ih hm n
            refine ⟨m, bots', by simp only [hneed]; exact hrun, hr.congr hm fun a b hab => ?_⟩
            have huntouched : inactive bots id = false ∨ a ≠ id ∧ b ≠ id := by
              by_cases hact : r.isActive
              · exact .inl (by simp [inactive, hid, hact])
              · have hbare : r.boss = none ∧ r.followers = [] := by
                  simpa [needsSeparation, hact, Bot.isLinked, Bot.hasFollowers] using hneed
                refine .inr ⟨?_, ?_⟩
                · rintro rfl
                  rw [boss?_of_get? hid, hbare.1] at hab
                  simp at hab
                · rintro rfl
                  rw [hm, followers_of_get? hid, hbare.2] at hab
                  simp at hab
            rcases huntouched with h | ⟨ha, hb⟩
            · by_cases ha : a = id <;> by_cases hb : b = id <;> simp [ha, hb, h]
            · simp [ha, hb]

theorem rewritten_separateEach (ids : List BotId) {bots bots' : Bots} {n m : Nat}
    (h : separateEach ids bots n = .ok (m, bots')) : Roster.Rewritten Bot.unlinked bots bots' := by
  induction ids generalizing bots n with
  | nil =>
      cases h
      exact .refl _
  | cons id ids ih =>
      unfold separateEach at h
      split at h
      · split at h
        · obtain ⟨bots₁, hsep, h⟩ := bind_eq_ok.1 h
          exact (rewritten_separate hsep).trans (ih h)
        · exact ih h
      · exact ih h

/-- Separating the inactive bots leaves the edges between active ones. -/
theorem separateInactive_restricts {bots : Bots} (hm : Matched bots) :
    ∃ n bots', separateInactive bots = .ok (n, bots') ∧
      Restricts (fun a b => !inactive bots a && !inactive bots b) bots bots' := by
  obtain ⟨n, bots', hrun, h⟩ := separateEach_restricts bots.ids hm 0
  refine ⟨n, bots', hrun, h.congr hm fun a b hab => ?_⟩
  have ha := Roster.mem_ids_iff.2 (contains_of_boss? hab)
  have hb := Roster.mem_ids_iff.2 (hm.contains_boss hab)
  simp [ha, hb]

/-! ## All edits -/

/-- What may happen to the links of bots that stay. -/
inductive Edit (bots : Bots) : Bots → Prop
  | assign {follower boss : BotId} {ok : Bool} {bots' : Bots} :
      assignBoss bots follower boss = .ok (ok, bots') → Edit bots bots'
  | detach (follower : BotId) : Edit bots (removeBoss bots follower).2
  | separate {id : BotId} {bots' : Bots} : Links.separate bots id = .ok bots' → Edit bots bots'
  | cleanup {n : Nat} {bots' : Bots} : separateInactive bots = .ok (n, bots') → Edit bots bots'

namespace Edit

variable {bots bots' : Bots}

theorem kept (h : Edit bots bots') : Roster.Kept Bot.unlinked bots bots' := by
  apply Roster.Rewritten.kept
  cases h with
  | assign h => exact rewritten_assignBoss h
  | detach follower => exact rewritten_removeBoss bots follower
  | separate h => exact rewritten_separate h
  | cleanup h => exact rewritten_separateEach _ h

theorem consistent (h : Edit bots bots') (hc : Consistent bots) : Consistent bots' := by
  cases h with
  | @assign follower boss _ _ h =>
      by_cases hlive : follower ≠ boss ∧ bots.contains follower ∧ bots.contains boss
      · obtain ⟨hne, hf, hb⟩ := hlive
        obtain ⟨bots₁, hrun, hre⟩ := assignBoss_rewires hc hne hf hb
        rw [h] at hrun
        cases hrun
        exact hre.consistent
      · rw [assignBoss_refused hlive] at h
        cases h
        exact hc
  | detach follower => exact (removeBoss_restricts hc follower).consistent hc
  | @separate id _ h =>
      obtain ⟨bots₁, hrun, hre⟩ := separate_restricts hc id
      rw [h] at hrun
      cases hrun
      exact hre.consistent hc
  | cleanup h =>
      obtain ⟨n, bots₁, hrun, hre⟩ := separateInactive_restricts hc.matched
      rw [h] at hrun
      cases hrun
      exact hre.consistent hc

end Edit

end Warband.Links
