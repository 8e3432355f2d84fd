import Warband.Bot.Basic

/-!
# Bosses and followers

A bot may follow one boss. The link is written at both ends: the follower names
its boss, and the boss lists its followers in the order they joined. Only the
operations of this module write links, and each writes both ends.
-/
namespace Warband.Links

/-- Takes a follower off a boss's list. -/
def unlist (bots : Bots) (boss follower : BotId) : Bots :=
  bots.modify boss fun b => { b with followers := b.followers.filter (· ≠ follower) }

/-- Takes a follower off the list of the boss it had, if that was another one. -/
def leaveFormer (bots : Bots) (former : Option BotId) (follower boss : BotId) : Bots :=
  match former with
  | some old => if old ≠ boss then unlist bots old follower else bots
  | none => bots

/-- Puts a bot on a list of followers, once. -/
def enlist (followers : List BotId) (follower : BotId) : List BotId :=
  if follower ∈ followers then followers else followers ++ [follower]

/-- Makes one live bot the boss of another. A follower of somebody else leaves
that boss first. -/
def assignBoss (bots : Bots) (follower boss : BotId) : Except Fault (Bool × Bots) :=
  if follower = boss || !bots.contains follower || !bots.contains boss then .ok (false, bots)
  else do
    let record ← bots.fetch follower
    let bots := leaveFormer bots record.boss follower boss
    let bots ← bots.update follower fun b => { b with boss := some boss }
    let bots ← bots.update boss fun b => { b with followers := enlist b.followers follower }
    return (true, bots)

/-- Detaches a bot from its boss, if it has one. -/
def removeBoss (bots : Bots) (follower : BotId) : Bool × Bots :=
  match (bots.get? follower).bind (·.boss) with
  | none => (false, bots)
  | some boss =>
    (true, unlist (bots.modify follower fun b => { b with boss := none }) boss follower)

/-- Makes a bot forget a boss, if that is its boss. -/
def forgetBoss (boss : BotId) (bots : Bots) (follower : BotId) : Bots :=
  bots.modify follower fun b => if b.boss = some boss then { b with boss := none } else b

/-- Tears down every link of a bot, to its boss and to its followers. -/
def separate (bots : Bots) (id : BotId) : Except Fault Bots :=
  if bots.contains id then do
    let bots := (removeBoss bots id).2
    let record ← bots.fetch id
    let bots := record.followers.foldl (forgetBoss id) bots
    bots.update id fun b => { b with followers := [] }
  else .ok bots

/-- An inactive bot that still has links. -/
def needsSeparation (b : Bot) : Bool := !b.isActive && b.isLinked

/-- Separates the inactive ones among some bots, one after the other, and counts
those that had links left when their turn came. -/
def separateEach : List BotId → Bots → Nat → Except Fault (Nat × Bots)
  | [], bots, count => .ok (count, bots)
  | id :: ids, bots, count =>
    match bots.get? id with
    | some b =>
      if needsSeparation b then do
        let bots ← separate bots id
        separateEach ids bots (count + 1)
      else separateEach ids bots count
    | none => separateEach ids bots count

/-- Separates every inactive bot from its group. -/
def separateInactive (bots : Bots) : Except Fault (Nat × Bots) :=
  separateEach bots.ids bots 0

@[simp] theorem contains_leaveFormer (bots : Bots) (former : Option BotId)
    (follower boss id : BotId) :
    (leaveFormer bots former follower boss).contains id = bots.contains id := by
  unfold leaveFormer unlist
  split
  · split <;> simp
  · rfl

@[simp] theorem contains_removeBoss (bots : Bots) (follower id : BotId) :
    (removeBoss bots follower).2.contains id = bots.contains id := by
  unfold removeBoss unlist
  split <;> simp

@[simp] theorem contains_foldl_forgetBoss (boss : BotId) (ids : List BotId) (bots : Bots)
    (id : BotId) : (ids.foldl (forgetBoss boss) bots).contains id = bots.contains id := by
  induction ids generalizing bots with
  | nil => rfl
  | cons f ids ih => simp [ih, forgetBoss]

/-- Assigning a boss never faults. -/
theorem assignBoss_ok (bots : Bots) (follower boss : BotId) :
    ∃ r, assignBoss bots follower boss = .ok r := by
  unfold assignBoss
  split
  · exact ⟨_, rfl⟩
  · rename_i h
    simp only [Bool.or_eq_true, decide_eq_true_eq, Bool.not_eq_true', not_or,
      Bool.not_eq_false] at h
    obtain ⟨⟨-, hf⟩, hb⟩ := h
    obtain ⟨b, hget⟩ := Roster.contains_iff.1 hf
    simp [Roster.fetch_of_get? hget, bind, Except.bind, pure, Except.pure,
      Roster.update_of_contains, hf, hb]

/-- Separating a bot never faults. -/
theorem separate_ok (bots : Bots) (id : BotId) : ∃ r, separate bots id = .ok r := by
  unfold separate
  split
  · rename_i h
    obtain ⟨b, hget⟩ := Roster.contains_iff.1
      ((contains_removeBoss bots id id).trans h : (removeBoss bots id).2.contains id = true)
    simp [Roster.fetch_of_get? hget, bind, Except.bind, Roster.update_of_contains, h]
  · exact ⟨_, rfl⟩

theorem separateEach_ok (ids : List BotId) (bots : Bots) (count : Nat) :
    ∃ r, separateEach ids bots count = .ok r := by
  induction ids generalizing bots count with
  | nil => exact ⟨_, rfl⟩
  | cons id ids ih =>
    unfold separateEach
    split
    · split
      · obtain ⟨bots', h⟩ := separate_ok bots id
        simpa [h, bind, Except.bind] using ih bots' (count + 1)
      · exact ih bots count
    · exact ih bots count

/-- Separating the inactive bots never faults. -/
theorem separateInactive_ok (bots : Bots) : ∃ r, separateInactive bots = .ok r :=
  separateEach_ok ..

end Warband.Links
