import Warband.Squad.Basic

/-!
# Joining, leaving and leading

Membership is written at both ends: a squad lists its members and each member's
record names the squad. The first member leads, and when a leader leaves the
member that joined next takes over.
-/
namespace Warband.Enrollment

/-- Puts a bot at the end of the list; it leads if nobody does. -/
def enroll (bot : BotId) (s : Squad) : Squad :=
  { s with members := s.members ++ [bot], leader := s.leader.or (some bot) }

/-- The record of a new member of a squad. -/
def welcome (id : SquadId) (s : Squad) : Membership :=
  { squad := id, role := if s.leader.isNone then .leader else .none }

/-- Takes a bot off the list. If it led, the first remaining member leads. -/
def strike (bot : BotId) (s : Squad) : Squad :=
  let members := s.members.filter (· ≠ bot)
  { s with
    members := members
    leader := if s.leader = some bot then members.head? else s.leader }

/-- Gives a bot a role in its squad, if it has one. -/
def setRole (bots : Bots) (bot : BotId) (role : Role) : Bots :=
  bots.modify bot (·.modifyMembership fun m => { m with role := role })

/-- Makes the new leader of a squad a leader by its own record, if there is a
new one. -/
def promote (bots : Bots) (bot : BotId) (before after : Squad) : Bots :=
  if before.leader = some bot then
    match after.leader with
    | some leader => setRole bots leader .leader
    | none => bots
  else bots

/-- Takes a bot out of the squad that its record names. -/
def leave (squads : Squads) (bots : Bots) (bot : BotId) : Bool × Squads × Bots :=
  match (bots.get? bot).bind (·.squad?) with
  | none => (false, squads, bots)
  | some id =>
    let bots := bots.modify bot fun b => { b with membership := none }
    match squads.get? id with
    | none => (true, squads, bots)
    | some s => (true, squads.modify id (strike bot), promote bots bot s (strike bot s))

/-- Why a bot may not join a squad, checked in this order: the bot is dead, the
squad is dead, the squad has no room left. -/
def refusal? (squads : Squads) (bots : Bots) (squad : SquadId) (bot : BotId) (maxMembers : Nat) :
    Option Error :=
  if bots.contains bot then
    match squads.get? squad with
    | none => some (.squadNotFound squad)
    | some s =>
      let limit := min maxMembers maxSquadSize
      if bot ∈ s.members then none
      else if limit ≤ s.members.length then some (.squadFull squad limit)
      else none
  else some (.botNotFound bot)

/-- The squad lists the bot already. -/
def listed (squads : Squads) (squad : SquadId) (bot : BotId) : Bool :=
  (squads.get? squad).any fun s => bot ∈ s.members

/-- Lets a bot join a squad, out of the one it is in. A bot that the squad lists
already stays as it is. -/
def join (squads : Squads) (bots : Bots) (squad : SquadId) (bot : BotId) (maxMembers : Nat) :
    Except Fault (Except Error Unit × Squads × Bots) :=
  match refusal? squads bots squad bot maxMembers with
  | some e => .ok (.error e, squads, bots)
  | none =>
    if listed squads squad bot then .ok (.ok (), squads, bots)
    else do
      let (_, squads, bots) := leave squads bots bot
      let s ← squads.fetch squad
      let squads ← squads.update squad (enroll bot)
      let bots ← bots.update bot fun b => { b with membership := some (welcome squad s) }
      return (.ok (), squads, bots)

/-- Makes a member the leader of its squad. -/
def lead (squads : Squads) (bots : Bots) (squad : SquadId) (bot : BotId) :
    Except Error Unit × Squads × Bots :=
  match squads.get? squad with
  | none => (.error (.squadNotFound squad), squads, bots)
  | some s =>
    if bot ∈ s.members then
      let demoted := match s.leader with
        | some former => if former ≠ bot then setRole bots former .none else bots
        | none => bots
      (.ok (), squads.modify squad fun s => { s with leader := some bot },
        setRole demoted bot .leader)
    else (.error (.botNotFound bot), squads, bots)

/-- Makes a bot forget a squad, if its record names it. -/
def forgetSquad (id : SquadId) (bots : Bots) (bot : BotId) : Bots :=
  bots.modify bot fun b => if b.squad? = some id then { b with membership := none } else b

/-- Removes a squad and frees its members. -/
def disband (squads : Squads) (bots : Bots) (id : SquadId) : Bool × Squads × Bots :=
  match squads.remove? id with
  | none => (false, squads, bots)
  | some (gone, squads) => (true, squads, gone.record.members.foldl (forgetSquad id) bots)

end Warband.Enrollment
