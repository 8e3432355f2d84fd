import Warband.Bot.Links
import Warband.Bot.Patch
import Warband.Combat.Candidate
import Warband.Metrics.Counters
import Warband.Metrics.Timer
import Warband.Settings.Check
import Warband.Squad.Enrollment
import Warband.Squad.Refresh

/-!
# The mind

The whole state of a session, and everything the host may tell it between two
ticks. A call that is refused leaves the state as it was; a claim that is denied
is counted.
-/
namespace Warband

open Combat Loot Metrics Warband.Random

structure Mind where
  settings : Settings
  bots : Bots
  squads : Squads
  log : Log
  claims : Claims
  counters : Counters
  timer : Timer
  generator : Generator
  /-- Entrances of buildings. -/
  markers : List Position
  /-- What the last tick made of the log. -/
  clusters : List Cluster
  deaths : List Event
  candidates : List Candidate

namespace Mind

/-- The time a tick may take: two milliseconds. -/
def tickBudget : Duration := ⟨0x4000000000000000⟩

/-- A mind that knows nothing yet. -/
def fresh (settings : Settings) (g : Generator) : Mind where
  settings := settings
  bots := .empty
  squads := .empty
  log := .ofCapacity settings.combat.capacity
  claims := .empty
  counters := {}
  timer := .ofBudget tickBudget
  generator := g
  markers := []
  clusters := []
  deaths := []
  candidates := []

/-- A fresh mind, if the settings are acceptable. -/
def start (settings : Settings) (g : Generator) : Except Error Mind := do
  settings.check
  return fresh settings g

/-- Adds to the counters. -/
def bump (m : Mind) (c : Counters) : Mind := { m with counters := m.counters.add c }

/-- Rewrites the record of a live bot; says whether there was one. -/
def modifyBot (m : Mind) (id : BotId) (f : Bot → Bot) : Bool × Mind :=
  if m.bots.contains id then (true, { m with bots := m.bots.modify id f }) else (false, m)

/-- The bot that the host knows by an id. -/
def resolve (m : Mind) (hostId : HostId) : Except Error BotId :=
  match m.bots.find? hostId with
  | some id => .ok id
  | none => .error (.hostIdUnknown hostId)

/-- Registers a bot under a host id. -/
def register (m : Mind) (hostId : HostId) (botClass : BotClass) : Except Fault (BotId × Mind) := do
  let (id, bots) ← m.bots.adopt hostId {}
  let bots ← bots.update id fun b => { b with botClass := botClass }
  return (id, { m with bots := bots }.bump { entitiesAdded := 1 })

/-- Drops a bot with its links, its membership and its claims. -/
def dropBot (m : Mind) (id : BotId) : Except Fault Mind := do
  let bots ← Links.separate m.bots id
  let (_, squads, bots) := Enrollment.leave m.squads bots id
  let (_, claims) := m.claims.releaseAll id
  let bots := match bots.remove? id with
    | some (_, bots) => bots
    | none => bots
  return { m with bots := bots, squads := squads, claims := claims }.bump { entitiesRemoved := 1 }

def deregister (m : Mind) (hostId : HostId) : Except Fault (Except Error BotId × Mind) :=
  match m.resolve hostId with
  | .error e => .ok (.error e, m)
  | .ok id => do return (.ok id, ← m.dropBot id)

def assignBoss (m : Mind) (follower boss : BotId) : Except Fault (Bool × Mind) := do
  let (assigned, bots) ← Links.assignBoss m.bots follower boss
  return (assigned, { m with bots := bots })

/-- Creates a squad under a host id. -/
def createSquad (m : Mind) (hostId : HostId) : Except Fault (SquadId × Mind) := do
  let s := m.settings.squad
  let (id, squads) ← m.squads.adopt hostId (.recruit s.strategyCount s.maxMembers)
  return (id, { m with squads := squads })

def disband (m : Mind) (squad : SquadId) : Bool × Mind :=
  let (gone, squads, bots) := Enrollment.disband m.squads m.bots squad
  (gone, { m with squads := squads, bots := bots })

def join (m : Mind) (squad : SquadId) (bot : BotId) :
    Except Fault (Except Error Unit × Mind) := do
  let (result, squads, bots) ←
    Enrollment.join m.squads m.bots squad bot m.settings.squad.maxMembers
  return (result, { m with squads := squads, bots := bots })

def leave (m : Mind) (bot : BotId) : Bool × Mind :=
  let (left, squads, bots) := Enrollment.leave m.squads m.bots bot
  (left, { m with squads := squads, bots := bots })

/-- Sends a squad to a new point; its followers lose their places. -/
def setObjective (m : Mind) (squad : SquadId) (position : Position) (now : Time)
    (duration : Float32) : Except Error UInt32 × Mind :=
  match m.squads.get? squad with
  | none => (.error (.squadNotFound squad), m)
  | some s =>
    let sent : Squad := { s with objective := s.objective.set position now duration }
    (.ok sent.objective.version,
      { m with
        squads := m.squads.modify squad fun _ => sent
        bots := sent.dismissFollowers m.bots })

def setAction (m : Mind) (squad : SquadId) (action : Action) : Bool × Mind :=
  if m.squads.contains squad then
    (true, { m with squads := m.squads.modify squad (·.setAction action) })
  else (false, m)

def recordEvent (m : Mind) (e : Event) : Mind :=
  { m with log := m.log.record e }.bump { eventsRecorded := 1 }

def addMarker (m : Mind) (position : Position) : Mind :=
  { m with markers := m.markers ++ [position] }

/-- Shares a scan with a squad and says how many items fitted. -/
def publishScan (m : Mind) (squad : SquadId) (scan : List Item) : Nat × Mind :=
  if m.squads.contains squad then
    ((Share.publish scan).items.length,
      { m with squads := m.squads.modify squad fun s => { s with share := .publish scan } })
  else (0, m)

/-- Claims an item for a bot. The claim is counted either way. -/
def claim (m : Mind) (bot : BotId) (item : LootId) : Bool × Mind :=
  let (granted, claims) := m.claims.claim bot item
  (granted, { m with claims := claims }.bump
    (if granted then { claimsGranted := 1 } else { claimsDenied := 1 }))

def release (m : Mind) (bot : BotId) (item : LootId) : Bool × Mind :=
  let (released, claims) := m.claims.release bot item
  (released, { m with claims := claims })

end Mind

end Warband
