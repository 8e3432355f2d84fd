import Warband.Behavior.Glance
import Warband.Behavior.RoomClear
import Warband.Behavior.Vulture
import Warband.Bot.Sensors
import Warband.Bot.Traits
import Warband.Roster
import Warband.Squad.Role

/-!
# Bots

What the library keeps of a bot. The host reports most of it; the links to a
boss, to followers and to a squad are kept in agreement with the records at
their other ends by the modules that edit them.
-/
namespace Warband

/-- A bot's place in its squad. -/
structure Membership where
  squad : SquadId
  role : Role := .none
  /-- Where the bot was last sent. -/
  position : Position := .origin
  /-- Whether it is still to be there. -/
  hasPosition : Bool := false
  approachingLoot : Bool := false

namespace Membership

/-- Where the bot is to be, if anywhere. -/
def assigned? (m : Membership) : Option Position :=
  if m.hasPosition then some m.position else none

/-- Takes the role and the position away. -/
def dismiss (m : Membership) : Membership :=
  { m with role := .none, hasPosition := false }

def assign (m : Membership) (role : Role) (position : Position) : Membership :=
  { m with role := role, position := position, hasPosition := true }

@[simp] theorem squad_dismiss (m : Membership) : m.dismiss.squad = m.squad := rfl

@[simp] theorem squad_assign (m : Membership) (role : Role) (p : Position) :
    (m.assign role p).squad = m.squad := rfl

end Membership

/-- The three machines that run on every bot. -/
structure Behavior where
  vulture : Vulture := {}
  roomClear : RoomClear := {}
  glance : Glance := {}

structure Bot where
  isActive : Bool := true
  isSleeping : Bool := false
  botClass : BotClass := .unknown
  position : Position := .origin
  facing : Heading := .zero
  sensors : Sensors := .initial
  movement : Movement := {}
  temperament : Temperament := .normal
  /-- Written along with the temperament. -/
  aggression : Float32 := Temperament.normal.aggression
  /-- The part of the raid that is over. -/
  raidTime : Float32 := 0
  behavior : Behavior := {}
  /-- Assignments that failed in a row. -/
  failures : UInt32 := 0
  wandering : Wandering := {}
  membership : Option Membership := none
  boss : Option BotId := none
  followers : List BotId := []

namespace Bot

instance : Inhabited Bot := ⟨{}⟩

def isAwake (b : Bot) : Bool := b.isActive && !b.isSleeping

def hasFollowers (b : Bot) : Bool := !b.followers.isEmpty

/-- A boss or followers. -/
def isLinked (b : Bot) : Bool := b.boss.isSome || b.hasFollowers

/-- Gives a temperament and the aggression that goes with it. -/
def temper (b : Bot) (t : Temperament) : Bot :=
  { b with temperament := t, aggression := t.aggression }

/-- Counts one more failed assignment; the count stops at its greatest value. -/
def recordFailure (b : Bot) : Bot :=
  { b with failures := if b.failures = 0xffffffff then b.failures else b.failures + 1 }

def resetFailures (b : Bot) : Bot := { b with failures := 0 }

def modifyMembership (b : Bot) (f : Membership → Membership) : Bot :=
  { b with membership := b.membership.map f }

def modifyBehavior (b : Bot) (f : Behavior → Behavior) : Bot :=
  { b with behavior := f b.behavior }

/-- The squad of a bot, by the bot's own record. -/
def squad? (b : Bot) : Option SquadId := b.membership.map (·.squad)

/-- Writes a sensor as reported at `now`. -/
def report (b : Bot) (sensor : Sensor) (value : Bool) (now : Time) : Bot :=
  { b with sensors := b.sensors.report sensor value now }

def startVulture (b : Bot) (target : Position) (now : Time) : Bot :=
  b.modifyBehavior fun s => { s with vulture := .start target now }

def setIndoor (b : Bot) (indoor : Bool) : Bot :=
  b.modifyBehavior fun s => { s with roomClear := { s.roomClear with indoor := indoor } }

end Bot

abbrev Bots := Roster .bot Bot

end Warband
