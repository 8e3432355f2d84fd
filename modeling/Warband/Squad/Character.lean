import Warband.Bot.Traits

/-!
# The character of a squad

A squad takes its character from the most frequent class among its members.
Unclassified members abstain and a tie goes to the higher class. The character
sets how well the squad coordinates.
-/
namespace Warband

inductive Character where
  | none
  | elite
  | tacticalProfessional
  | gangMember
  | opportunist
deriving DecidableEq, Repr

instance : Named Character where
  all := [.none, .elite, .tacticalProfessional, .gangMember, .opportunist]
  name
    | .none => "None"
    | .elite => "Elite"
    | .tacticalProfessional => "TacticalProfessional"
    | .gangMember => "GangMember"
    | .opportunist => "Opportunist"

structure Profile where
  /-- From one to five. -/
  coordination : UInt8
  aggression : Float32
  sharingChance : Float32

namespace Character

def ofClass : BotClass → Character
  | .unknown => none
  | .pmc => tacticalProfessional
  | .scav => gangMember
  | .playerScav => opportunist
  | .boss => elite

def profile? : Character → Option Profile
  | none => .none
  | elite => some ⟨5, 0.8, 0.9⟩
  | tacticalProfessional => some ⟨4, 0.6, 0.7⟩
  | gangMember => some ⟨2, 0.5, 0.3⟩
  | opportunist => some ⟨3, 0.4, 0.5⟩

/-- A counter of 32 bits for each class. -/
abbrev Tally := Vector UInt32 5

/-- What the counter of a class shows. -/
def Tally.shown (t : Tally) (c : BotClass) : UInt32 := t[c.ordinal]

/-- Counts the vote of a member; an unclassified one votes for nobody. -/
def Tally.count (t : Tally) (m : BotClass) : Tally :=
  if m = .unknown then t else t.set m.ordinal (t.shown m + 1)

def tally (members : List BotClass) : Tally := members.foldl Tally.count (.replicate 5 0)

/-- The leading class with its votes after one more class; a later class wins a
tie. -/
def Tally.lead (t : Tally) (winner : Option (BotClass × UInt32)) (c : BotClass) :
    Option (BotClass × UInt32) :=
  if 0 < t.shown c ∧ winner.all fun w => w.2 ≤ t.shown c then some (c, t.shown c) else winner

/-- The class with most votes, if anyone votes. -/
def winner? (members : List BotClass) : Option BotClass :=
  ((Named.all : List BotClass).foldl (tally members).lead .none).map (·.1)

def vote (members : List BotClass) : Character :=
  match winner? members with
  | some c => ofClass c
  | .none => none

end Character

end Warband
