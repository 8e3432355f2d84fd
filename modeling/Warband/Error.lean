import Warband.Identity

/-!
# What can go wrong

An error is a refusal that the caller may expect: an unknown id, a full squad, a
rejected configuration. A fault is a broken promise inside the library: a handle
that some operation took to be live and was not.
-/
namespace Warband

inductive Error where
  | botNotFound (bot : BotId)
  | squadNotFound (squad : SquadId)
  | hostIdUnknown (id : HostId)
  | squadFull (squad : SquadId) (limit : Nat)
  /-- A setting has a value outside its range. -/
  | badSetting (reason : String)
  /-- The configuration text is malformed or has a value of the wrong type. -/
  | badDocument
  /-- The configuration could not be read as text. -/
  | unreadable
deriving DecidableEq, Repr

namespace Error

def message : Error → String
  | botNotFound bot => "Entity not found: " ++ bot.label
  | squadNotFound squad => "Squad not found: " ++ squad.label
  | hostIdUnknown id => "External id not mapped: " ++ toString id.toNat
  | squadFull squad limit =>
    "Squad " ++ squad.label ++ " is full (limit: " ++ toString limit ++ ")"
  | badSetting reason => "Configuration error: " ++ reason
  | badDocument => "toml"
  | unreadable => ""

end Error

/-- Handles that were indexed without being live. -/
inductive Fault where
  | noLiveBot (bot : BotId)
  | noLiveSquad (squad : SquadId)
deriving DecidableEq, Repr

namespace Fault

def message : Fault → String
  | noLiveBot bot => "no live entity " ++ bot.label
  | noLiveSquad squad => "no live squad " ++ squad.label

/-- The fault of indexing a dead handle of either kind. -/
def noLive : {k : Kind} → Handle k → Fault
  | .bot, h => .noLiveBot h
  | .squad, h => .noLiveSquad h

end Fault

end Warband
