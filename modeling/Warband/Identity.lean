/-!
# Handles and host ids

Bots and squads are known inside by small recycled handles and outside by ids
that the host chooses. A handle remembers which kind of record it names, so a
squad can never be looked up among the bots.
-/
namespace Warband

inductive Kind where
  | bot
  | squad
deriving DecidableEq, Repr

/-- The number of a slot in the roster of its kind. -/
structure Handle (k : Kind) where
  index : Nat
deriving DecidableEq, Repr

instance {k : Kind} : LawfulBEq (Handle k) := inferInstance

abbrev BotId := Handle .bot

abbrev SquadId := Handle .squad

/-- The id under which the host knows a bot or a squad. -/
abbrev HostId := UInt64

/-- The id under which the host knows an item of loot. -/
abbrev LootId := UInt64

/-- Seconds since the session began. -/
abbrev Time := Float32

def Kind.label : Kind → String
  | .bot => "bot"
  | .squad => "squad"

/-- A handle in messages, such as `bot#3`. -/
def Handle.label {k : Kind} (h : Handle k) : String :=
  k.label ++ "#" ++ toString h.index

theorem Handle.index_injective {k : Kind} {a b : Handle k} (h : a.index = b.index) : a = b := by
  cases a; cases b; simp_all

end Warband
