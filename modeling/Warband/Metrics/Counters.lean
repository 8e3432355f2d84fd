/-!
# Counters

Eight running totals of what has happened, in words that wrap around, and the
three forms in which they are exported.
-/
namespace Warband.Metrics

structure Counters where
  entitiesAdded : UInt64 := 0
  entitiesRemoved : UInt64 := 0
  eventsRecorded : UInt64 := 0
  eventsExpired : UInt64 := 0
  clustersEmitted : UInt64 := 0
  claimsGranted : UInt64 := 0
  claimsDenied : UInt64 := 0
  ticksRun : UInt64 := 0
deriving DecidableEq, Repr

namespace Counters

instance : Inhabited Counters := ⟨{}⟩

/-- Adds two sets of counters, each counter by itself. -/
def add (a b : Counters) : Counters where
  entitiesAdded := a.entitiesAdded + b.entitiesAdded
  entitiesRemoved := a.entitiesRemoved + b.entitiesRemoved
  eventsRecorded := a.eventsRecorded + b.eventsRecorded
  eventsExpired := a.eventsExpired + b.eventsExpired
  clustersEmitted := a.clustersEmitted + b.clustersEmitted
  claimsGranted := a.claimsGranted + b.claimsGranted
  claimsDenied := a.claimsDenied + b.claimsDenied
  ticksRun := a.ticksRun + b.ticksRun

/-- A counter's exported name, what it counts, and its value. -/
structure Row where
  name : String
  help : String
  value : UInt64

/-- The counters in the order of export. -/
def rows (c : Counters) : List Row :=
  [⟨"entities_added", "Entities registered", c.entitiesAdded⟩,
   ⟨"entities_removed", "Entities deregistered", c.entitiesRemoved⟩,
   ⟨"events_recorded", "Combat events recorded", c.eventsRecorded⟩,
   ⟨"events_expired", "Combat events expired", c.eventsExpired⟩,
   ⟨"clusters_emitted", "Combat clusters emitted", c.clustersEmitted⟩,
   ⟨"claims_granted", "Loot claims granted", c.claimsGranted⟩,
   ⟨"claims_denied", "Loot claims denied", c.claimsDenied⟩,
   ⟨"ticks_run", "Ticks completed", c.ticksRun⟩]

/-- The counter of a name is increased by an amount; unknown names count
nothing. -/
def ofNamed (amount : String → UInt64) : Counters where
  entitiesAdded := amount "entities_added"
  entitiesRemoved := amount "entities_removed"
  eventsRecorded := amount "events_recorded"
  eventsExpired := amount "events_expired"
  clustersEmitted := amount "clusters_emitted"
  claimsGranted := amount "claims_granted"
  claimsDenied := amount "claims_denied"
  ticksRun := amount "ticks_run"

/-- Three lines of Prometheus exposition text. -/
def Row.exposition (r : Row) : String :=
  let name := "hivemind_" ++ r.name ++ "_total"
  "# HELP " ++ name ++ " " ++ r.help ++ "\n# TYPE " ++ name ++ " counter\n"
    ++ name ++ " " ++ toString r.value.toNat ++ "\n"

def prometheus (c : Counters) : String :=
  String.join (c.rows.map Row.exposition)

/-- A compact JSON object. -/
def json (c : Counters) : String :=
  let fields := c.rows.map fun r => "\"" ++ r.name ++ "\":" ++ toString r.value.toNat
  "\x7b" ++ String.intercalate "," fields ++ "\x7d"

/-- One line for a person to read. -/
def inspect (c : Counters) : String :=
  let fields := c.rows.map fun r => r.name ++ ": " ++ toString r.value.toNat
  "CounterSnapshot \x7b " ++ String.intercalate ", " fields ++ " \x7d"

end Counters

end Warband.Metrics
