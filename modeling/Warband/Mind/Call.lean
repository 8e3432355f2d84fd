import Warband.Mind.Tick

/-!
# Calls

Everything a host can ask of a running mind, as data, so that a whole session is
a list of calls. Each call has one kind of answer.
-/
namespace Warband

open Combat Loot Metrics

inductive Call where
  | register (hostId : HostId) (botClass : BotClass)
  | deregister (hostId : HostId)
  | move (bot : BotId) (position : Position) (facing : Heading)
  | sense (bot : BotId) (sensor : Sensor) (value : Bool) (now : Time)
  | temper (bot : BotId) (temperament : Temperament)
  | assignBoss (follower boss : BotId)
  | createSquad (hostId : HostId)
  | disband (squad : SquadId)
  | join (squad : SquadId) (bot : BotId)
  | leave (bot : BotId)
  | setObjective (squad : SquadId) (position : Position) (now : Time) (duration : Float32)
  | setAction (squad : SquadId) (action : Action)
  | recordEvent (event : Event)
  | addMarker (position : Position)
  | publishScan (squad : SquadId) (scan : List Item)
  | claim (bot : BotId) (item : LootId)
  | release (bot : BotId) (item : LootId)
  | startVulture (bot : BotId) (target : Position) (now : Time)
  | setIndoor (bot : BotId) (indoor : Bool)
  /-- The host overwrites reported fields of a bot's record. -/
  | patch (bot : BotId) (patch : Patch)
  | tick (now : Time) (elapsed : Duration)

inductive Answer where
  | done
  | flag (value : Bool)
  | count (value : Nat)
  | version (value : UInt32)
  | bot (id : BotId)
  | squad (id : SquadId)
  | refused (error : Error)
  | report (report : Report)

namespace Answer

def ofResult {α : Type} (f : α → Answer) : Except Error α → Answer
  | .ok a => f a
  | .error e => .refused e

end Answer

namespace Mind

/-- Answers a call and says how the mind is afterwards. -/
def call (m : Mind) : Call → Except Fault (Answer × Mind)
  | .register hostId botClass => do
    let (id, m) ← m.register hostId botClass
    return (.bot id, m)
  | .deregister hostId => do
    let (result, m) ← m.deregister hostId
    return (.ofResult .bot result, m)
  | .move bot position facing =>
    let (known, m) := m.modifyBot bot fun b => { b with position := position, facing := facing }
    .ok (.flag known, m)
  | .sense bot sensor value now =>
    let (known, m) := m.modifyBot bot (·.report sensor value now)
    .ok (.flag known, m)
  | .temper bot temperament =>
    let (known, m) := m.modifyBot bot (·.temper temperament)
    .ok (.flag known, m)
  | .assignBoss follower boss => do
    let (assigned, m) ← m.assignBoss follower boss
    return (.flag assigned, m)
  | .createSquad hostId => do
    let (id, m) ← m.createSquad hostId
    return (.squad id, m)
  | .disband squad =>
    let (gone, m) := m.disband squad
    .ok (.flag gone, m)
  | .join squad bot => do
    let (result, m) ← m.join squad bot
    return (.ofResult (fun _ => .done) result, m)
  | .leave bot =>
    let (left, m) := m.leave bot
    .ok (.flag left, m)
  | .setObjective squad position now duration =>
    let (result, m) := m.setObjective squad position now duration
    .ok (.ofResult .version result, m)
  | .setAction squad action =>
    let (known, m) := m.setAction squad action
    .ok (.flag known, m)
  | .recordEvent event => .ok (.done, m.recordEvent event)
  | .addMarker position => .ok (.done, m.addMarker position)
  | .publishScan squad scan =>
    let (kept, m) := m.publishScan squad scan
    .ok (.count kept, m)
  | .claim bot item =>
    let (granted, m) := m.claim bot item
    .ok (.flag granted, m)
  | .release bot item =>
    let (released, m) := m.release bot item
    .ok (.flag released, m)
  | .startVulture bot target now =>
    let (known, m) := m.modifyBot bot (·.startVulture target now)
    .ok (.flag known, m)
  | .setIndoor bot indoor =>
    let (known, m) := m.modifyBot bot (·.setIndoor indoor)
    .ok (.flag known, m)
  | .patch bot patch =>
    let (known, m) := m.modifyBot bot patch.apply
    .ok (.flag known, m)
  | .tick now elapsed => do
    let (report, m) ← m.tick now elapsed
    return (.report report, m)

/-- Answers a list of calls in turn. -/
def run (m : Mind) : List Call → Except Fault (List Answer × Mind)
  | [] => .ok ([], m)
  | c :: cs => do
    let (answer, m) ← m.call c
    let (answers, m) ← m.run cs
    return (answer :: answers, m)

end Mind

end Warband
