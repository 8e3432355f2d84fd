import Warband.Bot.Census
import Warband.Mind.Basic

/-!
# The tick

A tick runs six phases in a fixed order: old events expire, dead bots are taken
out of everything, the log is turned into clusters and candidates, squads get
their orders, leaders and followers claim loot, and every bot that is awake
advances its own behaviour. No phase adds or removes a bot or a squad.
-/
namespace Warband

open Combat Loot Metrics Warband.Random

/-- What one tick did. -/
structure Report where
  eventsExpired : Nat := 0
  deadSeparated : Nat := 0
  sensorsReset : Nat := 0
  claimsReleased : Nat := 0
  clusters : Nat := 0
  candidates : Nat := 0
  /-- Squads with at least one follower given a place. -/
  squadsUpdated : Nat := 0
  followersPositioned : Nat := 0
  lootClaims : Nat := 0
  vulturesRunning : Nat := 0
  glances : Nat := 0
deriving DecidableEq, Repr

namespace Mind

/-- The most candidates one tick offers. -/
def maxCandidates : Nat := 32

/-! ## Events and maintenance -/

def expireEvents (m : Mind) (now : Time) : Nat × Mind :=
  let maxAge := m.settings.combat.maxEventAge
  let expired := m.log.expiring now maxAge
  (expired, { m with log := m.log.expire now maxAge }.bump { eventsExpired := .ofNat expired })

/-- Releases the claims of inactive bots, in dense order. -/
def releaseInactive (bots : Bots) (claims : Claims) : Nat × Claims :=
  bots.entries.foldl
    (fun (count, claims) e =>
      if e.record.isActive then (count, claims)
      else
        let (released, claims) := claims.releaseAll e.id
        (count + released, claims))
    (0, claims)

/-- A squad whose leader is missing or inactive has nobody to keep a pick for. -/
def forgetLostTarget (bots : Bots) (s : Squad) : Squad :=
  if (s.leader.bind bots.get?).any (·.isActive) then s
  else { s with share := s.share.forgetTarget }

/-- What is left to do once the dead bots have been separated. -/
def tidy (m : Mind) (separated : Nat) (bots : Bots) : Report × Mind :=
  let reset := Census.staleSensors bots
  let bots := Census.resetSensors bots
  let (released, claims) := releaseInactive bots m.claims
  ({ deadSeparated := separated, sensorsReset := reset, claimsReleased := released },
    { m with
      bots := bots
      claims := claims
      squads := m.squads.map fun _ => forgetLostTarget bots })

/-- Takes dead bots out of groups, sensors and claims. -/
def maintain (m : Mind) : Except Fault (Report × Mind) := do
  let (separated, bots) ← Links.separateInactive m.bots
  return m.tidy separated bots

/-! ## Combat -/

/-- Takes over the clusters of the log, with the deaths and what both give rise to. -/
def chart (m : Mind) (now : Time) (clusters : List Cluster) : Mind :=
  let s := m.settings.combat
  let deaths := m.log.deaths now s.maxEventAge s.capacity
  { m with
    clusters := clusters
    deaths := deaths
    candidates := Combat.candidates clusters deaths m.markers s maxCandidates }.bump
    { clustersEmitted := .ofNat clusters.length }

/-- Clusters, deaths and candidates of the log as it is now. -/
def surveyCombat (m : Mind) (now : Time) : Mind :=
  let s := m.settings.combat
  m.chart now
    (m.log.clusters now s.maxEventAge (s.clusterRadius * s.clusterRadius) s.maxClusters)

/-! ## Squads -/

/-- The closer of two clusters by the rank of their squared distances, the first
one on a tie. -/
def closerCluster (point : Position) (best next : Cluster) : Cluster :=
  let near (c : Cluster) : Int := (c.position.horizontalDistanceSq point).rank
  if near next < near best then next else best

/-- The position of the nearest cluster whose distance is defined. -/
def nearestCluster? (clusters : List Cluster) (point : Position) : Option Position :=
  match clusters.filter fun c => !(c.position.horizontalDistanceSq point).isNaN with
  | [] => none
  | c :: rest => some (rest.foldl (closerCluster point) c).position

/-- Some active member is in combat. -/
def engaged (bots : Bots) (s : Squad) : Bool :=
  s.members.any fun id => (bots.get? id).any fun b => b.isActive && b.sensors.inCombat

/-- What the squads of a tick change beside themselves. -/
structure SquadPass where
  bots : Bots
  generator : Generator
  updated : Nat := 0
  positioned : Nat := 0

/-- The pass goes on after the refresh of a squad. -/
def SquadPass.next (pass : SquadPass) (r : Squad.Refreshed) : SquadPass where
  bots := r.bots
  generator := r.generator
  updated := if 0 < r.dispatch.positioned then pass.updated + 1 else pass.updated
  positioned := pass.positioned + r.dispatch.positioned

/-- What a squad has to deal with: the fight that is nearest to its leader. -/
def situation (m : Mind) (bots : Bots) (s : Squad) : Situation :=
  let threat := (s.leader.bind bots.get?).bind fun l => nearestCluster? m.clusters l.position
  ⟨s.action, threat, engaged bots s⟩

/-- The turn of one squad: it votes, and its followers are sent to their places. -/
def squadTurn (m : Mind) (s : Squad) (pass : SquadPass) : Squad × SquadPass :=
  if s.isActive then
    let s := s.vote pass.bots
    let r := s.refresh pass.bots (m.situation pass.bots s) m.settings.squad
      m.settings.communication pass.generator
    (r.squad, pass.next r)
  else (s, pass)

/-- The pass before the first squad. -/
def openPass (m : Mind) : SquadPass := ⟨m.bots, m.generator, 0, 0⟩

/-- Takes over what the turns of the squads have changed. -/
def closePass (m : Mind) (squads : Squads) (pass : SquadPass) : Report × Mind :=
  ({ squadsUpdated := pass.updated, followersPositioned := pass.positioned },
    { m with squads := squads, bots := pass.bots, generator := pass.generator })

/-- The turns of all squads in dense order. -/
def commandSquads (m : Mind) : Report × Mind :=
  let (squads, pass) := m.squads.sweep (fun _ => squadTurn m) m.openPass
  m.closePass squads pass

/-! ## Loot -/

/-- The leader of a squad that may hand out loot: live, active, not fighting. -/
def lootLeader? (bots : Bots) (s : Squad) : Option (BotId × Bot) :=
  match s.leader with
  | some id => ((bots.get? id).filter fun b => b.isActive && !b.sensors.inCombat).map (id, ·)
  | none => none

/-- The check of one follower against its leader's situation. -/
def followerCheck (s : Squad) (boss follower : Bot) : FollowerCheck where
  inCombat := follower.sensors.inCombat
  position := follower.position
  bossPosition := boss.position
  bossLooting := boss.sensors.wantsToLoot
  bossHolding := s.objective.state = .wait
  tacticalPosition := follower.membership.bind (·.assigned?)

/-- The leader's pick. A pick that it does not hold any more is forgotten, and
without one it picks again. -/
def bossTurn (s : Share) (claims : Claims) (boss : BotId) : Nat × Share × Claims :=
  let kept := match s.bossTarget with
    | some target => if claims.owner? target = some boss then s else s.forgetTarget
    | none => s
  match kept.bossTarget with
  | some _ => (0, kept, claims)
  | none =>
    let (pick, share, claims) := kept.claimForBoss claims boss
    (if pick.isSome then 1 else 0, share, claims)

/-- The pick of one follower that is active, holds nothing and may leave. -/
def followerTurn (bots : Bots) (range : Float32) (s : Squad) (boss : Bot)
    (state : Nat × Claims) (id : BotId) : Nat × Claims :=
  match (bots.get? id).filter (·.isActive) with
  | none => state
  | some follower =>
    if (state.2.ofBot id).isEmpty && (followerCheck s boss follower).mayLoot range then
      let (pick, claims) := s.share.claimForFollower state.2 id
      (if pick.isSome then state.1 + 1 else state.1, claims)
    else state

/-- The turn of one squad: its leader picks, then its followers. -/
def lootTurn (bots : Bots) (range : Float32) (s : Squad) (state : Nat × Claims) :
    Squad × Nat × Claims :=
  if s.isActive && !s.share.items.isEmpty then
    match lootLeader? bots s with
    | none => (s, state)
    | some (id, boss) =>
      let (granted, share, claims) := bossTurn s.share state.2 id
      let s := { s with share := share }
      (s, s.followers.foldl (followerTurn bots range s boss) (state.1 + granted, claims))
  else (s, state)

/-- The turns of all squads in dense order. -/
def shareLoot (m : Mind) : Nat × Mind :=
  let (squads, granted, claims) :=
    m.squads.sweep (fun _ => lootTurn m.bots m.settings.communication.range) (0, m.claims)
  (granted,
    { m with squads := squads, claims := claims }.bump { claimsGranted := .ofNat granted })

/-! ## Behaviour -/

/-- What the bots of a tick change beside themselves. -/
structure BehaviorPass where
  generator : Generator
  running : Nat := 0
  glances : Nat := 0

def surroundings (m : Mind) (b : Bot) : Surroundings where
  position := b.position
  facing := b.facing
  inCombat := b.sensors.inCombat
  events := m.log
  maxEventAge := m.settings.combat.maxEventAge

/-- The turn of one bot: its three machines advance. -/
def botTurn (m : Mind) (now : Time) (b : Bot) (pass : BehaviorPass) : Bot × BehaviorPass :=
  if b.isAwake then
    let s := m.settings.behavior
    let vulture := b.behavior.vulture.update b.position now s
    let roomClear := b.behavior.roomClear.update b.movement.currentCorner now s
    let (glance, g) := b.behavior.glance.update (surroundings m b) now s pass.generator
    ({ b with behavior := ⟨vulture, roomClear, glance⟩ },
      { generator := g
        running := if vulture.running then pass.running + 1 else pass.running
        glances := if glance.instruction = .none then pass.glances else pass.glances + 1 })
  else (b, pass)

/-- The turns of all bots in dense order. -/
def behave (m : Mind) (now : Time) : Report × Mind :=
  let (bots, pass) := m.bots.sweep (fun _ => botTurn m now) ⟨m.generator, 0, 0⟩
  ({ vulturesRunning := pass.running, glances := pass.glances },
    { m with bots := bots, generator := pass.generator })

/-! ## All phases -/

/-- The last two phases, and the report on all of them. -/
def conclude (m : Mind) (now : Time) (expired : Nat) (maintenance squads : Report) :
    Report × Mind :=
  let (granted, m) := m.shareLoot
  let (behavior, m) := m.behave now
  ({ maintenance with
      eventsExpired := expired
      clusters := m.clusters.length
      candidates := m.candidates.length
      squadsUpdated := squads.squadsUpdated
      followersPositioned := squads.followersPositioned
      lootClaims := granted
      vulturesRunning := behavior.vulturesRunning
      glances := behavior.glances }, m)

/-- The six phases. -/
def advance (m : Mind) (now : Time) : Except Fault (Report × Mind) := do
  let (expired, m) := m.expireEvents now
  let (maintenance, m) ← m.maintain
  let m := m.surveyCombat now
  let (squads, m) := m.commandSquads
  return m.conclude now expired maintenance squads

/-- A tick at `now` that the host measures to take `elapsed`. -/
def tick (m : Mind) (now : Time) (elapsed : Duration) : Except Fault (Report × Mind) := do
  let (report, m) ← m.advance now
  return (report, { m with timer := m.timer.record elapsed }.bump { ticksRun := 1 })

end Mind

end Warband
