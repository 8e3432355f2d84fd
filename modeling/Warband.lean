import Warband.Assignment.Patrol
import Warband.Assignment.Quest
import Warband.Behavior.Glance
import Warband.Behavior.RoomClear
import Warband.Behavior.Vulture
import Warband.Bot.Basic
import Warband.Bot.Census
import Warband.Bot.Links
import Warband.Bot.Patch
import Warband.Bot.Sensors
import Warband.Bot.Traits
import Warband.Combat.Candidate
import Warband.Combat.Cluster
import Warband.Combat.Event
import Warband.Combat.Log
import Warband.Error
import Warband.Geometry
import Warband.Identity
import Warband.Loot.Claims
import Warband.Loot.Item
import Warband.Loot.Score
import Warband.Loot.Share
import Warband.Metrics.Counters
import Warband.Metrics.Timer
import Warband.Mind.Basic
import Warband.Mind.Call
import Warband.Mind.Tick
import Warband.Named
import Warband.Numeric.Binary
import Warband.Numeric.Choice
import Warband.Numeric.Comparison
import Warband.Numeric.Decimal
import Warband.Random.BlockStream
import Warband.Random.Generator
import Warband.Roster
import Warband.Settings.Basic
import Warband.Settings.Check
import Warband.Settings.Reader
import Warband.Settings.Table
import Warband.Squad.Basic
import Warband.Squad.Character
import Warband.Squad.Enrollment
import Warband.Squad.Formation
import Warband.Squad.Layout
import Warband.Squad.Objective
import Warband.Squad.Reach
import Warband.Squad.Refresh
import Warband.Squad.Role
import Warband.Table
import Warband.Toml.Node
import Warband.Toml.Reader
import Warband.Toml.Scalar
import Warband.Proofs.Roster.Ledger
import Warband.Proofs.Claims
import Warband.Proofs.Orders
import Warband.Proofs.Session
import Warband.Proofs.Session.Links
import Warband.Proofs.Session.Enrollment
import Warband.Proofs.Session.Departure
import Warband.Proofs.Claims.Ledger
import Warband.Proofs.Looting
import Warband.Proofs.Session.Claims
import Warband.Proofs.Session.Looting
import Warband.Proofs.Session.Refusals
import Warband.Proofs.Session.Maintenance
import Warband.Proofs.Session.Places
import Warband.Proofs.Session.Holding
import Warband.Proofs.Combat.Ring
import Warband.Proofs.Combat.Scan
import Warband.Proofs.Session.Bounds
import Warband.Proofs.Session.Survey
import Warband.Proofs.Squad.Dispatch
import Warband.Proofs.Session.Picks
import Warband.Proofs.Session.Earshot
import Warband.Proofs.Roster.HostIds
import Warband.Proofs.Session.Destinations
import Warband.Proofs.Session.Arrival
import Warband.Proofs.Session.Permanence
import Warband.Proofs.Numeric.Order
import Warband.Proofs.Numeric.Rounding
import Warband.Proofs.Combat.Expiry
import Warband.Proofs.Squad.Tiers
import Warband.Proofs.Session.Accounts
import Warband.Proofs.Squad.Objective
import Warband.Proofs.Squad.Noise
import Warband.Proofs.Loot.Targets
import Warband.Proofs.Loot.Picks
import Warband.Proofs.Assignment.Selection
import Warband.Proofs.Loot.Appraisal
import Warband.Proofs.Combat.Nearest
import Warband.Proofs.Enrollment.Lapses
import Warband.Proofs.Behavior.Hunt
import Warband.Proofs.Behavior.Entrance
import Warband.Proofs.Squad.Vote
import Warband.Proofs.Loot.Rigs
import Warband.Proofs.Metrics.Window
import Warband.Proofs.Squad.Placement
