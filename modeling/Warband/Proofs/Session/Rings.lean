import Warband.Proofs.Cells
import Warband.Proofs.Combat.Ring
import Warband.Proofs.Session

/-!
# The rings of a session

A session has two rings, the log and the timer. Both are written without a check
at the cell that is next. That there is such a cell holds from the start and is
kept by every move, since a call writes to a ring in turn, lets the log expire or
leaves both alone.
-/
namespace Warband

open Cells

/-! ## Writing to a ring -/

namespace Combat.Log

/-- Writes an event to the next slot. -/
def recordInPlace (l : Log) (e : Event) : Checked Log := do
  let slots ← write l.slots l.head { e with isActive := true }
  .ok ⟨slots, (l.head + 1) % slots.size, min (l.count + 1) slots.size⟩

theorem recordInPlace_ok {l : Log} (h : l.head < l.slots.size) (e : Event) :
    l.recordInPlace e = .ok (l.record e) := by
  simp only [recordInPlace, write_of_lt h, bind, Except.bind, Array.size_setIfInBounds]
  rfl

/-- A log that was only written to, expired and cleared has a slot to write next. -/
theorem head_session_lt (capacity : Nat) (edits : List Edit) :
    (session capacity edits).head < (session capacity edits).slots.size := by
  have h := keeps_session capacity edits
  rw [h.head, h.size]
  exact Nat.mod_lt _ h.pos

theorem edit_session (capacity : Nat) (edits : List Edit) (x : Edit) :
    (session capacity edits).edit x = session capacity (edits ++ [x]) := by
  rw [session, session, List.foldl_append]
  rfl

end Combat.Log

namespace Metrics.Timer

/-- Writes a duration to the next cell. -/
def recordInPlace (t : Timer) (d : Duration) : Checked Timer := do
  let ring ← write t.ring t.next d
  .ok { t with ring := ring, next := (t.next + 1) % history, count := t.count + 1 }

/-- The ring has all its cells, and one of them is next. -/
structure Wound (t : Timer) : Prop where
  size : t.ring.size = history
  next : t.next < history

theorem wound_ofBudget (budget : Duration) : (ofBudget budget).Wound :=
  ⟨Array.size_replicate, (by decide : 0 < history)⟩

theorem Wound.record {t : Timer} (h : t.Wound) (d : Duration) : (t.record d).Wound :=
  ⟨Array.size_setIfInBounds.trans h.size, Nat.mod_lt _ (by decide)⟩

theorem Wound.recordInPlace_ok {t : Timer} (h : t.Wound) (d : Duration) :
    t.recordInPlace d = .ok (t.record d) := by
  have hlt : t.next < t.ring.size := h.size ▸ h.next
  simp only [recordInPlace, write_of_lt hlt, bind, Except.bind]
  rfl

end Metrics.Timer

/-! ## What calls make of the rings -/

namespace Mind

open Combat Metrics

variable {m m' : Mind}

/-- What a call makes of the two rings. -/
inductive Turned (m : Mind) : Log → Timer → Prop
  | still : Turned m m.log m.timer
  | heard (e : Event) : Turned m (m.log.record e) m.timer
  | ticked (now : Time) (maxAge : Float32) (d : Duration) :
      Turned m (m.log.expire now maxAge) (m.timer.record d)

theorem Idle.turned (h : Idle m m') : Turned m m'.log m'.timer := by
  rw [h.log, h.timer]
  exact .still

theorem turned_of_dropBot {id : BotId} (h : m.dropBot id = .ok m') :
    Turned m m'.log m'.timer := by
  obtain ⟨bots, -, h⟩ := bind_eq_ok.1 h
  cases h
  exact .still

/-- The log expires before the phases of a tick, and none of them writes to a ring. -/
theorem rings_of_advance {now : Time} {r : Report} (h : m.advance now = .ok (r, m')) :
    m'.log = m.log.expire now m.settings.combat.maxEventAge ∧ m'.timer = m.timer := by
  obtain ⟨⟨r₀, m₀⟩, hmaintain, h⟩ := bind_eq_ok.1 h
  obtain ⟨⟨n, bots⟩, -, hrest⟩ := bind_eq_ok.1 hmaintain
  cases hrest
  cases h
  exact ⟨rfl, rfl⟩

theorem turned_of_tick {now : Time} {elapsed : Duration} {r : Report}
    (h : m.tick now elapsed = .ok (r, m')) : Turned m m'.log m'.timer := by
  obtain ⟨⟨r₁, m₁⟩, hadvance, h⟩ := bind_eq_ok.1 h
  obtain ⟨hlog, htimer⟩ := rings_of_advance hadvance
  cases h
  change Turned m m₁.log (m₁.timer.record elapsed)
  rw [hlog, htimer]
  exact .ticked now m.settings.combat.maxEventAge elapsed

theorem turned_of_call {c : Call} {a : Answer} (h : m.call c = .ok (a, m')) :
    Turned m m'.log m'.timer := by
  cases c with
  | register hostId botClass =>
      obtain ⟨⟨id, m₁⟩, hrun, h⟩ := bind_eq_ok.1 h
      obtain ⟨bots, -, rfl⟩ := register_ok hrun
      cases h
      exact .still
  | deregister hostId =>
      obtain ⟨⟨r, m₁⟩, hrun, h⟩ := bind_eq_ok.1 h
      cases h
      cases r with
      | error e => exact deregister_error hrun ▸ .still
      | ok id => exact turned_of_dropBot (deregister_ok hrun).2
  | assignBoss follower boss =>
      obtain ⟨⟨ok, m₁⟩, hrun, h⟩ := bind_eq_ok.1 h
      obtain ⟨⟨ok, bots⟩, -, hrun⟩ := bind_eq_ok.1 hrun
      cases hrun
      cases h
      exact .still
  | createSquad hostId =>
      obtain ⟨⟨id, m₁⟩, hrun, h⟩ := bind_eq_ok.1 h
      obtain ⟨squads, -, rfl⟩ := createSquad_ok hrun
      cases h
      exact .still
  | join squad bot =>
      obtain ⟨⟨r, m₁⟩, hrun, h⟩ := bind_eq_ok.1 h
      obtain ⟨squads, bots, -, rfl⟩ := join_ok hrun
      cases h
      exact .still
  | tick now elapsed =>
      obtain ⟨⟨r, m₁⟩, hrun, h⟩ := bind_eq_ok.1 h
      cases h
      exact turned_of_tick hrun
  | recordEvent e =>
      cases h
      exact .heard e
  | disband | leave | addMarker | claim | release =>
      cases h
      exact .still
  | move | sense | temper | startVulture | setIndoor | patch =>
      cases h
      exact (idle_modifyBot m ..).turned
  | setObjective =>
      cases h
      exact (idle_setObjective ..).turned
  | setAction =>
      cases h
      exact (idle_setAction ..).turned
  | publishScan =>
      cases h
      exact (idle_publishScan ..).turned

/-- The log of a session is what a list of edits makes of an empty log, and its timer is wound. -/
theorem History.rings {β : Type} {π : Bot → β} {settings : Settings} {past : List Mind}
    (h : History π settings (m :: past)) :
    (∃ edits, m.log = Log.session settings.combat.capacity edits) ∧ m.timer.Wound := by
  generalize hs : m :: past = states at h
  induction h generalizing m past with
  | start hm =>
      cases hs
      rw [start_ok hm]
      exact ⟨⟨[], rfl⟩, Timer.wound_ofBudget tickBudget⟩
  | @move m₀ m' past₀ _ hmove ih =>
      cases hs
      obtain ⟨⟨edits, hlog⟩, hwound⟩ := ih rfl
      cases hmove with
      | write | relink => exact ⟨⟨edits, hlog⟩, hwound⟩
      | call hcall =>
          have hturned := turned_of_call hcall
          generalize m'.log = log, m'.timer = timer at hturned ⊢
          cases hturned with
          | still => exact ⟨⟨edits, hlog⟩, hwound⟩
          | heard e =>
              exact ⟨⟨_, hlog ▸ Log.edit_session _ edits (.record e)⟩, hwound⟩
          | ticked now maxAge d =>
              exact ⟨⟨_, hlog ▸ Log.edit_session _ edits (.expire now maxAge)⟩, hwound.record d⟩

end Mind

end Warband
