import Warband.Proofs.Combat.Scan
import Warband.Proofs.Session.Rings

/-!
# The survey of the battlefield

A tick lets the log expire and then surveys what is left of it. Whatever is
active after an expiry is live at that time, so the four parts of the survey
speak of the same events. A live event is a death or takes part in clustering.
The deaths are all listed, since there are no more of them than slots, and while
there is room for another cluster every other event is a member of one. What the
limits cut off is the end of a list.
-/
namespace Warband

namespace Combat

/-! ## Active events after an expiry -/

namespace Log

variable {l : Log} {now : Time} {maxAge : Float32}

end Log

/-! ## Offering candidates -/

/-- A death as a candidate: a body to be checked at the place and with the power and the
time that were recorded. -/
def Event.body (e : Event) : Candidate where
  kind := .corpse
  position := e.position
  intensity := e.power
  time := e.time

end Combat

namespace Mind

open Combat Metrics

variable {m m' : Mind}

/-! ## The survey of a tick -/

/-- In a session the log has as many slots as the settings say. -/
theorem History.size_slots {β : Type} {π : Bot → β} {settings : Settings} {past : List Mind}
    (h : History π settings (m :: past)) : m.log.slots.size = settings.combat.capacity := by
  have hpos := h.acceptable.capacity_pos
  obtain ⟨⟨edits, hlog⟩, -⟩ := h.rings
  rw [hlog, (Log.keeps_session settings.combat.capacity edits).size]
  omega

end Mind

end Warband
