import Mathlib.Data.List.Basic
import Warband.Proofs.Combat.Ring
import Warband.Proofs.Numeric.Rounding

/-!
# Expiry is never observed

Questions about the live events of a log pass over what is too old, and expiry
only deactivates what is too old already. Ages grow as long as time does not run
backwards, whatever the time of an event may be: an event in the future, at an
undefined time or at the end of time is no exception. So an event that has been
deactivated would not have been part of a later answer anyway, and expiries may
be added to a run or left out of it without a change to its answers.

Two logs are therefore compared by what their slots show at the times of the
questions that are still to come. The ring itself does not depend on which
slots are active, so both logs write the next event to the same slot.
-/
namespace Warband.Combat.Log

open Warband.Numeric

/-! ## Runs with questions -/

/-- A question about the live events of a log. -/
inductive Question where
  | live
  | nearest (point : Position) (range : Float32)
  | deaths (limit : Nat)
  | clusters (radiusSq : Float32) (limit : Nat)

inductive Reply where
  | events (found : List Event)
  | event (found : Option Event)
  | clusters (found : List Cluster)

def answer (l : Log) (now : Time) (maxAge : Float32) : Question → Reply
  | .live => .events (l.live now maxAge)
  | .nearest point range => .event (l.nearest? point range now maxAge)
  | .deaths limit => .events (l.deaths now maxAge limit)
  | .clusters radiusSq limit => .clusters (l.clusters now maxAge radiusSq limit)

/-- One turn of a run. -/
inductive Turn where
  | record (e : Event)
  | expire (now : Time)
  | ask (now : Time) (question : Question)

/-- The answers of a run, the first one first. -/
def answers (maxAge : Float32) : Log → List Turn → List Reply
  | _, [] => []
  | l, .record e :: turns => answers maxAge (l.record e) turns
  | l, .expire now :: turns => answers maxAge (l.expire now maxAge) turns
  | l, .ask now question :: turns => l.answer now maxAge question :: answers maxAge l turns

namespace Turn

/-- When the turn takes place; events may be recorded at any time. -/
def time? : Turn → Option Time
  | .record _ => none
  | .expire now => some now
  | .ask now _ => some now

def isExpiry : Turn → Bool
  | .expire _ => true
  | _ => false

end Turn

/-- The times of the expiries and the questions of a run. -/
def times (turns : List Turn) : List Time := turns.filterMap Turn.time?

/-- Time does not run backwards, and it is defined wherever it can be compared. -/
def Forward (turns : List Turn) : Prop := (times turns).IsChain (· ≤ ·)

instance (turns : List Turn) : Decidable (Forward turns) :=
  inferInstanceAs (Decidable ((times turns).IsChain (· ≤ ·)))

/-- A run without its expiries. -/
def lasting (turns : List Turn) : List Turn := turns.filter (!·.isExpiry)

/-! ## What a slot shows -/

/-- The event in a slot if it is live. -/
def shown (now : Time) (maxAge : Float32) (e : Event) : Option Event :=
  if e.live now maxAge then some e else none

/-- The live events are what the slots show. -/
theorem live_eq_shown (l : Log) (now : Time) (maxAge : Float32) :
    l.live now maxAge = (l.slots.map (shown now maxAge)).toList.filterMap id := by
  rw [live, Array.toList_map, List.filterMap_map, ← List.filterMap_eq_filter]
  refine List.filterMap_congr fun e _ => ?_
  cases h : e.live now maxAge <;> simp [shown, Option.guard, h]

/-- Clustering starts from the live events. -/
theorem clusters_eq_live (l : Log) (now : Time) (maxAge radiusSq : Float32) (limit : Nat) :
    l.clusters now maxAge radiusSq limit =
      clustersOf radiusSq limit ((l.live now maxAge).filter fun e => e.kind != .death) := by
  rw [clusters, live, List.filter_filter]
  refine congrArg (clustersOf radiusSq limit) (List.filter_congr fun e _ => ?_)
  rw [Event.clusters, Bool.and_comm]

/-- What an expiry deactivates would not be shown at any later time. -/
theorem shown_retire {before now : Time} (maxAge : Float32) (h : before ≤ now) (e : Event) :
    shown now maxAge (retire before maxAge e) = shown now maxAge e := by
  unfold retire
  split
  · rename_i hretired
    obtain ⟨-, hexpired⟩ := Bool.and_eq_true_iff.1 hretired
    have hlater : e.expired now maxAge = true :=
      decide_eq_true (Single.lt_sub_of_le (of_decide_eq_true hexpired) h)
    simp [shown, Event.live, hlater]
  · rfl

/-- Two logs write to the same slot next and show the same at some times. -/
structure ShowAlike (maxAge : Float32) (times : List Time) (a b : Log) : Prop where
  size : a.slots.size = b.slots.size
  head : a.head = b.head
  shown : ∀ now ∈ times, a.slots.map (shown now maxAge) = b.slots.map (shown now maxAge)

namespace ShowAlike

variable {maxAge : Float32} {moments : List Time} {a b : Log}

theorem refl (l : Log) : ShowAlike maxAge moments l l := ⟨rfl, rfl, fun _ _ => rfl⟩

theorem record (h : ShowAlike maxAge moments a b) (e : Event) :
    ShowAlike maxAge moments (a.record e) (b.record e) where
  size := by
    have ha := capacity_record a e
    have hb := capacity_record b e
    exact ha.trans (h.size.trans hb.symm)
  head := by
    change (a.head + 1) % a.slots.size = (b.head + 1) % b.slots.size
    rw [h.head, h.size]
  shown now hnow := by
    change (a.slots.setIfInBounds a.head _).map _ = (b.slots.setIfInBounds b.head _).map _
    rw [Array.map_setIfInBounds, Array.map_setIfInBounds, h.shown now hnow, h.head]

/-- An expiry in one of the logs is not seen at later times. -/
theorem expire {before : Time} (h : ShowAlike maxAge moments a b)
    (hlater : ∀ now ∈ moments, before ≤ now) :
    ShowAlike maxAge moments (a.expire before maxAge) b where
  size := (capacity_expire a before maxAge).trans h.size
  head := h.head
  shown now hnow := by
    rw [slots_expire, Array.map_map, ← h.shown now hnow]
    exact congrArg (a.slots.map ·) (funext (shown_retire maxAge (hlater now hnow)))

theorem tail {now : Time} (h : ShowAlike maxAge (now :: moments) a b) :
    ShowAlike maxAge moments a b :=
  ⟨h.size, h.head, fun later hlater => h.shown later (List.mem_cons_of_mem now hlater)⟩

theorem live {now : Time} (h : ShowAlike maxAge moments a b) (hnow : now ∈ moments) :
    a.live now maxAge = b.live now maxAge := by
  rw [live_eq_shown, live_eq_shown, h.shown now hnow]

/-- Logs that show the same give the same answers. -/
theorem answer {now : Time} (h : ShowAlike maxAge moments a b) (hnow : now ∈ moments)
    (question : Question) : a.answer now maxAge question = b.answer now maxAge question := by
  have hlive := h.live hnow
  cases question with
  | live => exact congrArg Reply.events hlive
  | nearest point range => rw [Log.answer, Log.answer, nearest?, nearest?, hlive]
  | deaths limit => rw [Log.answer, Log.answer, deaths, deaths, hlive]
  | clusters radiusSq limit =>
      rw [Log.answer, Log.answer, clusters_eq_live, clusters_eq_live, hlive]

end ShowAlike

/-! ## Runs without expiries -/

/-- A run answers like the same run without its expiries. -/
theorem answers_lasting (maxAge : Float32) {turns : List Turn}
    (hordered : (times turns).Pairwise (· ≤ ·)) {a b : Log}
    (h : ShowAlike maxAge (times turns) a b) :
    answers maxAge a turns = answers maxAge b (lasting turns) := by
  induction turns generalizing a b with
  | nil => rfl
  | cons turn turns ih =>
      cases turn with
      | record e => exact ih hordered (h.record e)
      | expire now =>
          have htimes : times (.expire now :: turns) = now :: times turns := rfl
          rw [htimes] at h hordered
          obtain ⟨hfirst, hrest⟩ := List.pairwise_cons.1 hordered
          exact ih hrest (h.tail.expire hfirst)
      | ask now question =>
          have htimes : times (.ask now question :: turns) = now :: times turns := rfl
          rw [htimes] at h hordered
          have hanswer := h.answer List.mem_cons_self question
          exact congrArg₂ List.cons hanswer (ih (List.pairwise_cons.1 hordered).2 h.tail)

theorem Forward.pairwise {turns : List Turn} (h : Forward turns) :
    (times turns).Pairwise (· ≤ ·) := by
  have htrans : Trans (fun x y : Time => x ≤ y) (fun x y => x ≤ y) (fun x y => x ≤ y) :=
    ⟨Single.le_trans⟩
  exact List.IsChain.pairwise h

/-- Runs that differ only in their expiries give the same answers. -/
theorem expiries_are_not_observed (l : Log) (maxAge : Float32) {turns others : List Turn}
    (hturns : Forward turns) (hothers : Forward others) (h : lasting turns = lasting others) :
    answers maxAge l turns = answers maxAge l others := by
  rw [answers_lasting maxAge hturns.pairwise (.refl l), h,
    answers_lasting maxAge hothers.pairwise (.refl l)]

/-- A shot is still live at the first question and deactivated before the second one, or it is just
too old by then. -/
theorem expiry_of_shot_not_observed :
    let shot : Event := { position := .origin, time := 0, kind := .gunshot }
    let death : Event := { position := ⟨3, 0, 4⟩, time := 40, kind := .death }
    let start := ofCapacity 2
    let questions : List Turn := [.ask 20 (.nearest .origin 50), .ask 20 (.deaths 3), .ask 20 .live]
    let kept := [.record shot, .ask 8 .live, .record death] ++ questions
    let tidy := [.expire 5, .record shot, .ask 8 .live, .expire 15, .record death, .expire 16] ++
      questions
    (start.record shot).expiring 15 10 = 1 ∧ Forward tidy ∧ Forward kept ∧
      lasting tidy = lasting kept ∧ answers 10 start tidy = answers 10 start kept := by
  intro shot death start questions kept tidy
  have hexpiring : (start.record shot).expiring 15 10 = 1 := by decide +kernel
  have htidy : Forward tidy := by decide +kernel
  have hkept : Forward kept := by decide +kernel
  have hlasting : lasting tidy = lasting kept := rfl
  exact ⟨hexpiring, htidy, hkept, hlasting,
    expiries_are_not_observed start 10 htidy hkept hlasting⟩

end Warband.Combat.Log
