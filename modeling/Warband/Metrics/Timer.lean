import Warband.Numeric.Decimal

/-!
# Tick durations

The timer keeps the durations of the last ticks, up to a fixed number, and
describes them by percentiles. Durations are sorted by rank, a total order on
bit patterns, so undefined durations have their place like any other.
-/
namespace Warband.Metrics

open Numeric

/-- A duration in milliseconds, a double-precision bit pattern. -/
structure Duration where
  bits : UInt64
deriving DecidableEq, Repr

namespace Duration

def zero : Duration := ⟨0⟩

def ofFloat (x : Float) : Duration := ⟨x.toBits⟩

def toFloat (d : Duration) : Float := Float.ofBits d.bits

def isUndefined (d : Duration) : Bool := d.toFloat.isNaN

/-- The duration some equal steps after a start. An undefined operand is passed
on; a result that is undefined of its own is negative. -/
def after (start step : Duration) (steps : Nat) : Duration :=
  let x := start.toFloat + step.toFloat * Float.ofNat steps
  if x.isNaN then ([step, start].find? isUndefined).getD ⟨0xfff8000000000000⟩ else ofFloat x

def rank (d : Duration) : Int := Format.double.rank d.bits.toNat

def datum (d : Duration) : Datum := Format.double.decode d.bits.toNat

end Duration

structure Percentiles where
  p50 : Duration := .zero
  p95 : Duration := .zero
  p99 : Duration := .zero
  max : Duration := .zero
  /-- The share of durations over the budget. -/
  overBudget : Float := 0

structure Timer where
  budget : Duration
  /-- The last durations; the oldest one is overwritten next. -/
  ring : Array Duration
  next : Nat
  /-- Durations ever recorded. -/
  count : Nat

namespace Timer

/-- How many durations are kept. -/
def history : Nat := 256

def ofBudget (budget : Duration) : Timer :=
  ⟨budget, Array.replicate history .zero, 0, 0⟩

def record (t : Timer) (d : Duration) : Timer :=
  { t with
    ring := t.ring.setIfInBounds t.next d
    next := (t.next + 1) % history
    count := t.count + 1 }

/-- The durations that are kept, in the order of their places. -/
def kept (t : Timer) : List Duration :=
  t.ring.toList.take (min t.count history)

/-- The duration below which a fraction of a sorted list lies. -/
def quantile (sorted : List Duration) (fraction : Float) : Duration :=
  let place := (Float.ofNat sorted.length * fraction).toUInt64.toNat
  sorted.getD (min place (sorted.length - 1)) .zero

def overBudget (t : Timer) (durations : List Duration) : Float :=
  Float.ofNat (durations.countP fun d => t.budget.toFloat < d.toFloat) /
    Float.ofNat durations.length

def percentiles (t : Timer) : Percentiles :=
  let sorted := t.kept.mergeSort fun a b => a.rank ≤ b.rank
  if sorted.isEmpty then {}
  else
    { p50 := quantile sorted 0.5
      p95 := quantile sorted 0.95
      p99 := quantile sorted 0.99
      max := sorted.getLastD .zero
      overBudget := t.overBudget sorted }

/-- One line for a person to read. -/
def inspect (t : Timer) : String :=
  "TickTimer \x7b budget_ms: " ++ t.budget.datum.inspectText .double ++ ", ticks: "
    ++ toString t.count ++ " \x7d"

@[simp] theorem count_record (t : Timer) (d : Duration) : (t.record d).count = t.count + 1 := rfl

end Timer

/-- The percentiles beside a budget, on one line. -/
def Percentiles.summary (p : Percentiles) (budget : Duration) : String :=
  let ms (places : Nat) (d : Duration) : String := d.datum.fixed places ++ "ms"
  "P50=" ++ ms 3 p.p50 ++ "  P95=" ++ ms 3 p.p95 ++ "  P99=" ++ ms 3 p.p99 ++ "  Max="
    ++ ms 3 p.max ++ "  Budget=" ++ ms 1 budget ++ "  Over-budget="
    ++ (Duration.ofFloat (p.overBudget * 100)).datum.fixed 1 ++ "%"

end Warband.Metrics
