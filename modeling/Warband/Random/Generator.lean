import Warband.Random.BlockStream

/-!
# Random draws

A generator is an endless stream of words and the number of words already
drawn. Each draw takes the next word, so the count of draws says exactly how
much randomness a computation has used.
-/
namespace Warband.Random

structure Generator where
  stream : Nat → UInt32
  drawn : Nat

namespace Generator

/-- The stream of a seed, from its first word. -/
def ofSeed (seed : UInt64) : Generator := ⟨BlockStream.word seed, 0⟩

/-- Listed words, over and over; without any, zeros. -/
def ofWords (words : Array UInt32) : Generator :=
  ⟨fun n => words.getD (n % words.size) 0, 0⟩

def next (g : Generator) : UInt32 × Generator :=
  (g.stream g.drawn, { g with drawn := g.drawn + 1 })

/-- The upper 24 bits of a word as a fraction in `[0, 1)`. -/
def unitOfWord (word : UInt32) : Float32 :=
  Float32.ofNat (word >>> 8).toNat * Float32.ofBits 0x33800000

/-- A number in `[0, 1)`. -/
def unit (g : Generator) : Float32 × Generator :=
  (unitOfWord g.next.1, g.next.2)

/-- A coin, the top bit of a word. -/
def coin (g : Generator) : Bool × Generator :=
  (g.next.1 >>> 31 == 1, g.next.2)

@[simp] theorem next_drawn (g : Generator) : g.next.2.drawn = g.drawn + 1 := rfl

@[simp] theorem next_stream (g : Generator) : g.next.2.stream = g.stream := rfl

@[simp] theorem unit_drawn (g : Generator) : g.unit.2.drawn = g.drawn + 1 := rfl

@[simp] theorem coin_drawn (g : Generator) : g.coin.2.drawn = g.drawn + 1 := rfl

end Generator

end Warband.Random
