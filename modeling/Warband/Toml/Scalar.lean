import Warband.Toml.Node

/-!
# Scalars

A number, a truth value or a date is written as one unbroken word, except that a
blank may stand between a date and a time. What a word means is decided by the
word as a whole.
-/
namespace Warband.Toml.Scalar

-- powers are those of the core library, whatever else is in scope
attribute [local instance (high)] instPowNat

def digit? (radix : Nat) (c : Char) : Option Nat :=
  let n :=
    if '0' ≤ c ∧ c ≤ '9' then c.toNat - '0'.toNat
    else if 'a' ≤ c ∧ c ≤ 'f' then c.toNat - 'a'.toNat + 10
    else if 'A' ≤ c ∧ c ≤ 'F' then c.toNat - 'A'.toNat + 10
    else radix
  if n < radix then some n else none

/-- The value and the number of digits of a nonempty run of digits in which
single underscores may stand between two digits. -/
def digits? (radix : Nat) : List Char → Option (Nat × Nat)
  | [] => none
  | c :: cs => do
    let first ← digit? radix c
    go (first, 1) cs
where
  go : Nat × Nat → List Char → Option (Nat × Nat)
    | found, [] => some found
    | found, '_' :: c :: cs => do
      let d ← digit? radix c
      go (found.1 * radix + d, found.2 + 1) cs
    | found, c :: cs => do
      let d ← digit? radix c
      go (found.1 * radix + d, found.2 + 1) cs

/-- A sign, if there is one, and what follows it. -/
def signed : List Char → Bool × List Char
  | '-' :: cs => (true, cs)
  | '+' :: cs => (false, cs)
  | cs => (false, cs)

/-- A decimal number without a leading zero. -/
def whole? : List Char → Option Nat
  | ['0'] => some 0
  | '0' :: _ => none
  | cs => (digits? 10 cs).map (·.1)

/-- An integer that fits 64 bits. -/
def fit? (n : Int) : Option Node :=
  if Int64.minValue.toInt ≤ n ∧ n ≤ Int64.maxValue.toInt then some (.integer n) else none

def integer? : List Char → Option Node
  | '0' :: 'x' :: cs => (digits? 16 cs).bind fun d => fit? d.1
  | '0' :: 'o' :: cs => (digits? 8 cs).bind fun d => fit? d.1
  | '0' :: 'b' :: cs => (digits? 2 cs).bind fun d => fit? d.1
  | cs => do
    let (negative, cs) := signed cs
    let n ← whole? cs
    fit? (if negative then -n else n)

/-- The double-precision number nearest to `digits * 10 ^ scale`. Numbers far out
of range need no exact powers: ten bits are worth more than three decimal digits,
and three bits less than one, which bounds the magnitude from both sides. -/
def ofDecimal (digits : Nat) (scale : Int) : Float :=
  let bits := digits.log2
  if digits = 0 then 0
  else if 400 < scale + bits / 10 * 3 then Float.ofBits 0x7ff0000000000000
  else if scale + (bits / 3 + 1) < -400 then 0
  else if 0 ≤ scale then Float.ofScientific (digits * 10 ^ scale.toNat) false 0
  else Float.ofScientific digits true (-scale).toNat

def negateIf (negative : Bool) (x : Float) : Float := if negative then -x else x

/-- The exponent after its mark. -/
def exponent? (cs : List Char) : Option Int := do
  let (negative, cs) := signed cs
  let (n, _) ← digits? 10 cs
  return if negative then -(n : Int) else n

/-- The digits in front of a point or an exponent mark. -/
def beforeMark (cs : List Char) : List Char :=
  cs.takeWhile fun c => c != '.' && c != 'e' && c != 'E'

/-- The fraction behind a point and the exponent behind its mark: the digits
after the point, their number, and the exponent. One of the two is present. -/
def tail? : List Char → Option (Nat × Nat × Int)
  | '.' :: cs => do
    let digits := cs.takeWhile fun c => c != 'e' && c != 'E'
    let (value, places) ← digits? 10 digits
    match cs.drop digits.length with
    | [] => return (value, places, 0)
    | _ :: rest => return (value, places, ← exponent? rest)
  | 'e' :: cs | 'E' :: cs => do return (0, 0, ← exponent? cs)
  | _ => none

/-- A decimal fraction. One too large for any finite number is refused. -/
def fraction? (cs : List Char) : Option Node := do
  let (negative, cs) := signed cs
  let front := beforeMark cs
  let n ← whole? front
  let (value, places, exponent) ← tail? (cs.drop front.length)
  let x := negateIf negative (ofDecimal (n * 10 ^ places + value) (exponent - places))
  if x == Float.ofBits 0x7ff0000000000000 then none else some (.float x)

/-- Infinity and the undefined number. -/
def special? (cs : List Char) : Option Node :=
  let (negative, name) := signed cs
  if name = ['i', 'n', 'f'] then
    some (.float (negateIf negative (Float.ofBits 0x7ff0000000000000)))
  else if name = ['n', 'a', 'n'] then some (.float (Float.ofBits 0x7ff8000000000000))
  else none

/-- Two decimal digits. -/
def pair? (a b : Char) : Option Nat := do
  return (← digit? 10 a) * 10 + (← digit? 10 b)

def pairUpTo (limit : Nat) (a b : Char) : Bool := (pair? a b).any (· ≤ limit)

def daysIn (year month : Nat) : Nat :=
  let leap := year % 4 = 0 ∧ (year % 100 ≠ 0 ∨ year % 400 = 0)
  if month = 2 then if leap then 29 else 28
  else if month = 4 ∨ month = 6 ∨ month = 9 ∨ month = 11 then 30
  else 31

/-- A day that exists. -/
def isDate : List Char → Bool
  | [a, b, c, d, '-', e, f, '-', g, h] =>
    match pair? a b, pair? c d, pair? e f, pair? g h with
    | some century, some year, some month, some day =>
      1 ≤ month && month ≤ 12 && 1 ≤ day && day ≤ daysIn (century * 100 + year) month
    | _, _, _, _ => false
  | _ => false

/-- What is left of a time of day; a sixty-first second may exist. -/
def afterTime? : List Char → Option (List Char)
  | a :: b :: ':' :: c :: d :: ':' :: e :: f :: rest =>
    if pairUpTo 23 a b && pairUpTo 59 c d && pairUpTo 60 e f then
      match rest with
      | '.' :: c :: cs =>
        if (digit? 10 c).isSome then some (cs.dropWhile fun c => (digit? 10 c).isSome) else none
      | '.' :: [] => none
      | _ => some rest
    else none
  | _ => none

def isOffset : List Char → Bool
  | [] | ['Z'] | ['z'] => true
  | [sign, a, b, ':', c, d] => (sign == '+' || sign == '-') && pairUpTo 23 a b && pairUpTo 59 c d
  | _ => false

def isLocalTime (cs : List Char) : Bool := afterTime? cs == some []

/-- A time with or without its distance from universal time. -/
def isTime (cs : List Char) : Bool := (afterTime? cs).any isOffset

/-- A date, a time, or a date and a time joined by a letter or a blank. -/
def moment? (cs : List Char) : Option Node :=
  let whole := isDate cs || isLocalTime cs
  let joined := match cs.drop 10 with
    | mark :: time =>
      isDate (cs.take 10) && (mark == 'T' || mark == 't' || mark == ' ') && isTime time
    | [] => false
  if whole || joined then some .moment else none

/-- The meaning of a word. -/
def ofWord? (word : List Char) : Option Node :=
  if word = ['t', 'r', 'u', 'e'] then some (.boolean true)
  else if word = ['f', 'a', 'l', 's', 'e'] then some (.boolean false)
  else (moment? word).or ((fraction? word).or ((special? word).or (integer? word)))

/-- A character of a word. -/
def wordChar (c : Char) : Bool :=
  c.isAlphanum || c == '+' || c == '-' || c == '.' || c == '_' || c == ':'

/-- The word at the front of a text. A date takes a word behind a single blank
along. -/
def word (s : List Char) : List Char :=
  let first := s.takeWhile wordChar
  match s.drop first.length with
  | ' ' :: rest =>
    let second := rest.takeWhile wordChar
    if isDate first && !second.isEmpty then first ++ ' ' :: second else first
  | _ => first

end Warband.Toml.Scalar
