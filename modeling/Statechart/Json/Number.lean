/-!
# JSON numbers

A number without fraction or exponent that fits in 64 bits, signed or unsigned, is an integer; every
other number is a double. Reading goes digit by digit into a 64-bit significand and scales it once
by a power of ten, so a double of many digits may be one unit away from the nearest one. A number
beyond the finite doubles has no value.
-/

namespace Statechart.Json

inductive Number where
  | int (n : Int)
  | double (x : Float)
  deriving Inhabited

namespace Number

/-- An integer never equals a double; doubles compare as numbers, so the two zeros are equal. -/
def eq : Number → Number → Bool
  | .int a, .int b => a == b
  | .double a, .double b => a == b
  | _, _ => false

instance : BEq Number := ⟨eq⟩

/-- The value as a signed 64-bit integer, if it is one. -/
def int64? : Number → Option Int
  | .int n => if -0x8000000000000000 ≤ n ∧ n < 0x8000000000000000 then some n else none
  | .double _ => none

/-- The value as an unsigned integer of the given number of bits, if it is one. -/
def nat? (bits : Nat) : Number → Option Nat
  | .int n => if 0 ≤ n ∧ n.toNat < Nat.pow 2 bits then some n.toNat else none
  | .double _ => none

end Number

/-- The parts of a number as written. Digits are in writing order. -/
structure Literal where
  negative : Bool
  whole : List Nat
  fraction : List Nat
  /-- Sign and digits of the exponent; the sign is true for a negative one. -/
  exponent : Option (Bool × List Nat)

namespace Literal

/-- Appends digits while the significand stays below 2^64 and counts those left over. -/
def absorbWhole (significand : Nat) : List Nat → Nat × Nat
  | [] => (significand, 0)
  | d :: ds =>
    if significand * 10 + d < Nat.pow 2 64 then absorbWhole (significand * 10 + d) ds
    else (significand, ds.length + 1)

/-- Appends digits while the significand stays below 2^64 and counts those appended. -/
def absorbFraction (significand : Nat) : List Nat → Nat × Nat
  | [] => (significand, 0)
  | d :: ds =>
    if significand * 10 + d < Nat.pow 2 64 then
      let (s, used) := absorbFraction (significand * 10 + d) ds
      (s, used + 1)
    else (significand, 0)

def natOfDigits (digits : List Nat) : Nat :=
  digits.foldl (fun n d => n * 10 + d) 0

def pow10 (e : Nat) : Float := Float.ofScientific 1 false e

/-- Divides by a power of ten, at most 10^308 at a time. -/
def scaleDown (x : Float) (e : Nat) : Float :=
  if e ≤ 308 then x / pow10 e
  else if x == 0 then x
  else scaleDown (x / pow10 308) (e - 308)
termination_by e

/-- Multiplies by a power of ten; none when the result is not finite. -/
def scaleUp (x : Float) (e : Nat) : Option Float :=
  if e ≤ 308 then
    let y := x * pow10 e
    if y.isInf then none else some y
  else if x == 0 then some x else none

def scale (significand : Nat) (exponent : Int) : Option Float :=
  let x := significand.toUInt64.toFloat
  if 0 ≤ exponent then scaleUp x exponent.toNat else some (scaleDown x (-exponent).toNat)

/-- An exponent beyond 32 bits leaves a zero a zero and otherwise runs off to zero or out of
range. -/
def magnitude (l : Literal) : Option Float :=
  let (s, dropped) := absorbWhole 0 l.whole
  let (s, used) := absorbFraction s l.fraction
  let start : Int := dropped - used
  match l.exponent with
  | none => scale s start
  | some (down, digits) =>
    let e := natOfDigits digits
    if e < Nat.pow 2 31 then scale s (if down then start - e else start + e)
    else if s != 0 && !down then none
    else some 0

/-- Minus zero and integers beyond 64 bits are doubles. -/
def number? (l : Literal) : Option Number :=
  let asDouble := l.magnitude.map fun x => Number.double (if l.negative then -x else x)
  if l.fraction.isEmpty && l.exponent.isNone then
    let n := natOfDigits l.whole
    if l.negative then
      if 0 < n ∧ n ≤ Nat.pow 2 63 then some (.int (-n)) else asDouble
    else if n < Nat.pow 2 64 then some (.int n) else asDouble
  else asDouble

end Literal
end Statechart.Json
