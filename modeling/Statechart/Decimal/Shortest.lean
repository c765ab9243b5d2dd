/-!
# Shortest decimals of doubles

A positive finite double is `m * 2 ^ q`. Among the decimals that read back as it, the shortest is
the one of the first digit count with a hit on the grid of that count; of two hits the nearer is
taken, and of two equally near the one with an even last digit.
-/

namespace Statechart

/-- The value `digits * 10 ^ exponent`. -/
structure Decimal where
  digits : Nat
  exponent : Int
  deriving DecidableEq, Repr

namespace Decimal

/-- A positive fraction with the distances to the ends of the interval that rounds to it, all over
one denominator. -/
structure Interval where
  num : Nat
  den : Nat
  /-- Half the gap below. -/
  below : Nat
  /-- Half the gap above. -/
  above : Nat
  /-- Whether the ends round to the value too. -/
  closed : Bool

/-- Significand and power of two of the bits of a positive finite double. -/
def significand (bits : Nat) : Nat × Int :=
  let fraction : Nat := bits % Nat.pow 2 52
  let biased : Nat := bits / Nat.pow 2 52 % Nat.pow 2 11
  if biased = 0 then (fraction, -1074) else (fraction + Nat.pow 2 52, Int.ofNat biased - 1075)

/-- The gap below a power of two is half the gap above it, save at the smallest exponent. -/
def Interval.ofBits (bits : Nat) : Interval :=
  let (m, q) := significand bits
  let narrow : Bool := m == Nat.pow 2 52 && q > -1074
  let up := q.toNat
  let down := (-q).toNat
  { num := m * 4 * Nat.pow 2 up
    den := 4 * Nat.pow 2 down
    below := (if narrow then 1 else 2) * Nat.pow 2 up
    above := 2 * Nat.pow 2 up
    closed := m % 2 == 0 }

/-- Numerator and denominator of `num / den / 10 ^ k`. -/
def rescale (num den : Nat) (k : Int) : Nat × Nat :=
  if 0 ≤ k then (num, den * Nat.pow 10 k.toNat) else (num * Nat.pow 10 (-k).toNat, den)

/-- The least `e ≥ start` among the next `fuel` with `num / den < 10 ^ e`. -/
def leastExponent (num den : Nat) : Nat → Int → Int
  | 0, e => e
  | fuel + 1, e =>
    let (n, d) := rescale num den e
    if n < d then e else leastExponent num den fuel (e + 1)

namespace Interval

/-- Whether `c * 10 ^ k` lies in the interval. -/
def contains (i : Interval) (c : Nat) (k : Int) : Bool :=
  let (v, d) := rescale i.num i.den k
  let (lo, _) := rescale i.below i.den k
  let (hi, _) := rescale i.above i.den k
  let p := c * d
  if i.closed then v ≤ p + lo && p ≤ v + hi else v < p + lo && p < v + hi

/-- The hit on the grid of step `10 ^ k`, if there is one. -/
def hit? (i : Interval) (k : Int) : Option Nat :=
  let (v, d) := rescale i.num i.den k
  let lo := v / d
  let hi := lo + 1
  match i.contains lo k && lo != 0, i.contains hi k with
  | true, true =>
    let fromLow := v - lo * d
    let toHigh := hi * d - v
    if fromLow < toHigh then some lo
    else if toHigh < fromLow then some hi
    else some (if lo % 2 = 0 then lo else hi)
  | true, false => some lo
  | false, true => some hi
  | false, false => none

/-- Seventeen digits always suffice, so the search is over grids of one to seventeen digits. -/
def shortestFrom (i : Interval) (top : Int) : Nat → Nat → Decimal
  | 0, n => ⟨i.num / i.den, n⟩
  | fuel + 1, n =>
    match i.hit? (top - n) with
    | some c => ⟨c, top - n⟩
    | none => shortestFrom i top fuel (n + 1)

end Interval

/-- Moves zeros at the end of the digits into the exponent. -/
def trim : Nat → Decimal → Decimal
  | 0, d => d
  | fuel + 1, d =>
    if d.digits % 10 = 0 ∧ d.digits ≠ 0 then trim fuel ⟨d.digits / 10, d.exponent + 1⟩ else d

/-- The shortest decimal of the positive finite double with these bits. -/
def shortest (bits : Nat) : Decimal :=
  let i := Interval.ofBits bits
  let top := leastExponent i.num i.den 700 (-330)
  (i.shortestFrom top 17 1).trim 20

/-- Where a printed number leaves positional notation, and how it looks then. -/
structure Layout where
  /-- Positional when the digits end at most this far left of the point. -/
  wholeDigits : Int
  /-- Positional when at most this many zeros follow the point. -/
  leadingZeros : Int

/-- Digits, a point and at least one place, or one digit before the point and an exponent with its
sign. Where positional notation covers the numbers below ten, an exponent is never zero. -/
def Layout.render (l : Layout) (d : Decimal) : String :=
  let text := (toString d.digits).toList
  let len : Int := text.length
  let point := len + d.exponent
  let zeros (n : Int) : List Char := List.replicate n.toNat '0'
  String.ofList <|
    if 0 ≤ d.exponent ∧ point ≤ l.wholeDigits then text ++ zeros d.exponent ++ ['.', '0']
    else if 0 < point ∧ point ≤ l.wholeDigits then
      text.take point.toNat ++ '.' :: text.drop point.toNat
    else if -l.leadingZeros ≤ point ∧ point ≤ 0 then
      '0' :: '.' :: (zeros (-point) ++ text)
    else
      let mantissa := match text with
        | [] => []
        | [c] => [c]
        | c :: rest => c :: '.' :: rest
      let sign := if 0 < point then ['+'] else []
      mantissa ++ 'e' :: (sign ++ (toString (point - 1)).toList)

/-- Positional for values from 10^-5 up to 10^16. -/
def standard : Layout := ⟨16, 4⟩

/-- The shortest text of a finite double. -/
def render (x : Float) : String :=
  let bits := x.toBits.toNat
  let magnitude := bits % Nat.pow 2 63
  let sign := if bits < Nat.pow 2 63 then "" else "-"
  if magnitude = 0 then sign ++ "0.0" else sign ++ standard.render (shortest magnitude)

end Decimal
end Statechart
