import Statechart.Pattern.Anchor

/-!
# Regular expressions

`Regex.reach` takes a set of positions to those at which a match that begins in the set can end, so
one walk over the expression asks about all beginnings at once. Preference among matches is not
modelled: only whether there is one is asked.
-/

namespace Statechart

inductive Regex where
  | empty
  | chars (s : CharSet)
  | anchor (a : Anchor)
  | seq (a b : Regex)
  | alt (a b : Regex)
  /-- At least `min` times, and at most `max` times where there is a bound. -/
  | repeat (a : Regex) (min : Nat) (max : Option Nat)
  /-- A part whose extent is of interest. -/
  | group (a : Regex)
  deriving Inhabited

namespace Regex

/-! ## Positions -/

/-- Two ascending lists as one, without repeats. -/
def mergePositions (a b : List Nat) : List Nat :=
  (a.merge b).foldr (fun i rest => if rest.head? = some i then rest else i :: rest) []

def mark (seen : Array Bool) (positions : List Nat) : Array Bool :=
  positions.foldl (fun seen i => seen.setIfInBounds i true) seen

def marked (seen : Array Bool) : List Nat :=
  (List.range seen.size).filter fun i => seen.getD i false

/-- Marks what is reached from the fresh positions by at most so many steps. -/
def spread (step : List Nat → List Nat) : Nat → Array Bool → List Nat → Array Bool
  | 0, seen, _ => seen
  | n + 1, seen, fresh =>
    let next := (step fresh).filter fun i => !seen.getD i true
    if next.isEmpty then seen else spread step n (mark seen next) next

/-- The positions reached by at most so many steps, of those up to `size`. -/
def upTo (step : List Nat → List Nat) (size count : Nat) (here : List Nat) : List Nat :=
  marked (spread step count (mark (.replicate (size + 1) false) here) here)

/-- The positions reached by exactly so many steps. -/
def times (step : List Nat → List Nat) : Nat → List Nat → List Nat
  | 0, here => here
  | n + 1, here => if here.isEmpty then [] else times step n (step here)

/-! ## Matching -/

/-- The ends of matches that begin at the given positions, ascending if those are. A step never goes
back, so past as many steps as there are positions further ones reach nothing else. -/
def reach (text : Array Char) : Regex → List Nat → List Nat
  | .empty, here => here
  | .chars s, here =>
    here.filterMap fun i =>
      match text[i]? with
      | some c => if s.contains c.toNat then some (i + 1) else none
      | none => none
  | .anchor a, here => here.filter fun i => a.holds text i
  | .seq a b, here => reach text b (reach text a here)
  | .alt a b, here => mergePositions (reach text a here) (reach text b here)
  | .repeat a min max, here =>
    let least := times (reach text a) (Nat.min min (text.size + 1)) here
    let further := match max with
      | some max => Nat.min (max - min) text.size
      | none => text.size
    upTo (reach text a) text.size further least
  | .group a, here => reach text a here

/-- Whether some part of the text matches. -/
def search (r : Regex) (text : String) : Bool :=
  let chars := text.toList.toArray
  !(reach chars r (List.range (chars.size + 1))).isEmpty

/-! ## Loops in loops

A loop is walked at least twice, once more than it finds something, so a loop in a loop in a loop
would be walked once and again for each around it. Loops that add nothing to those around them are
dropped.
-/

/-- The body of a loop of at least `min` rounds, 0 or 1, without loops that the one around it makes
up for. -/
def loopBody (min : Nat) : Regex → Regex
  | .alt a b => .alt (loopBody min a) (loopBody min b)
  | .repeat a least max => if min ≤ least && least ≤ 1 then loopBody min a else .repeat a least max
  | r => r

/-- A repetition of rounds that may themselves be repetitions. -/
def collapse (a : Regex) (min : Nat) : Option Nat → Regex
  | some max =>
    match a with
    | .repeat b 0 none => .repeat b 0 none
    | a => .repeat a min (some max)
  | none =>
    match a with
    | .repeat b 0 _ => .repeat (loopBody 0 b) 0 none
    | a => if min ≤ 1 then .repeat (loopBody min a) min none else .repeat a min none

/-- The expression without groups and without loops that add nothing. -/
def core : Regex → Regex
  | .seq a b => .seq a.core b.core
  | .alt a b => .alt a.core b.core
  | .repeat a min max => collapse a.core min max
  | .group a => a.core
  | r => r

/-! ## Building -/

/-- Whether only the empty text can match, at whatever position. -/
def isHollow : Regex → Bool
  | .empty | .anchor _ => true
  | .chars _ => false
  | .seq a b | .alt a b => a.isHollow && b.isHollow
  | .repeat a _ _ | .group a => a.isHollow

/-- A repetition. What takes no text is asked for once at most, and once is no repetition. -/
def repeated (a : Regex) (min : Nat) (max : Option Nat) : Regex :=
  let (min, max) := if a.isHollow then (Nat.min min 1, some (Nat.min (max.getD 1) 1))
    else (min, max)
  if max = some 0 then .empty
  else if min = 1 && max = some 1 then a
  else .repeat a min max

def seqAll : List Regex → Regex
  | [] => .empty
  | [r] => r
  | r :: rs => .seq r (seqAll rs)

/-- The set of an expression that takes one character. -/
def charSet? : Regex → Option CharSet
  | .chars s => some s
  | _ => none

/-- A choice; among single characters it is a set. -/
def altAll (rs : List Regex) : Regex :=
  match rs.mapM charSet? with
  | some (s :: t :: sets) => .chars (.unionAll (s :: t :: sets))
  | _ => nest rs
where
  nest : List Regex → Regex
    | [] => .empty
    | [r] => r
    | r :: rs => .alt r (nest rs)

end Regex
end Statechart
