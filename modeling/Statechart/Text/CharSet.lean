import Statechart.Text.Hex

/-!
# Sets of characters

A set is its ranges of code points in ascending order. Tables of characters are written as text,
with hexadecimal code points: `41-5A` is a range, `100-106/2` every second point of one, and `5F` a
point.
-/

namespace Statechart

/-- A set of code points as closed ranges, ascending, with a gap between each two. -/
structure CharSet where
  ranges : List (Nat × Nat)
  deriving BEq, Repr, Inhabited

namespace CharSet

def none : CharSet := ⟨[]⟩

/-- The last code point. -/
def top : Nat := 0x10FFFF

def all : CharSet := ⟨[(0, top)]⟩

def range (first last : Nat) : CharSet := if first ≤ last then ⟨[(first, last)]⟩ else none

def single (c : Char) : CharSet := ⟨[(c.toNat, c.toNat)]⟩

def isEmpty (s : CharSet) : Bool := s.ranges.isEmpty

/-- Ascending ranges stop the search at the first one beyond the point. -/
def within (n : Nat) : List (Nat × Nat) → Bool
  | [] => false
  | (first, last) :: rest => if n < first then false else n ≤ last || within n rest

def contains (s : CharSet) (n : Nat) : Bool := within n s.ranges

def isAscii (s : CharSet) : Bool := s.ranges.all fun r => r.2 < 0x80

/-- Joins ranges that overlap or touch, given in the order of their first points. -/
def join (r : Nat × Nat) : List (Nat × Nat) → List (Nat × Nat)
  | [] => [r]
  | s :: rest => if s.1 ≤ r.2 + 1 then join (r.1, max r.2 s.2) rest else r :: join s rest

/-- The set of ranges in any order, which may overlap. -/
def ofRanges (rs : List (Nat × Nat)) : CharSet :=
  match rs.mergeSort fun r s => decide (r.1 ≤ s.1) with
  | [] => none
  | r :: rest => ⟨join r rest⟩

def ofPoints (ns : List Nat) : CharSet := ofRanges (ns.map fun n => (n, n))

def union (a b : CharSet) : CharSet := ofRanges (a.ranges ++ b.ranges)

def unionAll (sets : List CharSet) : CharSet := ofRanges (sets.flatMap ranges)

/-- The ranges between those given, from a first point on. -/
def gaps (start : Nat) : List (Nat × Nat) → List (Nat × Nat)
  | [] => if start ≤ top then [(start, top)] else []
  | (first, last) :: rest =>
    if start < first then (start, first - 1) :: gaps (last + 1) rest else gaps (last + 1) rest

def compl (a : CharSet) : CharSet := ⟨gaps 0 a.ranges⟩

def inter (a b : CharSet) : CharSet := (a.compl.union b.compl).compl

def diff (a b : CharSet) : CharSet := a.inter b.compl

def symmDiff (a b : CharSet) : CharSet := (a.diff b).union (b.diff a)

/-! ## Written sets -/

/-- What has been read of a written set: the ranges so far, newest first, and the numbers of the one
that is being read. -/
structure Reading where
  found : List (Nat × Nat) := []
  first : Option Nat := Option.none
  last : Option Nat := Option.none
  number : Option Nat := Option.none

namespace Reading

/-- Ends the range that is being read. -/
def flush (r : Reading) : Reading :=
  match r.first, r.last, r.number with
  | some a, some b, some step =>
    { found := ((List.range ((b - a) / step + 1)).map fun i => (a + i * step, a + i * step)).reverse
        ++ r.found }
  | some a, _, some b => { found := (a, b) :: r.found }
  | _, _, some a => { found := (a, a) :: r.found }
  | _, _, _ => { found := r.found }

def next (r : Reading) (c : Char) : Reading :=
  match Text.hexDigit? c with
  | some d => { r with number := some (r.number.getD 0 * 16 + d) }
  | Option.none =>
    if c = '-' then { r with first := r.number, number := Option.none }
    else if c = '/' then { r with last := r.number, number := Option.none }
    else r.flush

end Reading

/-- The set that a text writes, its ranges in ascending order. -/
def read (text : String) : CharSet :=
  ⟨((text.toList.foldl Reading.next {}).flush.found).reverse⟩

end CharSet
end Statechart
