import Statechart.Pattern.Basic

/-!
# Sizes of patterns

A pattern is refused when the automaton of its bytes would take too much memory. A state takes 32
bytes, a transition out of a set of bytes 8, a branch 4; repetitions repeat what they hold. Sets of
characters become sets of byte sequences: read forwards equal endings are shared, read backwards
equal beginnings.
-/

namespace Statechart

/-! ## Byte sequences -/

abbrev ByteRange := Nat × Nat

/-- The sequences for the numbers from `a` to `b` of `n + 1` digits to the base 64, where `lead` is
added to the first digit and 0x80 to the others. -/
def digitSequences (lead : Nat) : Nat → Nat → Nat → List (List ByteRange)
  | 0, a, b => [[(lead + a, lead + b)]]
  | n + 1, a, b =>
    let unit := Nat.pow 64 (n + 1)
    let under (d a b : Nat) := (digitSequences 0x80 n a b).map ((lead + d, lead + d) :: ·)
    let (first, last) := (a / unit, b / unit)
    if first = last then under first (a % unit) (b % unit)
    else
      let (low, first) :=
        if a % unit = 0 then ([], first) else (under first (a % unit) (unit - 1), first + 1)
      let (high, last) :=
        if b % unit = unit - 1 then ([], last) else (under last 0 (b % unit), last - 1)
      let middle :=
        if first ≤ last then [(lead + first, lead + last) :: .replicate (n + 1) (0x80, 0xBF)]
          else []
      low ++ middle ++ high

/-- The code points of each length in bytes: the range, the digits after the first, and the lead. -/
def encodingLengths : List (Nat × Nat × Nat × Nat) :=
  [(0, 0x7F, 0, 0), (0x80, 0x7FF, 1, 0xC0), (0x800, 0xD7FF, 2, 0xE0), (0xE000, 0xFFFF, 2, 0xE0),
   (0x10000, 0x10FFFF, 3, 0xF0)]

/-- The byte sequences of a set, ascending. -/
def CharSet.sequences (s : CharSet) : List (List ByteRange) :=
  s.ranges.flatMap fun r =>
    encodingLengths.flatMap fun (first, last, digits, lead) =>
      let (a, b) := (max r.1 first, min r.2 last)
      if a ≤ b then digitSequences lead digits a b else []

/-- The sequences under each first range. -/
def byHead : List (List ByteRange) → List (ByteRange × List (List ByteRange))
  | [] | [] :: _ => []
  | (r :: tail) :: rest =>
    match byHead rest with
    | (s, tails) :: groups =>
      if r = s then (r, tail :: tails) :: groups else (r, [tail]) :: (s, tails) :: groups
    | [] => [(r, [tail])]

/-- How many beginnings the sequences have, up to so many bytes long. -/
def beginnings : Nat → List (List ByteRange) → Nat
  | 0, _ => 0
  | n + 1, seqs => (byHead seqs).foldl (fun count g => count + 1 + beginnings n g.2) 0

/-- The distinct states found so far, each with its transitions. -/
abbrev Endings := List (List (ByteRange × Nat))

/-- Enters the states of the sequences, up to so many bytes long, and gives the number of the first.
The end is 0; states with the same transitions are one. -/
def shareEndings : Nat → List (List ByteRange) → Endings → Nat × Endings
  | 0, _, known => (0, known)
  | n + 1, seqs, known =>
    match byHead seqs with
    | [] => (0, known)
    | groups =>
      let (edges, known) := groups.foldl (fun (edges, known) g =>
        let (target, known) := shareEndings n g.2 known
        ((g.1, target) :: edges, known)) ([], known)
      match known.reverse.findIdx? (· == edges) with
      | some i => (i + 1, known)
      | none => (known.length + 1, edges :: known)

inductive Direction where
  | forwards
  | backwards
  deriving DecidableEq

/-- The size of a set of characters. One character is a row of bytes. -/
def CharSet.size (direction : Direction) (s : CharSet) : Nat :=
  match s.ranges with
  | [(a, b)] => if a = b then 32 * (Char.ofNat a).utf8Size else general
  | _ => general
where
  general : Nat :=
    if s.isAscii then 64 + 8 * s.ranges.length
    else match direction with
      | .forwards =>
        let (_, known) := shareEndings 4 s.sequences []
        known.foldl (fun size edges => size + 32 + 8 * edges.length) 32
      | .backwards =>
        let seqs := s.sequences
        64 + 4 * seqs.length + 32 * beginnings 4 seqs

namespace Regex

/-- Whether every match takes some text. -/
def isSolid : Regex → Bool
  | .empty | .anchor _ => false
  | .chars s => !s.isEmpty
  | .seq a b => a.isSolid || b.isSolid
  | .alt a b => a.isSolid && b.isSolid
  | .repeat a min _ => 0 < min && a.isSolid
  | .group a => a.isSolid

/-- How many branches a choice has. -/
def branchCount : Regex → Nat
  | .alt a b => a.branchCount + b.branchCount
  | _ => 1

mutual

def size (direction : Direction) : Regex → Nat
  | .empty | .anchor _ => 32
  | .chars s => s.size direction
  | .seq a b => a.size direction + b.size direction
  | .alt a b =>
    64 + 4 * (a.branchCount + b.branchCount) + a.branchSize direction + b.branchSize direction
  | .repeat a min max =>
    let once := a.size direction
    match max with
    | none =>
      if min = 0 then if a.isSolid then once + 40 else once + 112 else min * once + 40
    | some max =>
      if min = 0 && max = 1 then once + 72
      else
        let least := if min = 0 then 32 else min * once
        if min = max then least else least + 32 + (max - min) * (once + 40)
  | .group a => a.size direction + if direction = .forwards then 64 else 0

/-- The branches of a choice, which share one fork. -/
def branchSize (direction : Direction) : Regex → Nat
  | .alt a b => a.branchSize direction + b.branchSize direction
  | r => r.size direction

end

/-- The memory that the automaton of a pattern may take. -/
def sizeLimit : Nat := 10485760

/-- A loop over the text before the match, and the states at the ends of the pattern. -/
def frameSize : Direction → Nat
  | .forwards => 208
  | .backwards => 144

def fitsMemory (r : Regex) : Bool :=
  r.size .forwards + frameSize .forwards ≤
    sizeLimit && r.size .backwards + frameSize .backwards ≤ sizeLimit

end Regex
end Statechart
