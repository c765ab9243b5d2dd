import Statechart.Text.Blank

/-!
# Spacing in patterns

In verbose mode blanks and comments may stand between the parts of a pattern. A comment runs from a
hash to the end of its line. Main statement: skipping never makes a pattern longer.
-/

namespace Statechart.Pattern

/-- Drops blanks and comments; `comment` says whether a comment is open. -/
def skipFiller (comment : Bool) : List Char → List Char
  | [] => []
  | c :: rest =>
    if comment then skipFiller (c != '\n') rest
    else if c = '#' then skipFiller true rest
    else if Text.isBlank c then skipFiller false rest
    else c :: rest

def skip (verbose : Bool) (cs : List Char) : List Char :=
  if verbose then skipFiller false cs else cs

theorem length_skipFiller_le (comment : Bool) (cs : List Char) :
    (skipFiller comment cs).length ≤ cs.length := by
  induction cs generalizing comment with
  | nil => simp [skipFiller]
  | cons c rest ih =>
    unfold skipFiller
    split
    · exact Nat.le_succ_of_le (ih _)
    · split
      · exact Nat.le_succ_of_le (ih _)
      · split
        · exact Nat.le_succ_of_le (ih _)
        · exact Nat.le_refl _

theorem length_skip_le (verbose : Bool) (cs : List Char) :
    (skip verbose cs).length ≤ cs.length := by
  unfold skip
  split
  · exact length_skipFiller_le false cs
  · exact Nat.le_refl _

/-- The longest run of characters with a property, and the rest. Filler may stand after each. -/
def spacedRun (verbose : Bool) (p : Char → Bool) : List Char → List Char × List Char
  | [] => ([], [])
  | c :: rest =>
    if p c then
      let (run, after) := spacedRun verbose p (skip verbose rest)
      (c :: run, after)
    else ([], c :: rest)
termination_by cs => cs.length
decreasing_by
  have := length_skip_le verbose rest
  simp only [List.length_cons]
  omega

/-- The text up to a closing brace without its filler, and what follows the brace. -/
def upToBrace? (verbose : Bool) (cs : List Char) : Option (List Char × List Char) :=
  match spacedRun verbose (· != '\x7d') (skip verbose cs) with
  | (body, _ :: rest) => some (body, rest)
  | (_, []) => none

end Statechart.Pattern
