import Statechart.Text.Word

/-!
# Anchors

An anchor is a condition on a position of a text: what stands before it and what stands after it.
-/

namespace Statechart

/-- How a position stands to the words around it. -/
inductive WordEdge where
  /-- A word begins or ends here. -/
  | boundary
  /-- No word begins or ends here. -/
  | inner
  | start
  | finish
  /-- No word character stands before. -/
  | startHalf
  /-- No word character stands after. -/
  | finishHalf

inductive Anchor where
  | textStart
  | textEnd
  /-- Lines are ended by a line feed. -/
  | lineStart
  | lineEnd
  /-- Lines are ended by a line feed, a carriage return, or the two of them together. -/
  | breakStart
  | breakEnd
  | word (edge : WordEdge) (ascii : Bool)

def WordEdge.holds (before after : Bool) : WordEdge → Bool
  | .boundary => before != after
  | .inner => before == after
  | .start => !before && after
  | .finish => before && !after
  | .startHalf => !before
  | .finishHalf => !after

namespace Anchor

def charBefore (text : Array Char) (i : Nat) : Option Char := if i = 0 then none else text[i - 1]?

def holds (text : Array Char) (i : Nat) : Anchor → Bool
  | .textStart => i == 0
  | .textEnd => i == text.size
  | .lineStart => i == 0 || charBefore text i == some '\n'
  | .lineEnd => i == text.size || text[i]? == some '\n'
  | .breakStart =>
    i == 0 || charBefore text i == some '\n' ||
      (charBefore text i == some '\r' && text[i]? != some '\n')
  | .breakEnd =>
    i == text.size || text[i]? == some '\r' ||
      (text[i]? == some '\n' && charBefore text i != some '\r')
  | .word edge ascii =>
    let isWord := if ascii then Text.isAsciiWordChar else Text.isWordChar
    edge.holds ((charBefore text i).any isWord) (text[i]?.any isWord)

end Anchor
end Statechart
