import Statechart.Pattern.Meaning
import Statechart.Pattern.Parser
import Statechart.Pattern.Size

/-!
# Patterns

A pattern is a text that reads as a regular expression, nests no deeper than the limit and takes no
more memory than allowed. It accepts a text when some part of the text matches.
-/

namespace Statechart

/-- A pattern with the text it was read from. -/
structure Pattern where
  source : String
  regex : Regex

namespace Pattern

/-- The expression that a text writes. -/
def regex? (source : String) : Option Regex := do
  let tree ← tree? source
  if !tree.fits nestLimit then none
  else
    let (r, _) ← tree.regex? {}
    if r.fitsMemory then some r.core else none

def parse (source : String) : Option Pattern := (regex? source).map fun r => ⟨source, r⟩

def accepts (p : Pattern) (text : String) : Bool := p.regex.search text

end Pattern
end Statechart
