import Statechart.Text.Property

/-!
# Words, digits and blanks

Word characters are letters, marks, decimal digits, connectors and joiners; decimal digits are those
of every script.
-/

namespace Statechart.Text

def digits : CharSet := category "Nd"

def blanks : CharSet := listedProperty "whitespace"

def wordCharacters : CharSet :=
  .unionAll [alphabetic, category "M", digits, category "Pc", listedProperty "joincontrol"]

/-- Letters and the characters of any kind of number. -/
def isAlphanumeric (c : Char) : Bool :=
  alphabetic.contains c.toNat || (category "N").contains c.toNat

def isAlphabetic (c : Char) : Bool := alphabetic.contains c.toNat

def isWordChar (c : Char) : Bool := wordCharacters.contains c.toNat

def isAsciiWordChar (c : Char) : Bool := c.isAlphanum || c == '_'

end Statechart.Text
