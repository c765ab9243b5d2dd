import Statechart.Text.Property

/-!
# Printable characters

A text for a developer's eye shows a character as itself when a reader can see it and tell it from
its neighbours. Blanks other than the space, controls, format characters and unassigned code points
cannot be seen, and a mark hides in the character before it.
-/

namespace Statechart.Text

/-- The characters that version 17 of the Unicode standard assigned; all of them are visible. -/
def latestCharacters : CharSet :=
  .read
  "88F C5C CDC 1ACF-1ADD 1AE0-1AEB 20C1 2B96 A7CE-A7CF A7D2 A7D4 A7F1 FBC3-FBD2 FD90-FD91
  FDC8-FDCE 10940-10959 10EC5-10EC7 10ED0-10ED8 10EFA-10EFB 11B60-11B67 11DB0-11DDB 11DE0-11DE9
  16EA0-16EB8 16EBB-16ED3 16FF2-16FF6 187F8-187FF 18D09-18D1E 18D80-18DF2 1CCFA-1CCFC
  1CEBA-1CED0 1CEE0-1CEF0 1E6C0-1E6DE 1E6E0-1E6F5 1E6FE-1E6FF 1F6D8 1F777-1F77A 1F8D0-1F8D8
  1FA54-1FA57 1FA8A 1FA8E 1FAC8 1FACD 1FAEA 1FAEF 1FBFA 2B73A-2B73F 2CEA2-2CEAD 323B0-33479"

/-- The characters that show as something other than blank. -/
def visibleCharacters : CharSet :=
  (assigned.diff ((category "C").union (category "Z"))).union latestCharacters

/-- The marks that join the character before them, those of version 17 among them. -/
def joiningMarks : CharSet :=
  (graphemeExtend.inter (category "M")).union
    (.read "1ACF-1ADD 1AE0-1AEB 10EFA-10EFB 11B60 11B62-11B64 11B66 1E6E3 1E6E6 1E6EE-1E6EF 1E6F5")

/-- Whether a developer's text shows the character as itself. -/
def isPrintable (c : Char) : Bool :=
  if c.toNat < 0x7F then 0x20 ≤ c.toNat
  else visibleCharacters.contains c.toNat && !joiningMarks.contains c.toNat

end Statechart.Text
