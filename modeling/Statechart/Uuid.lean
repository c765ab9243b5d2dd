import Statechart.Text.Hex

/-!
# Universally unique identifiers

Sixteen bytes, written as hexadecimal digits in groups. Reading takes the digits in either case,
with hyphens or without; with hyphens they may stand between braces or after a label.
-/

namespace Statechart

structure Uuid where
  bytes : List UInt8
  sixteen : bytes.length = 16 := by decide
  deriving DecidableEq

namespace Uuid

def ofBytes? (bytes : List UInt8) : Option Uuid :=
  if h : bytes.length = 16 then some ⟨bytes, h⟩ else none

/-- The identifier with the given number in its last eight bytes. -/
def ofNat (n : Nat) : Uuid :=
  let byte (k : Nat) : UInt8 := (n / Nat.pow 256 k).toUInt8
  ⟨[0, 0, 0, 0, 0, 0, 0, 0, byte 7, byte 6, byte 5, byte 4, byte 3, byte 2, byte 1, byte 0], rfl⟩

instance : Inhabited Uuid := ⟨ofNat 0⟩

/-- Groups of four, two, two, two and six bytes with hyphens between them. -/
def render (u : Uuid) : String :=
  let digits := u.bytes.flatMap Text.hexByte
  String.ofList <|
    digits.take 8 ++ '-' :: (digits.drop 8).take 4 ++ '-' :: (digits.drop 12).take 4 ++
      '-' :: (digits.drop 16).take 4 ++ '-' :: digits.drop 20

def plain? (cs : List Char) : Option Uuid := (Text.bytesOfHex? cs).bind ofBytes?

def hyphenated? (cs : List Char) : Option Uuid :=
  if cs.length = 36 ∧ cs[8]? = some '-' ∧ cs[13]? = some '-' ∧ cs[18]? = some '-' ∧
      cs[23]? = some '-' then
    plain? (cs.take 8 ++ (cs.drop 9).take 4 ++ (cs.drop 14).take 4 ++
      (cs.drop 19).take 4 ++ cs.drop 24)
  else none

def label : List Char := ['u', 'r', 'n', ':', 'u', 'u', 'i', 'd', ':']

def parse (text : String) : Option Uuid :=
  let cs := text.toList
  if cs.length = 32 then plain? cs
  else if cs.length = 38 ∧ cs.head? = some '\x7b' ∧ cs.getLast? = some '\x7d' then
    hyphenated? (cs.drop 1).dropLast
  else if cs.take 9 = label then hyphenated? (cs.drop 9)
  else hyphenated? cs

end Uuid
end Statechart
