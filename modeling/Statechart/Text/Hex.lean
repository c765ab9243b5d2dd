/-!
# Hexadecimal digits

Digits are written in lower case and read in either.
-/

namespace Statechart.Text

def hexChar (n : Nat) : Char :=
  if n < 10 then Char.ofNat ('0'.toNat + n) else Char.ofNat ('a'.toNat + (n - 10))

def hexDigit? (c : Char) : Option Nat :=
  if '0' ≤ c ∧ c ≤ '9' then some (c.toNat - '0'.toNat)
  else if 'a' ≤ c ∧ c ≤ 'f' then some (c.toNat - 'a'.toNat + 10)
  else if 'A' ≤ c ∧ c ≤ 'F' then some (c.toNat - 'A'.toNat + 10)
  else none

/-- The number that hexadecimal digits write. -/
def hexNat? (cs : List Char) : Option Nat :=
  cs.foldl (fun n c => do some ((← n) * 16 + (← hexDigit? c))) (some 0)

def hexByte (b : UInt8) : List Char := [hexChar (b.toNat / 16), hexChar (b.toNat % 16)]

/-- Two digits to the byte. -/
def hexText (bytes : List UInt8) : String := String.ofList (bytes.flatMap hexByte)

def bytesOfHex? : List Char → Option (List UInt8)
  | [] => some []
  | [_] => none
  | a :: b :: rest => do
    let hi ← hexDigit? a
    let lo ← hexDigit? b
    let bytes ← bytesOfHex? rest
    some ((hi * 16 + lo).toUInt8 :: bytes)

end Statechart.Text
