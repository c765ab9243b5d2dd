import Statechart.Text.Printable

/-!
# Texts for a developer's eye

A string stands between quotes, with its quotes, backslashes and characters that are not printable
escaped; a record is its name with its fields in braces.
-/

namespace Statechart.Text

def hexDigits (n : Nat) : List Char := Nat.toDigits 16 n

def debugChar (c : Char) : List Char :=
  if c = '"' then ['\\', '"']
  else if c = '\\' then ['\\', '\\']
  else if c = '\n' then ['\\', 'n']
  else if c = '\r' then ['\\', 'r']
  else if c = '\t' then ['\\', 't']
  else if c.toNat = 0 then ['\\', '0']
  else if isPrintable c then [c]
  else ['\\', 'u', '\x7b'] ++ hexDigits c.toNat ++ ['\x7d']

def debugString (s : String) : String :=
  String.ofList ('"' :: (s.toList.flatMap debugChar ++ ['"']))

/-- A constructor around one text. -/
def debugCall (name inner : String) : String := name ++ "(" ++ inner ++ ")"

def debugOption {α : Type} (f : α → String) : Option α → String
  | none => "None"
  | some a => debugCall "Some" (f a)

def debugList (items : List String) : String :=
  "[" ++ String.intercalate ", " items ++ "]"

def debugRecord (name : String) (fields : List (String × String)) : String :=
  name ++ " \x7b " ++ String.intercalate ", " (fields.map fun f => f.1 ++ ": " ++ f.2) ++ " \x7d"

end Statechart.Text
