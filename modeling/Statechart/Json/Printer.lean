import Statechart.Json.Value
import Statechart.Decimal.Shortest
import Statechart.Text.Hex

/-!
# Writing JSON text

Compact text has no blanks. Pretty text puts each item on a line of its own, two blanks deeper than
what holds it, and writes an empty array or object on one line.
-/

namespace Statechart.Json

/-- Quotes, backslashes and control characters are escaped; everything else is written as it is. -/
def escapeChar (c : Char) : List Char :=
  if c = '"' then ['\\', '"']
  else if c = '\\' then ['\\', '\\']
  else if c = '\x08' then ['\\', 'b']
  else if c = '\x0c' then ['\\', 'f']
  else if c = '\n' then ['\\', 'n']
  else if c = '\r' then ['\\', 'r']
  else if c = '\t' then ['\\', 't']
  else if c.toNat < 0x20 then ['\\', 'u', '0', '0', Text.hexChar (c.toNat / 16),
    Text.hexChar (c.toNat % 16)]
  else [c]

def quote (s : String) : String :=
  String.ofList ('"' :: (s.toList.flatMap escapeChar ++ ['"']))

/-- Doubles that are not finite have no number text. -/
def Number.render : Number → String
  | .int n => toString n
  | .double x => if x.isNaN || x.isInf then "null" else Decimal.render x

namespace Value

mutual

def compact : Value → String
  | .null => "null"
  | .bool b => if b then "true" else "false"
  | .number n => n.render
  | .string s => quote s
  | .array xs => "[" ++ String.intercalate "," (compactItems xs) ++ "]"
  | .object fs => "\x7b" ++ String.intercalate "," (compactFields fs) ++ "\x7d"

def compactItems : List Value → List String
  | [] => []
  | v :: vs => compact v :: compactItems vs

def compactFields : List (String × Value) → List String
  | [] => []
  | (k, v) :: fs => (quote k ++ ":" ++ compact v) :: compactFields fs

end

/-- A line break and the blanks of a level. -/
def newline (level : Nat) : String :=
  String.ofList ('\n' :: List.replicate (2 * level) ' ')

/-- Items between brackets at a level, each on a line of its own. -/
def block (level : Nat) (opening closing : String) : List String → String
  | [] => opening ++ closing
  | items =>
    opening ++ newline (level + 1) ++ String.intercalate ("," ++ newline (level + 1)) items ++
      newline level ++ closing

mutual

def prettyAt (level : Nat) : Value → String
  | .null => "null"
  | .bool b => if b then "true" else "false"
  | .number n => n.render
  | .string s => quote s
  | .array xs => block level "[" "]" (prettyItems (level + 1) xs)
  | .object fs => block level "\x7b" "\x7d" (prettyFields (level + 1) fs)

def prettyItems (level : Nat) : List Value → List String
  | [] => []
  | v :: vs => prettyAt level v :: prettyItems level vs

def prettyFields (level : Nat) : List (String × Value) → List String
  | [] => []
  | (k, v) :: fs => (quote k ++ ": " ++ prettyAt level v) :: prettyFields level fs

end

def pretty (v : Value) : String := prettyAt 0 v

end Value
end Statechart.Json
