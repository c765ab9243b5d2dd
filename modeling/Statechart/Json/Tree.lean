import Statechart.Json.Value
import Statechart.Text.Hex

/-!
# Reading JSON text

The tree of a text holds every member of an object as written, repeated names included. A number out
of range and a string with a lone surrogate are kept as none: they are faults only where something
reads them, and a member that no reader asks for may hold them at any depth.
-/

namespace Statechart.Json

inductive Tree where
  | null
  | bool (b : Bool)
  | number (n : Option Number)
  | string (s : Option String)
  | array (items : List Tree)
  | object (members : List (Option String × Tree))
  deriving Inhabited

namespace Tree

def isSpace (c : Char) : Bool := c == ' ' || c == '\n' || c == '\t' || c == '\r'

def skipSpace (cs : List Char) : List Char := cs.dropWhile isSpace

/-- The rest after an exact beginning. -/
def after? (start cs : List Char) : Option (List Char) :=
  match start, cs with
  | [], cs => some cs
  | s :: start, c :: cs => if s = c then after? start cs else none
  | _ :: _, [] => none

def digit (c : Char) : Nat := c.toNat - '0'.toNat

/-- The digits at the front and what follows them. -/
def digits (cs : List Char) : List Nat × List Char :=
  ((cs.takeWhile Char.isDigit).map digit, cs.dropWhile Char.isDigit)

/-- The character that a simple escape stands for. -/
def escape? : Char → Option Char
  | '"' => some '"'
  | '\\' => some '\\'
  | '/' => some '/'
  | 'b' => some '\x08'
  | 'f' => some '\x0c'
  | 'n' => some '\n'
  | 'r' => some '\r'
  | 't' => some '\t'
  | _ => none

def isLeading (u : Nat) : Bool := 0xD800 ≤ u && u < 0xDC00

def isTrailing (u : Nat) : Bool := 0xDC00 ≤ u && u < 0xE000

/-- The text up to the closing quote, and what follows it. `lead` is a leading surrogate that waits
for its partner, `whole` is false once a lone surrogate was met, and `acc` is the text so far, last
character first. -/
def stringBody : List Char → (lead : Option Nat) → (whole : Bool) → (acc : List Char) →
    Option (Option String × List Char)
  | [], _, _, _ => none
  | '"' :: rest, lead, whole, acc =>
    some (if whole && lead.isNone then some (String.ofList acc.reverse) else none, rest)
  | '\\' :: 'u' :: a :: b :: c :: d :: rest, lead, whole, acc => do
    let u ← Text.hexNat? [a, b, c, d]
    if isTrailing u then
      match lead with
      | some first =>
        stringBody rest none whole
          (Char.ofNat (0x10000 + (first - 0xD800) * 0x400 + (u - 0xDC00)) :: acc)
      | none => stringBody rest none false acc
    else if isLeading u then stringBody rest (some u) (whole && lead.isNone) acc
    else stringBody rest none (whole && lead.isNone) (Char.ofNat u :: acc)
  | '\\' :: c :: rest, lead, whole, acc => do
    stringBody rest none (whole && lead.isNone) ((← escape? c) :: acc)
  | c :: rest, lead, whole, acc =>
    if c.toNat < 0x20 ∨ c = '\\' then none
    else stringBody rest none (whole && lead.isNone) (c :: acc)

/-- A string after its opening quote. -/
def stringTail (cs : List Char) : Option (Option String × List Char) :=
  stringBody cs none true []

/-- A whole part has no zero in front of other digits. -/
def wholePart? (cs : List Char) : Option (List Nat × List Char) :=
  match digits cs with
  | ([], _) => none
  | (0 :: _ :: _, _) => none
  | found => some found

def fractionPart? (cs : List Char) : Option (List Nat × List Char) :=
  match cs with
  | '.' :: rest =>
    match digits rest with
    | ([], _) => none
    | found => some found
  | _ => some ([], cs)

def exponentPart? (cs : List Char) : Option (Option (Bool × List Nat) × List Char) :=
  match cs with
  | c :: rest =>
    if c = 'e' ∨ c = 'E' then
      let (down, rest) := match rest with
        | '+' :: rest => (false, rest)
        | '-' :: rest => (true, rest)
        | rest => (false, rest)
      match digits rest with
      | ([], _) => none
      | (ds, rest) => some (some (down, ds), rest)
    else some (none, cs)
  | [] => some (none, cs)

def literal? (cs : List Char) : Option (Literal × List Char) := do
  let (negative, cs) := match cs with
    | '-' :: rest => (true, rest)
    | cs => (false, cs)
  let (whole, cs) ← wholePart? cs
  let (fraction, cs) ← fractionPart? cs
  let (exponent, cs) ← exponentPart? cs
  some (⟨negative, whole, fraction, exponent⟩, cs)

mutual

/-- One value and what follows it. Each level takes one unit of fuel. -/
def value : Nat → List Char → Option (Tree × List Char)
  | 0, _ => none
  | fuel + 1, cs =>
    match skipSpace cs with
    | 'n' :: rest => (after? ['u', 'l', 'l'] rest).map (Tree.null, ·)
    | 't' :: rest => (after? ['r', 'u', 'e'] rest).map (Tree.bool true, ·)
    | 'f' :: rest => (after? ['a', 'l', 's', 'e'] rest).map (Tree.bool false, ·)
    | '"' :: rest => (stringTail rest).map fun (s, rest) => (Tree.string s, rest)
    | '[' :: rest =>
      match skipSpace rest with
      | ']' :: rest => some (.array [], rest)
      | rest => (items fuel rest).map fun (xs, rest) => (Tree.array xs, rest)
    | '\x7b' :: rest =>
      match skipSpace rest with
      | '\x7d' :: rest => some (.object [], rest)
      | rest => (members fuel rest).map fun (xs, rest) => (Tree.object xs, rest)
    | cs => (literal? cs).map fun (l, rest) => (Tree.number l.number?, rest)

/-- The items of an array up to its closing bracket, at least one. -/
def items : Nat → List Char → Option (List Tree × List Char)
  | 0, _ => none
  | fuel + 1, cs => do
    let (x, rest) ← value fuel cs
    match skipSpace rest with
    | ',' :: rest => (items fuel rest).map fun (xs, rest) => (x :: xs, rest)
    | ']' :: rest => some ([x], rest)
    | _ => none

/-- The members of an object up to its closing brace, at least one. -/
def members : Nat → List Char → Option (List (Option String × Tree) × List Char)
  | 0, _ => none
  | fuel + 1, cs => do
    match skipSpace cs with
    | '"' :: rest =>
      let (name, rest) ← stringTail rest
      match skipSpace rest with
      | ':' :: rest =>
        let (x, rest) ← value fuel rest
        match skipSpace rest with
        | ',' :: rest => (members fuel rest).map fun (xs, rest) => ((name, x) :: xs, rest)
        | '\x7d' :: rest => some ([(name, x)], rest)
        | _ => none
      | _ => none
    | _ => none

end

/-- The tree of a text that is one value with nothing but blanks around it. -/
def parse (text : String) : Option Tree :=
  let cs := text.toList
  match value (2 * cs.length + 2) cs with
  | some (t, rest) => if (skipSpace rest).isEmpty then some t else none
  | none => none

mutual

/-- The value of a tree with at most `room` levels of arrays and objects. Of several members of one
name the last counts. -/
def toValue (room : Nat) : Tree → Option Value
  | .null => some .null
  | .bool b => some (.bool b)
  | .number n => n.map .number
  | .string s => s.map .string
  | .array xs =>
    match room with
    | 0 => none
    | room + 1 => (toValues room xs).map .array
  | .object xs =>
    match room with
    | 0 => none
    | room + 1 => (toFields room xs []).map .object

def toValues (room : Nat) : List Tree → Option (List Value)
  | [] => some []
  | x :: xs => do
    let v ← toValue room x
    let vs ← toValues room xs
    some (v :: vs)

def toFields (room : Nat) : List (Option String × Tree) → Fields → Option Fields
  | [], fields => some fields
  | (name, x) :: xs, fields => do
    let name ← name
    let v ← toValue room x
    toFields room xs (Fields.insert name v fields)

end

mutual

/-- The tree that a value is written as. -/
def ofValue : Value → Tree
  | .null => .null
  | .bool b => .bool b
  | .number n => .number (some n)
  | .string s => .string (some s)
  | .array xs => .array (ofValues xs)
  | .object fs => .object (ofFields fs)

def ofValues : List Value → List Tree
  | [] => []
  | v :: vs => ofValue v :: ofValues vs

def ofFields : List (String × Value) → List (Option String × Tree)
  | [] => []
  | (k, v) :: fs => (some k, ofValue v) :: ofFields fs

end

/-- How many levels of arrays and objects a document may have. -/
def maxDepth : Nat := 127

end Tree

/-- The value of a text. -/
def Value.parse (text : String) : Option Value :=
  (Tree.parse text).bind (Tree.toValue Tree.maxDepth)

end Statechart.Json
