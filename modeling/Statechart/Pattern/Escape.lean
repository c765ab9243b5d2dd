import Statechart.Pattern.Spacing
import Statechart.Pattern.Tree
import Statechart.Text.Hex

/-!
# Escapes

What a backslash and the characters after it stand for. Letters and digits have meanings of their
own or none; other ASCII characters stand for themselves, save the angle brackets, which are
anchors.
-/

namespace Statechart.Pattern

inductive Escape where
  | char (c : Char) (byte : Bool)
  | shorthand (k : Shorthand) (negated : Bool)
  | property (p : PropertyName) (negated : Bool)
  | mark (m : Mark)

/-- Whether a backslash before the character makes it stand for itself. -/
def isEscapable (c : Char) : Bool := c.toNat < 0x80 && !c.isAlphanum && c != '<' && c != '>'

def charOfCode? (n : Nat) : Option Char := if n.isValidChar then some (Char.ofNat n) else none

/-- So many characters, with filler between them. -/
def spacedTake? (verbose : Bool) : Nat → List Char → Option (List Char × List Char)
  | 0, cs => some ([], cs)
  | _ + 1, [] => none
  | n + 1, c :: rest =>
    (spacedTake? verbose n (if n = 0 then rest else skip verbose rest)).map fun (run, after) =>
      (c :: run, after)

/-- A code of a fixed number of digits, or in braces. -/
def hexCode? (verbose : Bool) (width : Nat) (cs : List Char) : Option (Escape × List Char) := do
  match skip verbose cs with
  | '\x7b' :: rest =>
    let (body, rest) ← upToBrace? verbose rest
    if body.isEmpty then none else some (.char (← charOfCode? (← Text.hexNat? body)) false, rest)
  | cs =>
    let (body, rest) ← spacedTake? verbose width cs
    some (.char (← charOfCode? (← Text.hexNat? body)) (width == 2), rest)

/-! ## Properties -/

/-- Splits a name from its value at the first separator of the kind that counts: `!=`, else a colon,
else an equals sign. -/
def propertyName (text : List Char) : PropertyName :=
  let rec unequal : List Char → Option (List Char × List Char)
    | '!' :: '=' :: rest => some ([], rest)
    | c :: rest => (unequal rest).map fun (name, value) => (c :: name, value)
    | [] => none
  let at? (c : Char) : Option (List Char × List Char) :=
    let name := text.takeWhile (· != c)
    match text.drop name.length with
    | _ :: value => some (name, value)
    | [] => none
  match unequal text <|> at? ':' <|> at? '=' with
  | some (name, value) => .valued (String.ofList name) (String.ofList value)
  | none => .alone (String.ofList text)

/-- A property in braces, or of one letter. -/
def property? (verbose : Bool) (cs : List Char) : Option (PropertyName × List Char) :=
  match skip verbose cs with
  | '\x7b' :: rest => (upToBrace? verbose rest).map fun (body, rest) => (propertyName body, rest)
  | '\\' :: _ | [] => none
  | c :: rest => some (.alone (String.singleton c), rest)

/-! ## Word edges -/

def isEdgeLetter (c : Char) : Bool := c.isAlpha || c == '-'

def wordEdge? (name : List Char) : Option WordEdge :=
  match String.ofList name with
  | "start" => some .start
  | "end" => some .finish
  | "start-half" => some .startHalf
  | "end-half" => some .finishHalf
  | _ => none

/-- What may follow the escape of a word boundary: the name of an edge in braces. Braces with
anything but a letter at their beginning are a repetition. -/
def boundary? (verbose : Bool) (cs : List Char) : Option (WordEdge × List Char) :=
  match cs with
  | '\x7b' :: more =>
    match skip verbose more with
    | [] => none
    | c :: rest =>
      if isEdgeLetter c then
        match spacedRun verbose isEdgeLetter (c :: rest) with
        | (name, '\x7d' :: rest) => (wordEdge? name).map fun e => (e, rest)
        | _ => none
      else some (.boundary, cs)
  | _ => some (.boundary, cs)

/-- The escape after a backslash. -/
def escape? (verbose : Bool) : List Char → Option (Escape × List Char)
  | [] => none
  | c :: rest =>
    let plain (c : Char) : Option (Escape × List Char) := some (.char c false, rest)
    let named (k : Shorthand) (negated : Bool) := some (.shorthand k negated, rest)
    let anchor (m : Mark) := some (.mark m, rest)
    match c with
    | 'd' => named .digit false
    | 'D' => named .digit true
    | 's' => named .space false
    | 'S' => named .space true
    | 'w' => named .word false
    | 'W' => named .word true
    | 'p' => (property? verbose rest).map fun (p, rest) => (.property p false, rest)
    | 'P' => (property? verbose rest).map fun (p, rest) => (.property p true, rest)
    | 'x' => hexCode? verbose 2 rest
    | 'u' => hexCode? verbose 4 rest
    | 'U' => hexCode? verbose 8 rest
    | 'a' => plain '\x07'
    | 'f' => plain '\x0c'
    | 't' => plain '\t'
    | 'n' => plain '\n'
    | 'r' => plain '\r'
    | 'v' => plain '\x0b'
    | 'A' => anchor .textStart
    | 'z' => anchor .textEnd
    | 'b' => (boundary? verbose rest).map fun (e, rest) => (.mark (.word e), rest)
    | 'B' => anchor (.word .inner)
    | '<' => anchor (.word .start)
    | '>' => anchor (.word .finish)
    | c => if isEscapable c then plain c else none

end Statechart.Pattern
