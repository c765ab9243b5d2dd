import Statechart.Pattern.Escape

/-!
# Reading classes

A class in brackets holds characters, ranges, escapes, named ASCII classes and further classes, and
set operators between them that bind from the left. A bracket or hyphens at the beginning stand for
themselves.
-/

namespace Statechart.Pattern

def asciiRange (a b : Char) : CharSet := .range a.toNat b.toNat

def lowerLetters : CharSet := asciiRange 'a' 'z'
def upperLetters : CharSet := asciiRange 'A' 'Z'
def decimalDigits : CharSet := asciiRange '0' '9'
def letters : CharSet := lowerLetters.union upperLetters
def visible : CharSet := asciiRange '!' '~'
def asciiSpace : CharSet := (CharSet.range 0x09 0x0D).union (.single ' ')
def asciiWord : CharSet := .unionAll [letters, decimalDigits, .single '_']

/-- The classes of ASCII characters by name. -/
def asciiClass? : String → Option CharSet
  | "alnum" => some (letters.union decimalDigits)
  | "alpha" => some letters
  | "ascii" => some (.range 0 0x7F)
  | "blank" => some ((CharSet.single ' ').union (.single '\t'))
  | "cntrl" => some ((CharSet.range 0 0x1F).union (.range 0x7F 0x7F))
  | "digit" => some decimalDigits
  | "graph" => some visible
  | "lower" => some lowerLetters
  | "print" => some (asciiRange ' ' '~')
  | "punct" => some (visible.diff (letters.union decimalDigits))
  | "space" => some asciiSpace
  | "upper" => some upperLetters
  | "word" => some asciiWord
  | "xdigit" => some (.unionAll [decimalDigits, asciiRange 'a' 'f', asciiRange 'A' 'F'])
  | _ => none

/-- A named ASCII class after its opening bracket. -/
def namedClass? : List Char → Option (ClassTree × List Char)
  | ':' :: rest =>
    let (negated, rest) := match rest with
      | '^' :: rest => (true, rest)
      | rest => (false, rest)
    let name := rest.takeWhile (· != ':')
    match rest.drop name.length, asciiClass? (String.ofList name) with
    | ':' :: ']' :: rest, some s => some (.ascii s negated, rest)
    | _, _ => none
  | _ => none

/-- A character of a class, or a class that an escape names. -/
def classItem? (verbose : Bool) : List Char → Option (ClassTree × List Char)
  | [] => none
  | '\\' :: rest => do
    match ← escape? verbose rest with
    | (.char c _, rest) => some (.char c, rest)
    | (.shorthand k negated, rest) => some (.shorthand k negated, rest)
    | (.property p negated, rest) => some (.property p negated, rest)
    | (.mark _, _) => none
  | c :: rest => some (.char c, rest)

/-- The character that decides whether the hyphen before it begins a range. A hash counts as blank
here. -/
def afterHyphen (verbose : Bool) (cs : List Char) : Option Char :=
  if verbose then
    match cs.dropWhile Text.isBlank with
    | '#' :: rest => (rest.dropWhile Text.isBlank).head? <|> cs.head?
    | c :: _ => some c
    | [] => cs.head?
  else cs.head?

/-- A range, or one item. A hyphen before the end of the class or before another hyphen is no
range. -/
def classRange? (verbose : Bool) (cs : List Char) : Option (ClassTree × List Char) := do
  let (first, rest) ← classItem? verbose cs
  match skip verbose rest with
  | [] => none
  | '-' :: more =>
    if afterHyphen verbose more = some ']' || afterHyphen verbose more = some '-' then
      some (first, '-' :: more)
    else
      match first, ← classItem? verbose (skip verbose more) with
      | .char a, (.char b, rest) => if a ≤ b then some (.range a b, rest) else none
      | _, _ => none
  | rest => some (first, rest)

/-- The part of a class read so far: the operand on the left of the last operator, and the items
after it, newest first. -/
structure ClassState where
  left : Option (ClassTree × SetOp) := none
  items : List ClassTree := []

namespace ClassState

def add (st : ClassState) (t : ClassTree) : ClassState := { st with items := t :: st.items }

def close (st : ClassState) : ClassTree :=
  let items := match st.items with
    | [t] => t
    | ts => .union ts.reverse
  match st.left with
  | none => items
  | some (l, o) => .op o l items

def operator (st : ClassState) (o : SetOp) : ClassState := ⟨some (st.close, o), []⟩

end ClassState

/-- The hyphens, or the bracket, that open a class and stand for themselves. -/
def classOpen (verbose : Bool) (cs : List Char) : ClassState × List Char :=
  match spacedRun verbose (· == '-') cs with
  | ([], ']' :: rest) => (({} : ClassState).add (.char ']'), skip verbose rest)
  | (hyphens, rest) => (⟨none, hyphens.map .char⟩, rest)

/-- A class after its opening bracket: `level` is how much deeper classes may nest, and the fuel the
length of the text. -/
def classBody? (verbose : Bool) (level : Nat) : Nat → ClassState → List Char →
    Option (ClassTree × List Char)
  | 0, _, _ => none
  | fuel + 1, st, cs =>
    match skip verbose cs with
    | [] => none
    | ']' :: rest => some (st.close, rest)
    | '&' :: '&' :: rest => classBody? verbose level fuel (st.operator .inter) rest
    | '-' :: '-' :: rest => classBody? verbose level fuel (st.operator .diff) rest
    | '~' :: '~' :: rest => classBody? verbose level fuel (st.operator .symmDiff) rest
    | '[' :: rest =>
      match namedClass? rest with
      | some (t, rest) => classBody? verbose level fuel (st.add t) rest
      | none =>
        match level with
        | 0 => none
        | level + 1 => do
          let (negated, rest) := match skip verbose rest with
            | '^' :: rest => (true, skip verbose rest)
            | rest => (false, rest)
          let (opened, rest) := classOpen verbose rest
          let (body, rest) ← classBody? verbose level fuel opened rest
          classBody? verbose (level + 1) fuel (st.add (.bracket negated body)) rest
    | rest => do
      let (t, rest) ← classRange? verbose rest
      classBody? verbose level fuel (st.add t) rest

/-- The class at an opening bracket. -/
def class? (verbose : Bool) (cs : List Char) : Option (ClassTree × List Char) :=
  match cs with
  | '[' :: rest =>
    let (negated, rest) := match skip verbose rest with
      | '^' :: rest => (true, skip verbose rest)
      | rest => (false, rest)
    let (opened, rest) := classOpen verbose rest
    (classBody? verbose nestLimit (rest.length + 1) opened rest).map fun (body, rest) =>
      (.bracket negated body, rest)
  | _ => none

end Statechart.Pattern
