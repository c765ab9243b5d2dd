import Statechart.Pattern.Class

/-!
# Reading patterns

Literals, classes, groups, choices, repetitions, anchors and flags. A repetition needs something to
repeat, a group must close, and no two groups share a name; look-around and back-references are
refused.
-/

namespace Statechart.Pattern

/-! ## Repetition -/

/-- A number below 2^32 with blanks around it. -/
def count? (verbose : Bool) (cs : List Char) : Option (Nat × List Char) :=
  let (ds, rest) := spacedRun verbose Char.isDigit (Text.skipBlank cs)
  let n := ds.foldl (fun n c => n * 10 + (c.toNat - '0'.toNat)) 0
  if ds.isEmpty || Nat.pow 2 32 ≤ n then none else some (n, Text.skipBlank rest)

/-- The bounds of a counted repetition after its opening brace. -/
def bounds? (verbose : Bool) (cs : List Char) : Option (Nat × Option Nat × List Char) := do
  let (min, rest) ← count? verbose (skip verbose cs)
  match rest with
  | '\x7d' :: rest => some (min, some min, rest)
  | ',' :: rest =>
    match skip verbose rest with
    | '\x7d' :: rest => some (min, none, rest)
    | rest =>
      let (max, rest) ← count? verbose rest
      match rest with
      | '\x7d' :: rest => if min ≤ max then some (min, some max, rest) else none
      | _ => none
  | _ => none

/-- Drops the mark of a repetition that prefers fewer rounds. -/
def dropLazy : List Char → List Char
  | '?' :: rest => rest
  | cs => cs

/-! ## Groups -/

def isNameStart (c : Char) : Bool := c == '_' || Text.isAlphabetic c

def isNameChar (c : Char) : Bool :=
  c == '_' || c == '.' || c == '[' || c == ']' || Text.isAlphanumeric c

/-- The name of a group up to its closing angle bracket. -/
def groupName? (cs : List Char) : Option (String × List Char) :=
  let name := cs.takeWhile (· != '>')
  match name, cs.drop name.length with
  | c :: more, '>' :: rest =>
    if isNameStart c && more.all isNameChar then some (String.ofList name, rest) else none
  | _, _ => none

def flag? : Char → Option Flag
  | 'i' => some .caseless
  | 'm' => some .multiline
  | 's' => some .dotAll
  | 'R' => some .breaks
  | 'u' => some .unicode
  | 'x' => some .verbose
  | 'U' => some .lazy
  | _ => none

/-- Flags up to the colon or the parenthesis after them. No flag comes twice, and a hyphen turns
those after it off. -/
def flags? (on : Bool) (seen : List Switch) : List Char → Option (List Switch × Char × List Char)
  | [] => none
  | '-' :: rest =>
    match rest with
    | ':' :: _ | ')' :: _ => none
    | _ => if on then flags? false seen rest else none
  | c :: rest =>
    if c = ':' || c = ')' then some (seen.reverse, c, rest)
    else
      match flag? c with
      | some f => if seen.any (·.1 = f) then none else flags? on ((f, on) :: seen) rest
      | none => none

/-- How a group begins. -/
inductive GroupOpen where
  | capture (name : Option String)
  | scoped (s : List Switch)
  | setFlags (s : List Switch)

/-- The beginning of a group after its parenthesis. -/
def groupOpen? (cs : List Char) : Option (GroupOpen × List Char) :=
  match cs with
  | '?' :: '=' :: _ | '?' :: '!' :: _ | '?' :: '<' :: '=' :: _ | '?' :: '<' :: '!' :: _ => none
  | '?' :: 'P' :: '<' :: rest | '?' :: '<' :: rest =>
    (groupName? rest).map fun (n, rest) => (.capture (some n), rest)
  | '?' :: rest => do
    let (switches, close, rest) ← flags? true [] rest
    if close = ':' then some (.scoped switches, rest)
    else if switches.isEmpty then none
    else some (.setFlags switches, rest)
  | rest => some (.capture none, rest)

/-- Whether filler is skipped after the switches. -/
def verboseAfter (verbose : Bool) (s : List Switch) : Bool :=
  match s.find? (·.1 = .verbose) with
  | some (_, on) => on
  | none => verbose

/-! ## Sequences -/

/-- What has been read of a group, newest first: the alternatives before, the items of the last one,
and the names of groups. -/
structure Progress where
  verbose : Bool := false
  branches : List Tree := []
  items : List Tree := []
  names : List String := []

namespace Progress

def push (p : Progress) (t : Tree) : Progress := { p with items := t :: p.items }

def branch (p : Progress) : Tree :=
  match p.items with
  | [] => .empty
  | [t] => t
  | ts => .concat ts.reverse

def nextBranch (p : Progress) : Progress :=
  { p with branches := p.branch :: p.branches, items := [] }

def close (p : Progress) : Tree :=
  match p.branches with
  | [] => p.branch
  | bs => .alternation (p.branch :: bs).reverse

/-- Repeats the last item, which a change of flags is not. -/
def repeat? (p : Progress) (min : Nat) (max : Option Nat) : Option Progress :=
  match p.items with
  | [] | .flags _ :: _ => none
  | t :: rest => some { p with items := .repeat t min max :: rest }

def addName? (p : Progress) : Option String → Option Progress
  | none => some p
  | some n => if p.names.contains n then none else some { p with names := n :: p.names }

def pushEscape (p : Progress) : Escape → Progress
  | .char c byte => p.push (.char c byte)
  | .shorthand k negated => p.push (.shorthand k negated)
  | .property n negated => p.push (.property n negated)
  | .mark m => p.push (.mark m)

end Progress

/-- Reads up to the parenthesis that closes the group, or to the end: `level` is how much deeper
groups may nest, and the fuel the length of the text. -/
def sequence? (level : Nat) : Nat → Progress → List Char → Option (Tree × List String × List Char)
  | 0, _, _ => none
  | fuel + 1, p, cs =>
    match skip p.verbose cs with
    | [] => some (p.close, p.names, [])
    | ')' :: rest => some (p.close, p.names, ')' :: rest)
    | '|' :: rest => sequence? level fuel p.nextBranch rest
    | '[' :: rest => do
      let (c, rest) ← class? p.verbose ('[' :: rest)
      sequence? level fuel (p.push (.cls c)) rest
    | '?' :: rest => do sequence? level fuel (← p.repeat? 0 (some 1)) (dropLazy rest)
    | '*' :: rest => do sequence? level fuel (← p.repeat? 0 none) (dropLazy rest)
    | '+' :: rest => do sequence? level fuel (← p.repeat? 1 none) (dropLazy rest)
    | '\x7b' :: rest => do
      let (min, max, rest) ← bounds? p.verbose rest
      sequence? level fuel (← p.repeat? min max) (dropLazy (skip p.verbose rest))
    | '(' :: rest => do
      let (opened, rest) ← groupOpen? (skip p.verbose rest)
      match opened with
      | .setFlags s =>
        sequence? level fuel { p.push (.flags s) with verbose := verboseAfter p.verbose s } rest
      | .scoped s => group? level fuel p p.names false s rest
      | .capture name =>
        let named ← p.addName? name
        group? level fuel p named.names true [] rest
    | '\\' :: rest => do
      let (e, rest) ← escape? p.verbose rest
      sequence? level fuel (p.pushEscape e) rest
    | '.' :: rest => sequence? level fuel (p.push .dot) rest
    | '^' :: rest => sequence? level fuel (p.push (.mark .lineStart)) rest
    | '$' :: rest => sequence? level fuel (p.push (.mark .lineEnd)) rest
    | c :: rest => sequence? level fuel (p.push (.char c false)) rest
where
  /-- Reads a group after its beginning and goes on behind it. -/
  group? (level fuel : Nat) (p : Progress) (names : List String) (captures : Bool) (s : List Switch)
      (cs : List Char) : Option (Tree × List String × List Char) :=
    match level with
    | 0 => none
    | inner + 1 => do
      let (t, names, rest) ←
        sequence? inner fuel { verbose := verboseAfter p.verbose s, names } cs
      match rest with
      | ')' :: rest =>
        sequence? level fuel { p with items := .group captures s t :: p.items, names } rest
      | _ => none

/-- The parts of a written pattern. -/
def tree? (source : String) : Option Tree :=
  let cs := source.toList
  match sequence? nestLimit (cs.length + 1) {} cs with
  | some (t, _, []) => some t
  | _ => none

end Statechart.Pattern
