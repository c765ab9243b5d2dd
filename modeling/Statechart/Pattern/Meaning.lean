import Statechart.Pattern.Basic
import Statechart.Pattern.Class
import Statechart.Text.Age
import Statechart.Text.CaseFold
import Statechart.Text.Script

/-!
# The meaning of written patterns

Flags turn a written pattern into a regular expression. A change of flags holds to the end of its
group. With the flag for Unicode off, classes are those of ASCII, and what could take part of a
character is refused.
-/

namespace Statechart.Pattern

structure Flags where
  caseless : Bool := false
  multiline : Bool := false
  dotAll : Bool := false
  breaks : Bool := false
  unicode : Bool := true

namespace Flags

def set (f : Flags) : Switch → Flags
  | (.caseless, on) => { f with caseless := on }
  | (.multiline, on) => { f with multiline := on }
  | (.dotAll, on) => { f with dotAll := on }
  | (.breaks, on) => { f with breaks := on }
  | (.unicode, on) => { f with unicode := on }
  | (.verbose, _) | (.lazy, _) => f

def setAll (f : Flags) (s : List Switch) : Flags := s.foldl set f

end Flags

/-! ## Properties -/

/-- Names of properties and their values agree up to case, blanks, hyphens, underscores and a
leading "is". What is not ASCII in them is overlooked. -/
def looseName (name : String) : String :=
  let cs := name.toList
  let (isPrefixed, cs) := match cs with
    | a :: b :: rest =>
      if (a == 'i' || a == 'I') && (b == 's' || b == 'S') then (true, rest) else (false, cs)
    | _ => (false, cs)
  let kept := cs.filter fun c => c.toNat < 0x80 && c != ' ' && c != '_' && c != '-'
  let name := String.ofList (kept.map Char.toLower)
  if isPrefixed && name == "c" then "isc" else name

/-- The characters of a property, a general category or a script. Three names that properties with
other values share go to the categories. -/
def namedSet? (name : String) : Option CharSet :=
  let shared := name == "cf" || name == "sc" || name == "lc"
  (if shared then none else Text.property? name) <|> Text.category? name <|>
    (Text.script? name).map Text.Script.set

def valuedSet? (name value : String) : Option CharSet :=
  match name with
  | "gc" | "generalcategory" => Text.category? value
  | "sc" | "script" => (Text.script? value).map Text.Script.set
  | "scx" | "scriptextensions" => (Text.script? value).map Text.Script.extended
  | "age" => Text.age? value
  | _ => none

def PropertyName.set? : PropertyName → Option CharSet
  | .alone name => namedSet? (looseName name)
  | .valued name value => valuedSet? (looseName name) (looseName value)

/-! ## Classes -/

def Shorthand.set : Shorthand → CharSet
  | .digit => Text.digits
  | .space => Text.blanks
  | .word => Text.wordCharacters

def Shorthand.asciiSet : Shorthand → CharSet
  | .digit => decimalDigits
  | .space => asciiSpace
  | .word => asciiWord

namespace Flags

/-- The case variants too, where case does not count. -/
def variants (f : Flags) (s : CharSet) : CharSet :=
  if !f.caseless then s else if f.unicode then Text.caseVariants s else Text.asciiCaseVariants s

/-- What is no set of whole characters is refused. -/
def checked? (f : Flags) (s : CharSet) : Option CharSet :=
  if f.unicode || s.isAscii then some s else none

/-- The complement of a negated set. -/
def negate? (f : Flags) (negated : Bool) (s : CharSet) : Option CharSet :=
  f.checked? (if negated then s.compl else s)

def shorthand? (f : Flags) (k : Shorthand) (negated : Bool) : Option CharSet :=
  f.negate? negated (if f.unicode then k.set else k.asciiSet)

def property? (f : Flags) (p : PropertyName) (negated : Bool) : Option CharSet :=
  if f.unicode then p.set?.bind fun s => f.negate? negated (f.variants s) else none

end Flags

def SetOp.apply : SetOp → CharSet → CharSet → CharSet
  | .inter => .inter
  | .diff => .diff
  | .symmDiff => .symmDiff

mutual

/-- The characters of a class. Case variants join a set before it is negated, and both operands
before an operator applies. -/
def ClassTree.set? (f : Flags) : ClassTree → Option CharSet
  | .char c => f.checked? (.single c)
  | .range a b => f.checked? (.range a.toNat b.toNat)
  | .ascii s negated => f.negate? negated (f.variants s)
  | .shorthand k negated => f.shorthand? k negated
  | .property p negated => f.property? p negated
  | .bracket negated body => do f.negate? negated (f.variants (← body.set? f))
  | .union items => do some (.unionAll (← ClassTree.sets? f items))
  | .op o a b => do some (o.apply (f.variants (← a.set? f)) (f.variants (← b.set? f)))

def ClassTree.sets? (f : Flags) : List ClassTree → Option (List CharSet)
  | [] => some []
  | t :: ts => do some ((← t.set? f) :: (← ClassTree.sets? f ts))

end

/-! ## Patterns -/

/-- Every character but the ends of lines, unless they count too. -/
def Flags.dot? (f : Flags) : Option CharSet :=
  if !f.unicode then none
  else if f.dotAll then some .all
  else if f.breaks then some ((CharSet.single '\n').union (.single '\r')).compl
  else some (CharSet.single '\n').compl

/-- A byte beyond ASCII is no character unless bytes name characters. -/
def Flags.char? (f : Flags) (c : Char) (byte : Bool) : Option CharSet :=
  if byte && !f.unicode && 0x7F < c.toNat then none else some (f.variants (.single c))

def Flags.anchor (f : Flags) : Mark → Anchor
  | .lineStart => if !f.multiline then .textStart else if f.breaks then .breakStart else .lineStart
  | .lineEnd => if !f.multiline then .textEnd else if f.breaks then .breakEnd else .lineEnd
  | .textStart => .textStart
  | .textEnd => .textEnd
  | .word edge => .word edge !f.unicode

/-- The parts of a sequence that take or ask for something. -/
def dropEmpty (rs : List Regex) : List Regex :=
  rs.filter fun r => match r with
    | .empty => false
    | _ => true

mutual

/-- The expression of a pattern and the flags after it. -/
def Tree.regex? (f : Flags) : Tree → Option (Regex × Flags)
  | .empty => some (.empty, f)
  | .flags s => some (.empty, f.setAll s)
  | .char c byte => (f.char? c byte).map fun s => (.chars s, f)
  | .dot => f.dot?.map fun s => (.chars s, f)
  | .mark m => some (.anchor (f.anchor m), f)
  | .shorthand k negated => (f.shorthand? k negated).map fun s => (.chars s, f)
  | .property p negated => (f.property? p negated).map fun s => (.chars s, f)
  | .cls c => (c.set? f).map fun s => (.chars s, f)
  | .repeat t min max => do
    let (r, f) ← t.regex? f
    some (.repeated r min max, f)
  | .group captures s t => do
    let (r, _) ← t.regex? (f.setAll s)
    some (if captures then .group r else r, f)
  | .alternation ts => do
    let (rs, f) ← Tree.regexes? f ts
    some (.altAll rs, f)
  | .concat ts => do
    let (rs, f) ← Tree.regexes? f ts
    some (.seqAll (dropEmpty rs), f)

def Tree.regexes? (f : Flags) : List Tree → Option (List Regex × Flags)
  | [] => some ([], f)
  | t :: ts => do
    let (r, f) ← t.regex? f
    let (rs, f) ← Tree.regexes? f ts
    some (r :: rs, f)

end

end Statechart.Pattern
