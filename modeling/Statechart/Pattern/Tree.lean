import Statechart.Pattern.Anchor
import Statechart.Text.CharSet

/-!
# Written patterns

A pattern as it is written: which parts it has and how they nest, before flags give them a meaning.
The nesting of a pattern is limited.
-/

namespace Statechart.Pattern

inductive Flag where
  | caseless
  | multiline
  | dotAll
  | breaks
  | unicode
  | verbose
  /-- Repetitions prefer fewer rounds, which changes no answer. -/
  | lazy
  deriving DecidableEq

/-- A flag that is turned on or off. -/
abbrev Switch := Flag × Bool

/-- The classes with an escape of their own. -/
inductive Shorthand where
  | digit
  | space
  | word

/-- How a pattern names a property of characters. -/
inductive PropertyName where
  | alone (name : String)
  | valued (name value : String)

/-- An anchor as it is written; flags decide which lines and words it speaks of. -/
inductive Mark where
  | lineStart
  | lineEnd
  | textStart
  | textEnd
  | word (edge : WordEdge)

inductive SetOp where
  | inter
  | diff
  | symmDiff

inductive ClassTree where
  | char (c : Char)
  | range (first last : Char)
  | ascii (s : CharSet) (negated : Bool)
  | shorthand (k : Shorthand) (negated : Bool)
  | property (p : PropertyName) (negated : Bool)
  | bracket (negated : Bool) (body : ClassTree)
  | union (items : List ClassTree)
  | op (o : SetOp) (a b : ClassTree)

inductive Tree where
  | empty
  | flags (s : List Switch)
  /-- A character; two hexadecimal digits write a byte. -/
  | char (c : Char) (byte : Bool)
  | dot
  | mark (m : Mark)
  | shorthand (k : Shorthand) (negated : Bool)
  | property (p : PropertyName) (negated : Bool)
  | cls (c : ClassTree)
  | repeat (t : Tree) (min : Nat) (max : Option Nat)
  | group (captures : Bool) (s : List Switch) (t : Tree)
  | alternation (ts : List Tree)
  | concat (ts : List Tree)

/-- The deepest nesting that a pattern may have. -/
def nestLimit : Nat := 250

/-- Whether brackets, unions and operators nest no deeper than so. -/
def ClassTree.fits : Nat → ClassTree → Bool
  | _, .char _ | _, .range _ _ | _, .ascii _ _ | _, .shorthand _ _ | _, .property _ _ => true
  | _, .union [] => true
  | 0, _ => false
  | n + 1, .bracket _ body => body.fits n
  | n + 1, .union items => items.all (ClassTree.fits n)
  | n + 1, .op _ a b => a.fits n && b.fits n

/-- Whether groups, repetitions, sequences, choices and classes nest no deeper than so. -/
def Tree.fits : Nat → Tree → Bool
  | _, .empty | _, .flags _ | _, .char _ _ | _, .dot | _, .mark _ | _, .shorthand _ _
  | _, .property _ _ => true
  | n, .cls c => c.fits n
  | 0, _ => false
  | n + 1, .repeat t _ _ | n + 1, .group _ _ t => t.fits n
  | n + 1, .alternation ts | n + 1, .concat ts => ts.all (Tree.fits n)

end Statechart.Pattern
