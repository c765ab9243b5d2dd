import Statechart.Event
import Statechart.Handlers
import Statechart.Json.Access
import Statechart.Json.Tree

/-!
# Scripts

Behaviors written down as instructions: they answer, fail, count in variables, branch, change the
table of handlers, and have steps performed on the machine that runs them.
-/

namespace Statechart

open Json

/-- A test of the name and the arguments of an event. -/
inductive EventTest where
  | constant (b : Bool)
  | argumentCount (n : Nat)
  /-- The first argument as a 64-bit integer, zero where it is none, is greater. -/
  | firstAbove (n : Int)
  | firstEquals (v : Value)
  | nameStarts (start : String)

namespace EventTest

def holds (name : String) (args : List Value) : EventTest → Bool
  | .constant b => b
  | .argumentCount n => args.length == n
  | .firstAbove n => n < (args.head?.bind Value.int64?).getD 0
  | .firstEquals v => args.head? == some v
  | .nameStarts start => start.isPrefixOf name

/-- The test of a document; the first key that is there decides, and without any the test fails. -/
def ofValue (v : Value) : EventTest :=
  let read : List (Option (Option EventTest)) :=
    [(v.member? "always").map fun
        | .bool b => some (.constant b)
        | _ => none,
      (v.member? "argc").map fun n => (n.nat? 64).map .argumentCount,
      (v.member? "arg0_gt").map fun n => n.int64?.map .firstAbove,
      (v.member? "arg0_eq").map fun w => some (.firstEquals w),
      (v.member? "prefix").map fun s => s.text?.map .nameStarts]
  ((read.filterMap id).head?.join).getD (.constant false)

/-- A test of arguments alone. -/
def onArgs (t : EventTest) (args : List Value) : Bool := t.holds "" args

end EventTest

inductive Instruction where
  /-- Ends the script with an answer. -/
  | answer (a : Option Bool)
  | answerLess (name : String) (n : Int)
  | answerIf (test : EventTest)
  | fail (text : String)
  | set (name : String) (n : Int)
  | increment (name : String)
  | ifLess (name : String) (n : Int) (yes no : List Instruction)
  /-- Asks for the name of the element that the script runs for. -/
  | ifElement (name : String) (yes no : List Instruction)
  /-- Has a step performed; if it fails, so does the script. -/
  | call (step : Value)
  /-- Has a step performed, whatever comes of it. -/
  | attempt (step : Value)
  | removeHandler (name : String)
  | insertHandler (name : String) (body : List Instruction)

structure Script where
  label : String
  /-- Whether it stands in a table of handlers. -/
  isHandler : Bool
  body : List Instruction

namespace Instruction

/-- A name and a number. -/
def counter? : Value → Option (String × Int)
  | .array [.string name, n] => n.int64?.map (name, ·)
  | _ => none

mutual

/-- Reads an instruction, lists at most `n` deep. The first key that is there decides. -/
def ofValue? : Nat → Value → Option Instruction
  | 0, _ => none
  | n + 1, v =>
    if let some a := v.member? "ret" then
      match a with
      | .bool b => some (.answer (some b))
      | _ => some (.answer none)
    else if let some pair := v.member? "ret_lt" then
      (counter? pair).map fun (name, k) => .answerLess name k
    else if let some test := v.member? "ret_if" then some (.answerIf (.ofValue test))
    else if let some text := v.member? "fail" then text.text?.map .fail
    else if let some pair := v.member? "set" then (counter? pair).map fun (name, k) => .set name k
    else if let some name := v.member? "inc" then name.text?.map .increment
    else if let some pair := v.member? "if_lt" then do
      let (name, k) ← counter? pair
      some (.ifLess name k (← listOfValue? n (v.member "then"))
        (← listOfValue? n (v.member "else")))
    else if let some name := v.member? "if_el" then do
      some (.ifElement (← name.text?) (← listOfValue? n (v.member "then"))
        (← listOfValue? n (v.member "else")))
    else if let some step := v.member? "call" then some (.call step)
    else if let some step := v.member? "try" then some (.attempt step)
    else if let some name := v.member? "off" then name.text?.map .removeHandler
    else match v.member? "on" with
      | some (.array [.string name, body]) => (listOfValue? n body).map (.insertHandler name)
      | _ => none

/-- Reads the instructions of a list. -/
def listOfValue? : Nat → Value → Option (List Instruction)
  | 0, _ => none
  | n + 1, v => do (← v.items?).mapM fun i => ofValue? n i

end

end Instruction

namespace Script

/-- Reads the instructions of a document. Each list in them takes a level of the document or
more. -/
def bodyOfValue? (v : Value) : Option (List Instruction) :=
  Instruction.listOfValue? (2 * Tree.maxDepth) v

end Script
end Statechart
