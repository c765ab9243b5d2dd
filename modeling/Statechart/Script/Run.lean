import Statechart.Machine.Program
import Statechart.Report.Machine
import Statechart.Script.Basic

/-!
# Running scripts

A script runs as a program on the machine. It enters itself in a log, takes one unit of fuel, and
then follows its instructions; one that falls off its end gives no answer. Changes of the table of
handlers wait until a handler's script ends.
-/

namespace Statechart

open Json

/-- What scripts share. `τ` is what the steps they call for keep besides. -/
structure ScriptEnv (τ : Type) where
  counters : List (String × Int)
  log : List Value
  fuel : Nat
  handlers : HandlerTable Script
  /-- The changes that wait, in order; no body takes a handler away. -/
  changes : List (String × Option Script)
  /-- Whether the context answers to nothing, whatever its handlers. -/
  silent : Bool
  own : τ

namespace ScriptEnv

variable {τ : Type}

/-- An environment for scripts that may run a number of times. -/
def new (fuel : Nat) (own : τ) : ScriptEnv τ := ⟨[], [], fuel, .empty, [], false, own⟩

/-- A variable is zero until it is set. -/
def get (e : ScriptEnv τ) (name : String) : Int := (e.counters.lookup name).getD 0

def set (e : ScriptEnv τ) (name : String) (n : Int) : ScriptEnv τ :=
  { e with counters := (name, n) :: e.counters.filter (·.1 != name) }

def append (e : ScriptEnv τ) (entry : Value) : ScriptEnv τ := { e with log := e.log ++ [entry] }

def change (e : ScriptEnv τ) (name : String) (body : Option Script) : ScriptEnv τ :=
  { e with changes := e.changes ++ [(name, body)] }

/-- A table after a change. -/
def changed (t : HandlerTable Script) : String × Option Script → HandlerTable Script
  | (name, some body) => t.insert name body
  | (name, none) => t.erase name

/-- Makes the changes that wait. -/
def settle (e : ScriptEnv τ) : ScriptEnv τ :=
  { e with handlers := e.changes.foldl changed e.handlers, changes := [] }

def context (e : ScriptEnv τ) : HandlerTable Script := if e.silent then .empty else e.handlers

end ScriptEnv

/-- A program of a script. -/
abbrev ScriptProgram (τ α : Type) := Program (ScriptEnv τ) Script α

/-- How the steps of scripts are performed, given the label of the script. -/
abbrev StepRule (τ : Type) := String → Value → ScriptProgram τ (Except MachineError Unit)

/-- One run of a script. -/
structure Invocation where
  label : String
  /-- The name of the element that it runs for; a hook has none. -/
  element : Option String
  args : List Value

/-- How a script ends before its last instruction. -/
abbrev Ending := Except MachineError (Option Bool)

namespace Instruction

variable {τ : Type}

mutual

/-- Follows an instruction; none means to go on with the next. -/
def run (perform : StepRule τ) (i : Invocation) : Instruction → ScriptProgram τ (Option Ending)
  | .answer a => pure (some (.ok a))
  | .answerLess name n => do pure (some (.ok (some ((← Program.view).env.get name < n))))
  | .answerIf test => pure (some (.ok (some (test.onArgs i.args))))
  | .fail text => pure (some (.error (.behavior i.label text)))
  | .set name n => do
    Program.note (·.set name n)
    pure none
  | .increment name => do
    Program.note fun e => e.set name (e.get name + 1)
    pure none
  | .ifLess name n yes no => do
    if (← Program.view).env.get name < n then runAll perform i yes else runAll perform i no
  | .ifElement name yes no =>
    if i.element = some name then runAll perform i yes else runAll perform i no
  | .call step => do
    match ← perform i.label step with
    | .ok _ => pure none
    | .error e => pure (some (.error e))
  | .attempt step => do
    let _ ← perform i.label step
    pure none
  | .removeHandler name => do
    Program.note (·.change name none)
    pure none
  | .insertHandler name body => do
    Program.note (·.change name (some ⟨name, true, body⟩))
    pure none

/-- Follows instructions in order until one ends the script. -/
def runAll (perform : StepRule τ) (i : Invocation) :
    List Instruction → ScriptProgram τ (Option Ending)
  | [] => pure none
  | x :: rest => do
    match ← run perform i x with
    | some ending => pure (some ending)
    | none => runAll perform i rest

end

end Instruction

namespace Script

variable {τ : Type}

def elementText {κ : Type} : Element κ → String
  | .state s => "state " ++ s.name
  | .transition t => "transition " ++ t.name

/-- What the log says of a script that begins. -/
def entry {κ : Type} (label : String) (element : Option (Element κ)) (args : List Value)
    (m : Machine κ) : Value :=
  .record
    [("b", .string label), ("el", .ofOption (fun e => .string (elementText e)) element),
      ("args", .array args), ("fl", .string m.flagLetters), ("at", .ofOption .string m.activePath),
      ("ev", .ofOption (fun e => .string e.name) m.event), ("tr", .ofOption .string m.trigger),
      ("t", .ofOption m.graph.transitionPathReport m.firing)]

/-- Enters a script in the log at the cost of a unit of fuel. -/
def recordStart (e : ScriptEnv τ) (entry : Value) : ScriptEnv τ :=
  { e.append entry with fuel := e.fuel - 1 }

def routine (perform : StepRule τ) (s : Script) (element : Option (Element Script))
    (args : List Value) : ScriptProgram τ Ending := do
  let v ← Program.view
  if v.env.fuel = 0 then return .error (.behavior "fuel" "exhausted")
  Program.note (recordStart · (entry s.label element args v.machine))
  let ending ← Instruction.runAll perform ⟨s.label, element.map (·.name), args⟩ s.body
  if s.isHandler then Program.note ScriptEnv.settle
  pure (ending.getD (.ok none))

/-- The host that runs scripts. -/
def host (perform : StepRule τ) : Host (ScriptEnv τ) Script := ⟨ScriptEnv.context, routine perform⟩

end Script
end Statechart
