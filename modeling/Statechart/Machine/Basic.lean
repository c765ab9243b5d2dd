import Statechart.History
import Statechart.Json.Debug
import Statechart.Machine.Error
import Statechart.Options
import Statechart.Uuid

/-!
# Machines

A machine is one execution of a definition: handles into its graph, two queues, and flags for what
is under way. Its history is a log of a store that machines share.
-/

namespace Statechart

open Json

/-- A transition waiting to be fired, with the arguments for its behaviors. -/
structure Pending where
  transition : TransitionId
  args : List Value
  deriving Inhabited

/-- The phases of a move that are under way. -/
structure Phase where
  entry : Bool := false
  exit : Bool := false
  effect : Bool := false
  doActivity : Bool := false
  deriving DecidableEq, Repr, Inhabited

namespace Phase

/-- No phase is under way. -/
def idle : Phase := {}

end Phase

inductive Status where
  | idle
  | running
  | paused
  deriving DecidableEq, Repr, Inhabited

namespace Status

def key : Status → String
  | .idle => "idle"
  | .running => "running"
  | .paused => "paused"

def ofKey? : String → Option Status
  | "idle" => some .idle
  | "running" => some .running
  | "paused" => some .paused
  | _ => none

def debug : Status → String
  | .idle => "Idle"
  | .running => "Running"
  | .paused => "Paused"

end Status

/-- One step of a machine, as an observer sees it. -/
inductive Notice where
  | started (s : StateId)
  | eventDequeued (event : String)
  | transitionQueued (t : TransitionId)
  | guardEvaluated (t : TransitionId) (passed : Bool)
  | effectInvoked (t : TransitionId)
  | stateExited (s : StateId)
  | stateEntered (s : StateId)
  | activityInvoked (s : StateId)
  | transitionFired (t : TransitionId) (source : Option StateId) (target : StateId)
  | rolledBack (s : Option StateId)
  | paused
  | resumed
  deriving DecidableEq, Repr

/-- How far a run goes: until the queue is empty, or one firing. -/
inductive RunMode where
  | continuous
  | single
  deriving DecidableEq, Repr, Inhabited

inductive StopReason where
  | queueEmpty
  | singleStep
  | paused
  | atEnd
  deriving DecidableEq, Repr

inductive RunOutcome where
  | alreadyRunning
  | completed (fired : Nat) (stop : StopReason)
  deriving DecidableEq, Repr

namespace RunOutcome

def fired : RunOutcome → Nat
  | .alreadyRunning => 0
  | .completed n _ => n

def stop : RunOutcome → Option StopReason
  | .alreadyRunning => none
  | .completed _ s => some s

end RunOutcome

/-- What came of an event. -/
inductive DispatchOutcome where
  | fired (t : TransitionId)
  | queued (t : TransitionId)
  | ambiguous (ts : List TransitionId)
  | unhandled
  deriving DecidableEq, Repr

structure Machine (κ : Type) where
  id : Uuid
  graph : Graph κ
  definition : DefinitionId
  active : Option StateId := none
  events : List Event := []
  pending : Option Pending := none
  phase : Phase := .idle
  running : Bool := false
  paused : Bool := false
  /-- The transition being fired. -/
  firing : Option TransitionId := none
  lastTransition : Option TransitionId := none
  /-- The event being handled. -/
  event : Option Event := none
  /-- The label of the trigger that accepted it. -/
  trigger : Option String := none
  history : HistoryLog
  options : MachineOptions

namespace Machine

variable {κ : Type}

/-- A machine for a definition, with a new log. -/
def bound (id : Uuid) (g : Graph κ) (d : DefinitionId) (o : MachineOptions) (logs : LogStore) :
    Machine κ × LogStore :=
  let (history, logs) := logs.create
  ({ id, graph := g, definition := d, history, options := o }, logs)

def withOptions (id : Uuid) (g : Graph κ) (o : MachineOptions)
    (logs : LogStore) : Machine κ × LogStore :=
  bound id g g.root o logs

/-- A machine for any definition of the graph. -/
def forDefinition (id : Uuid) (g : Graph κ) (d : DefinitionId) (logs : LogStore) :
    Except MachineError (Machine κ × LogStore) :=
  match g.definition d with
  | .ok _ => .ok (bound id g d {} logs)
  | .error e => .error (.graph e)

def started (m : Machine κ) : Bool := m.active.isSome

def activePath (m : Machine κ) : Option String := m.active.map m.graph.pathOfState

def activeState (m : Machine κ) : Option (State κ) := m.active.bind m.graph.state?

/-- Whether the active state is the one that a start enters. -/
def atStart (m : Machine κ) : Bool :=
  let start := ((m.graph.definition? m.definition).bind (·.start)).map m.graph.resolveEntryTarget
  start.isSome && m.active == start

def atEnd (m : Machine κ) : Bool :=
  let final := (m.graph.definition? m.definition).bind (·.final)
  final.isSome && m.active == final

/-- Whether a state is the active one or around it. -/
def isActive (m : Machine κ) (s : StateId) : Bool :=
  m.active.any fun a => (m.graph.ancestors a).contains s

def status (m : Machine κ) : Status :=
  if m.running then (if m.paused then .paused else .running) else .idle

/-- Whether a state lies in the machine's definition. -/
def covers (m : Machine κ) (s : StateId) : Bool :=
  (m.graph.state? s).any fun st => m.graph.isWithin st.owner m.definition

/-- A state and its superstates as far as the machine's definition goes. -/
def scopedAncestors (m : Machine κ) (s : StateId) : List StateId :=
  (m.graph.ancestors s).takeWhile m.covers

/-- Whether a transition leads into the machine's definition. -/
def leadsInside (m : Machine κ) (t : TransitionId) : Except GraphError Bool := do
  let target ← m.graph.state (← m.graph.transition t).target
  .ok (m.graph.isWithin target.owner m.definition)

/-- The transitions that leave a state or a superstate of it and stay in the machine's definition,
innermost first. -/
def candidatesFrom (m : Machine κ) (s : StateId) : Except GraphError (List TransitionId) := do
  let levels ← (m.scopedAncestors s).mapM fun s => do
    let st ← m.graph.state s
    st.outgoing.filterM m.leadsInside
  .ok levels.flatten

def debug (m : Machine κ) (logs : LogStore) (id : String) : String :=
  let pending (p : Pending) : String :=
    Text.debugRecord "PendingTransition"
      [("transition", Text.debugCall "TransitionId" (toString p.transition.index)),
        ("args", Text.debugList (p.args.map Value.debug))]
  Text.debugRecord "Machine"
    [("id", id),
      ("definition", Text.debugCall "DefinitionId" (toString m.definition.index)),
      ("active", Text.debugOption Text.debugString m.activePath),
      ("status", m.status.debug),
      ("pending", Text.debugOption pending m.pending),
      ("events", toString m.events.length),
      ("history", toString (logs.records m.history).length)]

def transitionPaths (m : Machine κ) (ts : List TransitionId) : List String :=
  ts.map m.graph.pathOfTransition

end Machine

end Statechart
