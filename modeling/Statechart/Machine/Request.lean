import Statechart.Graph.Change
import Statechart.Machine.Copies
import Statechart.Machine.Run
import Statechart.Snapshot.Restore

/-!
# Requests to a machine

Every operation on a machine as data, with what it answers. A request is carried out with a
responder for the behaviors that it runs into.
-/

namespace Statechart

open Json

inductive Request (κ : Type) where
  | start (args : List Value)
  | goto (s : StateId) (args : List Value)
  | queue (t : TransitionId) (args : List Value)
  | run (mode : RunMode)
  /-- A run that asks a hook before each firing. -/
  | runWith (mode : RunMode) (hook : κ)
  | pause
  | resume
  | post (es : List Event)
  | runEvents
  | dispatch (e : Event)
  | matching (e : Event)
  | valid (args : List Value)
  | hasValid (args : List Value)
  | transitionsTo (s : StateId) (args : List Value)
  | canTransitionTo (s : StateId) (args : List Value)
  | transitionNamed (name : String) (args : List Value)
  | transitionById (t : TransitionId) (args : List Value)
  | transitionTo (s : StateId) (args : List Value)
  | transitionToNext (args : List Value)
  | tryTransitionToNext (args : List Value)
  | transitionIfValid (args : List Value)
  | isolate
  | setOptions (o : MachineOptions)
  | clearHistory
  | edit (e : Edit κ)
  | restore (s : Snapshot)
  /-- Asks the context for a name, on behalf of a state. -/
  | consult (name : String) (s : StateId) (args : List Value)

namespace Request

variable {κ : Type}

/-- What a request answers when it succeeds. -/
abbrev Answer : Request κ → Type
  | .start _ | .goto .. => StateId
  | .queue .. | .pause | .resume | .post _ | .isolate | .setOptions _ | .clearHistory => Unit
  | .run _ | .runWith .. | .runEvents => RunOutcome
  | .dispatch _ => DispatchOutcome
  | .matching _ => List (TransitionId × String)
  | .valid _ | .transitionsTo .. => List TransitionId
  | .hasValid _ | .canTransitionTo .. => Bool
  | .transitionNamed .. | .transitionById .. | .transitionTo .. | .transitionToNext _ =>
    TransitionId
  | .tryTransitionToNext _ | .transitionIfValid _ => Option TransitionId
  | .edit e => e.Answer
  | .restore _ => Except SnapshotError Unit
  | .consult .. => Option Bool

end Request

namespace Engine

variable {σ κ : Type}

/-- Edits the machine's graph. A failure keeps the graph as it then is. -/
def edit (e : Edit κ) : Engine σ κ e.Answer := do
  match e.apply.run (← machine).graph with
  | .ok a g => do
    update ({ · with graph := g })
    pure a
  | .error err g => do
    update ({ · with graph := g })
    fail (.graph err)

/-- Puts the machine where a snapshot says. -/
def restore (s : Snapshot) : Engine σ κ (Except SnapshotError Unit) := do
  match s.restoreInto (← machine) with
  | .ok m => do
    update fun _ => m
    pure (.ok ())
  | .error e => pure (.error e)

def clearHistory : Engine σ κ Unit :=
  modify fun w => { w with logs := w.logs.clear w.machine.history }

def consult (r : Responder σ κ) (name : String) (s : StateId) (args : List Value) :
    Engine σ κ (Option Bool) := do
  let st ← ofGraph ((← machine).graph.state s)
  r.call name (.state st) args

/-- Carries out a request. `hook` runs the body of a hook. -/
def carryOut (r : Responder σ κ) (hook : κ → Engine σ κ Unit) (fuel : Nat) :
    (q : Request κ) → Engine σ κ q.Answer
  | .start args => start r args
  | .goto s args => goto r s args
  | .queue t args => queueTransition t args
  | .run mode => run r fuel mode none
  | .runWith mode body => run r fuel mode (some (hook body))
  | .pause => pause
  | .resume => resume
  | .post es => post es
  | .runEvents => runEvents r fuel
  | .dispatch e => dispatch r fuel e
  | .matching e => transitionsMatching r e
  | .valid args => validTransitions r args
  | .hasValid args => hasValidTransition r args
  | .transitionsTo s args => transitionsTo r s args
  | .canTransitionTo s args => canTransitionTo r s args
  | .transitionNamed name args => transitionNamed r name args
  | .transitionById t args => transitionById r t args
  | .transitionTo s args => transitionTo r s args
  | .transitionToNext args => transitionToNext r args
  | .tryTransitionToNext args => tryTransitionToNext r args
  | .transitionIfValid args => transitionIfValid r args
  | .isolate => isolate
  | .setOptions o => update ({ · with options := o })
  | .clearHistory => clearHistory
  | .edit e => edit e
  | .restore s => restore s
  | .consult name s args => consult r name s args

end Engine
end Statechart
