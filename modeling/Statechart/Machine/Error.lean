import Statechart.Validation

/-!
# What can go wrong with a machine
-/

namespace Statechart

/-- What must not be done while it, or something like it, is under way. -/
inductive Operation where
  | entry
  | exit
  | doActivity
  | effect
  | fireTransition
  | queueTransition
  | pause
  | resume
  | isolate
  deriving DecidableEq, Repr

def Operation.label : Operation → String
  | .entry => "entry"
  | .exit => "exit"
  | .doActivity => "doActivity"
  | .effect => "effect"
  | .fireTransition => "fire_transition"
  | .queueTransition => "queue_transition"
  | .pause => "pause"
  | .resume => "resume"
  | .isolate => "isolate"

/-- Why a transition cannot be taken. -/
inductive Refusal where
  | atEnd
  | notLeaving
  | sourceInactive
  | guardRejected
  deriving DecidableEq, Repr

def Refusal.reason : Refusal → String
  | .atEnd => "machine is at its end state"
  | .notLeaving => "does not leave the active state"
  | .sourceInactive => "source state is not active"
  | .guardRejected => "guard rejected"

/-- Paths and names are those of the time of the error. -/
inductive MachineError where
  | unknownTransition (name state : String)
  | cannotTransition (transition : String) (why : Refusal)
  | ambiguousTransition (candidates : List String)
  | unexpectedRecursion (operation : Operation)
  | transitionPending (pending : String)
  | noTransitions (event : String)
  | tooManyTransitions (event : String) (candidates : List String)
  | objectInvalid (findings : List Finding)
  | notImplemented (feature : String)
  | notStarted
  | noStartState (definition : String)
  | notComposite (state : String)
  | behavior (name text : String)
  | graph (e : GraphError)
  deriving DecidableEq, Repr

namespace MachineError

def message : MachineError → String
  | .unknownTransition name state =>
    "Unknown transition '" ++ name ++ "' from state '" ++ state ++ "'"
  | .cannotTransition transition why =>
    "Cannot take transition '" ++ transition ++ "': " ++ why.reason
  | .ambiguousTransition candidates =>
    "Ambiguous transition, candidates: " ++ String.intercalate ", " candidates
  | .unexpectedRecursion operation => "Unexpected recursion in " ++ operation.label
  | .transitionPending pending => "Transition '" ++ pending ++ "' is already pending"
  | .noTransitions event => "No transitions for event: '" ++ event ++ "'"
  | .tooManyTransitions event _ => "Too many transitions for event: '" ++ event ++ "'"
  | .objectInvalid findings =>
    "Definition is invalid: " ++ toString findings.length ++ " finding(s)"
  | .notImplemented feature => feature ++ " not implemented"
  | .notStarted => "Machine has not been started"
  | .noStartState definition => "Definition '" ++ definition ++ "' has no start state"
  | .notComposite state => "State '" ++ state ++ "' is not composite"
  | .behavior name text => "Behavior '" ++ name ++ "' failed: " ++ text
  | .graph e => e.message

end MachineError

namespace Graph

variable {κ : Type}

/-- Fails unless the definition has no findings. -/
def validateStrict (g : Graph κ) (d : DefinitionId) : Except MachineError Unit :=
  let findings := g.validate d
  if findings.isEmpty then .ok () else .error (.objectInvalid findings)

end Graph

namespace State

variable {κ : Type}

/-- Orthogonal regions are not part of the model. -/
def isOrthogonal (_ : State κ) : Except MachineError Bool :=
  .error (.notImplemented "orthogonal regions")

end State
end Statechart
