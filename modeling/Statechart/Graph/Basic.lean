import Statechart.Arena
import Statechart.Behavior
import Statechart.Event
import Statechart.Handle

/-!
# Statechart graphs

A graph holds definitions, states and transitions in three arenas. Each state and each transition
names the definition that owns it, and a definition nested in a composite state names that state.
Nothing here ties the handles of one element to the others: edits keep those ties, and a handle may
name an element that is gone.
-/

namespace Statechart

inductive StateKind where
  | normal
  | start
  | final
  deriving DecidableEq, Repr, Inhabited

namespace StateKind

def key : StateKind → String
  | .normal => "normal"
  | .start => "start"
  | .final => "end"

def ofKey? : String → Option StateKind
  | "normal" => some .normal
  | "start" => some .start
  | "end" => some .final
  | _ => none

end StateKind

/-- An internal transition moves the active state without leaving or entering any. -/
inductive TransitionKind where
  | external
  | internal
  deriving DecidableEq, Repr, Inhabited

namespace TransitionKind

def key : TransitionKind → String
  | .external => "external"
  | .internal => "internal"

def ofKey? : String → Option TransitionKind
  | "external" => some .external
  | "internal" => some .internal
  | _ => none

end TransitionKind

/-- What is said of a state apart from its place in a graph. -/
structure StateSpec (κ : Type) where
  name : String
  metadata : Json.Fields := []
  entry : Behavior κ := .absent
  exit : Behavior κ := .absent
  doActivity : Behavior κ := .absent
  deriving Inhabited

/-- What a state borders on through its transitions. -/
structure Neighbours where
  sources : List StateId
  targets : List StateId
  transitions : List TransitionId
  deriving DecidableEq, Repr

structure State (κ : Type) extends StateSpec κ where
  kind : StateKind
  owner : DefinitionId
  /-- The definition nested in a composite state. -/
  submachine : Option DefinitionId
  incoming : List TransitionId
  outgoing : List TransitionId
  /-- The answer of an earlier query, until an edit discards it. -/
  neighbours : Option Neighbours := none
  deriving Inhabited

/-- What is said of a transition apart from its owner. -/
structure TransitionSpec (κ : Type) where
  name : String
  source : StateId
  target : StateId
  kind : TransitionKind := .external
  triggers : List Trigger := []
  guard : Behavior κ := .absent
  effect : Behavior κ := .absent
  metadata : Json.Fields := []

structure Transition (κ : Type) extends TransitionSpec κ where
  owner : DefinitionId

structure Definition (κ : Type) where
  name : String
  states : List StateId
  transitions : List TransitionId
  /-- The composite state that the definition is nested in; none for a root. -/
  composite : Option StateId
  start : Option StateId
  final : Option StateId
  /-- What runs for the elements that leave a slot empty. -/
  fallback : Action → Behavior κ

structure Graph (κ : Type) where
  definitions : Arena (Definition κ)
  states : Arena (State κ)
  transitions : Arena (Transition κ)
  root : DefinitionId

/-- The element that a behavior runs for. -/
inductive Element (κ : Type) where
  | state (s : State κ)
  | transition (t : Transition κ)

namespace Element

variable {κ : Type}

def name : Element κ → String
  | .state s => s.name
  | .transition t => t.name

end Element

namespace State

variable {κ : Type}

/-- Discards what a query on the neighbours has answered. -/
def invalidate (s : State κ) : State κ := { s with neighbours := none }

def isComposite (s : State κ) : Bool := s.submachine.isSome

/-- Guards and effects belong to transitions, so a state has none. -/
def behavior (s : State κ) : Action → Behavior κ
  | .entry => s.entry
  | .exit => s.exit
  | .doActivity => s.doActivity
  | .guard | .effect => .absent

def setBehavior (s : State κ) (a : Action) (b : Behavior κ) : State κ :=
  match a with
  | .entry => { s with entry := b }
  | .exit => { s with exit := b }
  | .doActivity => { s with doActivity := b }
  | .guard | .effect => s

end State

namespace Transition

variable {κ : Type}

def isInternal (t : Transition κ) : Bool := t.kind = .internal

def behavior (t : Transition κ) : Action → Behavior κ
  | .guard => t.guard
  | .effect => t.effect
  | .entry | .exit | .doActivity => .absent

/-- The first trigger that accepts the event; a transition without triggers has none. -/
def matchingTrigger (t : Transition κ) (e : Event) : Option Trigger :=
  t.triggers.find? (·.accepts e)

end Transition

namespace Definition

variable {κ : Type}

/-- A definition without elements. -/
def blank (name : String) (composite : Option StateId) : Definition κ :=
  ⟨name, [], [], composite, none, none, fun _ => .absent⟩

def isRoot (d : Definition κ) : Bool := d.composite.isNone

end Definition

/-- What an element is called in an error about names. -/
inductive Named where
  | state
  | transition
  deriving DecidableEq, Repr

inductive GraphError where
  | duplicateName (kind : Named) (name definition : String)
  | unknownState (path : String)
  | unknownTransition (path : String)
  | unknownDefinition (path : String)
  | foreignState (state definition : String)
  deriving DecidableEq, Repr

namespace GraphError

def message : GraphError → String
  | .duplicateName kind name definition =>
    (match kind with | .state => "state" | .transition => "transition") ++
      " named '" ++ name ++ "' already exists in '" ++ definition ++ "'"
  | .unknownState path => "Unknown state '" ++ path ++ "'"
  | .unknownTransition path => "Unknown transition '" ++ path ++ "'"
  | .unknownDefinition path => "Unknown definition '" ++ path ++ "'"
  | .foreignState state definition =>
    "State '" ++ state ++ "' is not reachable from definition '" ++ definition ++ "'"

end GraphError

namespace Graph

variable {κ : Type}

/-- A graph with an empty root definition. -/
def new (name : String) : Graph κ :=
  ⟨Arena.empty.push (.blank name none), .empty, .empty, ⟨0⟩⟩

def definition? (g : Graph κ) (d : DefinitionId) : Option (Definition κ) :=
  g.definitions.get? d.index

def state? (g : Graph κ) (s : StateId) : Option (State κ) := g.states.get? s.index

def transition? (g : Graph κ) (t : TransitionId) : Option (Transition κ) :=
  g.transitions.get? t.index

def definition (g : Graph κ) (d : DefinitionId) : Except GraphError (Definition κ) :=
  match g.definition? d with
  | some x => .ok x
  | none => .error (.unknownDefinition d.label)

def state (g : Graph κ) (s : StateId) : Except GraphError (State κ) :=
  match g.state? s with
  | some x => .ok x
  | none => .error (.unknownState s.label)

def transition (g : Graph κ) (t : TransitionId) : Except GraphError (Transition κ) :=
  match g.transition? t with
  | some x => .ok x
  | none => .error (.unknownTransition t.label)

/-- The first state of the definition with the name. -/
def stateNamed (g : Graph κ) (d : DefinitionId) (name : String) : Option StateId :=
  (g.definition? d).bind fun x => x.states.find? fun s => (g.state? s).any (·.name == name)

/-- The first transition of the definition with the name. -/
def transitionNamed (g : Graph κ) (d : DefinitionId) (name : String) : Option TransitionId :=
  (g.definition? d).bind fun x => x.transitions.find? fun t =>
    (g.transition? t).any (·.name == name)

end Graph
end Statechart
