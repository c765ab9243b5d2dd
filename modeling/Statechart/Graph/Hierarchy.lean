import Statechart.Graph.Basic
import Statechart.Path

/-!
# The hierarchy of a graph

Definitions nest in composite states, states in definitions. Each walk follows one step at a time
and takes at most as many steps as the arena has places; where nesting is finite, that bound is
never met. Paths name an element by the names of the states around it, outermost first.
-/

namespace Statechart

/-- A start and what following `next` from it gives, at most `n` steps far. -/
def follow {α : Type} (next : α → Option α) : Nat → α → List α
  | 0, a => [a]
  | n + 1, a =>
    a :: match next a with
      | some b => follow next n b
      | none => []

namespace Graph

variable {κ : Type}

/-- The composite state around a state. -/
def superstate (g : Graph κ) (s : StateId) : Option StateId := do
  let st ← g.state? s
  let d ← g.definition? st.owner
  d.composite

/-- The definition around a definition. -/
def superdefinition (g : Graph κ) (d : DefinitionId) : Option DefinitionId := do
  let x ← g.definition? d
  let st ← g.state? (← x.composite)
  some st.owner

/-- A definition and those around it, outermost last. -/
def definitionChain (g : Graph κ) (d : DefinitionId) : List DefinitionId :=
  follow g.superdefinition g.definitions.size d

def rootDefinition (g : Graph κ) (d : DefinitionId) : DefinitionId :=
  (g.definitionChain d).getLast?.getD d

/-- Whether a definition is the scope or nested in it. -/
def isWithin (g : Graph κ) (d scope : DefinitionId) : Bool := (g.definitionChain d).contains scope

/-- A state and its superstates, innermost first. -/
def ancestors (g : Graph κ) (s : StateId) : List StateId :=
  follow g.superstate g.states.size s

/-- Whether a state is nested in another, at any depth. -/
def isSubstateOf (g : Graph κ) (s other : StateId) : Bool :=
  s != other && (g.ancestors s).contains other

/-- The start state of the definition nested in a state. -/
def entryStep (g : Graph κ) (s : StateId) : Option StateId := do
  let st ← g.state? s
  let d ← g.definition? (← st.submachine)
  d.start

/-- The state that entering a state leads to, through the start states of nested definitions. -/
def resolveEntryTarget (g : Graph κ) (s : StateId) : StateId :=
  (follow g.entryStep g.states.size s).getLast?.getD s

/-! ## Paths -/

/-- The name of a state, or what stands for one that is gone. -/
def stateName (g : Graph κ) (s : StateId) : String :=
  match g.state? s with
  | some st => st.name
  | none => s.label

def pathOfState (g : Graph κ) (s : StateId) : String :=
  Path.ofNames ((g.ancestors s).reverse.map g.stateName)

/-- The path of the composite state; empty for a root. -/
def pathOfDefinition (g : Graph κ) (d : DefinitionId) : String :=
  match (g.definition? d).bind (·.composite) with
  | some s => g.pathOfState s
  | none => ""

def pathOfTransition (g : Graph κ) (t : TransitionId) : String :=
  match g.transition? t with
  | some tr => Path.join (g.pathOfDefinition tr.owner) tr.name
  | none => t.label

/-- The path of a definition, or its name when the path is empty. -/
def definitionLabel (g : Graph κ) (d : DefinitionId) : String :=
  let path := g.pathOfDefinition d
  if path.isEmpty then
    match g.definition? d with
    | some x => x.name
    | none => d.label
  else path

/-- The definition reached from the root through composite states of these names. -/
def descend (g : Graph κ) (names : List String) : Option DefinitionId :=
  names.foldlM (fun d name => do (← g.state? (← g.stateNamed d name)).submachine) g.root

/-- All names but the last, and the last. -/
def splitLast? (names : List String) : Option (List String × String) :=
  names.getLast?.map (names.dropLast, ·)

def stateAt? (g : Graph κ) (path : String) : Option StateId := do
  let (parents, last) ← splitLast? (Path.split path)
  g.stateNamed (← g.descend parents) last

def transitionAt? (g : Graph κ) (path : String) : Option TransitionId := do
  let (parents, last) ← splitLast? (Path.split path)
  g.transitionNamed (← g.descend parents) last

/-- The empty path names the root. -/
def definitionAt? (g : Graph κ) (path : String) : Option DefinitionId := g.descend (Path.split path)

def stateByPath (g : Graph κ) (path : String) : Except GraphError StateId :=
  match g.stateAt? path with
  | some s => .ok s
  | none => .error (.unknownState path)

def transitionByPath (g : Graph κ) (path : String) : Except GraphError TransitionId :=
  match g.transitionAt? path with
  | some t => .ok t
  | none => .error (.unknownTransition path)

def definitionByPath (g : Graph κ) (path : String) : Except GraphError DefinitionId :=
  match g.definitionAt? path with
  | some d => .ok d
  | none => .error (.unknownDefinition path)

/-! ## Walks -/

/-- The definition nested in a state. -/
def nestedIn (g : Graph κ) (s : StateId) : Option DefinitionId := (g.state? s).bind (·.submachine)

/-- The states of a definition, each followed by those nested in it, at most `n` levels deep. -/
def statesBelow (g : Graph κ) : Nat → DefinitionId → List StateId
  | 0, _ => []
  | n + 1, d =>
    match g.definition? d with
    | none => []
    | some x => x.states.flatMap fun s =>
      s :: match g.nestedIn s with
        | some nested => statesBelow g n nested
        | none => []

/-- The transitions of a definition, then those of each nested definition, at most `n` levels
deep. -/
def transitionsBelow (g : Graph κ) : Nat → DefinitionId → List TransitionId
  | 0, _ => []
  | n + 1, d =>
    match g.definition? d with
    | none => []
    | some x => x.transitions ++ x.states.flatMap fun s =>
      match g.nestedIn s with
      | some nested => transitionsBelow g n nested
      | none => []

def walkStates (g : Graph κ) (d : DefinitionId) : List StateId :=
  g.statesBelow g.definitions.size d

def walkTransitions (g : Graph κ) (d : DefinitionId) : List TransitionId :=
  g.transitionsBelow g.definitions.size d

/-! ## Neighbours -/

/-- The elements of a list, each where it first occurs. -/
def distinct {α : Type} [DecidableEq α] (xs : List α) : List α :=
  xs.foldl (fun seen x => if x ∈ seen then seen else seen ++ [x]) []

/-- What a state borders on, read from the transitions that it lists. -/
def computeNeighbours (g : Graph κ) (st : State κ) : Neighbours where
  sources := distinct (st.incoming.filterMap fun t => (g.transition? t).map (·.source))
  targets := distinct (st.outgoing.filterMap fun t => (g.transition? t).map (·.target))
  transitions := distinct (st.incoming ++ st.outgoing)

/-- The answer that a state keeps, or else one computed now. -/
def neighboursOf (g : Graph κ) (st : State κ) : Neighbours :=
  st.neighbours.getD (g.computeNeighbours st)

def neighbours (g : Graph κ) (s : StateId) : Option Neighbours := (g.state? s).map g.neighboursOf

/-- The graph after a query on the neighbours of a state, which then keeps the answer. -/
def rememberNeighbours (g : Graph κ) (s : StateId) : Graph κ :=
  { g with
    states := g.states.modify s.index fun st =>
      { st with neighbours := some (g.neighboursOf st) } }

/-- The states with a transition into a state. -/
def sources (g : Graph κ) (s : StateId) : List StateId := ((g.neighbours s).map (·.sources)).getD []

/-- The states that a transition of a state leads to. -/
def targets (g : Graph κ) (s : StateId) : List StateId := ((g.neighbours s).map (·.targets)).getD []

/-- The transitions that enter or leave a state. -/
def incidentTransitions (g : Graph κ) (s : StateId) : List TransitionId :=
  ((g.neighbours s).map (·.transitions)).getD []

end Graph
end Statechart
