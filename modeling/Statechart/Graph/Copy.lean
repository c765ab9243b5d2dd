import Statechart.Copier.Basic
import Statechart.Graph.Edit

/-!
# Copying a definition

A copy of a definition is a graph of its own with the copy as its root. States and nested
definitions are copied first and transitions after them: one with an end outside the definition is
left behind.
-/

namespace Statechart

/-- Any element of a graph. -/
inductive NodeRef where
  | definition (d : DefinitionId)
  | state (s : StateId)
  | transition (t : TransitionId)
  deriving DecidableEq, Repr

namespace NodeRef

def definition? : NodeRef → Option DefinitionId
  | .definition d => some d
  | _ => none

def state? : NodeRef → Option StateId
  | .state s => some s
  | _ => none

def transition? : NodeRef → Option TransitionId
  | .transition t => some t
  | _ => none

end NodeRef

/-- Where the elements of a copied definition went. -/
structure GraphCopy where
  map : List (NodeRef × NodeRef)

namespace GraphCopy

def definition? (c : GraphCopy) (d : DefinitionId) : Option DefinitionId :=
  (c.map.lookup (.definition d)).bind (·.definition?)

def state? (c : GraphCopy) (s : StateId) : Option StateId :=
  (c.map.lookup (.state s)).bind (·.state?)

def transition? (c : GraphCopy) (t : TransitionId) : Option TransitionId :=
  (c.map.lookup (.transition t)).bind (·.transition?)

end GraphCopy

namespace Graph

variable {κ : Type}

def empty : Graph κ := ⟨.empty, .empty, .empty, .detached⟩

/-- A clone of an element keeps its handles; a state's lists of transitions start empty, and nothing
is remembered of its neighbours. -/
def cloneNode (source : Graph κ) (k : NodeRef) (target : Graph κ) : Option (NodeRef × Graph κ) :=
  match k with
  | .definition d => (source.definition? d).map fun x =>
    (.definition ⟨target.definitions.size⟩,
      { target with definitions := target.definitions.push x })
  | .state s => (source.state? s).map fun x =>
    (.state ⟨target.states.size⟩,
      { target with
        states := target.states.push { x with incoming := [], outgoing := [] }.invalidate })
  | .transition t => (source.transition? t).map fun x =>
    (.transition ⟨target.transitions.size⟩,
      { target with transitions := target.transitions.push x })

/-- Work on a copy of a graph. -/
abbrev GraphCopying (κ α : Type) := Copying (Graph κ) NodeRef α

/-- Copies the states of a definition, then looks up its own references. -/
def deepenDefinition (copy : NodeRef → GraphCopying κ (Option NodeRef)) (d : DefinitionId) :
    GraphCopying κ Unit := do
  match (← get).target.definition? d with
  | none => pure ()
  | some x =>
    let states ← x.states.filterMapM fun s => do pure ((← copy (.state s)).bind (·.state?))
    let c ← get
    let lookup (s : Option StateId) : Option StateId :=
      s.bind fun s => (c.get? (.state s)).bind (·.state?)
    set { c with target := c.target.modifyDefinition d fun y =>
      { y with
        states
        composite := lookup x.composite
        start := lookup x.start
        final := lookup x.final } }

/-- Copies the owner of a state, which is under way, and what is nested in the state. -/
def deepenState (copy : NodeRef → GraphCopying κ (Option NodeRef)) (s : StateId) :
    GraphCopying κ Unit := do
  match (← get).target.state? s with
  | none => pure ()
  | some x =>
    let owner := (← copy (.definition x.owner)).bind (·.definition?)
    let submachine ← match x.submachine with
      | some d => do pure ((← copy (.definition d)).bind (·.definition?))
      | none => pure none
    modify fun c => { c with target := c.target.modifyState s fun y =>
      { y with owner := owner.getD y.owner, submachine } }

/-- Moves a transition to the copies of its owner and its ends, and lists it there. -/
def deepenTransition (copy : NodeRef → GraphCopying κ (Option NodeRef)) (t : TransitionId) :
    GraphCopying κ Unit := do
  match (← get).target.transition? t with
  | none => pure ()
  | some x =>
    let owner := (← copy (.definition x.owner)).bind (·.definition?)
    let c ← get
    match owner, (c.get? (.state x.source)).bind (·.state?),
        (c.get? (.state x.target)).bind (·.state?) with
    | some owner, some source, some target =>
      let g := c.target.modifyTransition t fun y => { y with owner, source, target }
      let g := g.modifyState source fun y => { y with outgoing := y.outgoing ++ [t] }
      let g := g.modifyState target fun y => { y with incoming := y.incoming ++ [t] }
      set { c with target := g }
    | _, _, _ => pure ()

def copyRule : CopyRule (Graph κ) NodeRef where
  size g := g.definitions.size + g.states.size + g.transitions.size
  clone? := cloneNode
  deepen _ copy
    | .definition d => deepenDefinition copy d
    | .state s => deepenState copy s
    | .transition t => deepenTransition copy t

/-- Whether both ends of a transition of the source have been copied. -/
def endsCopied (source : Graph κ) (c : Copier (Graph κ) NodeRef) (t : TransitionId) : Bool :=
  (source.transition? t).any fun tr =>
    c.contains (.state tr.source) && c.contains (.state tr.target)

/-- Copies the transitions of a copied definition, which still lists those of the source. -/
def linkTransitions (source : Graph κ) (d : DefinitionId) : GraphCopying κ Unit := do
  let c ← get
  match c.target.definition? d with
  | none => pure ()
  | some x =>
    let inside := x.transitions.filter (endsCopied source c)
    let transitions ← inside.filterMapM fun t => do
      pure ((← Copier.copy copyRule source (.transition t)).bind (·.transition?))
    modify fun c => { c with target := c.target.modifyDefinition d fun y => { y with transitions } }

/-- Copies a definition and all below it; the result is the handle of the copy. -/
def copyTree (source : Graph κ) (d : DefinitionId) : GraphCopying κ (Option DefinitionId) := do
  let root ← Copier.copy copyRule source (.definition d)
  for (i, _) in (← get).target.definitions.entries do
    linkTransitions source ⟨i⟩
  pure (root.bind (·.definition?))

/-- A graph of its own with a copy of the definition as its root. -/
def copyDefinition (g : Graph κ) (d : DefinitionId) : Except GraphError (Graph κ × GraphCopy) := do
  let _ ← g.definition d
  let (root, c) := (copyTree g d).run ⟨empty, []⟩
  .ok ({ c.target with root := root.getD c.target.root }, ⟨c.map⟩)

end Graph
end Statechart
