import Statechart.Graph.Hierarchy

/-!
# Editing graphs

Each edit checks first and changes after, so one that fails on its own leaves the graph alone; a
list of edits that fails keeps what the edits before did. For each basic edit the change alone is a
function on graphs.
-/

namespace Statechart

/-- An edit with a result. A failure keeps the graph as it then is. -/
abbrev Editor (κ α : Type) := EStateM GraphError (Graph κ) α

/-- One of the two states that a definition marks. -/
inductive Mark where
  | start
  | final
  deriving DecidableEq, Repr

namespace Mark

def kind : Mark → StateKind
  | .start => .start
  | .final => .final

def other : Mark → Mark
  | .start => .final
  | .final => .start

end Mark

namespace Definition

variable {κ : Type}

def marked (d : Definition κ) : Mark → Option StateId
  | .start => d.start
  | .final => d.final

def setMarked (d : Definition κ) (m : Mark) (s : Option StateId) : Definition κ :=
  match m with
  | .start => { d with start := s }
  | .final => { d with final := s }

/-- Forgets a state: it is no longer listed nor marked. -/
def forgetState (d : Definition κ) (s : StateId) : Definition κ :=
  { d with
    states := d.states.filter (· != s)
    start := if d.start = some s then none else d.start
    final := if d.final = some s then none else d.final }

end Definition

namespace Graph

variable {κ : Type}

def modifyDefinition (g : Graph κ) (d : DefinitionId) (f : Definition κ → Definition κ) : Graph κ :=
  { g with definitions := g.definitions.modify d.index f }

def modifyState (g : Graph κ) (s : StateId) (f : State κ → State κ) : Graph κ :=
  { g with states := g.states.modify s.index f }

def modifyTransition (g : Graph κ) (t : TransitionId) (f : Transition κ → Transition κ) : Graph κ :=
  { g with transitions := g.transitions.modify t.index f }

/-! ## Changes -/

/-- A new state of a definition. -/
def insertState (g : Graph κ) (d : DefinitionId) (spec : StateSpec κ) : Graph κ :=
  let id : StateId := ⟨g.states.size⟩
  let s : State κ :=
    { toStateSpec := spec, kind := .normal, owner := d, submachine := none,
      incoming := [], outgoing := [] }
  let g := { g with states := g.states.push s }
  g.modifyDefinition d fun x => { x with states := x.states ++ [id] }

/-- A new transition of a definition, listed at its ends. -/
def insertTransition (g : Graph κ) (d : DefinitionId) (spec : TransitionSpec κ) : Graph κ :=
  let t : TransitionId := ⟨g.transitions.size⟩
  let g := { g with transitions := g.transitions.push { toTransitionSpec := spec, owner := d } }
  let g := g.modifyDefinition d fun x => { x with transitions := x.transitions ++ [t] }
  let g := g.modifyState spec.source fun s => { s with outgoing := s.outgoing ++ [t] }.invalidate
  g.modifyState spec.target fun s => { s with incoming := s.incoming ++ [t] }.invalidate

/-- Takes a transition out of the arena and of every list. -/
def eraseTransition (g : Graph κ) (t : TransitionId) (tr : Transition κ) : Graph κ :=
  let g := { g with transitions := g.transitions.erase t.index }
  let g := g.modifyDefinition tr.owner fun x =>
    { x with transitions := x.transitions.filter (· != t) }
  let g := g.modifyState tr.source fun s =>
    { s with outgoing := s.outgoing.filter (· != t) }.invalidate
  g.modifyState tr.target fun s => { s with incoming := s.incoming.filter (· != t) }.invalidate

/-- Takes a state out of the arena and of its definition. -/
def eraseState (g : Graph κ) (s : StateId) (owner : DefinitionId) : Graph κ :=
  let g := g.modifyDefinition owner (·.forgetState s)
  { g with states := g.states.erase s.index }

def eraseDefinition (g : Graph κ) (d : DefinitionId) : Graph κ :=
  { g with definitions := g.definitions.erase d.index }

/-- A new empty definition nested in a state. -/
def insertSubmachine (g : Graph κ) (s : StateId) (name : String) : Graph κ :=
  let d : DefinitionId := ⟨g.definitions.size⟩
  let g := { g with definitions := g.definitions.push (.blank name (some s)) }
  g.modifyState s fun st => { st with submachine := some d }

/-- Moves a mark of a definition to a state, or takes it away. No state has both marks. -/
def moveMark (g : Graph κ) (d : DefinitionId) (x : Definition κ) (s : Option StateId) (m : Mark) :
    Graph κ :=
  let g := match x.marked m with
    | some p =>
      g.modifyState p fun st => if st.kind = m.kind then { st with kind := .normal } else st
    | none => g
  let g := match s with
    | some s => g.modifyState s fun st => { st with kind := m.kind }
    | none => g
  let both := s.isSome ∧ x.marked m.other = s
  g.modifyDefinition d fun y =>
    let y := y.setMarked m s
    if both then y.setMarked m.other none else y

end Graph

/-! ## Edits -/

namespace Editor

variable {κ α : Type}

/-- Reads the graph, or fails. -/
def query (f : Graph κ → Except GraphError α) : Editor κ α := fun g =>
  match f g with
  | .ok a => .ok a g
  | .error e => .error e g

def update (f : Graph κ → Graph κ) : Editor κ Unit := modify f

/-- Adds a state under a name that its definition does not use yet. -/
def addState (d : DefinitionId) (spec : StateSpec κ) : Editor κ StateId := fun g =>
  match g.definition d with
  | .error e => .error e g
  | .ok _ =>
    if (g.stateNamed d spec.name).isSome then
      .error (.duplicateName .state spec.name (g.definitionLabel d)) g
    else .ok ⟨g.states.size⟩ (g.insertState d spec)

/-- Fails unless a state belongs to one of the definitions; `d` is named in the error. -/
def checkEndpoint (g : Graph κ) (d : DefinitionId) (chain : List DefinitionId) (s : StateId) :
    Except GraphError Unit := do
  let st ← g.state s
  if st.owner ∈ chain then .ok ()
  else .error (.foreignState (g.pathOfState s) (g.definitionLabel d))

/-- Adds a transition under a name that its definition does not use yet. Its ends belong to the
definition or to one around it. -/
def addTransition (d : DefinitionId) (spec : TransitionSpec κ) : Editor κ TransitionId := fun g =>
  match g.definition d with
  | .error e => .error e g
  | .ok _ =>
    if (g.transitionNamed d spec.name).isSome then
      .error (.duplicateName .transition spec.name (g.definitionLabel d)) g
    else
      let chain := g.definitionChain d
      match checkEndpoint g d chain spec.source, checkEndpoint g d chain spec.target with
      | .error e, _ => .error e g
      | .ok _, .error e => .error e g
      | .ok _, .ok _ => .ok ⟨g.transitions.size⟩ (g.insertTransition d spec)

/-- Removes a transition and returns it. -/
def removeTransition (t : TransitionId) : Editor κ (Transition κ) := fun g =>
  match g.transition t with
  | .error e => .error e g
  | .ok tr => .ok tr (g.eraseTransition t tr)

/-- The transitions that touch a state, in the order of their handles. -/
def touching (s : State κ) : List TransitionId :=
  Graph.distinct ((s.incoming ++ s.outgoing).mergeSort fun a b => a.index ≤ b.index)

/-- Removes transitions one by one and returns each with its handle. -/
def removeTransitions (ts : List TransitionId) : Editor κ (List (TransitionId × Transition κ)) :=
  ts.mapM fun t => do pure (t, ← removeTransition t)

/-- Removes a state with the transitions that touch it and what is nested in it, at most `n` levels
deep. Returns the transitions that touched the state itself. -/
def removeStateBelow : Nat → StateId → Editor κ (List (TransitionId × Transition κ))
  | 0, s => throw (.unknownState s.label)
  | n + 1, s => do
    let st ← query (·.state s)
    let removed ← removeTransitions (touching st)
    match st.submachine with
    | none => pure ()
    | some nested =>
      let inner ← query (·.definition nested)
      inner.states.forM fun s => do
        let _ ← removeStateBelow n s
      update (·.eraseDefinition nested)
    update (·.eraseState s st.owner)
    pure removed

def removeState (s : StateId) : Editor κ (List (TransitionId × Transition κ)) := do
  removeStateBelow ((← get).definitions.size + 1) s

/-- Makes a state composite; a state that is one already keeps its definition. -/
def attachSubmachine (s : StateId) (name : String) : Editor κ DefinitionId := fun g =>
  match g.state s with
  | .error e => .error e g
  | .ok st =>
    match st.submachine with
    | some d => .ok d g
    | none => .ok ⟨g.definitions.size⟩ (g.insertSubmachine s name)

/-- Fails unless the state belongs to the definition. -/
def checkOwner (g : Graph κ) (d : DefinitionId) : Option StateId → Except GraphError Unit
  | none => .ok ()
  | some s => do
    let st ← g.state s
    if st.owner = d then .ok ()
    else .error (.foreignState (g.pathOfState s) (g.definitionLabel d))

/-- Marks a state of the definition, or takes the mark away. -/
def setMark (m : Mark) (d : DefinitionId) (s : Option StateId) : Editor κ Unit := fun g =>
  match checkOwner g d s, g.definition d with
  | .error e, _ => .error e g
  | .ok _, .error e => .error e g
  | .ok _, .ok x =>
    match (x.marked m).mapM g.state with
    | .error e => .error e g
    | .ok _ => .ok () (g.moveMark d x s m)

def setStart (d : DefinitionId) (s : Option StateId) : Editor κ Unit := setMark .start d s

def setFinal (d : DefinitionId) (s : Option StateId) : Editor κ Unit := setMark .final d s

/-- Sets what runs for the elements of a definition that leave a slot empty. -/
def setFallback (d : DefinitionId) (a : Action) (b : Behavior κ) : Editor κ Unit := fun g =>
  match g.definition d with
  | .error e => .error e g
  | .ok _ => .ok () (g.modifyDefinition d fun x =>
      { x with fallback := fun a' => if a' = a then b else x.fallback a' })

def setStateBehavior (s : StateId) (a : Action) (b : Behavior κ) : Editor κ Unit := fun g =>
  match g.state s with
  | .error e => .error e g
  | .ok _ => .ok () (g.modifyState s (·.setBehavior a b))

def setGuard (t : TransitionId) (b : Behavior κ) : Editor κ Unit := fun g =>
  match g.transition t with
  | .error e => .error e g
  | .ok _ => .ok () (g.modifyTransition t fun x => { x with guard := b })

def setEffect (t : TransitionId) (b : Behavior κ) : Editor κ Unit := fun g =>
  match g.transition t with
  | .error e => .error e g
  | .ok _ => .ok () (g.modifyTransition t fun x => { x with effect := b })

end Editor
end Statechart
