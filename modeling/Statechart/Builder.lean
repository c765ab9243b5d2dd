import Statechart.Graph.Edit

/-!
# Building graphs by name

A blueprint describes a definition and what is nested in it; states and the ends of transitions are
given by name. An end that no definition around declares becomes a state of the transition's own
definition.
-/

namespace Statechart

open Json

inductive BuildError where
  | missingFrom
  | missingTo
  | invalidPattern (pattern : String)
  | graph (e : GraphError)
  deriving DecidableEq, Repr

namespace BuildError

/-- The text of an error; what is wrong with a pattern is not said. -/
def message : BuildError → String
  | .missingFrom => "Transition source state not specified. Call .from(state)"
  | .missingTo => "Transition target state not specified. Call .to(state)"
  | .invalidPattern pattern => "Invalid trigger pattern '" ++ pattern ++ "'"
  | .graph e => e.message

end BuildError

/-- A trigger as given: ready, or a pattern still to be read. -/
inductive TriggerSpec where
  | ready (t : Trigger)
  | pattern (source : String)

def TriggerSpec.read : TriggerSpec → Except BuildError Trigger
  | .ready t => .ok t
  | .pattern source =>
    match Pattern.parse source with
    | some p => .ok (.pattern p)
    | none => .error (.invalidPattern source)

/-- A transition between named states, read and ready to be installed. -/
structure TransitionPlan (κ : Type) where
  source : String
  target : String
  name : Option String
  kind : TransitionKind
  triggers : List Trigger
  guard : Behavior κ
  effect : Behavior κ
  metadata : Fields

/-- A transition in the making. -/
structure TransitionDraft (κ : Type) where
  source : Option String := none
  target : Option String := none
  name : Option String := none
  kind : TransitionKind := .external
  triggers : List TriggerSpec := []
  guard : Behavior κ := .absent
  effect : Behavior κ := .absent
  metadata : Fields := []

namespace TransitionDraft

variable {κ : Type}

def on (d : TransitionDraft κ) (t : TriggerSpec) : TransitionDraft κ :=
  { d with triggers := d.triggers ++ [t] }

/-- Guards a transition by a test of its arguments. -/
def guardBy (d : TransitionDraft κ) (test : List Value → Bool) : TransitionDraft κ :=
  { d with guard := .test test }

/-- A transition on the events of one name. -/
def onEvent (source target event : String) : TransitionDraft κ :=
  ({ source := some source, target := some target } : TransitionDraft κ).on (.ready (.tag event))

/-- A transition guarded by a test of its arguments. -/
def guarded (source target : String) (test : List Value → Bool) : TransitionDraft κ :=
  ({ source := some source, target := some target } : TransitionDraft κ).guardBy test

/-- A missing source is reported before a missing target, and both before a pattern. -/
def plan (d : TransitionDraft κ) : Except BuildError (TransitionPlan κ) :=
  match d.source, d.target with
  | none, _ => .error .missingFrom
  | some _, none => .error .missingTo
  | some source, some target => do
    let triggers ← d.triggers.mapM TriggerSpec.read
    .ok ⟨source, target, d.name, d.kind, triggers, d.guard, d.effect, d.metadata⟩

end TransitionDraft

/-- A definition by names. -/
structure Blueprint (κ : Type) where
  name : String
  initial : Option String := none
  final : Option String := none
  states : List (StateSpec κ) := []
  composites : List (String × Blueprint κ) := []
  transitions : List (TransitionPlan κ) := []
  fallbacks : List (Action × Behavior κ) := []

namespace Blueprint

variable {κ : Type}

/-- Declares a state. A later declaration of a name takes the place of an earlier one. -/
def declare (b : Blueprint κ) (s : StateSpec κ) : Blueprint κ :=
  if b.states.any (·.name == s.name) then
    { b with states := b.states.map fun t => if t.name == s.name then s else t }
  else { b with states := b.states ++ [s] }

def nest (b : Blueprint κ) (state : String) (inner : Blueprint κ) : Blueprint κ :=
  { b with composites := b.composites ++ [(state, inner)] }

def addTransition (b : Blueprint κ) (t : TransitionDraft κ) : Except BuildError (Blueprint κ) := do
  let plan ← t.plan
  .ok { b with transitions := b.transitions ++ [plan] }

def setFallback (b : Blueprint κ) (a : Action) (behavior : Behavior κ) : Blueprint κ :=
  { b with fallbacks := b.fallbacks ++ [(a, behavior)] }

end Blueprint

namespace Graph

variable {κ : Type}

/-- The state of that name in a definition or in the nearest one around that has one. -/
def resolveName (g : Graph κ) (d : DefinitionId) (name : String) : Option StateId :=
  (g.definitionChain d).findSome? fun d => g.stateNamed d name

/-- The text `base-n`. -/
def numbered (base : String) (n : Nat) : String := base ++ "-" ++ toString n

/-- The base if no transition of the definition has that name, else the first free one of `base-2`,
`base-3` and so on. A definition of `m` transitions leaves one of the first `m + 1` free. -/
def uniqueName (g : Graph κ) (d : DefinitionId) (base : String) : String :=
  let isFree (name : String) : Bool := (g.transitionNamed d name).isNone
  let count := ((g.definition? d).map (·.transitions.length)).getD 0
  if isFree base then base
  else (((List.range (count + 1)).map fun i => numbered base (i + 2)).find? isFree).getD base

end Graph

namespace Editor

variable {κ : Type}

/-- Declares a state; one that is there gets the behaviors that the declaration gives. -/
def declareState (d : DefinitionId) (s : StateSpec κ) : Editor κ Unit := do
  match (← get).stateNamed d s.name with
  | some existing =>
    [(Action.entry, s.entry), (.exit, s.exit), (.doActivity, s.doActivity)].forM fun (a, b) =>
      if b.isAbsent then pure () else setStateBehavior existing a b
  | none => let _ ← addState d s

/-- The state of a definition with that name, added if need be. -/
def localState (d : DefinitionId) (name : String) : Editor κ StateId := do
  match (← get).stateNamed d name with
  | some s => pure s
  | none => addState d { name }

/-- Adds the ends of a transition that no definition around has. -/
def declareEnds (d : DefinitionId) (p : TransitionPlan κ) : Editor κ Unit :=
  [p.source, p.target].forM fun name => do
    if ((← get).resolveName d name).isNone then
      let _ ← addState d { name }

/-- Adds a transition between the states that its names resolve to. -/
def installTransition (d : DefinitionId) (p : TransitionPlan κ) : Editor κ Unit := do
  let g ← get
  match g.resolveName d p.source, g.resolveName d p.target with
  | none, _ => throw (.unknownState p.source)
  | some _, none => throw (.unknownState p.target)
  | some source, some target =>
    let name := p.name.getD (g.uniqueName d (p.source ++ "->" ++ p.target))
    let _ ← addTransition d
      { name, source, target, kind := p.kind, triggers := p.triggers, guard := p.guard
        effect := p.effect, metadata := p.metadata }

/-- Marks a named state of a definition. -/
def markNamed (m : Mark) (d : DefinitionId) : Option String → Editor κ Unit
  | none => pure ()
  | some name => do setMark m d (some (← localState d name))

mutual

/-- Installs a blueprint into a definition: declared states first, then those that are only named,
then marks and fallbacks, then what is nested, and transitions last. -/
def install (d : DefinitionId) : Blueprint κ → Editor κ Unit
  | ⟨_, initial, final, states, composites, transitions, fallbacks⟩ => do
    states.forM (declareState d)
    (initial.toList ++ final.toList ++ composites.map (·.1)).forM fun name => do
      let _ ← localState d name
    transitions.forM (declareEnds d)
    markNamed .start d initial
    markNamed .final d final
    fallbacks.forM fun (a, b) => setFallback d a b
    installNested d composites
    transitions.forM (installTransition d)

/-- Makes states composite and installs what is nested in them. -/
def installNested (d : DefinitionId) : List (String × Blueprint κ) → Editor κ Unit
  | [] => pure ()
  | (state, inner) :: rest => do
    let s ← localState d state
    let nested ← attachSubmachine s inner.name
    install nested inner
    installNested d rest

end

/-- Adds what a blueprint describes to a definition that is there. -/
def extend (d : DefinitionId) (b : Blueprint κ) : Editor κ Unit := do
  let _ ← query (·.definition d)
  install d b

end Editor

namespace Blueprint

variable {κ : Type}

/-- A graph with the blueprint as its root definition. -/
def build (b : Blueprint κ) : Except BuildError (Graph κ) :=
  let g := Graph.new b.name
  match (Editor.install g.root b).run g with
  | .ok _ g => .ok g
  | .error e _ => .error (.graph e)

end Blueprint
end Statechart
