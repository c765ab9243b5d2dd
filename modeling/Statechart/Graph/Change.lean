import Statechart.Builder

/-!
# Edits as data

Every public edit of a graph, with what it returns.
-/

namespace Statechart

inductive Edit (κ : Type) where
  | addState (d : DefinitionId) (spec : StateSpec κ)
  | addTransition (d : DefinitionId) (spec : TransitionSpec κ)
  | removeState (s : StateId)
  | removeTransition (t : TransitionId)
  | attachSubmachine (s : StateId) (name : String)
  | setStart (d : DefinitionId) (s : Option StateId)
  | setFinal (d : DefinitionId) (s : Option StateId)
  | setFallback (d : DefinitionId) (a : Action) (b : Behavior κ)
  | setStateBehavior (s : StateId) (a : Action) (b : Behavior κ)
  | setGuard (t : TransitionId) (b : Behavior κ)
  | setEffect (t : TransitionId) (b : Behavior κ)
  | extend (d : DefinitionId) (b : Blueprint κ)

namespace Edit

variable {κ : Type}

/-- What an edit returns. -/
abbrev Answer : Edit κ → Type
  | .addState .. => StateId
  | .addTransition .. => TransitionId
  | .removeState _ => List (TransitionId × Transition κ)
  | .removeTransition _ => Transition κ
  | .attachSubmachine .. => DefinitionId
  | .setStart .. | .setFinal .. | .setFallback .. | .setStateBehavior .. | .setGuard ..
  | .setEffect .. | .extend .. => Unit

def apply : (e : Edit κ) → Editor κ e.Answer
  | .addState d spec => Editor.addState d spec
  | .addTransition d spec => Editor.addTransition d spec
  | .removeState s => Editor.removeState s
  | .removeTransition t => Editor.removeTransition t
  | .attachSubmachine s name => Editor.attachSubmachine s name
  | .setStart d s => Editor.setStart d s
  | .setFinal d s => Editor.setFinal d s
  | .setFallback d a b => Editor.setFallback d a b
  | .setStateBehavior s a b => Editor.setStateBehavior s a b
  | .setGuard t b => Editor.setGuard t b
  | .setEffect t b => Editor.setEffect t b
  | .extend d b => Editor.extend d b

end Edit
end Statechart
