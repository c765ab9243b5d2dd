import Statechart.Machine.Engine

/-!
# Choosing transitions

A transition is queued only if the machine can take it from where it is; its guard is asked before,
by the operations that choose. The slot holds one transition.
-/

namespace Statechart.Engine

open Json

variable {σ κ : Type}

/-- Queues a transition that leaves the active state, without asking its guard. -/
def queueTransition (t : TransitionId) (args : List Value) : Engine σ κ Unit := do
  let m ← machine
  if m.phase.entry || m.phase.exit || m.phase.effect then
    fail (.unexpectedRecursion .queueTransition)
  if let some p := m.pending then fail (.transitionPending (m.graph.pathOfTransition p.transition))
  if m.active.isNone then fail .notStarted
  let _ ← ofGraph (m.graph.transition t)
  if m.atEnd then fail (.cannotTransition (m.graph.pathOfTransition t) .atEnd)
  if (← candidates).contains t then
    update fun m => { m with pending := some ⟨t, args⟩ }
    notify (.transitionQueued t)
  else fail (.cannotTransition (m.graph.pathOfTransition t) .notLeaving)

/-- The transitions of a list whose guards pass, asked in order. -/
def passing (r : Responder σ κ) (args : List Value) (ts : List TransitionId) :
    Engine σ κ (List TransitionId) :=
  ts.filterM fun t => guard r t args

/-- The candidates with a trigger that accepts the event and a guard that passes, each with the
label of its first such trigger. -/
def transitionsMatching (r : Responder σ κ) (e : Event) :
    Engine σ κ (List (TransitionId × String)) := do
  let g := (← machine).graph
  (← candidates).filterMapM fun t => do
    match (← ofGraph (g.transition t)).matchingTrigger e with
    | none => pure none
    | some trigger => do
      if ← guard r t e.args then pure (some (t, trigger.label)) else pure none

/-- The candidates whose guards pass. -/
def validTransitions (r : Responder σ κ) (args : List Value) : Engine σ κ (List TransitionId) := do
  passing r args (← candidates)

def hasValidTransition (r : Responder σ κ) (args : List Value) : Engine σ κ Bool := do
  pure !(← validTransitions r args).isEmpty

/-- The candidates into a state whose guards pass. -/
def transitionsTo (r : Responder σ κ) (s : StateId) (args : List Value) :
    Engine σ κ (List TransitionId) := do
  let g := (← machine).graph
  (← candidates).filterM fun t => do
    if (← ofGraph (g.transition t)).target = s then guard r t args else pure false

/-- Whether exactly one transition into a state passes. -/
def canTransitionTo (r : Responder σ κ) (s : StateId) (args : List Value) : Engine σ κ Bool := do
  pure ((← transitionsTo r s args).length == 1)

/-- Queues the only transition of a list. Of none, `missing` says what to report. -/
def queueOnly (missing : Machine κ → MachineError) (ts : List TransitionId) (args : List Value) :
    Engine σ κ TransitionId := do
  match ts with
  | [] => fail (missing (← machine))
  | [t] => do
    queueTransition t args
    pure t
  | many => fail (.ambiguousTransition ((← machine).transitionPaths many))

/-- An error for a transition that the active state does not have. -/
def unknownFrom (name : String) (m : Machine κ) : MachineError :=
  .unknownTransition name (m.activePath.getD "")

/-- Queues the transition of that name. -/
def transitionNamed (r : Responder σ κ) (name : String)
    (args : List Value) : Engine σ κ TransitionId := do
  let g := (← machine).graph
  let named := (← candidates).filter fun t => (g.transition? t).any (·.name == name)
  if named.isEmpty then fail (unknownFrom name (← machine))
  queueOnly (fun _ => .cannotTransition name .guardRejected) (← passing r args named) args

/-- Queues a transition whose source is active and whose guard passes. -/
def transitionById (r : Responder σ κ) (t : TransitionId)
    (args : List Value) : Engine σ κ TransitionId := do
  let m ← machine
  let source := (← ofGraph (m.graph.transition t)).source
  if !(← candidates).contains t || !m.isActive source then
    fail (.cannotTransition (m.graph.pathOfTransition t) .sourceInactive)
  if ← guard r t args then
    queueTransition t args
    pure t
  else
    fail (.cannotTransition ((← machine).graph.pathOfTransition t) .guardRejected)

/-- Queues the only transition into a state that passes. -/
def transitionTo (r : Responder σ κ) (s : StateId) (args : List Value) :
    Engine σ κ TransitionId := do
  queueOnly (fun m => unknownFrom ("to " ++ m.graph.pathOfState s) m)
    (← transitionsTo r s args) args

/-- Queues the only transition that passes. -/
def transitionToNext (r : Responder σ κ) (args : List Value) : Engine σ κ TransitionId := do
  queueOnly (unknownFrom "next state") (← validTransitions r args) args

/-- Queues the only transition that passes; no transition or several are no error. -/
def tryTransitionToNext (r : Responder σ κ) (args : List Value) :
    Engine σ κ (Option TransitionId) := do
  match ← attempt (transitionToNext r args) with
  | .ok t => pure (some t)
  | .error (.unknownTransition ..) | .error (.ambiguousTransition _) => pure none
  | .error e => fail e

/-- Queues a transition only if exactly one passes. -/
def transitionIfValid (r : Responder σ κ) (args : List Value) :
    Engine σ κ (Option TransitionId) := do
  match ← validTransitions r args with
  | [t] => do
    queueTransition t args
    pure (some t)
  | _ => pure none

end Statechart.Engine
