import Statechart.Machine.Cascade
import Statechart.Machine.Select

/-!
# Running a machine

A run fires the queued transition, and in continuous mode whatever its behaviors queue, until the
queue is empty, the machine is paused or it is at its end. An event run takes one event at a time
and fires the one transition that it selects. Both loops take fuel, since behaviors may keep a run
going for ever.
-/

namespace Statechart.Engine

open Json

variable {σ κ : Type}

/-! ## Firing -/

/-- Runs the effect of a transition, moves, and records the move. -/
def fire (r : Responder σ κ) (t : TransitionId) (target : StateId) (previous : Option StateId)
    (args : List Value) : Engine σ κ Unit := do
  beginPhase .effect
  notify (.effectInvoked t)
  let _ ← invoke r .effect (.transition t) args
  endPhase .effect
  let new ← enter r target (some t) args
  recordHistory previous (some t) new
  notify (.transitionFired t previous new)

def fireTransition (r : Responder σ κ) (p : Pending) : Engine σ κ Unit := do
  let m ← machine
  if m.firing.isSome then fail (.unexpectedRecursion .fireTransition)
  let target := (← ofGraph (m.graph.transition p.transition)).target
  update fun m => { m with firing := some p.transition }
  (fire r p.transition target m.active p.args).thenAlways (·.mapMachine fun m =>
    { m with firing := none, phase := { m.phase with effect := false } })

/-- Empties the slot. -/
def takePending : Engine σ κ (Option Pending) := do
  let p := (← machine).pending
  update fun m => { m with pending := none }
  pure p

/-- Fires what is queued, over and over. The hook, if there is one, runs before each attempt. -/
def fireQueued (r : Responder σ κ) (mode : RunMode) (hook : Option (Engine σ κ Unit)) :
    Nat → Nat → Engine σ κ (Nat × StopReason)
  | 0, _ => throw .exhausted
  | fuel + 1, fired => do
    let m ← machine
    if m.paused then return (fired, .paused)
    if m.atEnd then return (fired, .atEnd)
    hook.forM id
    match ← takePending with
    | none => pure (fired, .queueEmpty)
    | some p =>
      fireTransition r p
      if mode = .single then pure (fired + 1, .singleStep)
      else fireQueued r mode hook fuel (fired + 1)

/-- What is queued beforehand fires before the machine is asked whether it is paused. -/
def processTransitions (r : Responder σ κ) (fuel : Nat) (mode : RunMode)
    (hook : Option (Engine σ κ Unit)) : Engine σ κ (Nat × StopReason) := do
  if (← machine).atEnd then return (0, .atEnd)
  match ← takePending with
  | none => fireQueued r mode hook fuel 0
  | some p =>
    fireTransition r p
    if mode = .single then pure (1, .singleStep) else fireQueued r mode hook fuel 1

/-! ## Runs -/

/-- A run asked for while another is under way resumes that one and leaves the work to it. -/
def reenter : Engine σ κ RunOutcome := do
  if (← machine).paused then
    update fun m => { m with paused := false }
    notify .resumed
  pure .alreadyRunning

/-- Work as a run of its own, or none if a run is under way. -/
def asRun (work : Engine σ κ (Nat × StopReason)) : Engine σ κ RunOutcome := do
  if (← machine).running then reenter
  else
    update fun m => { m with running := true, paused := false }
    let (fired, stop) ← work.thenAlways
      (·.mapMachine ({ · with running := false, paused := false }))
    pure (.completed fired stop)

def run (r : Responder σ κ) (fuel : Nat) (mode : RunMode) (hook : Option (Engine σ κ Unit)) :
    Engine σ κ RunOutcome :=
  asRun (processTransitions r fuel mode hook)

/-- Asks the run that is under way to stop. -/
def pause : Engine σ κ Unit := do
  if (← machine).running then
    update fun m => { m with paused := true }
    notify .paused
  else fail (.unexpectedRecursion .pause)

def resume : Engine σ κ Unit := do
  if (← machine).running then
    update fun m => { m with paused := false }
    notify .resumed
  else fail (.unexpectedRecursion .resume)

/-! ## Events -/

/-- Appends events to the queue. -/
def post (es : List Event) : Engine σ κ Unit := update fun m => { m with events := m.events ++ es }

/-- Takes the first event off the queue. -/
def takeEvent : Engine σ κ (Option Event) := do
  match (← machine).events with
  | [] => pure none
  | e :: rest => do
    update fun m => { m with events := rest }
    pure (some e)

def setCurrent (event : Option Event) (trigger : Option String) : Engine σ κ Unit :=
  update fun m => { m with event, trigger }

/-- The one transition that an event selects. -/
def selectOne (r : Responder σ κ) (e : Event) : Engine σ κ (TransitionId × String) := do
  match ← transitionsMatching r e with
  | [] => fail (.noTransitions e.name)
  | [selected] => pure selected
  | many => fail (.tooManyTransitions e.name ((← machine).transitionPaths (many.map (·.1))))

/-- Handles one event of the queue; the result is the number of firings. -/
def handleEvent (r : Responder σ κ) (fuel : Nat) (e : Event) : Engine σ κ Nat := do
  notify (.eventDequeued e.name)
  update fun m => { m with event := some e }
  let (t, trigger) ← selectOne r e
  update fun m => { m with trigger := some trigger }
  queueTransition t e.args
  let (fired, _) ← processTransitions r fuel .single none
  setCurrent none none
  pure fired

/-- Handles the events of the queue. The first that selects no transition, or several, ends the
run. -/
def processEvents (r : Responder σ κ) : Nat → Nat → Engine σ κ (Nat × StopReason)
  | 0, _ => throw .exhausted
  | fuel + 1, fired => do
    if (← machine).paused then return (fired, .paused)
    match ← takeEvent with
    | none => pure (fired, .queueEmpty)
    | some e =>
      let n ← handleEvent r (fuel + 1) e
      processEvents r fuel (fired + n)

def runEvents (r : Responder σ κ) (fuel : Nat) : Engine σ κ RunOutcome := do
  if (← machine).running then reenter
  else
    update fun m => { m with running := true, paused := false }
    let work := (processEvents r fuel 0).thenAlways (·.mapMachine
      ({ · with running := false, paused := false, event := none, trigger := none }))
    let (fired, stop) ← work
    pure (.completed fired stop)

/-- Queues the transition that an event selects, if it is the only one. -/
def selectAndQueue (r : Responder σ κ) (e : Event) (wrap : TransitionId → DispatchOutcome) :
    Engine σ κ DispatchOutcome := do
  match ← transitionsMatching r e with
  | [] => pure .unhandled
  | [(t, trigger)] => do
    update fun m => { m with trigger := some trigger }
    queueTransition t e.args
    pure (wrap t)
  | many => pure (.ambiguous (many.map (·.1)))

/-- Selects a transition for an event and fires it. -/
def dispatchNow (r : Responder σ κ) (fuel : Nat) (e : Event) : Engine σ κ DispatchOutcome := do
  let outcome ← selectAndQueue r e .fired
  if let .fired _ := outcome then
    let _ ← run r fuel .single none
  pure outcome

/-- Handles an event at once. While a run is under way the selected transition is only queued. -/
def dispatch (r : Responder σ κ) (fuel : Nat) (e : Event) : Engine σ κ DispatchOutcome := do
  if (← machine).running then selectAndQueue r e .queued
  else
    update fun m => { m with event := some e }
    (dispatchNow r fuel e).thenAlways (·.mapMachine ({ · with event := none, trigger := none }))

end Statechart.Engine
