import Statechart.Machine.Engine

/-!
# Moving the active state

A move leaves states innermost first, enters states outermost first and then runs the activity of
the state reached. A move that fails puts the active state and the phases back; what its behaviors
did stays done.
-/

namespace Statechart.Engine

open Json

variable {σ κ : Type}

/-- The phase flags, by the operation that sets them. -/
def phaseFlag (p : Phase) : Operation → Bool
  | .entry => p.entry
  | .exit => p.exit
  | .effect => p.effect
  | .doActivity => p.doActivity
  | _ => false

def setPhaseFlag (p : Phase) (o : Operation) (b : Bool) : Phase :=
  match o with
  | .entry => { p with entry := b }
  | .exit => { p with exit := b }
  | .effect => { p with effect := b }
  | .doActivity => { p with doActivity := b }
  | _ => p

/-- Begins a phase, which must not be under way. -/
def beginPhase (o : Operation) : Engine σ κ Unit := do
  if phaseFlag (← machine).phase o then fail (.unexpectedRecursion o)
  else update fun m => { m with phase := setPhaseFlag m.phase o true }

def endPhase (o : Operation) : Engine σ κ Unit :=
  update fun m => { m with phase := setPhaseFlag m.phase o false }

def leaveState (r : Responder σ κ) (args : List Value) (s : StateId) : Engine σ κ Unit := do
  notify (.stateExited s)
  let _ ← invoke r .exit (.state s) args

def enterState (r : Responder σ κ) (args : List Value) (s : StateId) : Engine σ κ Unit := do
  notify (.stateEntered s)
  let _ ← invoke r .entry (.state s) args

/-- Whether a move crosses states: one by an internal transition does not. -/
def isExternal (g : Graph κ) : Option TransitionId → Except GraphError Bool
  | none => .ok true
  | some t => do .ok ((← g.transition t).kind = .external)

/-- Moves from `old` into `target`. No state is left or entered when the move ends where it
began. -/
def cascade (r : Responder σ κ) (old : Option StateId) (target : StateId)
    (via : Option TransitionId) (args : List Value) : Engine σ κ StateId := do
  let m ← machine
  let state := m.graph.resolveEntryTarget target
  let external ← ofGraph (isExternal m.graph via)
  let outOf := (old.map m.scopedAncestors).getD []
  let into := m.scopedAncestors state
  let crosses := external && old != some state
  beginPhase .exit
  if crosses then (outOf.filter (!into.contains ·)).forM (leaveState r args)
  endPhase .exit
  update fun m => { m with active := some state }
  beginPhase .entry
  if crosses then (into.reverse.filter (!outOf.contains ·)).forM (enterState r args)
  endPhase .entry
  update fun m => { m with lastTransition := via, firing := none }
  beginPhase .doActivity
  notify (.activityInvoked state)
  let _ ← invoke r .doActivity (.state state) args
  endPhase .doActivity
  pure state

/-- Moves into `target`, or stays where the machine was. -/
def enter (r : Responder σ κ) (target : StateId) (via : Option TransitionId) (args : List Value) :
    Engine σ κ StateId := do
  let m ← machine
  let old := m.active
  let moved := (cascade r old target via args).thenAlways
    (·.mapMachine ({ · with phase := m.phase }))
  moved.onFailure fun w => (w.mapMachine ({ · with active := old })).notify (.rolledBack old)

/-- The record of a move made now. -/
def recordOf (w : World σ κ) (previous : Option StateId) (t : Option TransitionId) (new : StateId) :
    HistoryRecord :=
  { time := w.now, previous, transition := t, new, event := w.machine.event
    trigger := w.machine.trigger, data := w.machine.options.historyData }

/-- Appends a record of a move, if the machine keeps any. -/
def recordHistory (previous : Option StateId) (t : Option TransitionId)
    (new : StateId) : Engine σ κ Unit :=
  modify fun w =>
    if w.machine.options.recordHistory then
      { w with logs := w.logs.append w.machine.history (recordOf w previous t new) }
    else w

/-- Moves into a state and begins the history anew. -/
def seed (r : Responder σ κ) (s : StateId) (args : List Value) : Engine σ κ StateId := do
  let entered ← enter r s none args
  modify fun w => { w with logs := w.logs.clear w.machine.history }
  recordHistory none none entered
  pure entered

/-- Enters the start state of the machine's definition. -/
def start (r : Responder σ κ) (args : List Value) : Engine σ κ StateId := do
  let m ← machine
  let d ← ofGraph (m.graph.definition m.definition)
  match d.start with
  | none => fail (.noStartState (m.graph.definitionLabel m.definition))
  | some s =>
    update fun m => { m with active := none }
    let entered ← seed r s args
    notify (.started entered)
    pure entered

/-- Puts the machine into a state of its definition as if it had been started there. -/
def goto (r : Responder σ κ) (s : StateId) (args : List Value) : Engine σ κ StateId := do
  let m ← machine
  let st ← ofGraph (m.graph.state s)
  if m.graph.isWithin st.owner m.definition then seed r s args
  else fail (.graph (.foreignState (m.graph.pathOfState s) (m.graph.definitionLabel m.definition)))

end Statechart.Engine
