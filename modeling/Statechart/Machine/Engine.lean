import Statechart.Machine.Basic

/-!
# Work on a machine

Work reads and changes a world: one machine, the logs of all machines, the notices so far, and the
environment of the behaviors. Work that fails keeps the world as it then is. Work may also be cut
off for want of fuel, which is no outcome of the machine and is never handled.

What runs behaviors is a parameter here: a responder may do anything to the world.
-/

namespace Statechart

/-- Everything that work on a machine may touch. `σ` is the environment of the behaviors. -/
structure World (σ κ : Type) where
  machine : Machine κ
  logs : LogStore
  notices : List Notice
  env : σ
  /-- The time that new records get. -/
  now : Instant

inductive Stop where
  | fault (e : MachineError)
  /-- The fuel ran out. -/
  | exhausted
  deriving Repr

abbrev Engine (σ κ α : Type) := EStateM Stop (World σ κ) α

namespace World

variable {σ κ : Type}

def mapMachine (w : World σ κ) (f : Machine κ → Machine κ) : World σ κ :=
  { w with machine := f w.machine }

def notify (w : World σ κ) (n : Notice) : World σ κ := { w with notices := w.notices ++ [n] }

/-- The machine's own records. -/
def records (w : World σ κ) : List HistoryRecord := w.logs.records w.machine.history

end World

namespace Engine

variable {σ κ α : Type}

def fail (e : MachineError) : Engine σ κ α := throw (.fault e)

def machine : Engine σ κ (Machine κ) := do pure (← get).machine

def update (f : Machine κ → Machine κ) : Engine σ κ Unit := modify (·.mapMachine f)

def notify (n : Notice) : Engine σ κ Unit := modify (·.notify n)

/-- An answer of the graph, whose error becomes the machine's. -/
def ofGraph : Except GraphError α → Engine σ κ α
  | .ok a => pure a
  | .error e => fail (.graph e)

/-- An answer whose error is the machine's. -/
def ofExcept : Except MachineError α → Engine σ κ α
  | .ok a => pure a
  | .error e => fail e

/-- Work followed by a change of the world, whether the work succeeds or fails. -/
def thenAlways (x : Engine σ κ α) (f : World σ κ → World σ κ) : Engine σ κ α := fun w =>
  match x w with
  | .ok a w => .ok a (f w)
  | .error e w => .error e (f w)

/-- Work followed by a change of the world only if it fails. -/
def onFailure (x : Engine σ κ α) (f : World σ κ → World σ κ) : Engine σ κ α := fun w =>
  match x w with
  | .ok a w => .ok a w
  | .error e w => .error e (f w)

/-- The outcome of work as a value. Want of fuel is not an outcome. -/
def attempt (x : Engine σ κ α) : Engine σ κ (Except MachineError α) := fun w =>
  match x w with
  | .ok a w => .ok (.ok a) w
  | .error (.fault e) w => .ok (.error e) w
  | .error .exhausted w => .error .exhausted w

end Engine

/-- What answers when a behavior runs. -/
structure Responder (σ κ : Type) where
  /-- Whether the context answers to a name. -/
  respondsTo : σ → String → Bool
  /-- Asks the context. -/
  call : String → Element κ → List Json.Value → Engine σ κ (Option Bool)
  /-- Runs the body of a callback. -/
  callback : κ → Element κ → List Json.Value → Engine σ κ (Option Bool)

/-- An element by its handle. -/
inductive Subject where
  | state (s : StateId)
  | transition (t : TransitionId)
  deriving DecidableEq, Repr

namespace Graph

variable {κ : Type}

/-- An element, its own behavior for an action, and its owner. -/
def subject (g : Graph κ) (a : Action) :
    Subject → Except GraphError (Element κ × Behavior κ × DefinitionId)
  | .state s => do
    let st ← g.state s
    .ok (.state st, st.behavior a, st.owner)
  | .transition t => do
    let tr ← g.transition t
    .ok (.transition tr, tr.behavior a, tr.owner)

/-- What runs for an element: its own behavior, else that of its definition, else the name of the
action. -/
def behaviorOf (g : Graph κ) (a : Action) (s : Subject) :
    Except GraphError (Element κ × Behavior κ) := do
  let (element, own, owner) ← g.subject a s
  if own.isAbsent then
    let d ← g.definition owner
    .ok (element, (d.fallback a).orElse (.named a.key))
  else .ok (element, own)

end Graph

namespace Engine

variable {σ κ : Type}

/-- Runs the behavior of an element. A name that the context does not answer to gives no answer. -/
def invoke (r : Responder σ κ) (a : Action) (s : Subject) (args : List Json.Value) :
    Engine σ κ (Option Bool) := do
  let (element, behavior) ← ofGraph ((← machine).graph.behaviorOf a s)
  match behavior with
  | .absent => pure none
  | .named name => if r.respondsTo (← get).env name then r.call name element args else pure none
  | .callback body => r.callback body element args
  | .test accepts => pure (some (accepts args))

/-- Asks a transition's guard. One that gives no answer passes. -/
def guard (r : Responder σ κ) (t : TransitionId) (args : List Json.Value) : Engine σ κ Bool := do
  let passed := (← invoke r .guard (.transition t) args).getD true
  notify (.guardEvaluated t passed)
  pure passed

/-- The transitions that leave the active state. -/
def candidates : Engine σ κ (List TransitionId) := do
  let m ← machine
  match m.active with
  | none => fail .notStarted
  | some s => ofGraph (m.candidatesFrom s)

end Engine
end Statechart
