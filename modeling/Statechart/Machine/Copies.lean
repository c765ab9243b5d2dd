import Statechart.Graph.Copy
import Statechart.Machine.Engine

/-!
# Machines from machines

A fork is an independent machine on the same graph. A machine spawned for a composite state runs
what is nested in it. Isolation gives a machine a graph of its own, a copy of its definition, and
moves every handle it holds into the copy.
-/

namespace Statechart

namespace Machine

variable {κ : Type}

/-- A machine in the same place with the same queues and a copy of the history; nothing is under way
in it. -/
def fork (m : Machine κ) (id : Uuid) (logs : LogStore) : Machine κ × LogStore :=
  let (history, logs) := logs.detachedCopy m.history
  ({ id, graph := m.graph, definition := m.definition, active := m.active, events := m.events
     pending := m.pending, lastTransition := m.lastTransition, history, options :=
       m.options }, logs)

/-- A new machine for what is nested in a state. -/
def spawnSubmachine (m : Machine κ) (s : StateId) (id : Uuid) (logs : LogStore) :
    Except MachineError (Machine κ × LogStore) :=
  match m.graph.state s with
  | .error e => .error (.graph e)
  | .ok st =>
    match st.submachine with
    | none => .error (.notComposite (m.graph.pathOfState s))
    | some nested =>
      let (history, logs) :=
        if m.options.propagateHistory then logs.forwardingTo m.history else logs.create
      .ok ({ id, graph := m.graph, definition := nested, history, options := m.options }, logs)

/-- The active state in the copy. -/
def copiedActive (m : Machine κ) (c : GraphCopy) : Except GraphError (Option StateId) :=
  match m.active with
  | none => .ok none
  | some s =>
    match c.state? s with
    | some s => .ok (some s)
    | none => .error (.unknownState (m.graph.pathOfState s))

/-- The queued transition in the copy. -/
def copiedPending (m : Machine κ) (c : GraphCopy) : Except GraphError (Option Pending) :=
  match m.pending with
  | none => .ok none
  | some p =>
    match c.transition? p.transition with
    | some t => .ok (some ⟨t, p.args⟩)
    | none => .error (.unknownTransition (m.graph.pathOfTransition p.transition))

end Machine

/-- A record in the copy, if the state it enters is there. -/
def HistoryRecord.copied (c : GraphCopy) (r : HistoryRecord) : Option HistoryRecord :=
  (c.state? r.new).map fun new =>
    { r with
      new
      previous := r.previous.bind c.state?
      transition := r.transition.bind c.transition? }

namespace Engine

variable {σ κ : Type}

/-- Gives the machine a copy of its definition to run on. -/
def isolate : Engine σ κ Unit := do
  let m ← machine
  if m.running then fail (.unexpectedRecursion .isolate)
  let (graph, c) ← ofGraph (m.graph.copyDefinition m.definition)
  let active ← ofGraph (m.copiedActive c)
  let pending ← ofGraph (m.copiedPending c)
  modify fun w => { w with logs := w.logs.remap m.history (·.copied c) }
  update fun m =>
    { m with
      graph, active, pending
      definition := graph.root
      lastTransition := m.lastTransition.bind c.transition? }

end Engine
end Statechart
