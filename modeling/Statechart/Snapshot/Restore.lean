import Statechart.Machine.Basic
import Statechart.Snapshot.Basic

/-!
# Taking and restoring snapshots

A snapshot is restored only if every path in it leads somewhere in the machine's definition and the
queued transition leaves the active state. A machine that refuses one is left alone.
-/

namespace Statechart

variable {κ : Type}

def HistoryEntry.ofRecord (g : Graph κ) (r : HistoryRecord) : HistoryEntry :=
  { time := r.time
    previousState := r.previous.map g.pathOfState
    transition := r.transition.map g.pathOfTransition
    newState := g.pathOfState r.new
    event := r.event
    trigger := r.trigger
    data := r.data }

namespace Snapshot

/-- A snapshot of a machine with the records of its history. -/
def capture (id : Uuid) (takenAt : Instant) (m : Machine κ)
    (records : List HistoryRecord) : Snapshot :=
  let g := m.graph
  { version := currentVersion
    id
    machine := m.id
    takenAt
    definition := g.definitionLabel m.definition
    activeState := m.active.map g.pathOfState
    transitionQueue := (m.pending.map fun p => ⟨g.pathOfTransition p.transition, p.args⟩).toList
    eventQueue := m.events
    history := records.map (HistoryEntry.ofRecord g) }

/-- The active state that a snapshot names, in the machine's definition. -/
def resolveActive (s : Snapshot) (m : Machine κ) : Except SnapshotError (Option StateId) :=
  match s.activeState with
  | none => .ok none
  | some path =>
    match m.graph.stateAt? path with
    | none => .error (.unknownState path)
    | some st => if m.covers st then .ok (some st) else .error (.unknownState path)

/-- The one queued transition that a snapshot may name. -/
def resolvePending (s : Snapshot) (m : Machine κ) : Except SnapshotError (Option Pending) :=
  match s.transitionQueue with
  | [] => .ok none
  | [q] =>
    match m.graph.transitionAt? q.transition with
    | some t => .ok (some ⟨t, q.args⟩)
    | none => .error (.unknownTransition q.transition)
  | many => .error (.validationFailed (.queueTooLong many.length))

/-- Whether a transition is a candidate of a state. -/
def leaves (m : Machine κ) (s : StateId) (t : TransitionId) : Bool :=
  match m.candidatesFrom s with
  | .ok ts => ts.contains t
  | .error _ => false

/-- Fails unless the queued transition, if there is one, leaves the active state. -/
def checkPending (m : Machine κ) : Option StateId → Option Pending → Except SnapshotError Unit
  | _, none => .ok ()
  | none, some _ => .error (.validationFailed .noActiveState)
  | some s, some p =>
    if leaves m s p.transition then .ok ()
    else .error (.validationFailed
      (.doesNotLeave (m.graph.pathOfTransition p.transition) (m.graph.pathOfState s)))

/-- The machine where the snapshot says it is. Its history stays as it was. -/
def restoreInto (s : Snapshot) (m : Machine κ) : Except SnapshotError (Machine κ) := do
  s.checkVersion
  if m.running then throw (.validationFailed .running)
  let label := m.graph.definitionLabel m.definition
  if label ≠ s.definition then throw (.definitionMismatch label s.definition)
  let active ← s.resolveActive m
  let pending ← s.resolvePending m
  checkPending m active pending
  .ok { m with active, pending, events := s.eventQueue }

end Snapshot
end Statechart
