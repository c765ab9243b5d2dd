import Statechart.Machine.Basic
import Statechart.Report.Graph

/-!
# Reports on machines

Where a machine is and what it did, as JSON, with paths for handles.
-/

namespace Statechart

open Json

variable {κ : Type}

/-- Data is reported only where there is any. -/
def dataFields : Option Value → List (String × Value)
  | some v => [("data", v)]
  | none => []

def MachineOptions.report (o : MachineOptions) : Value :=
  .record ([("record", .bool o.recordHistory), ("propagate", .bool o.propagateHistory)] ++
    dataFields o.historyData)

def StopReason.key : StopReason → String
  | .queueEmpty => "queue_empty"
  | .singleStep => "single_step"
  | .paused => "paused"
  | .atEnd => "at_end"

def RunOutcome.report (o : RunOutcome) : Value :=
  .record ([("fired", .nat o.fired), ("stop", .ofOption (fun s => .string s.key) o.stop)] ++
    if o = .alreadyRunning then [("already_running", .bool true)] else [])

def DispatchOutcome.report (g : Graph κ) : DispatchOutcome → Value
  | .fired t => .record [("fired", g.transitionPathReport t)]
  | .queued t => .record [("queued", g.transitionPathReport t)]
  | .ambiguous ts => .record [("ambiguous", .list g.transitionPathReport ts)]
  | .unhandled => .string "unhandled"

def HistoryRecord.report (g : Graph κ) (r : HistoryRecord) : Value :=
  .record
    ([("previous", .ofOption g.pathReport r.previous),
      ("transition", .ofOption g.transitionPathReport r.transition), ("new", g.pathReport r.new),
      ("event", .ofOption Event.report r.event), ("trigger", .ofOption .string r.trigger),
      ("seed", .bool r.isSeed)] ++ dataFields r.data)

def Notice.report (g : Graph κ) : Notice → Value
  | .started s => .array [.string "started", g.pathReport s]
  | .eventDequeued e => .strings ["dequeued", e]
  | .transitionQueued t => .array [.string "queued", g.transitionPathReport t]
  | .guardEvaluated t passed => .array [.string "guard", g.transitionPathReport t, .bool passed]
  | .effectInvoked t => .array [.string "effect", g.transitionPathReport t]
  | .stateExited s => .array [.string "exit", g.pathReport s]
  | .stateEntered s => .array [.string "enter", g.pathReport s]
  | .activityInvoked s => .array [.string "do", g.pathReport s]
  | .transitionFired t source target =>
    .array [.string "fired", g.transitionPathReport t, .ofOption g.pathReport source,
      g.pathReport target]
  | .rolledBack s => .array [.string "rollback", .ofOption g.pathReport s]
  | .paused => .strings ["paused"]
  | .resumed => .strings ["resumed"]

def Pending.report (g : Graph κ) (p : Pending) : Value :=
  .array [g.transitionPathReport p.transition, .array p.args]

namespace Machine

/-- Where a machine is. -/
def report (m : Machine κ) (logs : LogStore) : Value :=
  .record
    [("active", .ofOption .string m.activePath), ("start", .bool m.atStart), ("end", .bool m.atEnd),
      ("status", .string m.status.key), ("pending", .ofOption (Pending.report m.graph) m.pending),
      ("queue", .list Event.report m.events),
      ("last", .ofOption m.graph.transitionPathReport m.lastTransition),
      ("hist", .nat (logs.records m.history).length)]

/-- A letter for each flag that is set. -/
def flagLetters (m : Machine κ) : String :=
  String.ofList ([(m.running, 'R'), (m.paused, 'P'), (m.phase.entry, 'E'), (m.phase.exit, 'X'),
    (m.phase.effect, 'F'), (m.phase.doActivity, 'D')].filterMap fun (on, c) =>
      if on then some c else none)

def historyReport (m : Machine κ) (logs : LogStore) : Value :=
  let records := logs.records m.history
  .record
    [("records", .list (HistoryRecord.report m.graph) records),
      ("last", .ofOption (HistoryRecord.report m.graph) records.getLast?),
      ("empty", .bool records.isEmpty), ("path", .list m.graph.pathReport (logs.path m.history))]

end Machine
end Statechart
