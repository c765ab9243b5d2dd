import Statechart.History
import Statechart.Json.Printer
import Statechart.Uuid

/-!
# Snapshots

A snapshot says where a machine is by paths, so it can be put into another machine for an equivalent
definition. Its history is for reading only.
-/

namespace Statechart

open Json

/-- A queued transition by its path. -/
structure QueuedTransition where
  transition : String
  args : List Value

/-- A history record with paths in place of handles. -/
structure HistoryEntry where
  time : Instant
  previousState : Option String
  transition : Option String
  newState : String
  event : Option Event
  trigger : Option String
  data : Option Value

structure Snapshot where
  version : Nat
  id : Uuid
  /-- The machine that it was taken from. -/
  machine : Uuid
  takenAt : Instant
  /-- The label of the definition that the machine runs. -/
  definition : String
  activeState : Option String
  transitionQueue : List QueuedTransition
  eventQueue : List Event
  history : List HistoryEntry

instance : BEq QueuedTransition := ⟨fun a b => a.transition == b.transition && a.args == b.args⟩

instance : BEq HistoryEntry := ⟨fun a b =>
  a.time == b.time && a.previousState == b.previousState && a.transition == b.transition &&
    a.newState == b.newState && a.event == b.event && a.trigger == b.trigger && a.data == b.data⟩

instance : BEq Snapshot := ⟨fun a b =>
  a.version == b.version && a.id == b.id && a.machine == b.machine && a.takenAt == b.takenAt &&
    a.definition == b.definition && a.activeState == b.activeState &&
    a.transitionQueue == b.transitionQueue && a.eventQueue == b.eventQueue &&
      a.history == b.history⟩

/-- Why a snapshot does not fit a machine, beyond a name that is not there. -/
inductive Misfit where
  | running
  | queueTooLong (n : Nat)
  | noActiveState
  | doesNotLeave (transition state : String)
  deriving DecidableEq, Repr

def Misfit.message : Misfit → String
  | .running => "cannot restore into a running machine"
  | .queueTooLong n => "transition queue holds " ++ toString n ++ " entries, at most one is allowed"
  | .noActiveState => "queued transition without an active state"
  | .doesNotLeave t s => "queued transition '" ++ t ++ "' does not leave '" ++ s ++ "'"

inductive SnapshotError where
  | deserializationFailed
  | unsupportedVersion (found : Nat)
  | definitionMismatch (expected found : String)
  | unknownState (path : String)
  | unknownTransition (path : String)
  | validationFailed (why : Misfit)
  deriving DecidableEq, Repr

namespace Snapshot

/-- The version of the forms below. -/
def currentVersion : Nat := 1

/-- Fails unless the version is the current one. -/
def checkVersion (s : Snapshot) : Except SnapshotError Unit :=
  if s.version = currentVersion then .ok () else .error (.unsupportedVersion s.version)

end Snapshot

def SnapshotError.message : SnapshotError → String
  | .deserializationFailed => "Deserialization failed"
  | .unsupportedVersion found =>
    "Unsupported snapshot version " ++ toString found ++ ", supported: " ++
      toString Snapshot.currentVersion
  | .definitionMismatch expected found =>
    "Snapshot belongs to definition '" ++ found ++ "', machine runs '" ++ expected ++ "'"
  | .unknownState path => "Snapshot names unknown state '" ++ path ++ "'"
  | .unknownTransition path => "Snapshot names unknown transition '" ++ path ++ "'"
  | .validationFailed why => "Snapshot validation failed: " ++ why.message

/-! ## The JSON form -/

namespace QueuedTransition

def toJson (q : QueuedTransition) : Value :=
  .object [("transition", .string q.transition), ("args", .array q.args)]

def decode : Decoder QueuedTransition := fun room t => do
  match ← Decode.record ["transition", "args"] room t with
  | (room, [transition, args]) =>
    some ⟨← Decode.required Decode.string room transition,
      ← Decode.withDefault [] (Decode.list Decode.value) room args⟩
  | _ => none

end QueuedTransition

namespace HistoryEntry

def toJson (h : HistoryEntry) : Value :=
  .object
    [("time", .string h.time.render),
      ("previous_state", .ofOption .string h.previousState),
      ("transition", .ofOption .string h.transition),
      ("new_state", .string h.newState),
      ("event", .ofOption Event.toJson h.event),
      ("trigger", .ofOption .string h.trigger),
      ("data", .ofOption id h.data)]

def decode : Decoder HistoryEntry := fun room t => do
  match ← Decode.record HistoryRecord.fieldNames room t with
  | (room, [time, previous, transition, new, event, trigger, data]) =>
    some
      { time := ← Decode.required Decode.instant room time
        previousState := ← Decode.optional Decode.string room previous
        transition := ← Decode.optional Decode.string room transition
        newState := ← Decode.required Decode.string room new
        event := ← Decode.optional Event.decode room event
        trigger := ← Decode.optional Decode.string room trigger
        data := ← Decode.optional Decode.value room data }
  | _ => none

end HistoryEntry

def Decode.uuid : Decoder Uuid := fun room t => do Uuid.parse (← Json.Decode.string room t)

namespace Snapshot

def toJson (s : Snapshot) : Value :=
  .object
    [("version", .nat s.version),
      ("id", .string s.id.render),
      ("machine", .string s.machine.render),
      ("taken_at", .string s.takenAt.render),
      ("definition", .string s.definition),
      ("active_state", .ofOption .string s.activeState),
      ("transition_queue", .array (s.transitionQueue.map (·.toJson))),
      ("event_queue", .array (s.eventQueue.map (·.toJson))),
      ("history", .array (s.history.map (·.toJson)))]

def fieldNames : List String :=
  ["version", "id", "machine", "taken_at", "definition", "active_state", "transition_queue",
    "event_queue", "history"]

/-- The queues and the history may be left out. -/
def decode : Decoder Snapshot := fun room t => do
  match ← Decode.record fieldNames room t with
  | (room, [version, id, machine, takenAt, definition, active, transitions, events, history]) =>
    some
      { version := ← Decode.required (Decode.nat 32) room version
        id := ← Decode.required Decode.uuid room id
        machine := ← Decode.required Decode.uuid room machine
        takenAt := ← Decode.required Decode.instant room takenAt
        definition := ← Decode.required Decode.string room definition
        activeState := ← Decode.optional Decode.string room active
        transitionQueue :=
          ← Decode.withDefault [] (Decode.list QueuedTransition.decode) room transitions
        eventQueue := ← Decode.withDefault [] (Decode.list Event.decode) room events
        history := ← Decode.withDefault [] (Decode.list HistoryEntry.decode) room history }
  | _ => none

/-- The pretty text of a snapshot. -/
def render (s : Snapshot) : String := s.toJson.pretty

/-- Reads a snapshot of the current version. -/
def parse (text : String) : Except SnapshotError Snapshot :=
  match Decode.text decode text with
  | none => .error .deserializationFailed
  | some s => s.checkVersion.map fun _ => s

end Snapshot
end Statechart
