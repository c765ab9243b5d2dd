import Statechart.Event
import Statechart.Handle
import Statechart.Time

/-!
# Histories

A log keeps the committed moves of a machine in order. Logs live in a store, since a log may pass
its records on to the log of another machine: what is appended to it is appended to that one as
well, and to none further up.
-/

namespace Statechart

open Json

/-- A committed move. -/
structure HistoryRecord where
  time : Instant
  previous : Option StateId
  transition : Option TransitionId
  new : StateId
  event : Option Event
  trigger : Option String
  data : Option Value
  deriving Inhabited

namespace HistoryRecord

/-- A record of a start, or of a machine put into a state by force. -/
def isSeed (r : HistoryRecord) : Bool := r.transition.isNone

def toJson (r : HistoryRecord) : Value :=
  .object
    [("time", .string r.time.render),
      ("previous_state", .ofOption (fun s => .nat s.index) r.previous),
      ("transition", .ofOption (fun t => .nat t.index) r.transition),
      ("new_state", .nat r.new.index),
      ("event", .ofOption Event.toJson r.event),
      ("trigger", .ofOption .string r.trigger),
      ("data", .ofOption id r.data)]

def fieldNames : List String :=
  ["time", "previous_state", "transition", "new_state", "event", "trigger", "data"]

end HistoryRecord

namespace Decode

open Json.Decode

def instant : Decoder Instant := fun room t => do Instant.parse (← string room t)

def stateId : Decoder StateId := fun room t => (nat 32 room t).map .mk

def transitionId : Decoder TransitionId := fun room t => (nat 32 room t).map .mk

def definitionId : Decoder DefinitionId := fun room t => (nat 32 room t).map .mk

def historyRecord : Decoder HistoryRecord := fun room t => do
  match ← record HistoryRecord.fieldNames room t with
  | (room, [time, previous, transition, new, event, trigger, data]) =>
    some
      { time := ← required instant room time
        previous := ← optional stateId room previous
        transition := ← optional transitionId room transition
        new := ← required stateId room new
        event := ← optional Event.decode room event
        trigger := ← optional string room trigger
        data := ← optional value room data }
  | _ => none

end Decode

/-- A log of a store, and the log that it passes its records on to. -/
structure HistoryLog where
  own : Nat
  parent : Option Nat
  deriving DecidableEq, Repr, Inhabited

/-- The records of every log, by number. -/
structure LogStore where
  logs : Array (List HistoryRecord)
  deriving Inhabited

namespace LogStore

def empty : LogStore := ⟨#[]⟩

/-- The records under a number; a number not given out has none. -/
def recordsAt (st : LogStore) (n : Nat) : List HistoryRecord := st.logs[n]?.getD []

def update (st : LogStore) (n : Nat) (f : List HistoryRecord → List HistoryRecord) : LogStore :=
  ⟨st.logs.modify n f⟩

/-- A new log with the given records. -/
def allocate (st : LogStore) (records : List HistoryRecord) (parent : Option Nat) :
    HistoryLog × LogStore :=
  (⟨st.logs.size, parent⟩, ⟨st.logs.push records⟩)

def create (st : LogStore) : HistoryLog × LogStore := st.allocate [] none

/-- A new log that passes its records on to another. -/
def forwardingTo (st : LogStore) (parent : HistoryLog) : HistoryLog × LogStore :=
  st.allocate [] (some parent.own)

def records (st : LogStore) (l : HistoryLog) : List HistoryRecord := st.recordsAt l.own

/-- A new log with the same records, which passes them on to the same log. -/
def detachedCopy (st : LogStore) (l : HistoryLog) : HistoryLog × LogStore :=
  st.allocate (st.records l) l.parent

def append (st : LogStore) (l : HistoryLog) (r : HistoryRecord) : LogStore :=
  let st := match l.parent with
    | some u => st.update u (· ++ [r])
    | none => st
  st.update l.own (· ++ [r])

/-- Empties a log; what it passed on stays there. -/
def clear (st : LogStore) (l : HistoryLog) : LogStore := st.update l.own fun _ => []

/-- Maps the records of a log in place and drops those that `f` refuses. -/
def remap (st : LogStore) (l : HistoryLog) (f : HistoryRecord → Option HistoryRecord) : LogStore :=
  st.update l.own (·.filterMap f)

/-- The states entered, in order. -/
def path (st : LogStore) (l : HistoryLog) : List StateId := (st.records l).map (·.new)

/-- Seconds and nanoseconds from the first record to the last, unless that is negative. -/
def duration (st : LogStore) (l : HistoryLog) : Option (Nat × Nat) := do
  let first ← (st.records l).head?
  let last ← (st.records l).getLast?
  last.time.elapsed? first.time

end LogStore
end Statechart
