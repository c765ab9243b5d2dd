import Statechart.Json.Decode
import Statechart.Json.Printer
import Statechart.Text.Blank

/-!
# Machine options

Options have defaults; a document sets some of them, and flags from outside set the two switches
last.
-/

namespace Statechart

open Json

structure MachineOptions where
  /-- Whether committed moves are recorded. -/
  recordHistory : Bool := true
  /-- Whether the machines spawned for nested definitions pass their records on. -/
  propagateHistory : Bool := false
  /-- Data that every record carries. -/
  historyData : Option Value := none
  deriving Inhabited

/-- Why no options come from a document. -/
inductive OptionsError where
  /-- The document cannot be opened or is not text. -/
  | unreadable
  | malformed
  deriving DecidableEq, Repr

namespace MachineOptions

instance : BEq MachineOptions := ⟨fun a b =>
  a.recordHistory == b.recordHistory && a.propagateHistory == b.propagateHistory &&
    a.historyData == b.historyData⟩

def standard : MachineOptions := {}

def withoutHistory (o : MachineOptions) : MachineOptions := { o with recordHistory := false }

def propagatingHistory (o : MachineOptions) : MachineOptions := { o with propagateHistory := true }

def withHistoryData (o : MachineOptions) (v : Value) : MachineOptions :=
  { o with historyData := some v }

def toJson (o : MachineOptions) : Value :=
  .object
    [("record_history", .bool o.recordHistory), ("propagate_history", .bool o.propagateHistory),
      ("history_data", .ofOption id o.historyData)]

/-- Each field may be left out; only the data may be null. -/
def decode : Decoder MachineOptions := fun room t => do
  match ← Decode.record ["record_history", "propagate_history", "history_data"] room t with
  | (room, [record, propagate, data]) =>
    some
      { recordHistory := ← Decode.withDefault standard.recordHistory Decode.bool room record
        propagateHistory := ← Decode.withDefault standard.propagateHistory
          Decode.bool room propagate
        historyData := ← Decode.withDefault standard.historyData
          (Decode.nullable Decode.value) room data }
  | _ => none

def parse (text : String) : Option MachineOptions := Decode.text decode text

/-- Reads the bytes of a document; there are none when it cannot be opened. -/
def ofDocument (bytes : Option ByteArray) : Except OptionsError MachineOptions :=
  match bytes.bind String.fromUTF8? with
  | none => .error .unreadable
  | some text =>
    match parse text with
    | some o => .ok o
    | none => .error .malformed

def render (o : MachineOptions) : String := o.toJson.compact

/-- What a flag says, in any case and with blanks around it. -/
def flag? (text : String) : Option Bool :=
  match (Text.trim text).map Char.toLower with
  | "1" | "true" | "yes" | "on" => some true
  | "0" | "false" | "no" | "off" => some false
  | _ => none

/-- Sets the switches that a flag speaks of. -/
def override (o : MachineOptions) (record propagate : Option String) : MachineOptions :=
  { o with
    recordHistory := (record.bind flag?).getD o.recordHistory
    propagateHistory := (propagate.bind flag?).getD o.propagateHistory }

end MachineOptions
end Statechart
