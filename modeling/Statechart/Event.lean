import Statechart.Json.Decode
import Statechart.Pattern
import Statechart.Text.Debug

/-!
# Events and triggers

An event is a name with arguments. A trigger accepts some events; its label is what the history
keeps of it.
-/

namespace Statechart

open Json

structure Event where
  name : String
  args : List Value
  deriving Inhabited

namespace Event

instance : BEq Event := ⟨fun a b => a.name == b.name && a.args == b.args⟩

def toJson (e : Event) : Value := .object [("name", .string e.name), ("args", .array e.args)]

/-- The arguments may be left out. -/
def decode : Decoder Event := fun room t => do
  match ← Decode.record ["name", "args"] room t with
  | (room, [name, args]) =>
    some ⟨← Decode.required Decode.string room name,
      ← Decode.withDefault [] (Decode.list Decode.value) room args⟩
  | _ => none

end Event

inductive Trigger where
  /-- Accepts the events of one name. -/
  | tag (name : String)
  /-- Accepts the events with a name that the pattern finds something in. -/
  | pattern (p : Pattern)
  | predicate (label : String) (test : Event → Bool)

namespace Trigger

def accepts : Trigger → Event → Bool
  | .tag name, e => name == e.name
  | .pattern p, e => p.accepts e.name
  | .predicate _ test, e => test e

def label : Trigger → String
  | .tag name => name
  | .pattern p => p.source
  | .predicate label _ => label

def debug : Trigger → String
  | .tag name => Text.debugCall "Tag" (Text.debugString name)
  | .pattern p => Text.debugCall "Pattern" (Text.debugString p.source)
  | .predicate label _ => Text.debugCall "Predicate" (Text.debugString label)

end Trigger
end Statechart
