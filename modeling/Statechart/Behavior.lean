import Statechart.Json.Value
import Statechart.Text.Debug

/-!
# Behaviors

A behavior fills a slot of a state or a transition. It is a name that the context of a run may
answer to, a callback, or a test of the arguments. The body of a callback is not part of the graph:
`κ` is the type of the keys that stand for bodies.
-/

namespace Statechart

/-- The slots that a behavior may fill. -/
inductive Action where
  | entry
  | exit
  | doActivity
  | guard
  | effect
  deriving DecidableEq, Repr, Inhabited

namespace Action

/-- The name that is called when nothing else is configured. -/
def key : Action → String
  | .entry => "entry"
  | .exit => "exit"
  | .doActivity => "doActivity"
  | .guard => "guard"
  | .effect => "effect"

def all : List Action := [.entry, .exit, .doActivity, .guard, .effect]

def ofKey? : String → Option Action
  | "entry" => some .entry
  | "exit" => some .exit
  | "doActivity" => some .doActivity
  | "guard" => some .guard
  | "effect" => some .effect
  | _ => none

end Action

inductive Behavior (κ : Type) where
  | absent
  | named (name : String)
  | callback (body : κ)
  /-- A callback that answers from the arguments alone. -/
  | test (accepts : List Json.Value → Bool)
  deriving Inhabited

namespace Behavior

variable {κ : Type}

def isAbsent : Behavior κ → Bool
  | .absent => true
  | _ => false

/-- The behavior itself unless it is absent. -/
def orElse (b fallback : Behavior κ) : Behavior κ := if b.isAbsent then fallback else b

def debug : Behavior κ → String
  | .absent => "None"
  | .named name => Text.debugCall "Named" (Text.debugString name)
  | .callback _ | .test _ => "Callback(..)"

end Behavior
end Statechart
