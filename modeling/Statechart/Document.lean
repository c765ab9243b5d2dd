import Statechart.Builder
import Statechart.Script.Basic

/-!
# Definitions as documents

A definition may be written down as JSON with its states, what is nested in them, its transitions
and its fallbacks, all by name. Behaviors are names or scripts; guards may be tests.
-/

namespace Statechart

open Json

inductive DocumentError where
  /-- The document does not have the form of what it should describe. -/
  | malformed
  | build (e : BuildError)
  deriving DecidableEq, Repr

/-- Reads what a document describes. -/
abbrev Reading (α : Type) := Except DocumentError α

namespace Document

def expect {α : Type} : Option α → Reading α
  | some a => .ok a
  | none => .error .malformed

def accept {α : Type} : Except BuildError α → Reading α
  | .ok a => .ok a
  | .error e => .error (.build e)

def textAt (v : Value) (name : String) : Reading String := expect (v.textAt? name)

def itemsAt (v : Value) (name : String) : Reading (List Value) := expect (v.itemsAt? name)

/-- A name and its arguments, in a list; a name alone has none. -/
def event : Value → Reading Event
  | .string name => .ok ⟨name, []⟩
  | .array (.string name :: args) => .ok ⟨name, args⟩
  | _ => .error .malformed

def action (key : String) : Reading Action := expect (Action.ofKey? key)

/-- The label of a callback that has none of its own. -/
def standardLabel : String := "cb"

def behavior : Value → Reading (Behavior Script)
  | .null => .ok .absent
  | .string name => .ok (.named name)
  | .array items => do
    .ok (.callback ⟨standardLabel, false, ← expect (Script.bodyOfValue? (.array items))⟩)
  | .object fields => do
    let v := Value.object fields
    let body ← expect (Script.bodyOfValue? (v.member "do"))
    .ok (.callback ⟨(v.textAt? "label").getD standardLabel, false, body⟩)
  | _ => .error .malformed

def behaviorAt (v : Value) (name : String) : Reading (Behavior Script) := behavior (v.member name)

def trigger : Value → Reading TriggerSpec
  | .string name => .ok (.ready (.tag name))
  | v =>
    match v.textAt? "re" with
    | some source => .ok (.pattern source)
    | none => do
      let test := EventTest.ofValue v
      .ok (.ready (.predicate (← textAt v "label") fun e => test.holds e.name e.args))

def triggers (v : Value) : Reading (List TriggerSpec) := do (← itemsAt v "on").mapM trigger

/-- Pairs of a name and a value. -/
def metadata (v : Value) : Reading Fields := do
  let pairs ← (← itemsAt v "meta").mapM fun
    | .array [.string key, w] => Except.ok (key, w)
    | _ => .error .malformed
  .ok (.ofList pairs)

def stateSpec (v : Value) : Reading (StateSpec Script) := do
  .ok
    { name := ← textAt v "name"
      entry := ← behaviorAt v "entry"
      exit := ← behaviorAt v "exit"
      doActivity := ← behaviorAt v "do"
      metadata := ← metadata v }

def transitionKind (v : Value) : TransitionKind :=
  if v.flagAt "internal" then .internal else .external

/-- What a draft starts from: the ends, or one of the two short forms. -/
def draftStart (v : Value) : Reading (TransitionDraft Script) :=
  match v.textAt? "helper" with
  | some "event" => do .ok (.onEvent (← textAt v "from") (← textAt v "to") (← textAt v "event"))
  | some "guarded" => do
    .ok (.guarded (← textAt v "from") (← textAt v "to")
      (EventTest.ofValue (v.member "when")).onArgs)
  | some _ => .error .malformed
  | none => .ok { source := v.textAt? "from", target := v.textAt? "to" }

/-- A guard of its own takes the place of a test. -/
def draft (v : Value) : Reading (TransitionDraft Script) := do
  let start ← draftStart v
  let d := (← triggers v).foldl (·.on ·) { start with name := v.textAt? "name" }
  let d := match v.given? "when" with
    | some test => d.guardBy (EventTest.ofValue test).onArgs
    | none => d
  let guard ← behaviorAt v "guard"
  .ok
    { d with
      guard := guard.orElse d.guard
      effect := ← behaviorAt v "effect"
      kind := transitionKind v
      metadata := ← metadata v }

/-- Adds a fallback that a pair describes. -/
def addFallback (b : Blueprint Script) : Value → Reading (Blueprint Script)
  | .array [.string key, v] => do .ok (b.setFallback (← action key) (← behavior v))
  | _ => .error .malformed

mutual

/-- Reads a definition, others nested in it at most `n` deep. -/
def blueprintWithin : Nat → Value → Reading (Blueprint Script)
  | 0, _ => .error .malformed
  | n + 1, v => do
    let b : Blueprint Script :=
      { name := ← textAt v "name", initial := v.textAt? "initial", final := v.textAt? "final" }
    let b ← (← itemsAt v "states").foldlM (fun b s => do .ok (b.declare (← stateSpec s))) b
    let b ← nestWithin n b (← itemsAt v "composites")
    let b ← (← itemsAt v "transitions").foldlM
      (fun b t => do accept (b.addTransition (← draft t))) b
    (← itemsAt v "options").foldlM addFallback b

/-- Adds nested definitions. -/
def nestWithin : Nat → Blueprint Script → List Value → Reading (Blueprint Script)
  | n, b, .array [.string state, v] :: rest => do
    nestWithin n (b.nest state (← blueprintWithin n v)) rest
  | _, b, [] => .ok b
  | _, _, _ => .error .malformed

end

/-- Reads a definition. Each one nested takes a level of the document or more. -/
def blueprint (v : Value) : Reading (Blueprint Script) := blueprintWithin Tree.maxDepth v

end Document
end Statechart
