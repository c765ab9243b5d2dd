import Statechart.Graph.Hierarchy
import Statechart.Json.Access

/-!
# Reports on graphs

What an element looks like from outside, as JSON: handles are numbers, behaviors are their names,
and a callback says only that it is one.
-/

namespace Statechart

open Json

variable {κ : Type}

def StateId.report (s : StateId) : Value := .nat s.index

def TransitionId.report (t : TransitionId) : Value := .nat t.index

def DefinitionId.report (d : DefinitionId) : Value := .nat d.index

def Behavior.report : Behavior κ → Value
  | .absent => .null
  | .named name => .string name
  | .callback _ | .test _ => .record [("callback", .bool true)]

def Trigger.report : Trigger → Value
  | .tag name => .record [("tag", .string name)]
  | .pattern p => .record [("re", .string p.source)]
  | .predicate label _ => .record [("pred", .string label)]

def Event.report (e : Event) : Value := .array [.string e.name, .array e.args]

namespace Graph

def pathReport (g : Graph κ) (s : StateId) : Value := .string (g.pathOfState s)

def transitionPathReport (g : Graph κ) (t : TransitionId) : Value := .string (g.pathOfTransition t)

def stateFields (g : Graph κ) (id : StateId) (s : State κ) : List (String × Value) :=
  [("id", id.report), ("name", .string s.name), ("kind", .string s.kind.key),
    ("owner", s.owner.report),
    ("sub", .ofOption DefinitionId.report s.submachine),
    ("in", .list TransitionId.report s.incoming),
    ("out", .list TransitionId.report s.outgoing), ("meta", .object s.metadata),
    ("entry", s.entry.report), ("exit", s.exit.report), ("do", s.doActivity.report),
    ("path", g.pathReport id)]

def transitionFields (g : Graph κ) (id : TransitionId) (t : Transition κ) : List (String × Value) :=
  [("id", id.report), ("name", .string t.name), ("kind", .string t.kind.key),
    ("owner", t.owner.report),
    ("source", t.source.report), ("target", t.target.report), ("meta", .object t.metadata),
    ("on", .list Trigger.report t.triggers), ("guard", t.guard.report), ("effect", t.effect.report),
    ("path", g.transitionPathReport id)]

/-- Of the fallbacks only those there are. -/
def definitionFields (g : Graph κ) (id : DefinitionId) (d : Definition κ) : List (String × Value) :=
  let fallbacks := (Action.all.filter fun a => !(d.fallback a).isAbsent).map fun a =>
    (a.key, (d.fallback a).report)
  [("id", id.report), ("name", .string d.name), ("states", .list StateId.report d.states),
    ("transitions", .list TransitionId.report d.transitions),
    ("parent", .ofOption StateId.report d.composite), ("root", .bool d.isRoot),
    ("start", .ofOption StateId.report d.start), ("end", .ofOption StateId.report d.final),
    ("options", .record fallbacks), ("label", .string (g.definitionLabel id))]

/-- Every element of a graph in the order of the handles. -/
def report (g : Graph κ) : Value :=
  .record
    [("root", g.root.report),
      ("definitions", .list (fun (i, d) => .record (g.definitionFields ⟨i⟩ d))
        g.definitions.entries),
      ("states", .list (fun (i, s) => .record (g.stateFields ⟨i⟩ s)) g.states.entries),
      ("transitions", .list (fun (i, t) => .record (g.transitionFields ⟨i⟩ t))
        g.transitions.entries)]

end Graph

/-- What a state is. -/
def State.flags (s : State κ) : Value :=
  .record
    [("start", .bool (s.kind = .start)), ("end", .bool (s.kind = .final)),
      ("composite", .bool s.isComposite), ("submachine", .bool s.isComposite),
      ("simple", .bool !s.isComposite)]

end Statechart
