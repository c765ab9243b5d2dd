import Statechart.Graph.Hierarchy
import Statechart.Json.Decode

/-!
# Validation

Findings name what is wrong with the shape of a definition and of those nested in it: first the
marks of a definition, then its states in order, each followed by what is nested in it. Guards and
triggers are not looked at.
-/

namespace Statechart

open Json

inductive FindingKind where
  | noStartState
  | noEndState
  | stateWithoutTransitions
  | endStateCannotBeReached
  | endStateHasOutboundTransitions
  | startStateHasNoOutboundTransitions
  | stateHasNoInboundTransitions
  | stateHasNoOutboundTransitions
  | endStateHasSubstates
  deriving DecidableEq, Repr

namespace FindingKind

def code : FindingKind → String
  | .noStartState => "no_start_state"
  | .noEndState => "no_end_state"
  | .stateWithoutTransitions => "state_without_transitions"
  | .endStateCannotBeReached => "end_state_cannot_be_reached"
  | .endStateHasOutboundTransitions => "end_state_has_outbound_transitions"
  | .startStateHasNoOutboundTransitions => "start_state_has_no_outbound_transitions"
  | .stateHasNoInboundTransitions => "state_has_no_inbound_transitions"
  | .stateHasNoOutboundTransitions => "state_has_no_outbound_transitions"
  | .endStateHasSubstates => "end_state_has_substates"

def all : List FindingKind :=
  [.noStartState, .noEndState, .stateWithoutTransitions, .endStateCannotBeReached,
    .endStateHasOutboundTransitions, .startStateHasNoOutboundTransitions,
    .stateHasNoInboundTransitions, .stateHasNoOutboundTransitions, .endStateHasSubstates]

def ofCode? (s : String) : Option FindingKind := all.find? (·.code == s)

end FindingKind

/-- A defect and the path of the element that has it. -/
structure Finding where
  kind : FindingKind
  element : String
  deriving DecidableEq, Repr

namespace Finding

def message (f : Finding) : String := f.kind.code ++ " at '" ++ f.element ++ "'"

def toJson (f : Finding) : Value :=
  .object [("kind", .string f.kind.code), ("element", .string f.element)]

def decode : Decoder Finding := fun room t => do
  match ← Decode.record ["kind", "element"] room t with
  | (room, [kind, element]) =>
    some ⟨← Decode.required (Decode.oneOf FindingKind.ofCode?) room kind,
      ← Decode.required Decode.string room element⟩
  | _ => none

end Finding

/-- What a check comes to. One that failed has at least one finding. -/
inductive Checked where
  | passed
  | failed (first : Finding) (rest : List Finding)
  deriving DecidableEq, Repr

namespace Checked

def isPassed : Checked → Bool
  | passed => true
  | failed .. => false

def findings : Checked → List Finding
  | passed => []
  | failed first rest => first :: rest

/-- Both checks; neither hides what the other found. -/
def both : Checked → Checked → Checked
  | passed, c => c
  | failed first rest, c => failed first (rest ++ c.findings)

/-- All checks in order. -/
def all (cs : List Checked) : Checked := cs.foldr both passed

end Checked

namespace Graph

variable {κ : Type}

/-- Fails with a finding unless the condition holds. -/
def require (ok : Bool) (kind : FindingKind) (element : String) : Checked :=
  if ok then .passed else .failed ⟨kind, element⟩ []

/-- The checks of a state by itself. -/
def checksOf (g : Graph κ) (s : StateId) : List Checked :=
  match g.state? s with
  | none => []
  | some st =>
    let path := g.pathOfState s
    let hasOther (states : List StateId) : Bool := states.any (· != s)
    let sources := g.sources s
    let targets := g.targets s
    require (!(g.incidentTransitions s).isEmpty) .stateWithoutTransitions path ::
      match st.kind with
      | .final =>
        [require (hasOther sources) .endStateCannotBeReached path,
          require targets.isEmpty .endStateHasOutboundTransitions path,
          require (!st.isComposite) .endStateHasSubstates path]
      | .start => [require (!targets.isEmpty) .startStateHasNoOutboundTransitions path]
      | .normal =>
        [require (hasOther sources) .stateHasNoInboundTransitions path,
          require (hasOther targets) .stateHasNoOutboundTransitions path]

/-- The checks of a definition and those nested in it, at most `n` levels deep. -/
def checksBelow (g : Graph κ) : Nat → DefinitionId → List Checked
  | 0, _ => []
  | n + 1, d =>
    match g.definition? d with
    | none => []
    | some x =>
      [require x.start.isSome .noStartState (g.definitionLabel d),
        require x.final.isSome .noEndState (g.definitionLabel d)] ++
        x.states.flatMap fun s =>
          g.checksOf s ++
            match g.nestedIn s with
            | some nested => checksBelow g n nested
            | none => []

/-- Checks a definition and all that is nested in it. -/
def check (g : Graph κ) (d : DefinitionId) : Checked := .all (g.checksBelow g.definitions.size d)

/-- Every finding on a definition. -/
def validate (g : Graph κ) (d : DefinitionId) : List Finding := (g.check d).findings

def isValid (g : Graph κ) (d : DefinitionId) : Bool := (g.check d).isPassed

end Graph
end Statechart
