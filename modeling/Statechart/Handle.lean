/-!
# Handles

A handle is the place of an element in its arena. Handles are given out in order and never twice, so
a removed element's handle stays unused.
-/

namespace Statechart

structure StateId where
  index : Nat
  deriving DecidableEq, Repr, Inhabited, Hashable

structure TransitionId where
  index : Nat
  deriving DecidableEq, Repr, Inhabited, Hashable

structure DefinitionId where
  index : Nat
  deriving DecidableEq, Repr, Inhabited, Hashable

/-- The index of an element that no graph holds. -/
def detachedIndex : Nat := 4294967295

namespace StateId

def detached : StateId := ⟨detachedIndex⟩

def label (s : StateId) : String := "state#" ++ toString s.index

end StateId

namespace TransitionId

def detached : TransitionId := ⟨detachedIndex⟩

def label (t : TransitionId) : String := "transition#" ++ toString t.index

end TransitionId

namespace DefinitionId

def detached : DefinitionId := ⟨detachedIndex⟩

def label (d : DefinitionId) : String := "definition#" ++ toString d.index

end DefinitionId
end Statechart
