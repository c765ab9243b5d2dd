import Statechart.Proofs.Graph.Isomorphism
import Statechart.Proofs.Graph.Paths

/-!
# The hierarchy of a copy

Superstates and names in a copy are those of the graph that it was made from, as far as these lie in
the definition copied. So the name of a state from the root is what is around the definition,
followed by the name of its copy.
-/

namespace Statechart.Graph

variable {κ : Type} {g : Graph κ} {d e : DefinitionId} {s s' c : StateId} {st : State κ}
  {x : Definition κ}

/-- The names of the states around a state and its own, outermost first. -/
def names (g : Graph κ) (s : StateId) : List String := (g.ancestors s).reverse.map g.stateName

theorem pathOfState_eq (g : Graph κ) (s : StateId) : g.pathOfState s = Path.ofNames (g.names s) :=
  rfl

theorem names_eq (hg : g.Nested) (hs : g.state? s = some st) :
    g.names s = g.namesAround st.owner ++ [st.name] :=
  names_ancestors hg hs

/-- What is around a nested definition is the state that it is nested in. -/
theorem namesAround_nested (hg : g.Nested) (hc : g.state? c = some st)
    (hsub : st.submachine = some d) : g.namesAround d = g.names c := by
  obtain ⟨x, hx, hcomposite, -⟩ := hg.nested hc hsub
  rw [namesAround, hx, Option.bind_some, hcomposite]
  rfl

theorem namesAround_root (hg : g.Nested) : g.namesAround g.root = [] := by
  obtain ⟨x, hx, hcomposite⟩ := hg.root
  rw [namesAround, hx, Option.bind_some, hcomposite]

section
variable (h : g.Tied) (hd : ∃ x, g.definition? d = some x)
include h hd

theorem namesAround_copyOf (he : e ∈ g.walkDefinitions d) :
    g.namesAround e = g.namesAround d ++
      (g.copyOf d).namesAround ((g.placement d).definition e) := by
  induction hn : e.index using Nat.strongRecOn generalizing e with
  | ind n ih =>
    by_cases heq : e = d
    · subst heq
      have hroot : (g.copyOf e).namesAround ((g.placement e).definition e) = [] := by
        rw [placement_root hd]
        exact namesAround_root (nested_copyOf h hd)
      rw [hroot, List.append_nil]
    · obtain ⟨x, hx⟩ := walkDefinitions_live h hd he
      obtain ⟨c, ct, -, hct, hsub, hc⟩ := composite_mem_walk h hd he heq hx
      obtain ⟨-, -, -, hlt⟩ := h.nested.nested hct hsub
      have howner := owner_mem_walkDefinitions h hd hc hct
      have hsub' : ((g.placement d).linkState g (g.copiedTransitions d) c ct).submachine =
          some ((g.placement d).definition e) := by
        show ct.submachine.map _ = _
        rw [hsub]
        rfl
      have hcopied := state?_copyOf h hd hc hct
      rw [namesAround_nested h.nested hct hsub, names_eq h.nested hct,
        ih ct.owner.index (hn ▸ hlt) howner rfl,
        namesAround_nested (nested_copyOf h hd) hcopied hsub',
        names_eq (nested_copyOf h hd) hcopied, List.append_assoc]
      rfl

/-- The name of a state is what is around the definition, followed by the name of the copy. -/
theorem names_state_copyOf (hs : s ∈ g.walkStates d) :
    g.names s = g.namesAround d ++ (g.copyOf d).names ((g.placement d).state s) := by
  obtain ⟨st, hst⟩ := walkStates_live h hd hs
  rw [names_eq h.nested hst, names_eq (nested_copyOf h hd) (state?_copyOf h hd hs hst),
    namesAround_copyOf h hd (owner_mem_walkDefinitions h hd hs hst), List.append_assoc]
  rfl

/-- So states that are copied keep their names relative to one another. -/
theorem names_of_state?_copyMap (hs : (g.copyMap d).state? s = some s') :
    g.names s = g.namesAround d ++ (g.copyOf d).names s' := by
  obtain ⟨hmem, rfl⟩ := state?_copyMap_eq_some.mp hs
  exact names_state_copyOf h hd hmem

end

end Statechart.Graph
