import Statechart.Proofs.Graph.Chains
import Statechart.Proofs.Graph.Ownership
import Statechart.Proofs.Path

/-!
# Paths lead back

Where every name is plain, splitting a path gives the names that it was made of, and these lead from
the root to the element. Names are unique among the elements of an owner, so they lead to no other.
-/

namespace Statechart

namespace Graph

variable {κ : Type} {g : Graph κ} {d : DefinitionId} {s : StateId} {t : TransitionId}
  {x : Definition κ} {st : State κ} {tr : Transition κ}

theorem stateNamed_name (hg : g.Tied) (hs : g.state? s = some st) :
    g.stateNamed st.owner st.name = some s := by
  obtain ⟨x, hx⟩ := hg.placed.owner hs
  have hmem : s ∈ x.states := hg.listed.state_mem hx hs
  rw [stateNamed, hx, Option.bind_some]
  cases hfind : x.states.find? fun s' => (g.state? s').any (·.name == st.name) with
  | none =>
    have hno := List.find?_eq_none.mp hfind s hmem
    rw [hs, Option.any_some, beq_self_eq_true] at hno
    exact absurd rfl hno
  | some s' =>
    obtain ⟨st', hst', howner⟩ := hg.listed.state_live hx (List.mem_of_find?_eq_some hfind)
    have hname := List.find?_some hfind
    rw [hst', Option.any_some, beq_iff_eq] at hname
    exact congrArg some (hg.names.state hst' hs howner hname)

theorem transitionNamed_name (hg : g.Tied) (ht : g.transition? t = some tr)
    (hx : g.definition? tr.owner = some x) : g.transitionNamed tr.owner tr.name = some t := by
  have hmem : t ∈ x.transitions := hg.listed.transition_mem hx ht
  rw [transitionNamed, hx, Option.bind_some]
  cases hfind : x.transitions.find? fun t' => (g.transition? t').any (·.name == tr.name) with
  | none =>
    have hno := List.find?_eq_none.mp hfind t hmem
    rw [ht, Option.any_some, beq_self_eq_true] at hno
    exact absurd rfl hno
  | some t' =>
    obtain ⟨tr', htr', howner⟩ := hg.listed.transition_live hx (List.mem_of_find?_eq_some hfind)
    have hname := List.find?_some hfind
    rw [htr', Option.any_some, beq_iff_eq] at hname
    exact congrArg some (hg.names.transition htr' ht howner hname)

/-! ## Names of what is around -/

/-- The names of the composite states around a definition, outermost first. -/
def namesAround (g : Graph κ) (d : DefinitionId) : List String :=
  match (g.definition? d).bind (·.composite) with
  | some c => (g.ancestors c).reverse.map g.stateName
  | none => []

theorem pathOfDefinition_eq (g : Graph κ) (d : DefinitionId) :
    g.pathOfDefinition d = Path.ofNames (g.namesAround d) := by
  rw [pathOfDefinition, namesAround]
  cases (g.definition? d).bind (·.composite) <;> rfl

theorem names_ancestors (hg : g.Nested) (hs : g.state? s = some st) :
    (g.ancestors s).reverse.map g.stateName = g.namesAround st.owner ++ [st.name] := by
  have hname : g.stateName s = st.name := by rw [stateName, hs]
  have hsuper : g.superstate s = (g.definition? st.owner).bind (·.composite) := by
    rw [superstate, hs]
    rfl
  rw [ancestors_eq_cons hg, List.reverse_cons, List.map_append, List.map_singleton, hname,
    superstates, hsuper, namesAround]
  cases (g.definition? st.owner).bind (·.composite) <;> rfl

theorem live_of_mem_ancestors (hg : g.Nested) (hs : g.state? s = some st) {c : StateId}
    (hc : c ∈ g.ancestors s) : ∃ ct, g.state? c = some ct := by
  rcases Relation.ReflTransGen.cases_tail ((mem_ancestors hg).mp hc) with rfl | ⟨b, -, hstep⟩
  · exact ⟨st, hs⟩
  · obtain ⟨bt, x, -, hx, hxc⟩ := superstate_eq_some.mp hstep
    obtain ⟨ct, hct, -⟩ := hg.composite_live hx hxc
    exact ⟨ct, hct⟩

/-- The names around a definition lead to it. -/
theorem descend_namesAround (hg : g.Tied) (hx : g.definition? d = some x) :
    g.descend (g.namesAround d) = some d := by
  induction hn : d.index using Nat.strongRecOn generalizing d x with
  | ind n ih =>
    cases hc : x.composite with
    | none =>
      have hroot : d = g.root := by
        by_contra hne
        obtain ⟨c, ct, hc', -⟩ := hg.nested.enclosed hx hne
        rw [hc] at hc'
        cases hc'
      rw [namesAround, hx, Option.bind_some, hc, hroot]
      rfl
    | some c =>
      obtain ⟨ct, hct, hsub⟩ := hg.nested.composite_live hx hc
      obtain ⟨y, hy⟩ := hg.placed.owner hct
      obtain ⟨-, -, -, hlt⟩ := hg.nested.nested hct hsub
      have hrest := ih ct.owner.index (by omega) hy rfl
      have hnames : g.namesAround d = g.namesAround ct.owner ++ [ct.name] := by
        rw [← names_ancestors hg.nested hct, namesAround, hx, Option.bind_some, hc]
      rw [descend] at hrest ⊢
      rw [hnames, List.foldlM_append, hrest]
      show (do (← g.state? (← g.stateNamed ct.owner ct.name)).submachine) >>= pure = some d
      rw [stateNamed_name hg hct]
      show ((g.state? c).bind (·.submachine)) >>= pure = some d
      rw [hct, Option.bind_some, hsub]
      rfl

/-! ## Paths lead to elements -/

theorem splitLast?_concat (names : List String) (n : String) :
    splitLast? (names ++ [n]) = some (names, n) := by
  rw [splitLast?, List.getLast?_concat, List.dropLast_concat]
  rfl

theorem stateAt?_of_split (hg : g.Tied) (hs : g.state? s = some st) {path : String}
    (hsplit : Path.split path = g.namesAround st.owner ++ [st.name]) :
    g.stateAt? path = some s := by
  obtain ⟨x, hx⟩ := hg.placed.owner hs
  rw [stateAt?, hsplit, splitLast?_concat]
  show (g.descend (g.namesAround st.owner)).bind (g.stateNamed · st.name) = some s
  rw [descend_namesAround hg hx]
  exact stateNamed_name hg hs

theorem transitionAt?_of_split (hg : g.Tied) (ht : g.transition? t = some tr)
    (hx : g.definition? tr.owner = some x) {path : String}
    (hsplit : Path.split path = g.namesAround tr.owner ++ [tr.name]) :
    g.transitionAt? path = some t := by
  rw [transitionAt?, hsplit, splitLast?_concat]
  show (g.descend (g.namesAround tr.owner)).bind (g.transitionNamed · tr.name) = some t
  rw [descend_namesAround hg hx]
  exact transitionNamed_name hg ht hx

theorem pathOfTransition_eq (ht : g.transition? t = some tr) :
    g.pathOfTransition t = Path.ofNames (g.namesAround tr.owner ++ [tr.name]) := by
  rw [pathOfTransition, ht, Path.ofNames_concat, ← pathOfDefinition_eq]

end Graph
end Statechart
