import Statechart.Proofs.Builder.Furnishing

/-!
# Nesting and linking

A state can always be made composite. A transition whose ends stand for states can be installed
unless the name it gets is taken.
-/

namespace Statechart

section
variable {κ : Type}

/-- A plan of its ends alone, with a name of its own or without. -/
def TransitionPlan.plain (source target : String) (name : Option String) : TransitionPlan κ :=
  ⟨source, target, name, .external, [], .absent, .absent, []⟩

/-- The transition that a plan makes between two states. -/
def TransitionPlan.between (p : TransitionPlan κ) (name : String)
    (source target : StateId) : TransitionSpec κ :=
  { name, source, target, kind := p.kind, triggers := p.triggers, guard := p.guard,
    effect := p.effect,
    metadata := p.metadata }

/-- The name that a plan gets in a definition. -/
def Graph.planName (g : Graph κ) (d : DefinitionId) (p : TransitionPlan κ) : String :=
  p.name.getD (g.uniqueName d (p.source ++ "->" ++ p.target))

end

namespace Editor

variable {κ : Type} {g g' : Graph κ} {d : DefinitionId} {s s' : StateId} {st : State κ}
  {p : TransitionPlan κ} {name : String}

theorem exists_of_bind_ok {α β : Type} {x : Editor κ α} {f : α → Editor κ β} {b : β}
    (h : (x >>= f) g = .ok b g') : ∃ a g₁, x g = .ok a g₁ ∧ f a g₁ = .ok b g' := by
  cases hx : x g with
  | ok a g₁ => exact ⟨a, g₁, rfl, (bind_of_ok hx).symm.trans h⟩
  | error e g₁ => cases (bind_of_error hx).symm.trans h

/-! ## Nesting -/

theorem attachSubmachine_eq (hst : g.state? s = some st) (name : String) :
    attachSubmachine s name g = match st.submachine with
      | some e => .ok e g
      | none => .ok g.nextDefinition (g.insertSubmachine s name) := by
  rw [attachSubmachine, Graph.state_ok_iff.mpr hst]
  rfl

/-- What is nested in a state of a definition lies deeper, under the name of the state. -/
theorem nested_in_named {e : DefinitionId} (hg : g.Tied) (hs : g.stateNamed d name = some s)
    (he : g.nestedIn s = some e) :
    (g.definition? e).isSome ∧ d.index < e.index ∧ g.namesAround e = g.namesAround d ++ [name] ∧
      g.superdefinition e = some d := by
  obtain ⟨st, hst, howner, hname⟩ := (Graph.stateNamed_eq_some hg).mp hs
  obtain ⟨st', hst', hsub⟩ := Graph.nestedIn_eq_some.mp he
  cases hst.symm.trans hst'
  obtain ⟨x, hx, hcomposite, hlt⟩ := hg.nested.nested hst hsub
  refine ⟨by rw [hx]; rfl, howner ▸ hlt, ?_,
    Graph.superdefinition_eq_some.mpr ⟨x, s, st, hx, hcomposite, hst, howner⟩⟩
  rw [Graph.namesAround_nested hg.nested hst hsub, Graph.names_eq hg.nested hst, howner, hname]

theorem attachSubmachine_ok (hg : g.Tied) (hs : g.stateNamed d name = some s) (label : String) :
    ∃ e g', attachSubmachine s label g = .ok e g' ∧ g'.Tied ∧ g'.transitions = g.transitions ∧
      g'.nestedIn s = some e ∧
      Graph.Widens (fun _ => False) (fun _ => False) (· = d) g g' := by
  obtain ⟨st, hst, howner, -⟩ := (Graph.stateNamed_eq_some hg).mp hs
  have hattach := attachSubmachine_eq hst label
  cases hsub : st.submachine with
  | some e =>
    rw [hsub] at hattach
    exact ⟨e, g, hattach, hg, rfl, Graph.nestedIn_eq_some.mpr ⟨st, hst, hsub⟩, .refl g⟩
  | none =>
    rw [hsub] at hattach
    obtain ⟨st', hst', -, -, -, hsub'⟩ := Graph.state?_insertSubmachine_of s label hst
    exact ⟨_, _, hattach, hg.insertSubmachine hst hsub, rfl,
      Graph.nestedIn_eq_some.mpr ⟨st', hst', hsub'.trans (if_pos rfl)⟩,
      Graph.widens_insertSubmachine hst hsub howner label⟩

/-! ## Linking -/

/-- What a name stands for may be an end of a transition. -/
theorem checkEndpoint_of_binds (hg : g.Tied) (hs : g.Binds name d s) :
    checkEndpoint g d (g.definitionChain d) s = .ok () ∧ ∃ st, g.state? s = some st ∧
      g.Within d st.owner := by
  obtain ⟨e, hwithin, hnamed⟩ := hs.found
  obtain ⟨st, hst, rfl, -⟩ := (Graph.stateNamed_eq_some hg).mp hnamed
  refine ⟨?_, st, hst, hwithin⟩
  rw [checkEndpoint, Graph.state_ok_iff.mpr hst]
  exact if_pos ((Graph.mem_definitionChain hg.nested).mpr hwithin)

section
variable (hg : g.Tied) (hs : g.Binds p.source d s) (hs' : g.Binds p.target d s')
include hg hs hs'

theorem installTransition_eq : installTransition d p g =
    if (g.transitionNamed d (g.planName d p)).isSome then
      .error (.duplicateName .transition (g.planName d p) (g.definitionLabel d)) g
    else .ok () (g.insertTransition d (p.between (g.planName d p) s s')) := by
  obtain ⟨x, hx⟩ := Option.isSome_iff_exists.mp hs.live
  have hadd : addTransition d (p.between (g.planName d p) s s') g =
      if (g.transitionNamed d (g.planName d p)).isSome then
        .error (.duplicateName .transition (g.planName d p) (g.definitionLabel d)) g
      else .ok g.nextTransition (g.insertTransition d (p.between (g.planName d p) s s')) := by
    have hsource : checkEndpoint g d (g.definitionChain d)
        (p.between (g.planName d p) s s').source = .ok () :=
      (checkEndpoint_of_binds hg hs).1
    have htarget : checkEndpoint g d (g.definitionChain d)
        (p.between (g.planName d p) s s').target = .ok () :=
      (checkEndpoint_of_binds hg hs').1
    rw [addTransition, Graph.definition_ok_iff.mpr hx]
    dsimp only
    rw [hsource, htarget]
    rfl
  rw [installTransition, get_bind, (Graph.resolveName_eq_some hg.nested).mpr hs,
    (Graph.resolveName_eq_some hg.nested).mpr hs']
  by_cases htaken : (g.transitionNamed d (g.planName d p)).isSome = true
  · rw [if_pos htaken] at hadd ⊢
    exact bind_of_error hadd
  · rw [if_neg htaken] at hadd ⊢
    exact bind_of_ok hadd

theorem tied_insertTransition_between (hfree : g.transitionNamed d name = none) :
    (g.insertTransition d (p.between name s s')).Tied := by
  obtain ⟨x, hx⟩ := Option.isSome_iff_exists.mp hs.live
  obtain ⟨-, st, hst, hwithin⟩ := checkEndpoint_of_binds hg hs
  obtain ⟨-, st', hst', hwithin'⟩ := checkEndpoint_of_binds hg hs'
  exact hg.insertTransition hx
    (fun t tr htr howner => Graph.transitionNamed_none hg.listed hx hfree htr howner)
    hst hwithin hst' hwithin'

end

end Editor

/-! ## Building -/

namespace Blueprint

variable {κ : Type} {b : Blueprint κ} {g : Graph κ} {e : GraphError}

theorem build_of_ok (h : Editor.install ⟨0⟩ b (Graph.new b.name) = .ok () g) : b.build = .ok g := by
  have hrun : (Editor.install (Graph.new b.name : Graph κ).root b).run (Graph.new b.name) =
    .ok () g := h
  unfold build
  dsimp only
  rw [hrun]

theorem build_of_error (h : Editor.install ⟨0⟩ b (Graph.new b.name) = .error e g) :
    b.build = .error (.graph e) := by
  have hrun : (Editor.install (Graph.new b.name : Graph κ).root b).run (Graph.new b.name) =
    .error e g := h
  unfold build
  dsimp only
  rw [hrun]

end Blueprint

end Statechart
