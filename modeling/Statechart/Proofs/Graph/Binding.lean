import Statechart.Builder
import Statechart.Proofs.Graph.Chains
import Statechart.Proofs.Graph.Widening

/-!
# What names stand for

A name in a definition stands for the state of the innermost definition around that has one of the
name. It goes on standing for that state as long as no definition around gains another.
-/

namespace Statechart.Graph

variable {κ : Type} {g g' : Graph κ} {d e : DefinitionId} {s s' : StateId} {x : Definition κ}
  {name : String}

/-- The name stands for the state in the definition. -/
inductive Binds (g : Graph κ) (name : String) : DefinitionId → StateId → Prop
  | here {d : DefinitionId} {s : StateId} (hs : g.stateNamed d name = some s) : Binds g name d s
  | outer {d e : DefinitionId} {s : StateId} (hnone : g.stateNamed d name = none)
    (he : g.superdefinition d = some e) (hs : Binds g name e s) : Binds g name d s

/-! ## Chains -/

theorem definitionChain_eq_cons (hg : g.Nested) (d : DefinitionId) :
    g.definitionChain d = d :: ((g.superdefinition d).map g.definitionChain).getD [] := by
  cases he : g.superdefinition d with
  | none =>
    rw [definitionChain]
    cases g.definitions.size with
    | zero => rfl
    | succ n => rw [follow, he]; rfl
  | some e =>
    have hlt := hg.superdefinition_lt he
    have hlive := superdefinition_live he
    rw [definitionChain]
    cases hn : g.definitions.size with
    | zero => omega
    | succ n =>
      have hchain : g.definitionChain e =
        follow g.superdefinition (n + 1) e := by rw [definitionChain, hn]
      rw [follow, he, Option.map_some, Option.getD_some, hchain]
      exact congrArg (d :: ·) (follow_eq_of_le hg.superdefinition_lt (by omega) (by omega))

/-- What holds of a definition once it holds of the one around, if there is one, holds of every
definition. -/
theorem Nested.induction_definition {P : DefinitionId → Prop} (hg : g.Nested)
    (h : ∀ d, (∀ e, g.superdefinition d = some e → P e) → P d) (d : DefinitionId) : P d := by
  induction hn : d.index using Nat.strongRecOn generalizing d with
  | ind n ih =>
    refine h d fun e he => ih e.index ?_ e rfl
    have hlt := hg.superdefinition_lt he
    omega

theorem resolveName_eq (hg : g.Nested) (d : DefinitionId) (name : String) :
    g.resolveName d name =
      (g.stateNamed d name).or ((g.superdefinition d).bind (g.resolveName · name)) := by
  rw [resolveName, definitionChain_eq_cons hg, List.findSome?_cons]
  cases g.stateNamed d name with
  | some s => rfl
  | none =>
    cases g.superdefinition d with
    | none => rfl
    | some e => rfl

/-- The look-up of a name finds what the name stands for. -/
theorem resolveName_eq_some (hg : g.Nested) : g.resolveName d name = some s ↔ g.Binds name d s := by
  constructor
  · refine hg.induction_definition (P := fun d => g.resolveName d name = some s → g.Binds name d s)
      (fun d ih h => ?_) d
    rw [resolveName_eq hg] at h
    cases hs : g.stateNamed d name with
    | some s' =>
      rw [hs] at h
      cases h
      exact .here hs
    | none =>
      rw [hs, Option.none_or] at h
      obtain ⟨e, he, hrest⟩ := Option.bind_eq_some_iff.mp h
      exact .outer hs he (ih e he hrest)
  · intro h
    induction h with
    | here hs => rw [resolveName_eq hg, hs, Option.some_or]
    | outer hnone he _ ih => rw [resolveName_eq hg, hnone, Option.none_or, he, Option.bind_some, ih]

/-! ## Where a name is found -/

/-- A name stands for a state of the definition itself or of one around. -/
theorem Binds.found (h : g.Binds name d s) : ∃ e, g.Within d e ∧ g.stateNamed e name = some s := by
  induction h with
  | here hs => exact ⟨_, .refl, hs⟩
  | outer _ he _ ih =>
    obtain ⟨f, hf, hs⟩ := ih
    exact ⟨f, .head he hf, hs⟩

theorem Binds.live (h : g.Binds name d s) : (g.definition? d).isSome := by
  cases h with
  | here hs =>
    obtain ⟨x, hx, -⟩ := Option.bind_eq_some_iff.mp hs
    rw [hx]
    rfl
  | outer _ he _ =>
    obtain ⟨x, c, ct, hx, -⟩ := superdefinition_eq_some.mp he
    rw [hx]
    rfl

/-! ## In graphs that widen -/

section
variable {S T N : DefinitionId → Prop} (h : Widens S T N g g') (hg : g.Tied) (hg' : g'.Tied)
include h hg hg'

/-- Where no definition has gained states, a name stands for what it stood for. -/
theorem Widens.binds (hS : ∀ d, ¬ S d) (hs : g.Binds name d s) : g'.Binds name d s := by
  induction hs with
  | here hs => exact .here (h.stateNamed_of hg hg' hs)
  | outer hnone he hs ih =>
    have hlive := (Binds.outer hnone he hs).live
    have hnone' := (h.stateNamed_eq hg hg' hlive (hS _) name).trans hnone
    exact .outer hnone' ((h.superdefinition hg.nested hlive).trans he) ih

/-- A name that stood for a state stands for one, be it another. -/
theorem Widens.bound (hs : g.Binds name d s) : ∃ s', g'.Binds name d s' := by
  induction hs with
  | here hs => exact ⟨_, .here (h.stateNamed_of hg hg' hs)⟩
  | @outer d e s hnone he hs ih =>
    have hlive := (Binds.outer hnone he hs).live
    obtain ⟨s', hs'⟩ := ih
    cases hnamed : g'.stateNamed d name with
    | some s'' => exact ⟨s'', .here hnamed⟩
    | none => exact ⟨s', .outer hnamed ((h.superdefinition hg.nested hlive).trans he) hs'⟩

end

end Statechart.Graph
