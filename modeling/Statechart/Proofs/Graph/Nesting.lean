import Statechart.Proofs.Graph.Ties

/-!
# Chains of enclosing elements

Where nesting ends, following it one step at a time meets exactly what lies around an element.
-/

namespace Statechart

section
variable {α : Type} {next : α → Option α} {a b : α} {n : Nat}

theorem follow_mem_reaches (h : b ∈ follow next n a) :
    Relation.ReflTransGen (fun x y => next x = some y) a b := by
  induction n generalizing a with
  | zero =>
    rw [List.mem_singleton.mp h]
  | succ n ih =>
    rcases List.mem_cons.mp h with rfl | h
    · exact .refl
    · cases hn : next a with
      | none => rw [hn] at h; cases h
      | some c =>
        rw [hn] at h
        exact .head hn (ih h)

/-- Each step lowers the rank, so as many steps as the rank says are enough. -/
theorem reaches_follow_mem {rank : α → Nat} (hrank : ∀ {x y}, next x = some y → rank y < rank x)
    (h : Relation.ReflTransGen (fun x y => next x = some y) a b) (hn : rank a ≤ n) :
    b ∈ follow next n a := by
  induction h using Relation.ReflTransGen.head_induction_on generalizing n with
  | refl =>
    cases n <;> exact List.mem_cons_self
  | head hac _ ih =>
    have hlt := hrank hac
    cases n with
    | zero => omega
    | succ n =>
      simp only [follow, hac]
      exact List.mem_cons_of_mem _ (ih (by omega))

end

namespace Graph

variable {κ : Type} {g : Graph κ} {d e : DefinitionId} {s s' : StateId}

theorem superdefinition_live (h : g.superdefinition d = some e) : d.index < g.definitions.size := by
  obtain ⟨x, -, -, hx, -⟩ := superdefinition_eq_some.mp h
  exact definition?_lt hx

theorem superstate_live (h : g.superstate s = some s') : s.index < g.states.size := by
  obtain ⟨st, -, hst, -⟩ := superstate_eq_some.mp h
  exact state?_lt hst

theorem mem_definitionChain_within (h : e ∈ g.definitionChain d) : g.Within d e :=
  follow_mem_reaches h

theorem mem_definitionChain (hg : g.Nested) : e ∈ g.definitionChain d ↔ g.Within d e := by
  refine ⟨mem_definitionChain_within, fun h => ?_⟩
  rcases Relation.ReflTransGen.cases_head h with rfl | ⟨c, hc, -⟩
  · unfold definitionChain
    cases g.definitions.size <;> exact List.mem_cons_self
  · exact reaches_follow_mem hg.superdefinition_lt h (Nat.le_of_lt (superdefinition_live hc))

theorem isWithin_iff (hg : g.Nested) : g.isWithin d e = true ↔ g.Within d e := by
  rw [isWithin, List.contains_iff_mem, mem_definitionChain hg]

/-- A state is another or lies in it, at any depth. -/
def Inside (g : Graph κ) : StateId → StateId → Prop :=
  Relation.ReflTransGen fun s c => g.superstate s = some c

theorem mem_ancestors (hg : g.Nested) : s' ∈ g.ancestors s ↔ g.Inside s s' := by
  refine ⟨follow_mem_reaches, fun h => ?_⟩
  rcases Relation.ReflTransGen.cases_head h with rfl | ⟨c, hc, -⟩
  · unfold ancestors
    cases g.states.size <;> exact List.mem_cons_self
  · exact reaches_follow_mem hg.superstate_lt h (Nat.le_of_lt (superstate_live hc))

theorem Inside.index_le (hg : g.Nested) (h : g.Inside s s') : s'.index ≤ s.index := by
  induction h with
  | refl => exact Nat.le_refl _
  | tail _ hc ih => exact Nat.le_trans (Nat.le_of_lt (hg.superstate_lt hc)) ih

end Graph
end Statechart
