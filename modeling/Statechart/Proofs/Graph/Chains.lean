import Mathlib.Data.List.Nodup
import Statechart.Proofs.Graph.Nesting

/-!
# Chains of superstates

The chain of a state is the state before the chain of its superstate. So two chains that meet go on
alike.
-/

namespace Statechart

section
variable {α : Type} {next : α → Option α} {rank : α → Nat}

/-- With as many steps as the rank says, the rest of a chain is the chain of what follows. -/
theorem follow_eq_of_le (hrank : ∀ {a b}, next a = some b → rank b < rank a) {n n' : Nat} {a : α}
    (hn : rank a ≤ n) (hn' : rank a ≤ n') : follow next n a = follow next n' a := by
  induction n generalizing n' a with
  | zero =>
    have hlast : next a = none := by
      cases hb : next a with
      | none => rfl
      | some b =>
        have hlt := hrank hb
        omega
    cases n' with
    | zero => rfl
    | succ n' => rw [follow, follow, hlast]
  | succ n ih =>
    cases hb : next a with
    | none =>
      cases n' with
      | zero => rw [follow, follow, hb]
      | succ n' => rw [follow, follow, hb]
    | some b =>
      have hlt := hrank hb
      cases n' with
      | zero => omega
      | succ n' =>
        rw [follow, follow, hb]
        exact congrArg (a :: ·) (ih (by omega) (by omega))

end

namespace Graph

variable {κ : Type} {g : Graph κ} {s c : StateId} {st : State κ} {x : Definition κ}

/-- The superstates of a state, innermost first. -/
def superstates (g : Graph κ) (s : StateId) : List StateId :=
  match g.superstate s with
  | some c => g.ancestors c
  | none => []

theorem ancestors_eq_cons (hg : g.Nested) (s : StateId) : g.ancestors s = s :: g.superstates s := by
  rw [superstates]
  cases hc : g.superstate s with
  | none =>
    rw [ancestors]
    cases g.states.size with
    | zero => rfl
    | succ n => rw [follow, hc]
  | some c =>
    have hlt := hg.superstate_lt hc
    have hlive := superstate_live hc
    rw [ancestors]
    cases hn : g.states.size with
    | zero => omega
    | succ n =>
      have hchain : g.ancestors c = follow g.superstate (n + 1) c := by rw [ancestors, hn]
      rw [follow, hc]
      dsimp only
      rw [hchain]
      exact congrArg (s :: ·) (follow_eq_of_le hg.superstate_lt (by omega) (by omega))

/-- What holds of a state once it holds of its superstate, if there is one, holds of every state. -/
theorem Nested.induction {P : StateId → Prop} (hg : g.Nested)
    (h : ∀ s, (∀ c, g.superstate s = some c → P c) → P s) (s : StateId) : P s := by
  induction hn : s.index using Nat.strongRecOn generalizing s with
  | ind n ih =>
    refine h s fun c hc => ih c.index ?_ c rfl
    have hlt := hg.superstate_lt hc
    omega

theorem suffix_ancestors (hg : g.Nested) (h : c ∈ g.ancestors s) :
    g.ancestors c <:+ g.ancestors s := by
  revert h
  refine hg.induction (P := fun s => c ∈ g.ancestors s → g.ancestors c <:+ g.ancestors s)
    (fun s ih h => ?_) s
  rw [ancestors_eq_cons hg s, List.mem_cons] at h
  rcases h with rfl | h
  · exact List.suffix_rfl
  · rw [superstates] at h
    cases hb : g.superstate s with
    | none =>
      rw [hb] at h
      cases h
    | some b =>
      rw [hb] at h
      rw [ancestors_eq_cons hg s, superstates, hb]
      exact (ih b hb h).trans (List.suffix_cons s _)

theorem nodup_ancestors (hg : g.Nested) (s : StateId) : (g.ancestors s).Nodup := by
  refine hg.induction (P := fun s => (g.ancestors s).Nodup) (fun s ih => ?_) s
  rw [ancestors_eq_cons hg s, superstates]
  cases hc : g.superstate s with
  | none => exact List.nodup_singleton s
  | some c =>
    refine List.nodup_cons.mpr ⟨fun hs => ?_, ih c hc⟩
    have hle := ((mem_ancestors hg).mp hs).index_le hg
    have hlt := hg.superstate_lt hc
    omega

end Graph
end Statechart
