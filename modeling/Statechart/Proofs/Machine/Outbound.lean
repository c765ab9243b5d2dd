import Statechart.Proofs.Machine.Scope

/-!
# Ways out

The candidates of a state are read off the lists of the states around it, level by level. They are
the transitions that leave one of these states and stay inside the machine's definition, each once,
those from inner states first.
-/

namespace Statechart

variable {κ : Type}

namespace Graph

/-- The source of the first transition is that of the second, or inside it. -/
def InnerFirst (g : Graph κ) (t u : TransitionId) : Prop :=
  ∃ a b, g.source? t = some a ∧ g.source? u = some b ∧ b ∈ g.ancestors a

theorem pairwise_ancestors {g : Graph κ} (hg : g.Nested) (s : StateId) :
    (g.ancestors s).Pairwise fun a b => a ≠ b ∧ b ∈ g.ancestors a := by
  refine hg.induction (P := fun s => (g.ancestors s).Pairwise fun a b => a ≠ b ∧ b ∈ g.ancestors a)
    (fun s ih => ?_) s
  have hnodup := nodup_ancestors hg s
  have heq := ancestors_eq_cons hg s
  rw [heq] at hnodup ⊢
  refine List.pairwise_cons.mpr ⟨fun b hb => ⟨?_, heq ▸ List.mem_cons_of_mem s hb⟩, ?_⟩
  · rintro rfl
    exact (List.nodup_cons.mp hnodup).1 hb
  · rw [superstates]
    cases hc : g.superstate s with
    | none => exact .nil
    | some c => exact ih c hc

end Graph

namespace Machine

variable {m : Machine κ} {s c : StateId} {t : TransitionId}

/-- The transitions that a state lists and that stay inside the machine's definition. -/
def outOf (m : Machine κ) (c : StateId) : List TransitionId :=
  ((m.graph.outgoing? c).getD []).filter fun t => (m.graph.target? t).any m.covers

/-- The transitions out of a state and out of what is around it. -/
def outbound (m : Machine κ) (s : StateId) : List TransitionId :=
  (m.scopedAncestors s).flatMap m.outOf

section
variable (hg : m.graph.Tied)
include hg

theorem candidatesFrom_eq (s : StateId) : m.candidatesFrom s = .ok (m.outbound s) := by
  have hlevel : ∀ c ∈ m.scopedAncestors s, (do
      let st ← m.graph.state c
      st.outgoing.filterM m.leadsInside) = .ok (m.outOf c) := by
    intro c hc
    obtain ⟨ct, hct⟩ := live_of_covers ((mem_scopedAncestors hg.nested).mp hc).2
    rw [Graph.state_ok_iff.mpr hct, outOf, Graph.outgoing?_of hct]
    refine filterM_eq_ok fun t ht => ?_
    obtain ⟨tr, htr, -⟩ := hg.listed.outgoing_live hct ht
    obtain ⟨qt, hqt⟩ := hg.placed.target htr
    rw [leadsInside, Graph.transition_ok_iff.mpr htr, Graph.target?_of htr,
      Option.any_some, covers, hqt]
    simp only [Bind.bind, Except.bind, Graph.state_ok_iff.mpr hqt, Option.any_some]
  rw [candidatesFrom, mapM_eq_ok hlevel]
  rfl

theorem mem_outOf : t ∈ m.outOf c ↔
    ∃ tr, m.graph.transition? t = some tr ∧ tr.source = c ∧ m.covers tr.target = true := by
  rw [outOf, List.mem_filter]
  constructor
  · rintro ⟨hlisted, htarget⟩
    cases hct : m.graph.state? c with
    | none =>
      rw [Graph.outgoing?, hct] at hlisted
      cases hlisted
    | some ct =>
      rw [Graph.outgoing?_of hct] at hlisted
      obtain ⟨tr, htr, hsource⟩ := hg.listed.outgoing_live hct hlisted
      rw [Graph.target?_of htr] at htarget
      exact ⟨tr, htr, hsource, htarget⟩
  · rintro ⟨tr, htr, rfl, htarget⟩
    obtain ⟨ct, hct⟩ := hg.placed.source htr
    rw [Graph.target?_of htr, Graph.outgoing?_of hct]
    exact ⟨hg.listed.outgoing.mem (Graph.source?_of htr) (Graph.outgoing?_of hct), htarget⟩

theorem mem_outbound : t ∈ m.outbound s ↔ ∃ tr, m.graph.transition? t = some tr ∧
    (tr.source ∈ m.graph.ancestors s ∧ m.covers tr.source = true) ∧ m.covers tr.target = true := by
  rw [outbound, List.mem_flatMap]
  constructor
  · rintro ⟨c, hc, ht⟩
    obtain ⟨tr, htr, rfl, htarget⟩ := (mem_outOf hg).mp ht
    exact ⟨tr, htr, (mem_scopedAncestors hg.nested).mp hc, htarget⟩
  · rintro ⟨tr, htr, hsource, htarget⟩
    exact ⟨tr.source, (mem_scopedAncestors hg.nested).mpr hsource,
      (mem_outOf hg).mpr ⟨tr, htr, rfl, htarget⟩⟩

theorem nodup_outOf (c : StateId) : (m.outOf c).Nodup := by
  cases hct : m.graph.state? c with
  | none =>
    rw [outOf, Graph.outgoing?, hct]
    exact .nil
  | some ct =>
    have houtgoing := Graph.outgoing?_of hct
    rw [outOf, houtgoing]
    exact (hg.listed.outgoing.nodup houtgoing).filter _

/-- Each is listed once, those from inner states first. -/
theorem pairwise_outbound (s : StateId) :
    (m.outbound s).Pairwise fun t u => t ≠ u ∧ m.graph.InnerFirst t u := by
  have hsource {c : StateId} {t : TransitionId} (ht : t ∈ m.outOf c) :
      m.graph.source? t = some c := by
    obtain ⟨tr, htr, rfl, -⟩ := (mem_outOf hg).mp ht
    exact Graph.source?_of htr
  rw [outbound, List.pairwise_flatMap, scopedAncestors_eq_filter hg.nested]
  constructor
  · intro c _
    have hself : c ∈ m.graph.ancestors c := (Graph.mem_ancestors hg.nested).mpr .refl
    refine (nodup_outOf hg c).pairwise_of_forall_ne fun t ht u hu hne => ?_
    exact ⟨hne, c, c, hsource ht, hsource hu, hself⟩
  · refine ((Graph.pairwise_ancestors hg.nested s).filter _).imp fun hab t ht u hu => ?_
    refine ⟨?_, _, _, hsource ht, hsource hu, hab.2⟩
    rintro rfl
    exact hab.1 (Option.some.inj ((hsource ht).symm.trans (hsource hu)))

theorem nodup_outbound (s : StateId) : (m.outbound s).Nodup :=
  (pairwise_outbound hg s).imp fun h => h.1

end

end Machine

end Statechart
