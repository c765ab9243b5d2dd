import Statechart.Proofs.Graph.Chains
import Statechart.Proofs.Graph.Walks
import Statechart.Proofs.Machine.Candidates

/-!
# Chains within a definition

A machine sees as much of a chain of superstates as lies in its definition. Two chains seen so go on
alike from where they meet, and whatever the machine can move to lies in its definition.
-/

namespace Statechart

section
variable {α : Type} [BEq α] {a : α} {xs ys : List α}

/-- Each of two lists is what the other does not have, followed by what they share. -/
def Forks (xs ys : List α) : Prop :=
  ∃ shared, xs = xs.filter (!ys.contains ·) ++ shared ∧ ys = ys.filter (!xs.contains ·) ++ shared

theorem Forks.nil (ys : List α) : Forks [] ys := by
  refine ⟨[], rfl, ?_⟩
  rw [List.append_nil]
  exact (List.filter_eq_self.mpr fun _ _ => rfl).symm

variable [LawfulBEq α]

theorem Forks.of_suffix (hys : ys.Nodup) (h : xs <:+ ys) : Forks xs ys := by
  obtain ⟨own, rfl⟩ := h
  have hdisjoint : ∀ a ∈ own, a ∉ xs := fun a ha hxs => List.disjoint_of_nodup_append hys ha hxs
  refine ⟨xs, ?_, ?_⟩
  · have hnone : xs.filter (!(own ++ xs).contains ·) = [] := by
      refine List.filter_eq_nil_iff.mpr fun a ha => ?_
      rw [List.contains_iff_mem.mpr (List.mem_append_right own ha)]
      exact Bool.false_ne_true
    rw [hnone, List.nil_append]
  · have hown : own.filter (!xs.contains ·) = own := by
      refine List.filter_eq_self.mpr fun a ha => ?_
      rw [Bool.not_eq_true', ← Bool.not_eq_true, List.contains_iff_mem]
      exact hdisjoint a ha
    have hnone : xs.filter (!xs.contains ·) = [] := by
      refine List.filter_eq_nil_iff.mpr fun a ha => ?_
      rw [List.contains_iff_mem.mpr ha]
      exact Bool.false_ne_true
    rw [List.filter_append, hown, hnone, List.append_nil]

theorem Forks.cons (ha : a ∉ ys) (h : Forks xs ys) : Forks (a :: xs) ys := by
  obtain ⟨shared, hxs, hys⟩ := h
  have hkept : (!ys.contains a) = true := by
    rw [Bool.not_eq_true', ← Bool.not_eq_true, List.contains_iff_mem]
    exact ha
  have hsame : ys.filter (!(a :: xs).contains ·) = ys.filter (!xs.contains ·) := by
    refine List.filter_congr fun b hb => ?_
    have hne : (b == a) = false := beq_eq_false_iff_ne.mpr fun heq => ha (heq ▸ hb)
    rw [List.contains_cons, hne, Bool.false_or]
  have hown : (a :: xs).filter (!ys.contains ·) = a :: xs.filter (!ys.contains ·) :=
    List.filter_cons_of_pos hkept
  refine ⟨shared, ?_, ?_⟩
  · rw [hown, List.cons_append, ← hxs]
  · rw [hsame]
    exact hys

end

namespace Machine

variable {κ : Type} {m : Machine κ} {s c : StateId} {t : TransitionId} {ts : List TransitionId}

/-- The transition leads to a state that the machine covers. -/
def LeadsInto (m : Machine κ) (t : TransitionId) : Prop :=
  ∃ tr, m.graph.transition? t = some tr ∧ m.covers tr.target = true

theorem covers_iff : m.covers s = true ↔
    ∃ st, m.graph.state? s = some st ∧ m.graph.isWithin st.owner m.definition = true := by
  rw [covers, Option.any_eq_true]

section
variable {a : Machine κ} (hgraph : a.graph = m.graph) (hdefinition : a.definition = m.definition)
include hgraph hdefinition

/-- What a machine covers is up to the graph and the definition. -/
theorem covers_congr : a.covers = m.covers := by
  funext s
  rw [covers, covers, hgraph, hdefinition]

theorem leadsInto_congr : a.LeadsInto t ↔ m.LeadsInto t := by
  rw [LeadsInto, LeadsInto, hgraph, covers_congr hgraph hdefinition]

end

theorem live_of_covers (h : m.covers s = true) : ∃ st, m.graph.state? s = some st :=
  let ⟨st, hst, _⟩ := covers_iff.mp h
  ⟨st, hst⟩

theorem leadsInto_of_candidate (hts : m.candidatesFrom s = .ok ts)
    (ht : t ∈ ts) : m.LeadsInto t := by
  obtain ⟨-, -, -, -, -, hleads⟩ := exists_of_mem_candidatesFrom hts ht
  simp only [leadsInside, Bind.bind, Except.bind] at hleads
  cases htr : m.graph.transition t with
  | error e =>
    rw [htr] at hleads
    cases hleads
  | ok tr =>
    rw [htr] at hleads
    dsimp only at hleads
    cases hst : m.graph.state tr.target with
    | error e =>
      rw [hst] at hleads
      cases hleads
    | ok st =>
      rw [hst] at hleads
      exact ⟨tr, Graph.transition_ok_iff.mp htr,
        covers_iff.mpr ⟨st, Graph.state_ok_iff.mp hst, Except.ok.inj hleads⟩⟩

section
variable (hg : m.graph.Nested)
include hg

/-- A state lies in the definition if its superstate does. -/
theorem covers_of_superstate (h : m.graph.superstate s = some c) (hc : m.covers c = true) :
    m.covers s = true := by
  obtain ⟨st, x, hst, hx, hxc⟩ := Graph.superstate_eq_some.mp h
  obtain ⟨ct, hct, hwithin⟩ := covers_iff.mp hc
  have hsuper : m.graph.superdefinition st.owner = some ct.owner :=
    Graph.superdefinition_eq_some.mpr ⟨x, c, ct, hx, hxc, hct, rfl⟩
  have hc : m.graph.Within ct.owner m.definition := (Graph.isWithin_iff hg).mp hwithin
  exact covers_iff.mpr ⟨st, hst, (Graph.isWithin_iff hg).mpr (.head hsuper hc)⟩

theorem covers_of_mem_ancestors (h : c ∈ m.graph.ancestors s) (hc : m.covers c = true) :
    m.covers s = true := by
  induction (Graph.mem_ancestors hg).mp h using Relation.ReflTransGen.head_induction_on with
  | refl => exact hc
  | head hstep hrest ih =>
    exact covers_of_superstate hg hstep (ih ((Graph.mem_ancestors hg).mpr hrest))

/-- No state of a chain is inside the definition again once one is outside. -/
theorem scopedAncestors_eq_filter (s : StateId) :
    m.scopedAncestors s = (m.graph.ancestors s).filter m.covers := by
  refine hg.induction (P := fun s => m.scopedAncestors s = (m.graph.ancestors s).filter m.covers)
    (fun s ih => ?_) s
  cases hs : m.covers s with
  | false =>
    have houtside : (m.graph.ancestors s).filter m.covers = [] :=
      List.filter_eq_nil_iff.mpr fun c hc hcovered =>
        Bool.false_ne_true (hs.symm.trans (covers_of_mem_ancestors hg hc hcovered))
    rw [houtside, scopedAncestors, Graph.ancestors_eq_cons hg,
      List.takeWhile_cons_of_neg (hs ▸ Bool.false_ne_true)]
  | true =>
    rw [scopedAncestors, Graph.ancestors_eq_cons hg, List.takeWhile_cons_of_pos hs,
      List.filter_cons_of_pos hs, Graph.superstates]
    cases hc : m.graph.superstate s with
    | none => rfl
    | some c => exact congrArg (s :: ·) (ih c hc)

theorem scopedAncestors_of_not_covers (h : m.covers s = false) : m.scopedAncestors s = [] := by
  rw [scopedAncestors, Graph.ancestors_eq_cons hg,
    List.takeWhile_cons_of_neg (h ▸ Bool.false_ne_true)]

theorem scopedAncestors_of_covers (h : m.covers s = true) :
    m.scopedAncestors s = s :: (m.graph.superstates s).filter m.covers := by
  rw [scopedAncestors_eq_filter hg, Graph.ancestors_eq_cons hg, List.filter_cons_of_pos h]

theorem mem_scopedAncestors :
    c ∈ m.scopedAncestors s ↔ c ∈ m.graph.ancestors s ∧ m.covers c = true := by
  rw [scopedAncestors_eq_filter hg, List.mem_filter]

theorem nodup_scopedAncestors (s : StateId) : (m.scopedAncestors s).Nodup := by
  rw [scopedAncestors_eq_filter hg]
  exact (Graph.nodup_ancestors hg s).filter _

theorem suffix_scopedAncestors (h : c ∈ m.scopedAncestors s) :
    m.scopedAncestors c <:+ m.scopedAncestors s := by
  rw [mem_scopedAncestors hg] at h
  rw [scopedAncestors_eq_filter hg, scopedAncestors_eq_filter hg]
  exact (Graph.suffix_ancestors hg h.1).filter _

/-- Two chains share their end and nothing else. -/
theorem forks_scopedAncestors (s q : StateId) :
    Forks (m.scopedAncestors s) (m.scopedAncestors q) := by
  refine hg.induction (P := fun s => Forks (m.scopedAncestors s) (m.scopedAncestors q))
    (fun s ih => ?_) s
  cases hs : m.covers s with
  | false =>
    rw [scopedAncestors_of_not_covers hg hs]
    exact .nil _
  | true =>
    by_cases hmem : s ∈ m.scopedAncestors q
    · exact .of_suffix (nodup_scopedAncestors hg q) (suffix_scopedAncestors hg hmem)
    · rw [scopedAncestors_of_covers hg hs, Graph.superstates]
      cases hc : m.graph.superstate s with
      | none => exact .cons hmem (.nil _)
      | some c =>
        refine .cons hmem ?_
        rw [← scopedAncestors_eq_filter hg]
        exact ih c hc

end

/-! ## Where a move ends -/

section
variable (hg : m.graph.Tied)
include hg

theorem covers_of_marked {x : Definition κ} {k : Mark}
    (hx : m.graph.definition? m.definition = some x)
    (hs : x.marked k = some s) : m.covers s = true := by
  obtain ⟨st, hst, howner, -⟩ := hg.marked.marked hx hs
  refine covers_iff.mpr ⟨st, hst, ?_⟩
  rw [howner]
  exact (Graph.isWithin_iff hg.nested).mpr .refl

theorem covers_of_entryStep (h : m.graph.entryStep s = some c) (hs : m.covers s = true) :
    m.covers c = true := by
  simp only [Graph.entryStep, Option.bind_eq_bind, Option.bind_eq_some_iff] at h
  obtain ⟨st, hst, d, hd, x, hx, hc⟩ := h
  obtain ⟨st', hst', hwithin⟩ := covers_iff.mp hs
  rw [hst] at hst'
  obtain rfl := Option.some.inj hst'
  obtain ⟨ct, hct, howner, -⟩ := hg.marked.marked (m := .start) hx hc
  have hsuper := Graph.superdefinition_of_nested hg.nested hst hd
  have hs : m.graph.Within st.owner m.definition := (Graph.isWithin_iff hg.nested).mp hwithin
  refine covers_iff.mpr ⟨ct, hct, ?_⟩
  rw [howner]
  exact (Graph.isWithin_iff hg.nested).mpr (.head hsuper hs)

/-- Entering a state of the definition leads to one. -/
theorem covers_resolveEntryTarget (hs : m.covers s = true) :
    m.covers (m.graph.resolveEntryTarget s) = true := by
  have hall : ∀ c ∈ follow m.graph.entryStep m.graph.states.size s, m.covers c = true := by
    intro c hc
    have hreaches := follow_mem_reaches hc
    clear hc
    induction hreaches with
    | refl => exact hs
    | tail _ hstep ih => exact covers_of_entryStep hg hstep ih
  rw [Graph.resolveEntryTarget]
  cases hlast : (follow m.graph.entryStep m.graph.states.size s).getLast? with
  | none => exact hs
  | some c => exact hall c (List.mem_of_getLast? hlast)

end

end Machine
end Statechart
