import Statechart.Proofs.Graph.Isomorphism

/-!
# Adjacency

The transitions at the states and the answers on their neighbours, against the transitions of the
whole graph. Edits, copies and queries may come in any order: an answer that was kept before an edit
is never given after one that makes it wrong.
-/

namespace Statechart.Graph

variable {κ : Type} {g : Graph κ} {s q : StateId} {t : TransitionId} {st : State κ}

/-- The lists at the states and the queries on their neighbours say what a scan of the live
transitions says. A transition from a state to itself is in both lists of the state. -/
structure AdjacencyExact (g : Graph κ) : Prop where
  ends_live : ∀ {t tr}, g.transition? t = some tr →
    (g.state? tr.source).isSome ∧ (g.state? tr.target).isSome
  outgoing : ∀ {s st}, g.state? s = some st → ∀ t,
    st.outgoing.count t = if (g.transition? t).any (·.source = s) then 1 else 0
  incoming : ∀ {s st}, g.state? s = some st → ∀ t,
    st.incoming.count t = if (g.transition? t).any (·.target = s) then 1 else 0
  sources : ∀ {s st}, g.state? s = some st → (g.sources s).Nodup ∧ ∀ q, q ∈ g.sources s ↔
    ∃ t tr, g.transition? t = some tr ∧ tr.source = q ∧ tr.target = s
  targets : ∀ {s st}, g.state? s = some st → (g.targets s).Nodup ∧ ∀ q, q ∈ g.targets s ↔
    ∃ t tr, g.transition? t = some tr ∧ tr.source = s ∧ tr.target = q
  incident : ∀ {s st}, g.state? s = some st → (g.incidentTransitions s).Nodup ∧
    ∀ t, t ∈ g.incidentTransitions s ↔ ∃ tr, g.transition? t = some tr ∧
    (tr.source = s ∨ tr.target = s)
  queried : ∀ q s, (g.rememberNeighbours q).neighbours s = g.neighbours s

/-! ## Queries -/

/-- A query leaves every answer as it is. -/
theorem neighbours_rememberNeighbours :
    (g.rememberNeighbours q).neighbours s = g.neighbours s := by
  rw [neighbours, rememberNeighbours, ← modifyState, state?_modifyState, Option.map_map, neighbours]
  congr 1
  funext st
  simp only [Function.comp]
  split <;> rfl

theorem Current.neighbours_eq (h : g.Current) (hs : g.state? s = some st) :
    g.neighbours s = some (g.computeNeighbours st) := by
  rw [Graph.neighbours, hs, Option.map_some, h.neighboursOf_eq hs]

theorem Current.sources_eq (h : g.Current) (hs : g.state? s = some st) :
    g.sources s = distinct (st.incoming.filterMap g.source?) := by
  rw [sources, h.neighbours_eq hs]
  rfl

theorem Current.targets_eq (h : g.Current) (hs : g.state? s = some st) :
    g.targets s = distinct (st.outgoing.filterMap g.target?) := by
  rw [targets, h.neighbours_eq hs]
  rfl

theorem Current.incidentTransitions_eq (h : g.Current) (hs : g.state? s = some st) :
    g.incidentTransitions s = distinct (st.incoming ++ st.outgoing) := by
  rw [incidentTransitions, h.neighbours_eq hs]
  rfl

/-! ## Lists -/

theorem source?_eq_some : g.source? t = some s ↔ ∃ tr, g.transition? t = some tr ∧ tr.source = s :=
  Option.map_eq_some_iff

theorem target?_eq_some : g.target? t = some s ↔ ∃ tr, g.transition? t = some tr ∧ tr.target = s :=
  Option.map_eq_some_iff

namespace Listed

theorem mem_outgoing (h : g.Listed) (hs : g.state? s = some st) :
    t ∈ st.outgoing ↔ ∃ tr, g.transition? t = some tr ∧ tr.source = s :=
  (h.outgoing.mem_iff (outgoing?_of hs)).trans source?_eq_some

theorem mem_incoming (h : g.Listed) (hs : g.state? s = some st) :
    t ∈ st.incoming ↔ ∃ tr, g.transition? t = some tr ∧ tr.target = s :=
  (h.incoming.mem_iff (incoming?_of hs)).trans target?_eq_some

end Listed

theorem Tied.adjacencyExact (h : g.Tied) : g.AdjacencyExact where
  ends_live ht := by
    obtain ⟨_, hs⟩ := h.placed.source ht
    obtain ⟨_, ht⟩ := h.placed.target ht
    rw [hs, ht]
    exact ⟨rfl, rfl⟩
  outgoing hs t := by
    rw [(h.listed.outgoing.nodup (outgoing?_of hs)).count]
    refine if_congr ?_ rfl rfl
    rw [h.listed.mem_outgoing hs, Option.any_eq_true]
    simp only [decide_eq_true_eq]
  incoming hs t := by
    rw [(h.listed.incoming.nodup (incoming?_of hs)).count]
    refine if_congr ?_ rfl rfl
    rw [h.listed.mem_incoming hs, Option.any_eq_true]
    simp only [decide_eq_true_eq]
  sources {s st} hs := by
    rw [h.current.sources_eq hs]
    refine ⟨nodup_distinct _, fun q => ?_⟩
    simp only [mem_distinct, List.mem_filterMap, h.listed.mem_incoming hs, source?_eq_some]
    constructor
    · rintro ⟨t, ⟨tr, htr, htarget⟩, ur, hur, hsource⟩
      obtain rfl : tr = ur := Option.some.inj (htr.symm.trans hur)
      exact ⟨t, tr, htr, hsource, htarget⟩
    · rintro ⟨t, tr, htr, hsource, htarget⟩
      exact ⟨t, ⟨tr, htr, htarget⟩, tr, htr, hsource⟩
  targets {s st} hs := by
    rw [h.current.targets_eq hs]
    refine ⟨nodup_distinct _, fun q => ?_⟩
    simp only [mem_distinct, List.mem_filterMap, h.listed.mem_outgoing hs, target?_eq_some]
    constructor
    · rintro ⟨t, ⟨tr, htr, hsource⟩, ur, hur, htarget⟩
      obtain rfl : tr = ur := Option.some.inj (htr.symm.trans hur)
      exact ⟨t, tr, htr, hsource, htarget⟩
    · rintro ⟨t, tr, htr, hsource, htarget⟩
      exact ⟨t, ⟨tr, htr, hsource⟩, tr, htr, htarget⟩
  incident {s st} hs := by
    rw [h.current.incidentTransitions_eq hs]
    refine ⟨nodup_distinct _, fun t => ?_⟩
    rw [mem_distinct, List.mem_append, h.listed.mem_incoming hs,
      h.listed.mem_outgoing hs, ← exists_or]
    refine exists_congr fun tr => ?_
    rw [← and_or_left, or_comm]
  queried _ _ := neighbours_rememberNeighbours

/-- Whatever edits, copies and queries made a graph, its adjacency is that of its live
transitions. -/
theorem Reachable.adjacency_exact (h : g.Reachable) : g.AdjacencyExact := h.tied.adjacencyExact

/-- States a and b, a transition from a to itself, then a query on a. -/
def askedLoop : Graph Unit :=
  ((Graph.new "g").edited
    [.addState ⟨0⟩ { name := "a" }, .addState ⟨0⟩ { name := "b" },
      .addTransition ⟨0⟩ { name := "a->a", source := ⟨0⟩, target := ⟨0⟩ }]).rememberNeighbours ⟨0⟩

/-- A new transition after the query. -/
def extendedLoop : Graph Unit :=
  askedLoop.edited [.addTransition ⟨0⟩ { name := "a->b", source := ⟨0⟩, target := ⟨1⟩ }]

theorem adjacency_exact_extendedLoop :
    askedLoop.targets ⟨0⟩ = [⟨0⟩] ∧ extendedLoop.targets ⟨0⟩ = [⟨0⟩, ⟨1⟩] ∧ extendedLoop.Reachable ∧
      extendedLoop.AdjacencyExact := by
  have hreachable : extendedLoop.Reachable := (((Reachable.new "g").edited _).query ⟨0⟩).edited _
  exact ⟨by decide +kernel, by decide +kernel, hreachable, hreachable.adjacency_exact⟩

end Statechart.Graph
