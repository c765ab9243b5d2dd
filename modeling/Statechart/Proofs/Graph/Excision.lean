import Statechart.Proofs.Graph.Isomorphism
import Statechart.Proofs.Graph.Removal

/-!
# What a removal takes

The removal of a state takes the state, what is nested in it and the transitions that end at any of
these, however they cross levels. Nothing else changes but for the lists and marks that had named
what is gone.
-/

namespace Statechart

namespace Graph

variable {κ : Type} {g g' : Graph κ} {d : DefinitionId} {s q : StateId} {t : TransitionId}
  {x : Definition κ} {st : State κ} {tr : Transition κ}

/-- The second graph is the first without a state, what is nested in it and the transitions that end
at these. -/
structure Without (g : Graph κ) (s : StateId) (g' : Graph κ) : Prop where
  root : g'.root = g.root
  /-- No place is given out or taken back. -/
  sizes : g'.definitions.size = g.definitions.size ∧ g'.states.size = g.states.size ∧
    g'.transitions.size = g.transitions.size
  state_dead : ∀ q, g'.state? q = none ↔ g.state? q = none ∨ g.Inside q s
  definition_dead : ∀ d, g'.definition? d = none ↔
    g.definition? d = none ∨ ∃ x c, g.definition? d = some x ∧ x.composite = some c ∧ g.Inside c s
  transition_dead : ∀ t, g'.transition? t = none ↔
    g.transition? t = none ∨ ∃ tr, g.transition? t = some tr ∧
    (g.Inside tr.source s ∨ g.Inside tr.target s)
  state : ∀ {q : StateId} {st' : State κ}, g'.state? q = some st' → ∃ st, g.state? q = some st ∧
    st' = { st with
      incoming := st.incoming.filter fun t => (g'.transition? t).isSome
      outgoing := st.outgoing.filter fun t => (g'.transition? t).isSome
      neighbours :=
        if ∀ t ∈ st.incoming ++ st.outgoing, (g'.transition? t).isSome then
          st.neighbours else none }
  definition : ∀ {d : DefinitionId} {x' : Definition κ}, g'.definition? d = some x' → ∃ x,
    g.definition? d = some x ∧ x' = { x with
      states := x.states.filter fun q => (g'.state? q).isSome
      transitions := x.transitions.filter fun t => (g'.transition? t).isSome
      start := if x.start = some s then none else x.start
      final := if x.final = some s then none else x.final }
  transition : ∀ {t : TransitionId} {tr : Transition κ}, g'.transition? t = some tr →
    g.transition? t = some tr

/-! ## What stays is alive -/

section
variable {k : Kept}

theorem isSome_state?_restrict (hst : g.state? q = some st) :
    ((g.restrict k).state? q).isSome = k.state q := by
  rw [state?_restrict, hst]
  cases k.state q <;> rfl

theorem isSome_transition?_restrict (ht : g.transition? t = some tr) :
    ((g.restrict k).transition? t).isSome = k.transition t := by
  rw [transition?_restrict, ht]
  cases k.transition t <;> rfl

end

section
variable (h : g.Tied)
include h

theorem Tied.restrictState_eq {k : Kept} (hst : g.state? q = some st) :
    restrictState k st = { st with
    incoming := st.incoming.filter fun t => ((g.restrict k).transition? t).isSome
    outgoing := st.outgoing.filter fun t => ((g.restrict k).transition? t).isSome
    neighbours :=
      if ∀ t ∈ st.incoming ++ st.outgoing, ((g.restrict k).transition? t).isSome then
        st.neighbours else none } := by
  have hlive : ∀ t ∈ st.incoming ++ st.outgoing, ((g.restrict k).transition? t).isSome =
      k.transition t := by
    intro t ht
    obtain ⟨tr, htr⟩ := h.listed.incident_live hst ht
    exact isSome_transition?_restrict htr
  have hall : (∀ t ∈ st.incoming ++ st.outgoing, ((g.restrict k).transition? t).isSome = true) ↔
      ∀ t ∈ st.incoming ++ st.outgoing, k.transition t = true :=
    forall₂_congr fun t ht => by rw [hlive t ht]
  rw [restrictState, List.filter_congr fun t ht => hlive t (List.mem_append_left _ ht),
    List.filter_congr fun t ht => hlive t (List.mem_append_right _ ht), if_congr hall rfl rfl]

/-- A definition that stays loses no state from its marks but the one that is removed. -/
theorem Tied.marked_outside (hx : g.definition? d = some x) (hd : (g.outside s).definition d = true)
    (m : Mark) :
    (x.marked m).filter (g.outside s).state = if x.marked m = some s then none else x.marked m := by
  cases hm : x.marked m with
  | none => rfl
  | some q =>
    obtain ⟨st, hst, howner, -⟩ := h.marked.marked hx hm
    have hstays : (g.outside s).state q = true ↔ q ≠ s := by
      rw [outside_state h.nested, inside_iff_head, not_or]
      refine and_iff_left ?_
      rintro ⟨c, hc, hin⟩
      obtain ⟨st', x', hst', hx', hcomposite⟩ := superstate_eq_some.mp hc
      cases hst.symm.trans hst'
      rw [howner, hx] at hx'
      cases hx'
      exact (outside_definition h.nested).mp hd x c hx hcomposite hin
    rw [Option.filter_some, if_congr hstays rfl rfl, ite_not]
    exact if_congr Option.some_inj.symm rfl rfl

theorem Tied.restrictDefinition_eq (hx : g.definition? d = some x)
    (hd : (g.outside s).definition d = true) :
    restrictDefinition (g.outside s) x = { x with
      states := x.states.filter fun q => ((g.restrict (g.outside s)).state? q).isSome
      transitions := x.transitions.filter fun t => ((g.restrict (g.outside s)).transition? t).isSome
      start := if x.start = some s then none else x.start
      final := if x.final = some s then none else x.final } := by
  have hstates : ∀ q ∈ x.states, ((g.restrict (g.outside s)).state? q).isSome =
      (g.outside s).state q := by
    intro q hq
    obtain ⟨st, hst, -⟩ := h.listed.state_live hx hq
    exact isSome_state?_restrict hst
  have htransitions : ∀ t ∈ x.transitions,
      ((g.restrict (g.outside s)).transition? t).isSome = (g.outside s).transition t := by
    intro t ht
    obtain ⟨tr, htr, -⟩ := h.listed.transition_live hx ht
    exact isSome_transition?_restrict htr
  have hstart : x.start.filter (g.outside s).state = if x.start = some s then none else x.start :=
    h.marked_outside hx hd .start
  have hfinal : x.final.filter (g.outside s).state = if x.final = some s then none else x.final :=
    h.marked_outside hx hd .final
  rw [restrictDefinition, List.filter_congr hstates, List.filter_congr htransitions, hstart, hfinal]

/-! ## What goes -/

theorem Tied.without_outside (s : StateId) : g.Without s (g.restrict (g.outside s)) where
  root := rfl
  sizes := ⟨Arena.size_restrict .., Arena.size_restrict .., Arena.size_restrict ..⟩
  state_dead q := by
    rw [state?_restrict, ite_eq_right_iff, outside_state h.nested, Option.map_eq_none_iff, or_comm,
      or_iff_not_imp_left]
  definition_dead d := by
    rw [definition?_restrict, ite_eq_right_iff, Option.map_eq_none_iff, or_comm,
      or_iff_not_imp_left, outside_definition h.nested]
    refine imp_congr_left ?_
    simp only [not_exists, not_and]
  transition_dead t := by
    rw [transition?_restrict, ite_eq_right_iff, or_comm, or_iff_not_imp_left,
      outside_transition h.nested]
    refine imp_congr_left ?_
    simp only [not_exists, not_and, not_or]
  state hst' := by
    obtain ⟨st, -, hst, rfl⟩ := of_state?_restrict hst'
    exact ⟨st, hst, h.restrictState_eq hst⟩
  definition hx' := by
    obtain ⟨x, hd, hx, rfl⟩ := of_definition?_restrict hx'
    exact ⟨x, hx, h.restrictDefinition_eq hx hd⟩
  transition ht := (of_transition?_restrict ht).2

end

/-! ## What is returned -/

theorem sublist_distinct {α : Type} [DecidableEq α] (xs : List α) : (distinct xs).Sublist xs := by
  have hfold (seen : List α) :
      (xs.foldl (fun seen x => if x ∈ seen then seen else seen ++ [x]) seen).Sublist
        (seen ++ xs) := by
    induction xs generalizing seen with
    | nil => rw [List.append_nil]; exact List.Sublist.refl _
    | cons x xs ih =>
      rw [List.foldl_cons]
      refine (ih _).trans ?_
      split
      · exact (List.Sublist.refl seen).append (List.sublist_cons_self x xs)
      · rw [List.append_assoc]
        exact List.Sublist.refl _
  exact hfold []

end Graph

namespace Editor

variable {κ : Type} {g : Graph κ} {s : StateId} {st : State κ} {t : TransitionId}
  {tr : Transition κ}

/-- The transitions at a state are in the order of their handles, each once. -/
theorem pairwise_touching (st : State κ) : (touching st).Pairwise fun t u => t.index < u.index := by
  let le (a b : TransitionId) : Bool := a.index ≤ b.index
  have htrans (a b c : TransitionId) (hab : le a b) (hbc : le b c) : le a c :=
    decide_eq_true (Nat.le_trans (of_decide_eq_true hab) (of_decide_eq_true hbc))
  have htotal (a b : TransitionId) : (le a b || le b a) = true := by
    simpa [le] using Nat.le_total a.index b.index
  have hsorted := List.pairwise_mergeSort htrans htotal (st.incoming ++ st.outgoing)
  have hle : (touching st).Pairwise fun t u => t.index ≤ u.index :=
    (hsorted.sublist (Graph.sublist_distinct _)).imp of_decide_eq_true
  refine (hle.and (Graph.nodup_distinct _)).imp ?_
  rintro t u ⟨hlt, hne⟩
  exact Nat.lt_of_le_of_ne hlt fun heq => hne (TransitionId.index_inj.mp heq)

theorem mem_described {ts : List TransitionId} :
    (t, tr) ∈ described g ts ↔ t ∈ ts ∧ g.transition? t = some tr := by
  simp only [described, List.mem_filterMap, Option.map_eq_some_iff, Prod.mk.injEq]
  constructor
  · rintro ⟨u, hu, ur, hur, rfl, rfl⟩
    exact ⟨hu, hur⟩
  · rintro ⟨ht, htr⟩
    exact ⟨t, ht, tr, htr, rfl, rfl⟩

theorem pairwise_described {ts : List TransitionId} (h : ts.Pairwise fun t u => t.index < u.index) :
    (described g ts).Pairwise fun p q => p.1.index < q.1.index := by
  refine h.filterMap _ fun t u hlt p hp q hq => ?_
  obtain ⟨tr, -, rfl⟩ := Option.map_eq_some_iff.mp hp
  obtain ⟨ur, -, rfl⟩ := Option.map_eq_some_iff.mp hq
  exact hlt

end Editor

namespace Graph

variable {κ : Type} {g : Graph κ} {s : StateId} {st : State κ}

/-- A live state can be removed. What is gone then is the state, what is nested in it and what ends
at any of these; the transitions that touched the state itself are returned in the order of their
handles, a loop once. -/
theorem Reachable.removeState_without (h : g.Reachable) (hst : g.state? s = some st) :
    ∃ removed g', Editor.removeState s g = .ok removed g' ∧ g.Without s g' ∧
      (removed.Pairwise fun p q => p.1.index < q.1.index) ∧
      ∀ t tr, (t, tr) ∈ removed ↔ g.transition? t = some tr ∧ (tr.source = s ∨ tr.target = s) := by
  refine ⟨_, _, Editor.removeState_eq h.tied hst, h.tied.without_outside s,
    Editor.pairwise_described (Editor.pairwise_touching st), fun t tr => ?_⟩
  rw [Editor.mem_described, h.tied.listed.mem_touching hst]
  constructor
  · rintro ⟨⟨ur, hur, hends⟩, ht⟩
    cases hur.symm.trans ht
    exact ⟨ht, hends⟩
  · rintro ⟨ht, hends⟩
    exact ⟨⟨tr, ht, hends⟩, ht⟩

/-- States x and y are nested in b, and z is nested in x. Transitions lead from b to itself, from b
out to a, from y out to a, from z back up to b, and from a to itself. -/
def crossingEdits : List (Edit Unit) :=
  [.addState ⟨0⟩ { name := "a" }, .addState ⟨0⟩ { name := "b" }, .attachSubmachine ⟨1⟩ "b",
    .addState ⟨1⟩ { name := "x" }, .addState ⟨1⟩ { name := "y" }, .attachSubmachine ⟨2⟩ "x",
    .addState ⟨2⟩ { name := "z" }, .setStart ⟨0⟩ (some ⟨1⟩), .setFinal ⟨0⟩ (some ⟨0⟩),
    .addTransition ⟨0⟩ { name := "b->b", source := ⟨1⟩, target := ⟨1⟩ },
    .addTransition ⟨1⟩ { name := "y->a", source := ⟨3⟩, target := ⟨0⟩ },
    .addTransition ⟨2⟩ { name := "z->b", source := ⟨4⟩, target := ⟨1⟩ },
    .addTransition ⟨0⟩ { name := "a->a", source := ⟨0⟩, target := ⟨0⟩ },
    .addTransition ⟨0⟩ { name := "b->a", source := ⟨1⟩, target := ⟨0⟩ }]

/-- The transitions that touch b itself are its loop, which is returned once, and those from z and
to a. -/
theorem removeState_without_crossingEdits :
    ((Graph.new "g").edited crossingEdits).Reachable ∧
      (((Graph.new "g").edited crossingEdits).state? ⟨1⟩).isSome ∧
      ∃ removed g', Editor.removeState ⟨1⟩ ((Graph.new "g").edited crossingEdits) = .ok removed g' ∧
        ((Graph.new "g").edited crossingEdits).Without ⟨1⟩ g' ∧
        (removed.Pairwise fun p q => p.1.index < q.1.index) ∧
        ∀ i < 5, (∃ tr, (⟨i⟩, tr) ∈ removed) ↔ i = 0 ∨ i = 2 ∨ i = 4 := by
  have hreachable := (Reachable.new (κ := Unit) "g").edited crossingEdits
  have hlive : (((Graph.new "g").edited crossingEdits).state? ⟨1⟩).isSome := by decide +kernel
  have htouching : ∀ i < 5, (((Graph.new "g").edited crossingEdits).transition? ⟨i⟩).any
      (fun tr => tr.source = ⟨1⟩ ∨ tr.target = ⟨1⟩) ↔ i = 0 ∨ i = 2 ∨ i = 4 := by decide +kernel
  obtain ⟨st, hst⟩ := Option.isSome_iff_exists.mp hlive
  obtain ⟨removed, g', hremoved, hwithout, hordered, hmem⟩ := hreachable.removeState_without hst
  refine ⟨hreachable, hlive, removed, g', hremoved, hwithout, hordered, fun i hi => ?_⟩
  rw [← htouching i hi, Option.any_eq_true]
  refine exists_congr fun tr => ?_
  rw [hmem, decide_eq_true_iff]

end Graph

end Statechart
