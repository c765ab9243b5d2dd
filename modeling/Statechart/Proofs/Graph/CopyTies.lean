import Mathlib.Data.List.Nodup
import Statechart.Proofs.Graph.Growth
import Statechart.Proofs.Graph.Linking

/-!
# Copies are tied

The elements of a copy are the placed elements of the graph that it was made from, and its handles
agree with one another as they did there.
-/

namespace Statechart.Graph

variable {κ : Type} {g : Graph κ} {d e f : DefinitionId} {s q : StateId} {t u : TransitionId}
  {x y : Definition κ} {st : State κ} {tr : Transition κ}

/-! ## Order -/

section
variable (h : g.Tied) (hd : ∃ x, g.definition? d = some x)
include h hd

/-- What stands around comes first among the definitions of a walk. -/
theorem idxOf_superdefinition_lt (he : e ∈ g.walkDefinitions d) (hf : f ∈ g.walkDefinitions d)
    (hsup : g.superdefinition e = some f) :
    (g.walkDefinitions d).idxOf f < (g.walkDefinitions d).idxOf e := by
  have hordered : (g.walkDefinitions d).Pairwise fun a b => ¬ g.superdefinition a = some b := by
    refine List.pairwise_filterMap.mpr ((nodesBelow_ordered h hd (Nat.le_add_right _ _)).imp ?_)
    intro k l hkl a ha b hb
    cases k <;> cases ha
    cases l <;> cases hb
    exact hkl
  have hei := List.idxOf_lt_length_iff.mpr he
  have hfi := List.idxOf_lt_length_iff.mpr hf
  rcases Nat.lt_trichotomy ((g.walkDefinitions d).idxOf f) ((g.walkDefinitions d).idxOf e)
    with hlt | heq | hgt
  · exact hlt
  · have hfe := (List.idxOf_inj hf).mp heq
    have hlt := h.nested.superdefinition_lt hsup
    rw [hfe] at hlt
    omega
  · have hne := List.pairwise_iff_getElem.mp hordered _ _ hei hfi hgt
    rw [List.getElem_idxOf, List.getElem_idxOf] at hne
    exact absurd hsup hne

theorem idxOf_superstate_lt (hs : s ∈ g.walkStates d) (hq : q ∈ g.walkStates d)
    (hsup : g.superstate s = some q) : (g.walkStates d).idxOf q < (g.walkStates d).idxOf s := by
  have hordered : (g.walkStates d).Pairwise fun a b => ¬ g.superstate a = some b := by
    rw [walkStates_eq]
    refine List.pairwise_filterMap.mpr ((nodesBelow_ordered h hd (Nat.le_add_right _ _)).imp ?_)
    intro k l hkl a ha b hb
    cases k <;> cases ha
    cases l <;> cases hb
    exact hkl
  have hsi := List.idxOf_lt_length_iff.mpr hs
  have hqi := List.idxOf_lt_length_iff.mpr hq
  rcases Nat.lt_trichotomy ((g.walkStates d).idxOf q) ((g.walkStates d).idxOf s)
    with hlt | heq | hgt
  · exact hlt
  · have hqs := (List.idxOf_inj hq).mp heq
    have hlt := h.nested.superstate_lt hsup
    rw [hqs] at hlt
    omega
  · have hne := List.pairwise_iff_getElem.mp hordered _ _ hsi hqi hgt
    rw [List.getElem_idxOf, List.getElem_idxOf] at hne
    exact absurd hsup hne

end

/-! ## The elements of a copy -/

theorem placement_definition_inj (he : e ∈ g.walkDefinitions d)
    (heq : (g.placement d).definition e = (g.placement d).definition f) : e = f :=
  (List.idxOf_inj he).mp (congrArg DefinitionId.index heq)

theorem placement_state_inj (hs : s ∈ g.walkStates d)
    (heq : (g.placement d).state s = (g.placement d).state q) : s = q :=
  (List.idxOf_inj hs).mp (congrArg StateId.index heq)

theorem placement_transition_inj (ht : t ∈ g.copiedTransitions d)
    (heq : (g.placement d).transition t = (g.placement d).transition u) : t = u :=
  (List.idxOf_inj ht).mp (congrArg TransitionId.index heq)

theorem mem_copiedTransitions_of (he : e ∈ g.walkDefinitions d) (hx : g.definition? e = some x)
    (ht : t ∈ x.transitions.filter (g.endsInside d)) : t ∈ g.copiedTransitions d := by
  rw [copiedTransitions_eq, List.mem_flatMap]
  exact ⟨e, he, by rw [hx]; exact ht⟩

section
variable (h : g.Tied) (hd : ∃ x, g.definition? d = some x)
include h hd

theorem definition?_copyOf (he : e ∈ g.walkDefinitions d) (hx : g.definition? e = some x) :
    (g.copyOf d).definition? ((g.placement d).definition e) =
      some ((g.placement d).linkDefinition d e (x.transitions.filter (g.endsInside d)) x) :=
  Arena.get?_ofList_idxOf (fun _ => walkDefinitions_live h hd) he hx

theorem of_definition?_copyOf {e' : DefinitionId} (hy : (g.copyOf d).definition? e' = some y) :
    ∃ e x, e ∈ g.walkDefinitions d ∧ (g.placement d).definition e = e' ∧ g.definition? e = some x ∧
      y = (g.placement d).linkDefinition d e (x.transitions.filter (g.endsInside d)) x := by
  obtain ⟨e, x, he, hi, hx⟩ :=
    Arena.of_get?_ofList (nodup_walkDefinitions h hd) (fun _ => walkDefinitions_live h hd) hy
  exact ⟨e, x, he, DefinitionId.index_inj.mp hi, hx⟩

theorem state?_copyOf (hs : s ∈ g.walkStates d) (hst : g.state? s = some st) :
    (g.copyOf d).state? ((g.placement d).state s) =
      some ((g.placement d).linkState g (g.copiedTransitions d) s st) :=
  Arena.get?_ofList_idxOf (fun _ => walkStates_live h hd) hs hst

theorem of_state?_copyOf {s' : StateId} {st' : State κ} (hs : (g.copyOf d).state? s' = some st') :
    ∃ s st, s ∈ g.walkStates d ∧ (g.placement d).state s = s' ∧ g.state? s = some st ∧
      st' = (g.placement d).linkState g (g.copiedTransitions d) s st := by
  obtain ⟨s, st, hm, hi, hst⟩ :=
    Arena.of_get?_ofList (nodup_walkStates h hd) (fun _ => walkStates_live h hd) hs
  exact ⟨s, st, hm, StateId.index_inj.mp hi, hst⟩

theorem copiedTransitions_live (ht : t ∈ g.copiedTransitions d) : ∃ tr, g.transition? t = some tr :=
  ((mem_copiedTransitions h hd).mp ht).imp fun _ htr => htr.1

theorem transition?_copyOf (ht : t ∈ g.copiedTransitions d) (htr : g.transition? t = some tr) :
    (g.copyOf d).transition? ((g.placement d).transition t) =
      some ((g.placement d).linkTransition tr) :=
  Arena.get?_ofList_idxOf (fun _ => copiedTransitions_live h hd) ht htr

theorem of_transition?_copyOf {t' : TransitionId} {tr' : Transition κ}
    (ht : (g.copyOf d).transition? t' = some tr') :
    ∃ t tr, t ∈ g.copiedTransitions d ∧ (g.placement d).transition t = t' ∧
      g.transition? t = some tr ∧
      tr' = (g.placement d).linkTransition tr := by
  obtain ⟨t, tr, hm, hi, htr⟩ :=
    Arena.of_get?_ofList (nodup_copiedTransitions h hd) (fun _ => copiedTransitions_live h hd) ht
  exact ⟨t, tr, hm, TransitionId.index_inj.mp hi, htr⟩

/-! ## Ties -/

theorem owner_mem_walkDefinitions (hs : s ∈ g.walkStates d) (hst : g.state? s = some st) :
    st.owner ∈ g.walkDefinitions d := by
  obtain ⟨st', hst', hw⟩ := (mem_walkStates h hd).mp hs
  rw [hst] at hst'
  obtain rfl := Option.some.inj hst'
  exact (mem_walkDefinitions h hd).mpr hw

theorem mem_walkStates_of_owner (hst : g.state? s = some st) (ho : st.owner ∈ g.walkDefinitions d) :
    s ∈ g.walkStates d :=
  (mem_walkStates h hd).mpr ⟨st, hst, (mem_walkDefinitions h hd).mp ho⟩

theorem states_mem_walkStates (he : e ∈ g.walkDefinitions d) (hx : g.definition? e = some x)
    (hs : s ∈ x.states) : s ∈ g.walkStates d := by
  obtain ⟨st, hst, rfl⟩ := h.listed.state_live hx hs
  exact mem_walkStates_of_owner h hd hst he

/-- The owner and the ends of a transition that is copied are copied. -/
theorem ends_mem_walk (ht : t ∈ g.copiedTransitions d) (htr : g.transition? t = some tr) :
    tr.owner ∈ g.walkDefinitions d ∧ tr.source ∈ g.walkStates d ∧ tr.target ∈ g.walkStates d := by
  obtain ⟨tr', htr', hends⟩ := (mem_copiedTransitions h hd).mp ht
  rw [htr] at htr'
  obtain rfl := Option.some.inj htr'
  exact hends

theorem stateOwner?_copyOf {s' : StateId} {e' : DefinitionId} :
    (g.copyOf d).stateOwner? s' = some e' ↔ ∃ s e, s ∈ g.walkStates d ∧
      (g.placement d).state s = s' ∧
      g.stateOwner? s = some e ∧ (g.placement d).definition e = e' := by
  constructor
  · intro hs
    obtain ⟨st', hst', rfl⟩ := Option.map_eq_some_iff.mp hs
    obtain ⟨s, st, hm, rfl, hst, rfl⟩ := of_state?_copyOf h hd hst'
    exact ⟨s, st.owner, hm, rfl, stateOwner?_of hst, rfl⟩
  · rintro ⟨s, e, hm, rfl, hs, rfl⟩
    obtain ⟨st, hst, rfl⟩ := Option.map_eq_some_iff.mp hs
    exact stateOwner?_of (state?_copyOf h hd hm hst)

/-- What the transitions of a copy name is where the things that their originals name have gone. -/
theorem map_transition?_copyOf {β : Type} {p : Transition κ → β} {φ : β → β}
    (hp : ∀ tr, p ((g.placement d).linkTransition tr) = φ (p tr)) {t' : TransitionId} {b' : β} :
    ((g.copyOf d).transition? t').map p = some b' ↔ ∃ t b, t ∈ g.copiedTransitions d ∧
      (g.placement d).transition t = t' ∧ (g.transition? t).map p = some b ∧ φ b = b' := by
  constructor
  · intro ht
    obtain ⟨tr', htr', rfl⟩ := Option.map_eq_some_iff.mp ht
    obtain ⟨t, tr, hm, rfl, htr, rfl⟩ := of_transition?_copyOf h hd htr'
    exact ⟨t, p tr, hm, rfl, by rw [htr]; rfl, (hp tr).symm⟩
  · rintro ⟨t, b, hm, rfl, ht, rfl⟩
    obtain ⟨tr, htr, rfl⟩ := Option.map_eq_some_iff.mp ht
    rw [transition?_copyOf h hd hm htr, Option.map_some, hp]

/-- A state of a copy lists, at either end, the copies of the transitions that name it there. -/
theorem roster_ends {p : Transition κ → StateId} {l : State κ → List TransitionId}
    (hp : ∀ tr, p ((g.placement d).linkTransition tr) = (g.placement d).state (p tr))
    (hl : ∀ s st, l ((g.placement d).linkState g (g.copiedTransitions d) s st) =
      ((g.copiedTransitions d).filter fun t => (g.transition? t).map p = some s).map
        (g.placement d).transition) :
    Roster (fun t => ((g.copyOf d).transition? t).map p) fun s =>
      ((g.copyOf d).state? s).map l := by
  refine .of_image placement_transition_inj placement_state_inj (map_transition?_copyOf h hd hp) ?_
  intro s' l' hs
  obtain ⟨st', hst', rfl⟩ := Option.map_eq_some_iff.mp hs
  obtain ⟨s, st, hm, rfl, hst, rfl⟩ := of_state?_copyOf h hd hst'
  refine ⟨s, _, hm, rfl, hl s st, (nodup_copiedTransitions h hd).filter _, fun t => ?_⟩
  rw [List.mem_filter, decide_eq_true_iff]

theorem listed_copyOf : (g.copyOf d).Listed := by
  constructor
  · refine .of_image placement_state_inj placement_definition_inj (stateOwner?_copyOf h hd) ?_
    intro e' l' hl
    obtain ⟨y, hy, rfl⟩ := Option.map_eq_some_iff.mp hl
    obtain ⟨e, x, he, rfl, hx, rfl⟩ := of_definition?_copyOf h hd hy
    refine ⟨e, x.states, he, rfl, rfl, h.listed.nodup_states hx, fun s => ?_⟩
    rw [← h.listed.states.mem_iff (statesOf?_of hx)]
    exact ⟨fun hs => ⟨states_mem_walkStates h hd he hx hs, hs⟩, And.right⟩
  · refine .of_image placement_transition_inj placement_definition_inj
      (map_transition?_copyOf (p := (·.owner)) h hd fun _ => rfl) ?_
    intro e' l' hl
    obtain ⟨y, hy, rfl⟩ := Option.map_eq_some_iff.mp hl
    obtain ⟨e, x, he, rfl, hx, rfl⟩ := of_definition?_copyOf h hd hy
    have hlx := transitionsOf?_of hx
    refine ⟨e, x.transitions.filter (g.endsInside d), he, rfl, rfl,
      (h.listed.transitions.nodup hlx).filter _, fun t => ?_⟩
    constructor
    · intro ht
      exact ⟨mem_copiedTransitions_of he hx ht,
        h.listed.transitions.owner hlx (List.mem_filter.mp ht).1⟩
    · rintro ⟨hm, ho⟩
      exact List.mem_filter.mpr ⟨h.listed.transitions.mem ho hlx, (List.mem_filter.mp hm).2⟩
  · exact roster_ends h hd (fun _ => rfl) fun _ _ => rfl
  · exact roster_ends h hd (fun _ => rfl) fun _ _ => rfl

theorem placed_copyOf : (g.copyOf d).Placed := by
  have hstate {s : StateId} (hs : s ∈ g.walkStates d) :
      ∃ st, (g.copyOf d).state? ((g.placement d).state s) = some st := by
    obtain ⟨st, hst⟩ := walkStates_live h hd hs
    exact ⟨_, state?_copyOf h hd hs hst⟩
  have hdefinition {e : DefinitionId} (he : e ∈ g.walkDefinitions d) :
      ∃ x, (g.copyOf d).definition? ((g.placement d).definition e) = some x := by
    obtain ⟨x, hx⟩ := walkDefinitions_live h hd he
    exact ⟨_, definition?_copyOf h hd he hx⟩
  constructor
  · intro s' st' hs'
    obtain ⟨s, st, hs, -, hst, rfl⟩ := of_state?_copyOf h hd hs'
    exact hdefinition (owner_mem_walkDefinitions h hd hs hst)
  · intro t' tr' ht'
    obtain ⟨t, tr, ht, -, htr, rfl⟩ := of_transition?_copyOf h hd ht'
    exact hstate (ends_mem_walk h hd ht htr).2.1
  · intro t' tr' ht'
    obtain ⟨t, tr, ht, -, htr, rfl⟩ := of_transition?_copyOf h hd ht'
    exact hstate (ends_mem_walk h hd ht htr).2.2
  · intro t' tr' ht'
    obtain ⟨t, tr, ht, -, htr, rfl⟩ := of_transition?_copyOf h hd ht'
    obtain ⟨x, hx⟩ := hdefinition (ends_mem_walk h hd ht htr).1
    exact definition?_lt hx

theorem names_copyOf : (g.copyOf d).NamesUnique := by
  constructor
  · intro s' q' st' qt' hs' hq' ho hn
    obtain ⟨s, st, hs, rfl, hst, rfl⟩ := of_state?_copyOf h hd hs'
    obtain ⟨q, qt, hq, rfl, hqt, rfl⟩ := of_state?_copyOf h hd hq'
    have howner := placement_definition_inj (owner_mem_walkDefinitions h hd hs hst) ho
    rw [h.names.state hst hqt howner hn]
  · intro t' u' tr' ur' ht' hu' ho hn
    obtain ⟨t, tr, ht, rfl, htr, rfl⟩ := of_transition?_copyOf h hd ht'
    obtain ⟨u, ur, hu, rfl, hur, rfl⟩ := of_transition?_copyOf h hd hu'
    have howner := placement_definition_inj (ends_mem_walk h hd ht htr).1 ho
    rw [h.names.transition htr hur howner hn]

/-- A definition within another lies right below one that is within it too. -/
theorem superdefinition_mem_walk (he : e ∈ g.walkDefinitions d) (hne : e ≠ d) :
    ∃ f, g.superdefinition e = some f ∧ f ∈ g.walkDefinitions d := by
  rcases Relation.ReflTransGen.cases_head ((mem_walkDefinitions h hd).mp he) with heq | ⟨f, hf, hw⟩
  · exact absurd heq hne
  · exact ⟨f, hf, (mem_walkDefinitions h hd).mpr hw⟩

/-- The composite state around a definition that is copied, but not as the root, is copied. -/
theorem composite_mem_walk (he : e ∈ g.walkDefinitions d) (hne : e ≠ d)
    (hx : g.definition? e = some x) :
    ∃ s st, x.composite = some s ∧ g.state? s = some st ∧ st.submachine = some e ∧
      s ∈ g.walkStates d := by
  obtain ⟨f, hsup, hf⟩ := superdefinition_mem_walk h hd he hne
  obtain ⟨y, s, st, hy, hc, hst, rfl⟩ := superdefinition_eq_some.mp hsup
  rw [hx] at hy
  obtain rfl := Option.some.inj hy
  obtain ⟨st', hst', hsub⟩ := h.nested.composite_live hx hc
  rw [hst] at hst'
  obtain rfl := Option.some.inj hst'
  exact ⟨s, st, hc, hst, hsub, mem_walkStates_of_owner h hd hst hf⟩

/-- The definition nested in a state that is copied is copied, and not as the root. -/
theorem submachine_mem_walk (hs : s ∈ g.walkStates d) (hst : g.state? s = some st)
    (hsub : st.submachine = some e) : e ∈ g.walkDefinitions d ∧ e ≠ d := by
  have hw := (mem_walkDefinitions h hd).mp (owner_mem_walkDefinitions h hd hs hst)
  have hsup := superdefinition_of_nested h.nested hst hsub
  refine ⟨(mem_walkDefinitions h hd).mpr (hw.head hsup), ?_⟩
  rintro rfl
  have hle := Within.index_le h.nested hw
  have hlt := h.nested.superdefinition_lt hsup
  omega

theorem composite_copyOf (he : e ∈ g.walkDefinitions d) (hx : g.definition? e = some x)
    {c : StateId} (hc : (if e = d then none else x.composite.map (g.placement d).state) = some c) :
    e ≠ d ∧ ∃ s st, x.composite = some s ∧ (g.placement d).state s = c ∧ g.state? s = some st ∧
      st.submachine = some e ∧ s ∈ g.walkStates d := by
  split at hc
  · cases hc
  · rename_i hne
    obtain ⟨s, st, hxs, hst, hsub, hs⟩ := composite_mem_walk h hd he hne hx
    rw [hxs] at hc
    exact ⟨hne, s, st, hxs, Option.some.inj hc, hst, hsub, hs⟩

theorem nested_copyOf : (g.copyOf d).Nested := by
  have hroot := placement_root hd
  constructor
  · obtain ⟨x, hx⟩ := hd
    have hmem := (mem_walkDefinitions h ⟨x, hx⟩).mpr (.refl (a := d))
    refine ⟨_, (congrArg _ hroot.symm).trans (definition?_copyOf h ⟨x, hx⟩ hmem hx), ?_⟩
    exact if_pos rfl
  · intro e' y hy hne'
    obtain ⟨e, x, he, rfl, hx, rfl⟩ := of_definition?_copyOf h hd hy
    have hne : e ≠ d := by
      rintro rfl
      exact hne' hroot
    obtain ⟨s, st, hxs, hst, hsub, hs⟩ := composite_mem_walk h hd he hne hx
    refine ⟨(g.placement d).state s, _, ?_, state?_copyOf h hd hs hst, ?_⟩
    · show (if e = d then none else x.composite.map _) = _
      rw [if_neg hne, hxs]
      rfl
    · show st.submachine.map _ = _
      rw [hsub]
      rfl
  · intro s' st' e' hs' hsub'
    obtain ⟨s, st, hs, rfl, hst, rfl⟩ := of_state?_copyOf h hd hs'
    obtain ⟨e, hsub, rfl⟩ := Option.map_eq_some_iff.mp hsub'
    obtain ⟨he, hne⟩ := submachine_mem_walk h hd hs hst hsub
    obtain ⟨x, hx, hxs, -⟩ := h.nested.nested hst hsub
    refine ⟨_, definition?_copyOf h hd he hx, ?_, ?_⟩
    · show (if e = d then none else x.composite.map _) = _
      rw [if_neg hne, hxs]
      rfl
    · exact idxOf_superdefinition_lt h hd he (owner_mem_walkDefinitions h hd hs hst)
        (superdefinition_of_nested h.nested hst hsub)
  · intro s' c' st' y hs' hy hc'
    obtain ⟨s, st, hs, rfl, hst, rfl⟩ := of_state?_copyOf h hd hs'
    obtain ⟨e, x, he, heq, hx, rfl⟩ := of_definition?_copyOf h hd hy
    obtain rfl := placement_definition_inj he heq
    obtain ⟨-, c, ct, hxc, rfl, hct, -, hc⟩ := composite_copyOf h hd he hx hc'
    exact idxOf_superstate_lt h hd hs hc (superstate_eq_some.mpr ⟨st, x, hst, hx, hxc⟩)

theorem superdefinition_copyOf (he : e ∈ g.walkDefinitions d) (hne : e ≠ d)
    (hsup : g.superdefinition e = some f) :
    (g.copyOf d).superdefinition ((g.placement d).definition e) =
      some ((g.placement d).definition f) := by
  obtain ⟨x, s, st, hx, hxs, hst, rfl⟩ := superdefinition_eq_some.mp hsup
  obtain ⟨s', st', hxs', hst', -, hs⟩ := composite_mem_walk h hd he hne hx
  rw [hxs] at hxs'
  obtain rfl := Option.some.inj hxs'
  refine superdefinition_eq_some.mpr ⟨_, _, _, definition?_copyOf h hd he hx, ?_,
    state?_copyOf h hd hs hst, rfl⟩
  show (if e = d then none else x.composite.map _) = _
  rw [if_neg hne, hxs]
  rfl

/-- Of two definitions that are copied, one lies within the other as it did before. -/
theorem within_copyOf (he : e ∈ g.walkDefinitions d) (hf : f ∈ g.walkDefinitions d)
    (hw : g.Within e f) :
    (g.copyOf d).Within ((g.placement d).definition e) ((g.placement d).definition f) := by
  induction hw using Relation.ReflTransGen.head_induction_on with
  | refl => exact .refl
  | head hsup hw ih =>
    rename_i e c
    have hne : e ≠ d := by
      rintro rfl
      have hle := Within.index_le h.nested hw
      have hle' := Within.index_le h.nested ((mem_walkDefinitions h hd).mp hf)
      have hlt := h.nested.superdefinition_lt hsup
      omega
    obtain ⟨c', hsup', hc⟩ := superdefinition_mem_walk h hd he hne
    rw [hsup] at hsup'
    obtain rfl := Option.some.inj hsup'
    exact (ih hc).head (superdefinition_copyOf h hd he hne hsup)

theorem scope_copyOf : (g.copyOf d).Scoped := by
  constructor
  · intro t' tr' x' st' ht' _ hs'
    obtain ⟨t, tr, ht, -, htr, rfl⟩ := of_transition?_copyOf h hd ht'
    obtain ⟨s, st, hs, heq, hst, rfl⟩ := of_state?_copyOf h hd hs'
    obtain rfl := placement_state_inj hs heq
    obtain ⟨ho, -, -⟩ := ends_mem_walk h hd ht htr
    obtain ⟨x, hx⟩ := walkDefinitions_live h hd ho
    exact within_copyOf h hd ho (owner_mem_walkDefinitions h hd hs hst) (h.scope.source htr hx hst)
  · intro t' tr' x' st' ht' _ hs'
    obtain ⟨t, tr, ht, -, htr, rfl⟩ := of_transition?_copyOf h hd ht'
    obtain ⟨s, st, hs, heq, hst, rfl⟩ := of_state?_copyOf h hd hs'
    obtain rfl := placement_state_inj hs heq
    obtain ⟨ho, -, -⟩ := ends_mem_walk h hd ht htr
    obtain ⟨x, hx⟩ := walkDefinitions_live h hd ho
    exact within_copyOf h hd ho (owner_mem_walkDefinitions h hd hs hst) (h.scope.target htr hx hst)

theorem marked_copyOf : (g.copyOf d).Marked := by
  have hmark (m : Mark) (e : DefinitionId) (x : Definition κ) :
      ((g.placement d).linkDefinition d e (x.transitions.filter (g.endsInside d)) x).marked m =
        (x.marked m).map (g.placement d).state := by
    cases m <;> rfl
  constructor
  · intro e' y m s' hy hm
    obtain ⟨e, x, he, rfl, hx, rfl⟩ := of_definition?_copyOf h hd hy
    rw [hmark] at hm
    obtain ⟨s, hs, rfl⟩ := Option.map_eq_some_iff.mp hm
    obtain ⟨st, hst, rfl, hk⟩ := h.marked.marked hx hs
    exact ⟨_, state?_copyOf h hd (mem_walkStates_of_owner h hd hst he) hst, rfl, hk⟩
  · intro s' st' m hs' hk
    obtain ⟨s, st, hs, rfl, hst, rfl⟩ := of_state?_copyOf h hd hs'
    obtain ⟨x, hx, hm⟩ := h.marked.kind hst hk
    refine ⟨_, definition?_copyOf h hd (owner_mem_walkDefinitions h hd hs hst) hx, ?_⟩
    rw [hmark, hm]
    rfl

/-- Nothing is kept of the neighbours of a copied state. -/
theorem current_copyOf : (g.copyOf d).Current := by
  refine ⟨fun hst' hn => ?_⟩
  obtain ⟨s, st, -, -, -, rfl⟩ := of_state?_copyOf h hd hst'
  cases hn

/-- A copy is tied. -/
theorem tied_copyOf : (g.copyOf d).Tied where
  listed := listed_copyOf h hd
  placed := placed_copyOf h hd
  names := names_copyOf h hd
  nested := nested_copyOf h hd
  scope := scope_copyOf h hd
  marked := marked_copyOf h hd
  current := current_copyOf h hd

end

end Statechart.Graph
