import Statechart.Proofs.Graph.Replica
import Statechart.Proofs.Machine.AlignmentRuns
import Statechart.Proofs.Machine.Isolation
import Statechart.Proofs.Machine.Progress
import Statechart.Proofs.Machine.Resuming

/-!
# A machine and its mirror image

A machine of the root, and the same machine on a copy of the root. Each handle stands for its copy,
and where states list their transitions in the order of a walk the two are alike. So they stay alike
whatever is asked of them.
-/

namespace Statechart

open Json

variable {σ κ α : Type}

namespace Graph

variable {g : Graph κ} {d : DefinitionId} {s s' : StateId} {t t' : TransitionId}

/-- Each handle of what is copied stands for that of its copy. Elements of the same name are the
same to behaviors. -/
def copies (g : Graph κ) (d : DefinitionId) : Correspondence κ where
  state s s' := (g.copyMap d).state? s = some s'
  transition t t' := (g.copyMap d).transition? t = some t'
  element x x' := x'.name = x.name
  states_unique := by
    refine ⟨fun a b c ha hb => ?_, fun a b c hb hc => Option.some.inj (hb.symm.trans hc)⟩
    obtain ⟨hmem, rfl⟩ := state?_copyMap_eq_some.mp ha
    obtain ⟨-, heq⟩ := state?_copyMap_eq_some.mp hb
    exact placement_state_inj hmem heq.symm
  transitions_unique := by
    refine ⟨fun a b c ha hb => ?_, fun a b c hb hc => Option.some.inj (hb.symm.trans hc)⟩
    obtain ⟨hmem, rfl⟩ := transition?_copyMap_eq_some.mp ha
    obtain ⟨-, heq⟩ := transition?_copyMap_eq_some.mp hb
    exact placement_transition_inj hmem heq.symm

theorem copies_of_mem_states {ss : List StateId} (h : ∀ s ∈ ss, s ∈ g.walkStates d) :
    List.Forall₂ (g.copies d).state ss (ss.map (g.placement d).state) :=
  List.forall₂_map_right_iff.mpr
    (List.forall₂_same.mpr fun s hs => state?_copyMap_eq_some.mpr ⟨h s hs, rfl⟩)

theorem copies_of_mem_transitions {ts : List TransitionId} (h : ∀ t ∈ ts,
    t ∈ g.copiedTransitions d) :
    List.Forall₂ (g.copies d).transition ts (ts.map (g.placement d).transition) :=
  List.forall₂_map_right_iff.mpr (List.forall₂_same.mpr fun t ht =>
    transition?_copyMap_eq_some.mpr ⟨h t ht, rfl⟩)

/-- The copy of an optional state stands for it. -/
theorem copies_of_map {o o' : Option StateId} (h : o'.map some = o.map (g.copyMap d).state?) :
    Option.Rel (g.copies d).state o o' := by
  cases o with
  | none =>
    cases o' with
    | none => exact .none
    | some s' => cases h
  | some s =>
    cases o' with
    | none => cases h
    | some s' => exact .some (Option.some.inj h).symm

end Graph

/-! ## A machine on a copy of the root -/

namespace Machine

/-- The first machine is bound to the root of its graph, the second to the root of a copy. -/
structure Copied (m m' : Machine κ) : Prop where
  tied : m.graph.Tied
  definition : m.definition = m.graph.root
  graph' : m'.graph = m.graph.copyOf m.graph.root
  definition' : m'.definition = m'.graph.root

namespace Copied

variable {m m' : Machine κ} (h : m.Copied m') {s s' : StateId} {t t' : TransitionId}
include h

theorem tied' : m'.graph.Tied := h.graph' ▸ Graph.tied_copyOf h.tied h.tied.live_root

theorem root :
    ∃ x x', m.graph.definition? m.definition = some x ∧
      m'.graph.definition? m'.definition = some x' ∧
    Graph.DefinitionCopied (m.graph.copyMap m.graph.root) (m.definition = m.graph.root) x x' := by
  have hcopy := Graph.isCopy_copyOf h.tied h.tied.live_root
  rw [h.definition', h.graph', h.definition]
  exact hcopy.definition _ _ hcopy.root

theorem state (hs : (m.graph.copies m.graph.root).state s s') :
    ∃ st st', m.graph.state? s = some st ∧
    m'.graph.state? s' = some st' ∧
    m.graph.StateCopied (m.graph.copyMap m.graph.root) s st st' := by
  rw [h.graph']
  exact (Graph.isCopy_copyOf h.tied h.tied.live_root).state s s' hs

theorem transition (ht : (m.graph.copies m.graph.root).transition t t') :
    ∃ tr tr', m.graph.transition? t = some tr ∧
    m'.graph.transition? t' = some tr' ∧
    Graph.TransitionCopied (m.graph.copyMap m.graph.root) tr tr' := by
  rw [h.graph']
  exact (Graph.isCopy_copyOf h.tied h.tied.live_root).transition t t' ht

theorem fallback {d d' : DefinitionId} (hd : (m.graph.copyMap m.graph.root).definition? d = some d')
    (a : Action) :
    ∃ x x', m.graph.definition? d = some x ∧ m'.graph.definition? d' = some x' ∧ x'.fallback a =
      x.fallback a := by
  rw [h.graph']
  obtain ⟨x, x', hx, hx', hcopied⟩ :=
    (Graph.isCopy_copyOf h.tied h.tied.live_root).definition d d' hd
  exact ⟨x, x', hx, hx', by rw [hcopied.fallback]⟩

theorem within {st : State κ} (hs : m.graph.state? s = some st) :
    m.graph.isWithin st.owner m.definition = true := by
  obtain ⟨x, hx⟩ := h.tied.placed.owner hs
  rw [h.definition]
  exact (Graph.isWithin_iff h.tied.nested).mpr (h.tied.within_root hx)

theorem within' {st' : State κ} (hs : m'.graph.state? s' = some st') :
    m'.graph.isWithin st'.owner m'.definition = true := by
  obtain ⟨x, hx⟩ := h.tied'.placed.owner hs
  rw [h.definition']
  exact (Graph.isWithin_iff h.tied'.nested).mpr (h.tied'.within_root hx)

theorem ancestors (hs : (m.graph.copies m.graph.root).state s s') :
    List.Forall₂ (m.graph.copies m.graph.root).state (m.graph.ancestors s)
      (m'.graph.ancestors s') := by
  obtain ⟨hmem, rfl⟩ := Graph.state?_copyMap_eq_some.mp hs
  rw [h.graph', h.tied.ancestors_replica hmem]
  exact Graph.copies_of_mem_states fun c hc => h.tied.mem_walkStates_of_ancestor hmem hc

/-- What runs for a copy is what runs for what it is a copy of. -/
theorem behaviorOf (a : Action) {x x' : Subject} (hx : x.Like (m.graph.copies m.graph.root) x') :
    Likewise (fun b b' => b'.1.name = b.1.name ∧ b'.2 = b.2) (m.graph.behaviorOf a x)
      (m'.graph.behaviorOf a x') := by
  have hchosen (element element' : Element κ) (hname : element'.name = element.name)
      (own : Behavior κ) {d d' : DefinitionId}
      (hd : (m.graph.copyMap m.graph.root).definition? d = some d')
      (hs : m.graph.subject a x = .ok (element, own, d))
      (hs' : m'.graph.subject a x' = .ok (element', own, d')) :
      Likewise (fun b b' => b'.1.name = b.1.name ∧ b'.2 = b.2) (m.graph.behaviorOf a x)
        (m'.graph.behaviorOf a x') := by
    obtain ⟨y, y', hy, hy', hfallback⟩ := h.fallback hd a
    simp only [Graph.behaviorOf, hs, hs', Bind.bind, Except.bind, Graph.definition, hy, hy']
    split
    · exact .ok ⟨hname, by rw [hfallback]⟩
    · exact .ok ⟨hname, rfl⟩
  cases hx with
  | state hs =>
    obtain ⟨st, st', hst, hst', hcopied⟩ := h.state hs
    have hbehavior : st'.behavior a = st.behavior a := by
      have hentry := congrArg StateSpec.entry hcopied.spec
      have hexit := congrArg StateSpec.exit hcopied.spec
      have hactivity := congrArg StateSpec.doActivity hcopied.spec
      cases a with
      | entry => exact hentry
      | exit => exact hexit
      | doActivity => exact hactivity
      | guard | effect => rfl
    refine hchosen (.state st) (.state st') (congrArg StateSpec.name hcopied.spec)
      (st.behavior a) hcopied.owner ?_ ?_
    · rw [Graph.subject, Graph.state, hst]
      rfl
    · rw [Graph.subject, Graph.state, hst', ← hbehavior]
      rfl
  | transition ht =>
    obtain ⟨tr, tr', htr, htr', hcopied⟩ := h.transition ht
    have hbehavior : tr'.behavior a = tr.behavior a := by
      have hguard := congrArg TransitionSpec.guard hcopied.spec
      have heffect := congrArg TransitionSpec.effect hcopied.spec
      cases a with
      | guard => exact hguard
      | effect => exact heffect
      | entry | exit | doActivity => rfl
    refine hchosen (.transition tr) (.transition tr') (by rw [Element.name, hcopied.spec]; rfl)
      (tr.behavior a) hcopied.owner ?_ ?_
    · rw [Graph.subject, Graph.transition, htr]
      rfl
    · rw [Graph.subject, Graph.transition, htr', ← hbehavior]
      rfl

/-- In the order of a walk the candidates are the same. -/
theorem candidatesFrom (ho : m.graph.Owned) (hw : m.graph.InWalkOrder)
    (hs : (m.graph.copies m.graph.root).state s s') :
    Likewise (List.Forall₂ (m.graph.copies m.graph.root).transition) (m.candidatesFrom s)
      (m'.candidatesFrom s') := by
  obtain ⟨st, st', hst, hst', -⟩ := h.state hs
  rw [candidatesFrom_of_root h.tied h.definition ⟨st, hst⟩,
    candidatesFrom_of_root h.tied' h.definition' ⟨st', hst'⟩]
  refine .ok (List.rel_flatMap (h.ancestors hs) fun c c' hc => ?_)
  obtain ⟨ct, -, hct, -⟩ := h.state hc
  obtain ⟨-, rfl⟩ := Graph.state?_copyMap_eq_some.mp hc
  rw [h.graph', Graph.outgoing?_of hct, (ho.inWalkOrder_iff h.tied).mp hw c ct hct]
  refine Graph.copies_of_mem_transitions fun t ht => ?_
  obtain ⟨tr, htr, -⟩ := h.tied.listed.outgoing_live hct ht
  exact ho.mem_copiedTransitions h.tied htr

/-- A machine of the root is like one on a copy of the root that is at the copy of its place. -/
theorem like (ho : m.graph.Owned) (hw : m.graph.InWalkOrder)
    (hactive : Option.Rel (m.graph.copies m.graph.root).state m.active m'.active) :
    m.Like (m.graph.copies m.graph.root) m' where
  active := hactive
  atEnd := by
    obtain ⟨x, x', hx, hx', hcopied⟩ := h.root
    have hfinal := Graph.copies_of_map hcopied.final
    rw [Machine.atEnd, Machine.atEnd, hx, hx', Option.bind_some, Option.bind_some]
    exact congrArg₂ _ (isSome_of_rel hfinal)
      (beq_of_rel (m.graph.copies m.graph.root).states_unique hactive hfinal)
  definitionLabel := by rw [h.definition', h.graph', h.tied.definitionLabel_replica, h.definition]
  start := by
    obtain ⟨x, x', hx, hx', hcopied⟩ := h.root
    rw [Graph.definition, Graph.definition, hx, hx']
    exact .ok (Graph.copies_of_map hcopied.start)
  state hs := by
    obtain ⟨st, st', hst, hst', hcopied⟩ := h.state hs
    rw [Graph.state, Graph.state, hst, hst']
    exact .ok ⟨congrArg StateSpec.name hcopied.spec, (h.within' hst').trans (h.within hst).symm⟩
  transition ht := by
    obtain ⟨tr, tr', htr, htr', hcopied⟩ := h.transition ht
    rw [Graph.transition, Graph.transition, htr, htr']
    exact .ok
      { name := by rw [hcopied.spec]
        kind := by rw [hcopied.spec]
        triggers := by rw [hcopied.spec]
        source := hcopied.source
        target := hcopied.target }
  behaviorOf a _ _ hx := h.behaviorOf a hx
  pathOfState hs := by
    obtain ⟨hmem, rfl⟩ := Graph.state?_copyMap_eq_some.mp hs
    rw [h.graph', h.tied.pathOfState_replica hmem]
  pathOfTransition ht := by
    obtain ⟨hmem, rfl⟩ := Graph.transition?_copyMap_eq_some.mp ht
    rw [h.graph', h.tied.pathOfTransition_replica hmem]
  isActive hs := by
    rw [Machine.isActive, Machine.isActive]
    generalize m.active = o, m'.active = o' at hactive ⊢
    cases hactive with
    | none => rfl
    | some ha =>
      exact contains_of_rel (m.graph.copies m.graph.root).states_unique (h.ancestors ha) hs
  resolveEntryTarget hs := by
    obtain ⟨hmem, rfl⟩ := Graph.state?_copyMap_eq_some.mp hs
    rw [h.graph', Graph.resolveEntryTarget_copyOf h.tied h.tied.live_root hmem]
    exact Graph.state?_copyMap_eq_some.mpr
      ⟨Graph.resolveEntryTarget_mem_walk h.tied h.tied.live_root hmem, rfl⟩
  scopedAncestors hs := by
    obtain ⟨st, st', hst, hst', -⟩ := h.state hs
    rw [scopedAncestors_of_root h.tied h.definition ⟨st, hst⟩,
      scopedAncestors_of_root h.tied' h.definition' ⟨st', hst'⟩]
    exact h.ancestors hs
  candidatesFrom hs := h.candidatesFrom ho hw hs

end Copied

end Machine

end Statechart
