import Mathlib.Data.List.Induction
import Mathlib.Data.List.Nodup
import Statechart.Proofs.Graph.Editing

/-!
# Ownership

Which graphs keep every element under exactly one live owner. Edits keep this but for one case: a
transition may belong to a nested definition and have both ends around it, and removing the
composite state then takes the owner and leaves the transition.
-/

namespace Statechart

namespace Edit

variable {κ : Type}

/-- The graph after an edit, whether it fails or not. -/
def after (e : Edit κ) (g : Graph κ) : Graph κ := Editor.left (e.apply g)

end Edit

namespace Graph

variable {κ : Type} {g g' : Graph κ} {d : DefinitionId} {s c : StateId} {t : TransitionId}
  {x : Definition κ} {st : State κ} {tr : Transition κ} {e : Edit κ}

/-- The graph after a sequence of edits. -/
def edited (g : Graph κ) (es : List (Edit κ)) : Graph κ := es.foldl (fun g e => e.after g) g

theorem edited_concat (g : Graph κ) (es : List (Edit κ)) (e : Edit κ) :
    g.edited (es ++ [e]) = e.after (g.edited es) := List.foldl_concat ..

/-- Every live element has one live owner, and all its ties are to live elements. -/
structure Owned (g : Graph κ) : Prop where
  state : ∀ {s st}, g.state? s = some st → ∃ x, g.definition? st.owner = some x ∧
    x.states.count s = 1 ∧ ∀ d y, g.definition? d = some y → s ∈ y.states → d = st.owner
  transition : ∀ {t tr}, g.transition? t = some tr → ∃ x, g.definition? tr.owner = some x ∧
    x.transitions.count t = 1 ∧ ∀ d y, g.definition? d = some y → t ∈ y.transitions → d = tr.owner
  states_live : ∀ {d x s}, g.definition? d = some x → s ∈ x.states → (g.state? s).isSome
  transitions_live : ∀ {d x t}, g.definition? d = some x → t ∈ x.transitions →
    (g.transition? t).isSome
  incident_live : ∀ {s st t}, g.state? s = some st → t ∈ st.incoming ++ st.outgoing →
    (g.transition? t).isSome
  state_names : ∀ {s s' st st'}, g.state? s = some st → g.state? s' = some st' →
    st.owner = st'.owner → st.name = st'.name → s = s'
  transition_names : ∀ {t u tr ur}, g.transition? t = some tr → g.transition? u = some ur →
    tr.owner = ur.owner → tr.name = ur.name → t = u
  source : ∀ {t tr}, g.transition? t = some tr →
    ∃ st, g.state? tr.source = some st ∧ g.isWithin tr.owner st.owner
  target : ∀ {t tr}, g.transition? t = some tr →
    ∃ st, g.state? tr.target = some st ∧ g.isWithin tr.owner st.owner
  nested : ∀ {d x}, g.definition? d = some x → d ≠ g.root → ∃ s st, x.composite = some s ∧
    g.state? s = some st ∧ st.submachine = some d ∧
    ∀ s' st', g.state? s' = some st' → st'.submachine = some d → s' = s

/-- On a tied graph all that is left to ask is that the owners of transitions are live. -/
theorem Tied.owned_iff (h : g.Tied) :
    g.Owned ↔ ∀ t tr, g.transition? t = some tr → g.definition? tr.owner ≠ none := by
  constructor
  · intro ho t tr ht hnone
    obtain ⟨x, hx, -⟩ := ho.transition ht
    rw [hnone] at hx
    cases hx
  · intro ho
    have howner {t : TransitionId} {tr : Transition κ} (ht : g.transition? t = some tr) :
        ∃ x, g.definition? tr.owner = some x := Option.ne_none_iff_exists'.mp (ho t tr ht)
    constructor
    · intro s st hs
      obtain ⟨x, hx⟩ := h.placed.owner hs
      have hm : s ∈ x.states := h.listed.state_mem hx hs
      refine ⟨x, hx, List.count_eq_one_of_mem (h.listed.nodup_states hx) hm, fun d y hy hsy => ?_⟩
      obtain ⟨st', hst', hd⟩ := h.listed.state_live hy hsy
      rw [hs] at hst'
      obtain rfl := Option.some.inj hst'
      exact hd.symm
    · intro t tr ht
      obtain ⟨x, hx⟩ := howner ht
      have hm : t ∈ x.transitions := h.listed.transition_mem hx ht
      refine ⟨x, hx, List.count_eq_one_of_mem (h.listed.nodup_transitions hx) hm,
        fun d y hy hty => ?_⟩
      obtain ⟨tr', htr', hd⟩ := h.listed.transition_live hy hty
      rw [ht] at htr'
      obtain rfl := Option.some.inj htr'
      exact hd.symm
    · intro d x s hx hs
      obtain ⟨st, hst, -⟩ := h.listed.state_live hx hs
      rw [hst]
      rfl
    · intro d x t hx ht
      obtain ⟨tr, htr, -⟩ := h.listed.transition_live hx ht
      rw [htr]
      rfl
    · intro s st t hs ht
      rcases List.mem_append.mp ht with ht | ht
      · obtain ⟨tr, htr, -⟩ := h.listed.incoming_live hs ht
        rw [htr]
        rfl
      · obtain ⟨tr, htr, -⟩ := h.listed.outgoing_live hs ht
        rw [htr]
        rfl
    · exact h.names.state
    · exact h.names.transition
    · intro t tr ht
      obtain ⟨x, hx⟩ := howner ht
      obtain ⟨st, hst⟩ := h.placed.source ht
      exact ⟨st, hst, (isWithin_iff h.nested).mpr (h.scope.source ht hx hst)⟩
    · intro t tr ht
      obtain ⟨x, hx⟩ := howner ht
      obtain ⟨st, hst⟩ := h.placed.target ht
      exact ⟨st, hst, (isWithin_iff h.nested).mpr (h.scope.target ht hx hst)⟩
    · intro d x hx hr
      obtain ⟨s, st, hs, hst, hsub⟩ := h.nested.enclosed hx hr
      exact ⟨s, st, hs, hst, hsub,
        fun s' st' hs' hsub' => h.nested.submachine_inj hs' hst hsub' hsub⟩

/-! ## One edit -/

/-- Removing the state takes the owner of the transition, and neither of its ends. -/
def Orphaned (g : Graph κ) (s : StateId) (t : TransitionId) : Prop :=
  ∃ tr x c, g.transition? t = some tr ∧ g.definition? tr.owner = some x ∧ x.composite = some c ∧
    s ∈ g.ancestors c ∧ s ∉ g.ancestors tr.source ∧ s ∉ g.ancestors tr.target

/-- What an edit does: it lets the graph grow, or it takes a transition, or it takes a state. -/
theorem Tied.after_cases (h : g.Tied) (e : Edit κ) :
    ((e.after g).Tied ∧ g.Grows (e.after g)) ∨
    (∃ t tr, g.transition? t = some tr ∧ e.after g = g.restrict (.dropTransitions [t])) ∨
    (∃ s, e = .removeState s ∧ e.after g = g.restrict (g.outside s)) := by
  cases e with
  | addState d spec => exact .inl (Editor.growing_addState d spec g h)
  | addTransition d spec => exact .inl (Editor.growing_addTransition d spec g h)
  | attachSubmachine s name => exact .inl (Editor.growing_attachSubmachine s name g h)
  | setStart d s => exact .inl (Editor.growing_setMark .start d s g h)
  | setFinal d s => exact .inl (Editor.growing_setMark .final d s g h)
  | setFallback d a b => exact .inl (Editor.growing_setFallback d a b g h)
  | setStateBehavior s a b => exact .inl (Editor.growing_setStateBehavior s a b g h)
  | setGuard t b => exact .inl (Editor.growing_setGuard t b g h)
  | setEffect t b => exact .inl (Editor.growing_setEffect t b g h)
  | extend d b => exact .inl (Editor.growing_extend d b g h)
  | removeTransition t =>
    cases ht : g.transition? t with
    | none =>
      rw [Edit.after, Edit.apply, Editor.removeTransition_dead ht]
      exact .inl ⟨h, .refl g⟩
    | some tr =>
      refine .inr (.inl ⟨t, tr, ht, ?_⟩)
      rw [Edit.after, Edit.apply, Editor.removeTransition_eq h.listed ht]
      rfl
  | removeState s =>
    cases hs : g.state? s with
    | none =>
      rw [Edit.after, Edit.apply, Editor.removeState_dead hs]
      exact .inl ⟨h, .refl g⟩
    | some st =>
      refine .inr (.inr ⟨s, rfl, ?_⟩)
      rw [Edit.after, Edit.apply, Editor.removeState_eq h hs]
      rfl

theorem Tied.after (h : g.Tied) (e : Edit κ) : (e.after g).Tied := by
  rcases h.after_cases e with ⟨ht, -⟩ | ⟨t, tr, -, he⟩ | ⟨s, -, he⟩
  · exact ht
  · rw [he]
    exact h.restrict (closed_dropTransitions _)
  · rw [he]
    exact h.restrict (closed_outside h.nested)

theorem Tied.edited (h : g.Tied) (es : List (Edit κ)) : (g.edited es).Tied := by
  induction es generalizing g with
  | nil => exact h
  | cons e es ih => exact ih (h.after e)

/-- A transition that is gone for good, or whose owner is. -/
def Ownerless (g : Graph κ) (t : TransitionId) : Prop :=
  t.index < g.transitions.size ∧ ∀ tr, g.transition? t = some tr → g.definition? tr.owner = none

/-- No edit brings a transition or its owner back. -/
theorem Ownerless.after (hg : g.Tied) (h : g.Ownerless t)
    (e : Edit κ) : (e.after g).Ownerless t := by
  have hrestrict {k : Kept} : (g.restrict k).Ownerless t := by
    refine ⟨Nat.lt_of_lt_of_eq h.1 (Arena.size_restrict ..).symm, fun tr ht => ?_⟩
    rw [definition?_restrict, h.2 tr (of_transition?_restrict ht).2]
    split <;> rfl
  rcases hg.after_cases e with ⟨-, hgr⟩ | ⟨u, ur, -, he⟩ | ⟨s, -, he⟩
  · refine ⟨Nat.lt_of_lt_of_le h.1 hgr.transitions, fun tr ht => ?_⟩
    obtain ⟨tr₀, htr₀, ho⟩ := hgr.old h.1 ht
    exact hgr.dead (ho ▸ hg.placed.known htr₀) (ho ▸ h.2 tr₀ htr₀)
  · exact he ▸ hrestrict
  · exact he ▸ hrestrict

theorem Ownerless.edited (hg : g.Tied) (h : g.Ownerless t) (es : List (Edit κ)) :
    (g.edited es).Ownerless t := by
  induction es generalizing g with
  | nil => exact h
  | cons e es ih => exact ih (hg.after e) (h.after hg e)

/-- Removing the state leaves the transition without an owner. -/
theorem Orphaned.ownerless (hg : g.Tied) (h : g.Orphaned s t) :
    ((Edit.removeState s : Edit κ).after g).Ownerless t := by
  obtain ⟨tr, x, c, ht, hx, hc, hs, -⟩ := h
  obtain ⟨st, hst⟩ : ∃ st, g.state? s = some st := by
    obtain ⟨ct, hct, -⟩ := hg.nested.composite_live hx hc
    rcases Relation.ReflTransGen.cases_tail ((mem_ancestors hg.nested).mp hs) with rfl | ⟨q, -, hq⟩
    · exact ⟨ct, hct⟩
    · obtain ⟨qt, y, -, hy, hys⟩ := superstate_eq_some.mp hq
      obtain ⟨st, hst, -⟩ := hg.nested.composite_live hy hys
      exact ⟨st, hst⟩
  rw [Edit.after, Edit.apply, Editor.removeState_eq hg hst]
  show (g.restrict (g.outside s)).Ownerless t
  refine ⟨Nat.lt_of_lt_of_eq (transition?_lt ht) (Arena.size_restrict ..).symm, fun ur hur => ?_⟩
  have hur' := (of_transition?_restrict hur).2
  rw [ht] at hur'
  obtain rfl := Option.some.inj hur'
  rw [definition?_restrict, if_neg]
  rw [outside_definition hg.nested]
  intro hout
  exact hout x c hx hc ((mem_ancestors hg.nested).mp hs)

/-- A live transition whose owner is gone. -/
def Lost (g : Graph κ) (t : TransitionId) : Prop :=
  ∃ tr, g.transition? t = some tr ∧ g.definition? tr.owner = none

/-- A transition loses its owner only when a removal orphans it. -/
theorem Tied.lost_or_orphaned (hg : g.Tied) (h : (e.after g).Lost t) :
    g.Lost t ∨ ∃ s, e = .removeState s ∧ g.Orphaned s t := by
  obtain ⟨tr, ht, hd⟩ := h
  rcases hg.after_cases e with ⟨-, hgr⟩ | ⟨u, ur, -, he⟩ | ⟨s, rfl, he⟩
  · by_cases hlt : t.index < g.transitions.size
    · obtain ⟨tr₀, htr₀, ho⟩ := hgr.old hlt ht
      refine .inl ⟨tr₀, htr₀, ?_⟩
      cases hx : g.definition? tr₀.owner with
      | none => rfl
      | some x =>
        obtain ⟨y, hy⟩ := hgr.live hx
        rw [ho, hd] at hy
        cases hy
    · obtain ⟨y, hy⟩ := hgr.fresh (Nat.not_lt.mp hlt) ht
      rw [hd] at hy
      cases hy
  · rw [he] at ht hd
    refine .inl ⟨tr, (of_transition?_restrict ht).2, ?_⟩
    cases hx : g.definition? tr.owner with
    | none => rfl
    | some x =>
      rw [definition?_restrict_of rfl hx] at hd
      cases hd
  · rw [he] at ht hd
    obtain ⟨hkeep, ht'⟩ := of_transition?_restrict ht
    have hends := (outside_transition hg.nested).mp hkeep tr ht'
    cases hx : g.definition? tr.owner with
    | none => exact .inl ⟨tr, ht', hx⟩
    | some x =>
      have hdrop : ¬ (g.outside s).definition tr.owner = true := by
        intro hk
        rw [definition?_restrict_of hk hx] at hd
        cases hd
      rw [outside_definition hg.nested] at hdrop
      simp only [not_forall, not_not] at hdrop
      obtain ⟨y, c, hy, hc, hin⟩ := hdrop
      rw [hx] at hy
      obtain rfl := Option.some.inj hy
      refine .inr ⟨s, rfl, tr, x, c, ht', hx, hc, ?_⟩
      rw [mem_ancestors hg.nested, mem_ancestors hg.nested, mem_ancestors hg.nested]
      exact ⟨hin, hends.1, hends.2⟩

theorem Tied.lost_edited (hg : g.Tied) (hn : ∀ t, ¬ g.Lost t) (es : List (Edit κ))
    (h : (g.edited es).Lost t) :
    ∃ es₁ s es₂, es = es₁ ++ .removeState s :: es₂ ∧ (g.edited es₁).Orphaned s t := by
  induction es using List.reverseRecOn with
  | nil => exact absurd h (hn t)
  | append_singleton es e ih =>
    rw [edited_concat] at h
    rcases (hg.edited es).lost_or_orphaned h with h | ⟨s, rfl, ho⟩
    · obtain ⟨es₁, s, es₂, rfl, ho⟩ := ih h
      exact ⟨es₁, s, es₂ ++ [e], by simp, ho⟩
    · exact ⟨es, s, [], rfl, ho⟩

/-- The graph that a sequence of edits makes keeps every element under one live owner if and only if
each transition that some removal orphaned is gone by then. -/
theorem owned_iff_orphans_gone (name : String) (es : List (Edit κ)) :
    ((Graph.new name).edited es).Owned ↔ ∀ es₁ s es₂ t, es = es₁ ++ .removeState s :: es₂ →
      ((Graph.new name).edited es₁).Orphaned s t →
      ((Graph.new name).edited es).transition? t = none := by
  have hnew : (Graph.new name : Graph κ).Tied := tied_new name
  rw [(hnew.edited es).owned_iff]
  constructor
  · rintro hlive es₁ s es₂ t rfl ho
    have hsplit : (Graph.new name : Graph κ).edited (es₁ ++ .removeState s :: es₂) =
        ((Edit.removeState s).after ((Graph.new name).edited es₁)).edited es₂ := by
      rw [edited, List.foldl_append, List.foldl_cons]
      rfl
    have htied := hnew.edited es₁
    have hgone := (ho.ownerless htied).edited (htied.after _) es₂
    rw [← hsplit] at hgone
    cases ht : ((Graph.new name : Graph κ).edited (es₁ ++ .removeState s :: es₂)).transition? t with
    | none => rfl
    | some tr => exact absurd (hgone.2 tr ht) (hlive t tr ht)
  · intro hgone t tr ht hd
    have hfirst (t : TransitionId) : ¬ (Graph.new name : Graph κ).Lost t := by
      rintro ⟨tr, ht, -⟩
      cases ht
    obtain ⟨es₁, s, es₂, hes, ho⟩ := hnew.lost_edited hfirst es ⟨tr, ht, hd⟩
    rw [hgone es₁ s es₂ t hes ho] at ht
    cases ht

/-- A loop at the state b, in the definition nested in the state a, stays when a goes. -/
def orphaningEdits : List (Edit Unit) :=
  [.addState ⟨0⟩ { name := "a" }, .addState ⟨0⟩ { name := "b" }, .attachSubmachine ⟨0⟩ "inner",
    .addTransition ⟨1⟩ { name := "loop", source := ⟨1⟩, target := ⟨1⟩ }, .removeState ⟨0⟩]

theorem not_owned_orphaningEdits : ¬ ((Graph.new "g").edited orphaningEdits).Owned := by
  have hlive : (((Graph.new "g").edited orphaningEdits).transition? ⟨0⟩).any fun tr =>
      (((Graph.new "g").edited orphaningEdits).definition? tr.owner).isNone := by decide +kernel
  intro h
  cases ht : ((Graph.new "g").edited orphaningEdits).transition? ⟨0⟩ with
  | none =>
    rw [ht] at hlive
    cases hlive
  | some tr =>
    obtain ⟨x, hx, -⟩ := h.transition ht
    rw [ht, Option.any_some, hx] at hlive
    cases hlive

end Graph
end Statechart
