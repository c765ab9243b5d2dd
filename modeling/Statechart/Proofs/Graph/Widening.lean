import Statechart.Proofs.Graph.Editing
import Statechart.Proofs.Graph.Identification

/-!
# Graphs that widen

What is added to a graph by name leaves the elements that are there where they are, under the names
that they have. So names go on leading to what they led to.
-/

namespace Statechart.Graph

variable {κ : Type} {g g' g'' : Graph κ} {d e : DefinitionId} {s c : StateId} {x : Definition κ}
  {st : State κ} {name : String} {names : List String}

/-- The second graph has all that the first has. Of the definitions of the first only those of the
first kind have gained states, only those of the second kind transitions, and only in those of the
third kind has a state become composite. -/
structure Widens (S T N : DefinitionId → Prop) (g g' : Graph κ) : Prop where
  root : g'.root = g.root
  state : ∀ {s : StateId} {st : State κ}, g.state? s = some st → ∃ st', g'.state? s = some st' ∧
    st'.owner = st.owner ∧ st'.name = st.name ∧
    (st'.submachine = st.submachine ∨ st.submachine = none ∧ N st.owner)
  definition : ∀ {d : DefinitionId} {x : Definition κ}, g.definition? d = some x → ∃ x',
    g'.definition? d = some x' ∧
    x'.composite = x.composite ∧ (S d ∨ x'.states = x.states) ∧
    (T d ∨ x'.transitions = x.transitions)
  transition : ∀ {t : TransitionId} {tr : Transition κ}, g.transition? t = some tr →
    g'.transition? t = some tr

section
variable {S T N S' T' N' : DefinitionId → Prop}

namespace Widens

theorem refl (g : Graph κ) : Widens S T N g g where
  root := rfl
  state hst := ⟨_, hst, rfl, rfl, .inl rfl⟩
  definition hx := ⟨_, hx, rfl, .inr rfl, .inr rfl⟩
  transition := id

theorem trans (h : Widens S T N g g') (h' : Widens S T N g' g'') : Widens S T N g g'' where
  root := h'.root.trans h.root
  state hst := by
    obtain ⟨st', hst', howner, hname, hsub⟩ := h.state hst
    obtain ⟨st'', hst'', howner', hname', hsub'⟩ := h'.state hst'
    refine ⟨st'', hst'', howner'.trans howner, hname'.trans hname, ?_⟩
    rcases hsub' with heq' | ⟨hnone, hnests⟩
    · rw [heq']
      exact hsub
    · refine .inr ⟨?_, howner ▸ hnests⟩
      exact hsub.elim (fun heq => heq ▸ hnone) And.left
  definition hx := by
    obtain ⟨x', hx', hc, hstates, htransitions⟩ := h.definition hx
    obtain ⟨x'', hx'', hc', hstates', htransitions'⟩ := h'.definition hx'
    refine ⟨x'', hx'', hc'.trans hc, ?_, ?_⟩
    · rcases hstates with hgains | heq
      · exact .inl hgains
      · exact hstates'.imp_right fun heq' => heq'.trans heq
    · rcases htransitions with hgains | heq
      · exact .inl hgains
      · exact htransitions'.imp_right fun heq' => heq'.trans heq
  transition ht := h'.transition (h.transition ht)

/-- One widening after another. What the second does to definitions that the first graph has not
does not matter. -/
theorem comp (h : Widens S T N g g') (h' : Widens S' T' N' g' g'') (hg : g.Placed)
    (hS : ∀ d, (g.definition? d).isSome → S' d → S d)
    (hT : ∀ d, (g.definition? d).isSome → T' d → T d)
    (hN : ∀ d, (g.definition? d).isSome → N' d → N d) : Widens S T N g g'' where
  root := h'.root.trans h.root
  state {s st} hst := by
    obtain ⟨st', hst', howner, hname, hsub⟩ := h.state hst
    obtain ⟨st'', hst'', howner', hname', hsub'⟩ := h'.state hst'
    obtain ⟨x, hx⟩ := hg.owner hst
    refine ⟨st'', hst'', howner'.trans howner, hname'.trans hname, ?_⟩
    rcases hsub' with heq' | ⟨hnone, hnests⟩
    · rw [heq']
      exact hsub
    · refine .inr ⟨hsub.elim (fun heq => heq ▸ hnone) And.left, hN _ (by rw [hx]; rfl) ?_⟩
      rwa [← howner]
  definition {d x} hx := by
    obtain ⟨x', hx', hc, hstates, htransitions⟩ := h.definition hx
    obtain ⟨x'', hx'', hc', hstates', htransitions'⟩ := h'.definition hx'
    have hlive : (g.definition? d).isSome := by rw [hx]; rfl
    refine ⟨x'', hx'', hc'.trans hc, ?_, ?_⟩
    · rcases hstates' with hgains | heq'
      · exact .inl (hS d hlive hgains)
      · exact hstates.imp_right heq'.trans
    · rcases htransitions' with hgains | heq'
      · exact .inl (hT d hlive hgains)
      · exact htransitions.imp_right heq'.trans
  transition ht := h'.transition (h.transition ht)

/-- Only what is said of the definitions of the first graph matters. -/
theorem mono (h : Widens S T N g g') (hS : ∀ d, (g.definition? d).isSome → S d → S' d)
    (hT : ∀ d, (g.definition? d).isSome → T d → T' d)
    (hN : ∀ d, (g.definition? d).isSome → N d → N' d) (hg : g.Placed) : Widens S' T' N' g g' :=
  (refl g).comp h hg hS hT hN

/-- What a second widening does to a definition that the first graph has not does not matter. -/
theorem comp_new (h : Widens S T N g g') (h' : Widens (· = e) (· = e) (· = e) g' g'')
    (hg : g.Placed) (he : g.definition? e = none) : Widens S T N g g'' := by
  have hnone (d : DefinitionId) (hd : (g.definition? d).isSome) : d ≠ e := by
    rintro rfl
    rw [he] at hd
    cases hd
  exact h.comp h' hg (fun d hd heq => absurd heq (hnone d hd))
    (fun d hd heq => absurd heq (hnone d hd)) (fun d hd heq => absurd heq (hnone d hd))

theorem isSome_definition? (h : Widens S T N g g') (hd : (g.definition? d).isSome) :
    (g'.definition? d).isSome := by
  obtain ⟨x, hx⟩ := Option.isSome_iff_exists.mp hd
  obtain ⟨x', hx', -⟩ := h.definition hx
  rw [hx']
  rfl

end Widens

/-! ## Single edits -/

theorem SameTies.widens (h : SameTies g g')
    (ht : g'.transitions = g.transitions) : Widens S T N g g' where
  root := h.root
  state hst := by
    obtain ⟨st', hst', howner, hname, hsub⟩ := h.symm.state_of hst
    exact ⟨st', hst', howner, hname, .inl hsub⟩
  definition hx := by
    obtain ⟨x', hx', hstates, htransitions, hc⟩ := h.symm.definition_of hx
    exact ⟨x', hx', hc, .inr hstates, .inr htransitions⟩
  transition htr := by
    rw [transition?, ht]
    exact htr

theorem widens_insertState (hd : S d) (spec : StateSpec κ) :
    Widens S T N g (g.insertState d spec) where
  root := rfl
  state hst := ⟨_, state?_insertState_of hst, rfl, rfl, .inl rfl⟩
  definition {e x} hx := by
    by_cases he : e = d
    · have hx' := definition?_insertState (g := g) (d := d) (e := e) spec
      rw [hx, Option.map_some, if_pos he] at hx'
      exact ⟨_, hx', rfl, .inl (he ▸ hd), .inr rfl⟩
    · have hx' := definition?_insertState (g := g) (d := d) (e := e) spec
      rw [hx, Option.map_some, if_neg he] at hx'
      exact ⟨x, hx', rfl, .inr rfl, .inr rfl⟩
  transition := id

theorem widens_insertTransition (hd : T d) (spec : TransitionSpec κ) :
    Widens S T N g (g.insertTransition d spec) where
  root := rfl
  state {s st} hst := by
    have hst' := state?_insertTransition (g := g) (d := d) (s := s) spec
    rw [hst, Option.map_some] at hst'
    exact ⟨_, hst', rfl, rfl, .inl rfl⟩
  definition {e x} hx := by
    by_cases he : e = d
    · have hx' := definition?_insertTransition (g := g) (d := d) (e := e) spec
      rw [hx, Option.map_some, if_pos he] at hx'
      exact ⟨_, hx', rfl, .inr rfl, .inl (he ▸ hd)⟩
    · have hx' := definition?_insertTransition (g := g) (d := d) (e := e) spec
      rw [hx, Option.map_some, if_neg he] at hx'
      exact ⟨x, hx', rfl, .inr rfl, .inr rfl⟩
  transition {t tr} ht := by
    rw [transition?_insertTransition, if_neg, ht]
    rintro rfl
    cases transition?_nextTransition.symm.trans ht

theorem widens_insertSubmachine (hst : g.state? s = some st) (hnone : st.submachine = none)
    (howner : N st.owner) (name : String) : Widens S T N g (g.insertSubmachine s name) where
  root := rfl
  state {q qt} hqt := by
    obtain ⟨qt', hqt', howner', hname, -, hsub⟩ := state?_insertSubmachine_of s name hqt
    refine ⟨qt', hqt', howner', hname, ?_⟩
    by_cases hq : q = s
    · cases hst.symm.trans (hq ▸ hqt)
      exact .inr ⟨hnone, howner⟩
    · exact .inl (hsub.trans (if_neg hq))
  definition hx := ⟨_, definition?_insertSubmachine_of hx, rfl, .inr rfl, .inr rfl⟩
  transition := id

/-! ## Names -/

theorem descend_concat (g : Graph κ) (names : List String) (name : String) :
    g.descend (names ++ [name]) =
    (g.descend names).bind fun d => (g.stateNamed d name).bind g.nestedIn := by
  rw [descend, List.foldlM_append, ← descend]
  cases g.descend names with
  | none => rfl
  | some d =>
    show ((g.stateNamed d name).bind g.nestedIn).bind some = _
    exact Option.bind_fun_some _

theorem Widens.nestedIn (h : Widens S T N g g')
    (hs : g.nestedIn s = some e) : g'.nestedIn s = some e := by
  obtain ⟨st, hst, hsub⟩ := nestedIn_eq_some.mp hs
  obtain ⟨st', hst', -, -, hsub'⟩ := h.state hst
  refine nestedIn_eq_some.mpr ⟨st', hst', ?_⟩
  rcases hsub' with heq | ⟨hnone, -⟩
  · exact heq.trans hsub
  · cases hnone.symm.trans hsub

/-- Only in a definition of the third kind has a state become composite. -/
theorem Widens.nestedIn_eq_none (h : Widens S T N g g') (hst : g.state? s = some st)
    (hN : ¬ N st.owner) (hs : g.nestedIn s = none) : g'.nestedIn s = none := by
  obtain ⟨st', hst', -, -, hsub⟩ := h.state hst
  rw [Graph.nestedIn, hst, Option.bind_some] at hs
  rw [Graph.nestedIn, hst', Option.bind_some, hsub.resolve_right fun hnests => hN hnests.2, hs]

/-- A definition lies where it lay. -/
theorem Widens.superdefinition (h : Widens S T N g g') (hg : g.Nested)
    (hd : (g.definition? d).isSome) : g'.superdefinition d = g.superdefinition d := by
  obtain ⟨x, hx⟩ := Option.isSome_iff_exists.mp hd
  obtain ⟨x', hx', hcomposite, -⟩ := h.definition hx
  cases hc : x.composite with
  | none =>
    simp only [Graph.superdefinition, hx, hx', Option.bind_eq_bind, Option.bind_some, hcomposite,
      hc, Option.bind_none]
  | some c =>
    obtain ⟨ct, hct, -⟩ := hg.composite_live hx hc
    obtain ⟨ct', hct', howner, -⟩ := h.state hct
    simp only [Graph.superdefinition, hx, hx', Option.bind_eq_bind, Option.bind_some, hcomposite,
      hc, hct, hct', howner]

/-- A definition around another is live. -/
theorem Placed.live_of_superdefinition (hg : g.Placed) (he : g.superdefinition d = some e) :
    (g.definition? e).isSome := by
  obtain ⟨x, c, ct, -, -, hct, rfl⟩ := superdefinition_eq_some.mp he
  obtain ⟨y, hy⟩ := hg.owner hct
  rw [hy]
  rfl

theorem Placed.live_of_within (hg : g.Placed) (hd : (g.definition? d).isSome) (hw : g.Within d e) :
    (g.definition? e).isSome := by
  induction hw with
  | refl => exact hd
  | tail _ he _ => exact hg.live_of_superdefinition he

/-- Around a definition lie those that lay around it. -/
theorem Widens.within_of (h : Widens S T N g g') (hg : g.Tied) (hd : (g.definition? d).isSome)
    (hw : g'.Within d e) : g.Within d e := by
  induction hw using Relation.ReflTransGen.head_induction_on with
  | refl => exact .refl
  | head hnext _ ih =>
    rw [h.superdefinition hg.nested hd] at hnext
    exact .head hnext (ih (hg.placed.live_of_superdefinition hnext))

section
variable (h : Widens S T N g g') (hg : g.Tied) (hg' : g'.Tied)
include h hg hg'

theorem Widens.stateNamed_of (hs : g.stateNamed d name = some s) :
    g'.stateNamed d name = some s := by
  obtain ⟨st, hst, howner, hname⟩ := (stateNamed_eq_some hg).mp hs
  obtain ⟨st', hst', howner', hname', -⟩ := h.state hst
  exact (stateNamed_eq_some hg').mpr ⟨st', hst', howner'.trans howner, hname'.trans hname⟩

/-- A definition that has gained no states knows no more names. -/
theorem Widens.stateNamed_eq (hd : (g.definition? d).isSome) (hS : ¬ S d) (name : String) :
    g'.stateNamed d name = g.stateNamed d name := by
  refine Option.ext fun s => ⟨fun hs => ?_, h.stateNamed_of hg hg'⟩
  obtain ⟨st', hst', howner', hname'⟩ := (stateNamed_eq_some hg').mp hs
  obtain ⟨x, hx⟩ := Option.isSome_iff_exists.mp hd
  obtain ⟨x', hx', -, hstates, -⟩ := h.definition hx
  have hmem : s ∈ x'.states := hg'.listed.state_mem (howner'.symm ▸ hx') hst'
  rw [hstates.resolve_left hS] at hmem
  obtain ⟨st, hst, howner⟩ := hg.listed.state_live hx hmem
  obtain ⟨st₁, hst₁, -, hname, -⟩ := h.state hst
  cases hst'.symm.trans hst₁
  exact (stateNamed_eq_some hg).mpr ⟨st, hst, howner, hname.symm.trans hname'⟩

theorem Widens.descend (hd : g.descend names = some d) : g'.descend names = some d := by
  induction names using List.reverseRecOn generalizing d with
  | nil =>
    rw [Graph.descend, h.root]
    exact hd
  | append_singleton names name ih =>
    rw [descend_concat] at hd ⊢
    obtain ⟨outer, houter, hinner⟩ := Option.bind_eq_some_iff.mp hd
    obtain ⟨s, hs, hnested⟩ := Option.bind_eq_some_iff.mp hinner
    rw [ih houter, Option.bind_some, h.stateNamed_of hg hg' hs, Option.bind_some,
      h.nestedIn hnested]

theorem Widens.namesAround (hd : (g.definition? d).isSome) :
    g'.namesAround d = g.namesAround d := by
  obtain ⟨x, hx⟩ := Option.isSome_iff_exists.mp hd
  exact namesAround_of_descend hg' (h.descend hg hg' (descend_namesAround hg hx))

end

end

/-- No two definitions lie within the same names. -/
theorem Tied.namesAround_inj (hg : g.Tied) (hd : (g.definition? d).isSome)
    (he : (g.definition? e).isSome) (heq : g.namesAround d = g.namesAround e) : d = e := by
  obtain ⟨x, hx⟩ := Option.isSome_iff_exists.mp hd
  obtain ⟨y, hy⟩ := Option.isSome_iff_exists.mp he
  have hleads := descend_namesAround hg hx
  rw [heq, descend_namesAround hg hy] at hleads
  exact (Option.some.inj hleads).symm

end Statechart.Graph
