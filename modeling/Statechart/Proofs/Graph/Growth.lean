import Statechart.Proofs.Graph.Neighbours

/-!
# Growing a graph

New states, transitions and nested definitions keep the ties of a graph. A new state needs a live
owner and a fresh name; a new transition also needs its ends in scope.
-/

namespace Statechart.Graph

variable {κ : Type} {g g' : Graph κ} {d e f : DefinitionId} {s s' : StateId} {t : TransitionId}
  {x y : Definition κ} {st st' : State κ} {tr : Transition κ}

theorem Within.mono (h : ∀ {d e}, g.superdefinition d = some e → g'.superdefinition d = some e)
    (hw : g.Within d e) : g'.Within d e :=
  Relation.ReflTransGen.mono (fun _ _ hd => h hd) _ _ hw

theorem ne_nextState (h : g.state? s = some st) : s ≠ g.nextState := by
  rintro rfl
  rw [state?_nextState] at h
  cases h

theorem ne_nextDefinition (h : g.definition? d = some x) : d ≠ g.nextDefinition := by
  rintro rfl
  rw [definition?_nextDefinition] at h
  cases h

/-! ## New states -/

section
variable {spec : StateSpec κ}

theorem state?_insertState_of (h : g.state? s = some st) :
    (g.insertState d spec).state? s = some st := by
  rw [state?_insertState, if_neg (ne_nextState h), h]

theorem definition?_insertState_of (h : g.definition? e = some x) :
    ∃ y, (g.insertState d spec).definition? e = some y ∧ y.composite = x.composite ∧
      ∀ m, y.marked m = x.marked m := by
  rw [definition?_insertState, h]
  refine ⟨_, rfl, ?_, fun m => ?_⟩
  · split <;> rfl
  · cases m <;> split <;> rfl

theorem of_definition?_insertState (h : (g.insertState d spec).definition? e = some y) :
    ∃ x, g.definition? e = some x ∧ y.composite = x.composite ∧ ∀ m, y.marked m = x.marked m := by
  rw [definition?_insertState] at h
  obtain ⟨x, hx, rfl⟩ := Option.map_eq_some_iff.mp h
  refine ⟨x, hx, ?_, fun m => ?_⟩
  · split <;> rfl
  · cases m <;> split <;> rfl

theorem superdefinition_insertState (h : g.superdefinition e = some f) :
    (g.insertState d spec).superdefinition e = some f := by
  obtain ⟨x, s, st, hx, hs, hst, rfl⟩ := superdefinition_eq_some.mp h
  obtain ⟨y, hy, hc, -⟩ := definition?_insertState_of hx
  exact superdefinition_eq_some.mpr ⟨y, s, st, hy, hc.trans hs, state?_insertState_of hst, rfl⟩

theorem Listed.insertState (h : g.Listed) (hp : g.Placed) : (g.insertState d spec).Listed := by
  have hso : (g.insertState d spec).stateOwner? =
      fun s => if s = g.nextState then some d else g.stateOwner? s := by
    funext s
    simp only [stateOwner?, state?_insertState]
    split <;> rfl
  have hsl : (g.insertState d spec).statesOf? =
      fun e => (g.statesOf? e).map fun l => if e = d then l ++ [g.nextState] else l := by
    funext e
    simp only [statesOf?, definition?_insertState, Option.map_map]
    congr 1
    funext x
    simp only [Function.comp]
    split <;> rfl
  have htl : (g.insertState d spec).transitionsOf? = g.transitionsOf? := by
    funext e
    simp only [transitionsOf?, definition?_insertState, Option.map_map]
    congr 1
    funext x
    simp only [Function.comp]
    split <;> rfl
  have hout : (g.insertState d spec).outgoing? =
      fun s => if s = g.nextState then some [] else g.outgoing? s := by
    funext s
    simp only [outgoing?, state?_insertState]
    split <;> rfl
  have hin : (g.insertState d spec).incoming? =
      fun s => if s = g.nextState then some [] else g.incoming? s := by
    funext s
    simp only [incoming?, state?_insertState]
    split <;> rfl
  constructor
  · rw [hso, hsl]
    refine h.states.insert ?_ d
    simp only [stateOwner?, state?_nextState, Option.map_none]
  · rw [htl]
    exact h.transitions
  · rw [hout]
    refine h.outgoing.open_list fun t ht => ?_
    obtain ⟨tr, htr, hs⟩ := Option.map_eq_some_iff.mp ht
    obtain ⟨st, hst⟩ := hp.source htr
    exact ne_nextState hst hs
  · rw [hin]
    refine h.incoming.open_list fun t ht => ?_
    obtain ⟨tr, htr, hs⟩ := Option.map_eq_some_iff.mp ht
    obtain ⟨st, hst⟩ := hp.target htr
    exact ne_nextState hst hs

theorem Placed.insertState (h : g.Placed) (hd : g.definition? d = some x) :
    (g.insertState d spec).Placed := by
  constructor
  · intro s st hs
    rw [state?_insertState] at hs
    split at hs
    · obtain rfl := Option.some.inj hs
      obtain ⟨y, hy, -⟩ := definition?_insertState_of hd
      exact ⟨y, hy⟩
    · obtain ⟨z, hz⟩ := h.owner hs
      obtain ⟨y, hy, -⟩ := definition?_insertState_of hz
      exact ⟨y, hy⟩
  · intro t tr ht
    obtain ⟨st, hst⟩ := h.source ht
    exact ⟨st, state?_insertState_of hst⟩
  · intro t tr ht
    obtain ⟨st, hst⟩ := h.target ht
    exact ⟨st, state?_insertState_of hst⟩
  · intro t tr ht
    rw [show (g.insertState d spec).definitions.size = g.definitions.size from Arena.size_modify ..]
    exact h.known ht

theorem NamesUnique.insertState (h : g.NamesUnique)
    (hname : ∀ s st, g.state? s = some st → st.owner = d → st.name ≠ spec.name) :
    (g.insertState d spec).NamesUnique := by
  refine ⟨?_, h.transition⟩
  intro s s' st st' hs hs' ho hn
  rw [state?_insertState] at hs hs'
  split at hs <;> split at hs'
  · rename_i h₁ h₂
    rw [h₁, h₂]
  · obtain rfl := Option.some.inj hs
    exact absurd hn.symm (hname s' st' hs' ho.symm)
  · obtain rfl := Option.some.inj hs'
    exact absurd hn (hname s st hs ho)
  · exact h.state hs hs' ho hn

theorem Nested.insertState (h : g.Nested) : (g.insertState d spec).Nested := by
  constructor
  · obtain ⟨x, hx, hc⟩ := h.root
    obtain ⟨y, hy, hyc, -⟩ := definition?_insertState_of hx
    exact ⟨y, hy, hyc.trans hc⟩
  · intro e y hy hr
    obtain ⟨x, hx, hc, -⟩ := of_definition?_insertState hy
    obtain ⟨s, st, hs, hst, hsub⟩ := h.enclosed hx hr
    exact ⟨s, st, hc.trans hs, state?_insertState_of hst, hsub⟩
  · intro s st e hs hsub
    rw [state?_insertState] at hs
    split at hs
    · obtain rfl := Option.some.inj hs
      cases hsub
    · obtain ⟨x, hx, hc, hlt⟩ := h.nested hs hsub
      obtain ⟨y, hy, hyc, -⟩ := definition?_insertState_of hx
      exact ⟨y, hy, hyc.trans hc, hlt⟩
  · intro s c st y hs hy hc
    obtain ⟨x, hx, hxc, -⟩ := of_definition?_insertState hy
    rw [hxc] at hc
    rw [state?_insertState] at hs
    split at hs
    · rename_i hnew
      obtain ⟨st', hst', -⟩ := h.composite_live hx hc
      rw [hnew]
      exact state?_lt hst'
    · exact h.deeper hs hx hc

theorem Scoped.insertState (h : g.Scoped) (hp : g.Placed) : (g.insertState d spec).Scoped := by
  constructor
  · intro t tr y st ht hy hs
    obtain ⟨x, hx, -⟩ := of_definition?_insertState hy
    obtain ⟨st', hst'⟩ := hp.source ht
    rw [state?_insertState_of hst'] at hs
    obtain rfl := Option.some.inj hs
    exact (h.source ht hx hst').mono superdefinition_insertState
  · intro t tr y st ht hy hs
    obtain ⟨x, hx, -⟩ := of_definition?_insertState hy
    obtain ⟨st', hst'⟩ := hp.target ht
    rw [state?_insertState_of hst'] at hs
    obtain rfl := Option.some.inj hs
    exact (h.target ht hx hst').mono superdefinition_insertState

theorem Marked.insertState (h : g.Marked) : (g.insertState d spec).Marked := by
  constructor
  · intro e y m s hy hm
    obtain ⟨x, hx, -, hxm⟩ := of_definition?_insertState hy
    obtain ⟨st, hst, ho, hk⟩ := h.marked hx ((hxm m).symm.trans hm)
    exact ⟨st, state?_insertState_of hst, ho, hk⟩
  · intro s st m hs hk
    rw [state?_insertState] at hs
    split at hs
    · obtain rfl := Option.some.inj hs
      cases m <;> cases hk
    · obtain ⟨x, hx, hm⟩ := h.kind hs hk
      obtain ⟨y, hy, -, hym⟩ := definition?_insertState_of hx
      exact ⟨y, hy, (hym m).trans hm⟩

theorem Tied.insertState (h : g.Tied) (hd : g.definition? d = some x)
    (hname : ∀ s st, g.state? s = some st → st.owner = d → st.name ≠ spec.name) :
    (g.insertState d spec).Tied :=
  ⟨h.listed.insertState h.placed, h.placed.insertState hd, h.names.insertState hname,
    h.nested.insertState, h.scope.insertState h.placed, h.marked.insertState,
    h.current.insertState spec⟩

end

/-! ## New transitions -/

section
variable {spec : TransitionSpec κ}

theorem definition?_insertTransition_of (h : g.definition? e = some x) :
    ∃ y, (g.insertTransition d spec).definition? e = some y ∧ y.composite = x.composite ∧
      ∀ m, y.marked m = x.marked m := by
  rw [definition?_insertTransition, h]
  refine ⟨_, rfl, ?_, fun m => ?_⟩
  · split <;> rfl
  · cases m <;> split <;> rfl

theorem of_definition?_insertTransition (h : (g.insertTransition d spec).definition? e = some y) :
    ∃ x, g.definition? e = some x ∧ y.composite = x.composite ∧ ∀ m, y.marked m = x.marked m := by
  rw [definition?_insertTransition] at h
  obtain ⟨x, hx, rfl⟩ := Option.map_eq_some_iff.mp h
  refine ⟨x, hx, ?_, fun m => ?_⟩
  · split <;> rfl
  · cases m <;> split <;> rfl

theorem state?_insertTransition_of (h : g.state? s = some st) :
    ∃ st', (g.insertTransition d spec).state? s = some st' ∧ st'.owner = st.owner ∧
      st'.name = st.name ∧ st'.submachine = st.submachine ∧ st'.kind = st.kind := by
  rw [state?_insertTransition, h]
  exact ⟨_, rfl, rfl, rfl, rfl, rfl⟩

theorem of_state?_insertTransition (h : (g.insertTransition d spec).state? s = some st') :
    ∃ st, g.state? s = some st ∧ st'.owner = st.owner ∧ st'.name = st.name ∧
      st'.submachine = st.submachine ∧ st'.kind = st.kind := by
  rw [state?_insertTransition] at h
  obtain ⟨st, hst, rfl⟩ := Option.map_eq_some_iff.mp h
  exact ⟨st, hst, rfl, rfl, rfl, rfl⟩

theorem superdefinition_insertTransition (h : g.superdefinition e = some f) :
    (g.insertTransition d spec).superdefinition e = some f := by
  obtain ⟨x, s, st, hx, hs, hst, rfl⟩ := superdefinition_eq_some.mp h
  obtain ⟨y, hy, hc, -⟩ := definition?_insertTransition_of hx
  obtain ⟨st', hst', ho, -⟩ := state?_insertTransition_of hst
  exact superdefinition_eq_some.mpr ⟨y, s, st', hy, hc.trans hs, hst', ho⟩

theorem Listed.insertTransition (h : g.Listed) : (g.insertTransition d spec).Listed := by
  have hso : (g.insertTransition d spec).stateOwner? = g.stateOwner? := by
    funext s
    simp only [stateOwner?, state?_insertTransition, Option.map_map]
    rfl
  have hsl : (g.insertTransition d spec).statesOf? = g.statesOf? := by
    funext e
    simp only [statesOf?, definition?_insertTransition, Option.map_map]
    congr 1
    funext x
    simp only [Function.comp]
    split <;> rfl
  have hto : (g.insertTransition d spec).transitionOwner? =
      fun t => if t = g.nextTransition then some d else g.transitionOwner? t := by
    funext t
    simp only [transitionOwner?, transition?_insertTransition]
    split <;> rfl
  have htl : (g.insertTransition d spec).transitionsOf? =
      fun e => (g.transitionsOf? e).map fun l => if e = d then l ++ [g.nextTransition] else l := by
    funext e
    simp only [transitionsOf?, definition?_insertTransition, Option.map_map]
    congr 1
    funext x
    simp only [Function.comp]
    split <;> rfl
  have hsrc : (g.insertTransition d spec).source? =
      fun t => if t = g.nextTransition then some spec.source else g.source? t := by
    funext t
    simp only [source?, transition?_insertTransition]
    split <;> rfl
  have hout : (g.insertTransition d spec).outgoing? = fun s => (g.outgoing? s).map fun l =>
      if s = spec.source then l ++ [g.nextTransition] else l := by
    funext s
    simp only [outgoing?, state?_insertTransition, Option.map_map]
    rfl
  have htgt : (g.insertTransition d spec).target? =
      fun t => if t = g.nextTransition then some spec.target else g.target? t := by
    funext t
    simp only [target?, transition?_insertTransition]
    split <;> rfl
  have hin : (g.insertTransition d spec).incoming? = fun s => (g.incoming? s).map fun l =>
      if s = spec.target then l ++ [g.nextTransition] else l := by
    funext s
    simp only [incoming?, state?_insertTransition, Option.map_map]
    rfl
  constructor
  · rw [hso, hsl]
    exact h.states
  · rw [hto, htl]
    refine h.transitions.insert ?_ d
    simp only [transitionOwner?, transition?_nextTransition, Option.map_none]
  · rw [hsrc, hout]
    exact h.outgoing.insert (by simp only [source?, transition?_nextTransition, Option.map_none]) _
  · rw [htgt, hin]
    exact h.incoming.insert (by simp only [target?, transition?_nextTransition, Option.map_none]) _

theorem Placed.insertTransition (h : g.Placed) (hd : g.definition? d = some x)
    (hs : g.state? spec.source = some st) (ht : g.state? spec.target = some st') :
    (g.insertTransition d spec).Placed := by
  have hlive {s : StateId} {st : State κ} (h : g.state? s = some st) :
      ∃ st', (g.insertTransition d spec).state? s = some st' := by
    obtain ⟨st', hst', -⟩ := state?_insertTransition_of h
    exact ⟨st', hst'⟩
  constructor
  · intro s st hs
    obtain ⟨st₀, hst₀, ho, -⟩ := of_state?_insertTransition hs
    obtain ⟨z, hz⟩ := h.owner hst₀
    obtain ⟨y, hy, -⟩ := definition?_insertTransition_of hz
    exact ⟨y, ho ▸ hy⟩
  · intro t tr htr
    rw [transition?_insertTransition] at htr
    split at htr
    · obtain rfl := Option.some.inj htr
      exact hlive hs
    · obtain ⟨st, hst⟩ := h.source htr
      exact hlive hst
  · intro t tr htr
    rw [transition?_insertTransition] at htr
    split at htr
    · obtain rfl := Option.some.inj htr
      exact hlive ht
    · obtain ⟨st, hst⟩ := h.target htr
      exact hlive hst
  · intro t tr htr
    rw [show (g.insertTransition d spec).definitions.size = g.definitions.size from
      Arena.size_modify ..]
    rw [transition?_insertTransition] at htr
    split at htr
    · obtain rfl := Option.some.inj htr
      exact definition?_lt hd
    · exact h.known htr

theorem NamesUnique.insertTransition (h : g.NamesUnique)
    (hname : ∀ t tr, g.transition? t = some tr → tr.owner = d → tr.name ≠ spec.name) :
    (g.insertTransition d spec).NamesUnique := by
  constructor
  · intro s s' st st' hs hs' ho hn
    obtain ⟨q, hq, hqo, hqn, -⟩ := of_state?_insertTransition hs
    obtain ⟨q', hq', hqo', hqn', -⟩ := of_state?_insertTransition hs'
    exact h.state hq hq' (by rw [← hqo, ← hqo', ho]) (by rw [← hqn, ← hqn', hn])
  · intro t u tr ur ht hu ho hn
    rw [transition?_insertTransition] at ht hu
    split at ht <;> split at hu
    · rename_i h₁ h₂
      rw [h₁, h₂]
    · obtain rfl := Option.some.inj ht
      exact absurd hn.symm (hname u ur hu ho.symm)
    · obtain rfl := Option.some.inj hu
      exact absurd hn (hname t tr ht ho)
    · exact h.transition ht hu ho hn

theorem Nested.insertTransition (h : g.Nested) : (g.insertTransition d spec).Nested := by
  constructor
  · obtain ⟨x, hx, hc⟩ := h.root
    obtain ⟨y, hy, hyc, -⟩ := definition?_insertTransition_of hx
    exact ⟨y, hy, hyc.trans hc⟩
  · intro e y hy hr
    obtain ⟨x, hx, hc, -⟩ := of_definition?_insertTransition hy
    obtain ⟨s, st, hs, hst, hsub⟩ := h.enclosed hx hr
    obtain ⟨st', hst', -, -, hsub', -⟩ := state?_insertTransition_of hst
    exact ⟨s, st', hc.trans hs, hst', hsub'.trans hsub⟩
  · intro s st' e hs hsub
    obtain ⟨st, hst, ho, -, hsub', -⟩ := of_state?_insertTransition hs
    obtain ⟨x, hx, hc, hlt⟩ := h.nested hst (hsub'.symm.trans hsub)
    obtain ⟨y, hy, hyc, -⟩ := definition?_insertTransition_of hx
    exact ⟨y, hy, hyc.trans hc, ho ▸ hlt⟩
  · intro s c st' y hs hy hc
    obtain ⟨st, hst, ho, -⟩ := of_state?_insertTransition hs
    obtain ⟨x, hx, hxc, -⟩ := of_definition?_insertTransition hy
    exact h.deeper hst (ho ▸ hx) (hxc.symm.trans hc)

theorem Scoped.insertTransition (h : g.Scoped)
    (hs : ∀ st, g.state? spec.source = some st → g.Within d st.owner)
    (ht : ∀ st, g.state? spec.target = some st → g.Within d st.owner) :
    (g.insertTransition d spec).Scoped := by
  constructor
  · intro t tr y st' htr hy hst'
    obtain ⟨x, hx, -⟩ := of_definition?_insertTransition hy
    obtain ⟨st, hst, ho, -⟩ := of_state?_insertTransition hst'
    rw [ho]
    refine Within.mono superdefinition_insertTransition ?_
    rw [transition?_insertTransition] at htr
    split at htr
    · obtain rfl := Option.some.inj htr
      exact hs st hst
    · exact h.source htr hx hst
  · intro t tr y st' htr hy hst'
    obtain ⟨x, hx, -⟩ := of_definition?_insertTransition hy
    obtain ⟨st, hst, ho, -⟩ := of_state?_insertTransition hst'
    rw [ho]
    refine Within.mono superdefinition_insertTransition ?_
    rw [transition?_insertTransition] at htr
    split at htr
    · obtain rfl := Option.some.inj htr
      exact ht st hst
    · exact h.target htr hx hst

theorem Marked.insertTransition (h : g.Marked) : (g.insertTransition d spec).Marked := by
  constructor
  · intro e y m s hy hm
    obtain ⟨x, hx, -, hxm⟩ := of_definition?_insertTransition hy
    obtain ⟨st, hst, ho, hk⟩ := h.marked hx ((hxm m).symm.trans hm)
    obtain ⟨st', hst', ho', -, -, hk'⟩ := state?_insertTransition_of hst
    exact ⟨st', hst', ho'.trans ho, hk'.trans hk⟩
  · intro s st' m hs hk
    obtain ⟨st, hst, ho, -, -, hk'⟩ := of_state?_insertTransition hs
    obtain ⟨x, hx, hm⟩ := h.kind hst (hk'.symm.trans hk)
    obtain ⟨y, hy, -, hym⟩ := definition?_insertTransition_of hx
    exact ⟨y, ho ▸ hy, (hym m).trans hm⟩

theorem Tied.insertTransition (h : g.Tied) (hd : g.definition? d = some x)
    (hname : ∀ t tr, g.transition? t = some tr → tr.owner = d → tr.name ≠ spec.name)
    (hs : g.state? spec.source = some st) (hsw : g.Within d st.owner)
    (ht : g.state? spec.target = some st') (htw : g.Within d st'.owner) :
    (g.insertTransition d spec).Tied := by
  refine ⟨h.listed.insertTransition, h.placed.insertTransition hd hs ht,
    h.names.insertTransition hname,
    h.nested.insertTransition, h.scope.insertTransition ?_ ?_, h.marked.insertTransition,
    h.current.insertTransition h.listed spec⟩
  · intro q hq
    rw [hs] at hq
    rw [← Option.some.inj hq]
    exact hsw
  · intro q hq
    rw [ht] at hq
    rw [← Option.some.inj hq]
    exact htw

end

/-! ## New nested definitions -/

section
variable {name : String}

theorem definition?_insertSubmachine_of (h : g.definition? e = some x) :
    (g.insertSubmachine s name).definition? e = some x := by
  rw [definition?_insertSubmachine, if_neg (ne_nextDefinition h), h]

theorem state?_insertSubmachine_of (s : StateId) (name : String) (h : g.state? s' = some st) :
    ∃ st', (g.insertSubmachine s name).state? s' = some st' ∧ st'.owner = st.owner ∧
      st'.name = st.name ∧ st'.kind = st.kind ∧
      st'.submachine = if s' = s then some g.nextDefinition else st.submachine := by
  rw [state?_insertSubmachine, h]
  refine ⟨_, rfl, ?_⟩
  split <;> exact ⟨rfl, rfl, rfl, rfl⟩

theorem of_state?_insertSubmachine (h : (g.insertSubmachine s name).state? s' = some st') :
    ∃ st, g.state? s' = some st ∧ st'.owner = st.owner ∧ st'.name = st.name ∧ st'.kind = st.kind ∧
      st'.submachine = if s' = s then some g.nextDefinition else st.submachine := by
  rw [state?_insertSubmachine] at h
  obtain ⟨st, hst, rfl⟩ := Option.map_eq_some_iff.mp h
  refine ⟨st, hst, ?_⟩
  split <;> exact ⟨rfl, rfl, rfl, rfl⟩

theorem superdefinition_insertSubmachine (h : g.superdefinition e = some f) :
    (g.insertSubmachine s name).superdefinition e = some f := by
  obtain ⟨x, c, st, hx, hc, hst, rfl⟩ := superdefinition_eq_some.mp h
  obtain ⟨st', hst', ho, -⟩ := state?_insertSubmachine_of s name hst
  exact superdefinition_eq_some.mpr ⟨x, c, st', definition?_insertSubmachine_of hx, hc, hst', ho⟩

theorem Listed.insertSubmachine (h : g.Listed) (hp : g.Placed) :
    (g.insertSubmachine s name).Listed := by
  have hview {γ : Type} (p : State κ → γ)
      (hf : ∀ st : State κ, p { st with submachine := some g.nextDefinition } = p st) :
      (fun q => ((g.insertSubmachine s name).state? q).map p) = fun q => (g.state? q).map p := by
    funext q
    simp only [state?_insertSubmachine, Option.map_map]
    congr 1
    funext st
    simp only [Function.comp]
    split
    · exact hf st
    · rfl
  have hso : (g.insertSubmachine s name).stateOwner? = g.stateOwner? := hview (·.owner) fun _ => rfl
  have hout : (g.insertSubmachine s name).outgoing? = g.outgoing? := hview (·.outgoing) fun _ => rfl
  have hin : (g.insertSubmachine s name).incoming? = g.incoming? := hview (·.incoming) fun _ => rfl
  have hsl : (g.insertSubmachine s name).statesOf? =
      fun e => if e = g.nextDefinition then some [] else g.statesOf? e := by
    funext e
    simp only [statesOf?, definition?_insertSubmachine]
    split <;> rfl
  have htl : (g.insertSubmachine s name).transitionsOf? =
      fun e => if e = g.nextDefinition then some [] else g.transitionsOf? e := by
    funext e
    simp only [transitionsOf?, definition?_insertSubmachine]
    split <;> rfl
  constructor
  · rw [hso, hsl]
    refine h.states.open_list fun s hs => ?_
    obtain ⟨st, hst, ho⟩ := Option.map_eq_some_iff.mp hs
    obtain ⟨x, hx⟩ := hp.owner hst
    exact ne_nextDefinition hx ho
  · rw [htl]
    refine h.transitions.open_list fun t ht => ?_
    obtain ⟨tr, htr, ho⟩ := Option.map_eq_some_iff.mp ht
    have hlt := hp.known htr
    rw [ho] at hlt
    exact Nat.lt_irrefl _ hlt
  · rw [hout]
    exact h.outgoing
  · rw [hin]
    exact h.incoming

theorem Placed.insertSubmachine (h : g.Placed) : (g.insertSubmachine s name).Placed := by
  constructor
  · intro q st' hq
    obtain ⟨st, hst, ho, -⟩ := of_state?_insertSubmachine hq
    obtain ⟨x, hx⟩ := h.owner hst
    exact ⟨x, ho ▸ definition?_insertSubmachine_of hx⟩
  · intro t tr ht
    obtain ⟨st, hst⟩ := h.source ht
    obtain ⟨st', hst', -⟩ := state?_insertSubmachine_of s name hst
    exact ⟨st', hst'⟩
  · intro t tr ht
    obtain ⟨st, hst⟩ := h.target ht
    obtain ⟨st', hst', -⟩ := state?_insertSubmachine_of s name hst
    exact ⟨st', hst'⟩
  · intro t tr ht
    have hsize : (g.insertSubmachine s name).definitions.size = g.definitions.size + 1 :=
      Arena.size_push ..
    have hlt := h.known ht
    omega

theorem NamesUnique.insertSubmachine (h : g.NamesUnique) :
    (g.insertSubmachine s name).NamesUnique := by
  refine ⟨?_, h.transition⟩
  intro q q' st st' hq hq' ho hn
  obtain ⟨p, hp, hpo, hpn, -⟩ := of_state?_insertSubmachine hq
  obtain ⟨p', hp', hpo', hpn', -⟩ := of_state?_insertSubmachine hq'
  exact h.state hp hp' (by rw [← hpo, ← hpo', ho]) (by rw [← hpn, ← hpn', hn])

theorem Nested.insertSubmachine (h : g.Nested) (hp : g.Placed) (hs : g.state? s = some st)
    (hnone : st.submachine = none) : (g.insertSubmachine s name).Nested := by
  constructor
  · obtain ⟨x, hx, hc⟩ := h.root
    exact ⟨x, definition?_insertSubmachine_of hx, hc⟩
  · intro e y hy hr
    rw [definition?_insertSubmachine] at hy
    split at hy
    · rename_i he
      obtain rfl := Option.some.inj hy
      obtain ⟨st', hst', -, -, -, hsub⟩ := state?_insertSubmachine_of s name hs
      rw [if_pos rfl, ← he] at hsub
      exact ⟨s, st', rfl, hst', hsub⟩
    · obtain ⟨c, st₀, hc, hst₀, hsub₀⟩ := h.enclosed hy hr
      obtain ⟨st', hst', -, -, -, hsub⟩ := state?_insertSubmachine_of s name hst₀
      have hne : c ≠ s := by
        rintro rfl
        rw [hs] at hst₀
        obtain rfl := Option.some.inj hst₀
        rw [hnone] at hsub₀
        cases hsub₀
      rw [if_neg hne] at hsub
      exact ⟨c, st', hc, hst', hsub.trans hsub₀⟩
  · intro q st' e hq he
    obtain ⟨st₀, hst₀, ho, -, -, hsub⟩ := of_state?_insertSubmachine hq
    rw [he] at hsub
    split at hsub
    · rename_i hqs
      obtain rfl := Option.some.inj hsub
      rw [definition?_insertSubmachine, if_pos rfl]
      obtain ⟨x, hx⟩ := hp.owner hst₀
      exact ⟨_, rfl, congrArg some hqs.symm, ho ▸ definition?_lt hx⟩
    · obtain ⟨x, hx, hc, hlt⟩ := h.nested hst₀ hsub.symm
      exact ⟨x, definition?_insertSubmachine_of hx, hc, ho ▸ hlt⟩
  · intro q c st' y hq hy hc
    obtain ⟨st₀, hst₀, ho, -⟩ := of_state?_insertSubmachine hq
    obtain ⟨x, hx⟩ := hp.owner hst₀
    rw [ho, definition?_insertSubmachine_of hx] at hy
    obtain rfl := Option.some.inj hy
    exact h.deeper hst₀ hx hc

theorem Scoped.insertSubmachine (h : g.Scoped) (hp : g.Placed) :
    (g.insertSubmachine s name).Scoped := by
  have hold {t : TransitionId} {tr : Transition κ} {y : Definition κ}
      (ht : g.transition? t = some tr)
      (hy : (g.insertSubmachine s name).definition? tr.owner = some y) :
      g.definition? tr.owner = some y := by
    have hlt := hp.known ht
    have hne : tr.owner ≠ g.nextDefinition := fun he => Nat.lt_irrefl _ (he ▸ hlt)
    rwa [definition?_insertSubmachine, if_neg hne] at hy
  constructor
  · intro t tr y st' ht hy hs
    obtain ⟨st, hst, ho, -⟩ := of_state?_insertSubmachine hs
    rw [ho]
    exact (h.source ht (hold ht hy) hst).mono superdefinition_insertSubmachine
  · intro t tr y st' ht hy hs
    obtain ⟨st, hst, ho, -⟩ := of_state?_insertSubmachine hs
    rw [ho]
    exact (h.target ht (hold ht hy) hst).mono superdefinition_insertSubmachine

theorem Marked.insertSubmachine (h : g.Marked) : (g.insertSubmachine s name).Marked := by
  constructor
  · intro e y m q hy hm
    rw [definition?_insertSubmachine] at hy
    split at hy
    · obtain rfl := Option.some.inj hy
      cases m <;> cases hm
    · obtain ⟨st, hst, ho, hk⟩ := h.marked hy hm
      obtain ⟨st', hst', ho', -, hk', -⟩ := state?_insertSubmachine_of s name hst
      exact ⟨st', hst', ho'.trans ho, hk'.trans hk⟩
  · intro q st' m hq hk
    obtain ⟨st, hst, ho, -, hk', -⟩ := of_state?_insertSubmachine hq
    obtain ⟨x, hx, hm⟩ := h.kind hst (hk'.symm.trans hk)
    exact ⟨x, ho ▸ definition?_insertSubmachine_of hx, hm⟩

theorem Tied.insertSubmachine (h : g.Tied) (hs : g.state? s = some st)
    (hnone : st.submachine = none) : (g.insertSubmachine s name).Tied :=
  ⟨h.listed.insertSubmachine h.placed, h.placed.insertSubmachine, h.names.insertSubmachine,
    h.nested.insertSubmachine h.placed hs hnone, h.scope.insertSubmachine h.placed,
    h.marked.insertSubmachine, h.current.insertSubmachine name⟩

end

end Statechart.Graph
