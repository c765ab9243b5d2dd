import Statechart.Proofs.Graph.Neighbours

/-!
# Changes apart from handles

An edit of behaviors or marks leaves the handles and the names of a graph as they are. What it does
to the marks is stated by itself.
-/

namespace Statechart

namespace Definition

variable {κ : Type}

/-- What the ties of a graph say of a definition, marks apart. -/
def ties (x : Definition κ) : List StateId × List TransitionId × Option StateId :=
  (x.states, x.transitions, x.composite)

end Definition

namespace State

variable {κ : Type}

def ties (st : State κ) :
    DefinitionId × String × Option DefinitionId × List TransitionId × List TransitionId :=
  (st.owner, st.name, st.submachine, st.incoming, st.outgoing)

end State

namespace Transition

variable {κ : Type}

def ties (tr : Transition κ) : DefinitionId × String × StateId × StateId :=
  (tr.owner, tr.name, tr.source, tr.target)

end Transition

namespace Graph

variable {κ : Type} {g g' : Graph κ} {d e f : DefinitionId} {s s' : StateId} {t : TransitionId}
  {x y : Definition κ} {st st' : State κ} {tr : Transition κ}

/-- Two graphs differ in behaviors and marks alone. -/
structure SameTies (g g' : Graph κ) : Prop where
  root : g'.root = g.root
  size : g'.definitions.size = g.definitions.size
  transitions : g'.transitions.size = g.transitions.size
  definition : ∀ d, (g'.definition? d).map Definition.ties = (g.definition? d).map Definition.ties
  state : ∀ s, (g'.state? s).map State.ties = (g.state? s).map State.ties
  transition : ∀ t, (g'.transition? t).map Transition.ties = (g.transition? t).map Transition.ties

namespace SameTies

theorem symm (h : SameTies g g') : SameTies g' g :=
  ⟨h.root.symm, h.size.symm, h.transitions.symm, fun d => (h.definition d).symm,
    fun s => (h.state s).symm, fun t => (h.transition t).symm⟩

theorem modifyDefinition (f : Definition κ → Definition κ) (hf : ∀ x, (f x).ties = x.ties) :
    SameTies g (g.modifyDefinition d f) := by
  refine ⟨rfl, Arena.size_modify .., rfl, fun e => ?_, fun _ => rfl, fun _ => rfl⟩
  rw [definition?_modifyDefinition, Option.map_map]
  congr 1
  funext x
  simp only [Function.comp]
  split
  · exact hf x
  · rfl

theorem modifyState (f : State κ → State κ) (hf : ∀ st, (f st).ties = st.ties) :
    SameTies g (g.modifyState s f) := by
  refine ⟨rfl, rfl, rfl, fun _ => rfl, fun e => ?_, fun _ => rfl⟩
  rw [state?_modifyState, Option.map_map]
  congr 1
  funext x
  simp only [Function.comp]
  split
  · exact hf x
  · rfl

theorem modifyTransition (f : Transition κ → Transition κ) (hf : ∀ tr, (f tr).ties = tr.ties) :
    SameTies g (g.modifyTransition t f) := by
  refine ⟨rfl, rfl, Arena.size_modify .., fun _ => rfl, fun _ => rfl, fun e => ?_⟩
  rw [transition?_modifyTransition, Option.map_map]
  congr 1
  funext x
  simp only [Function.comp]
  split
  · exact hf x
  · rfl

theorem definition_of (h : SameTies g g') (hd : g'.definition? d = some y) :
    ∃ x, g.definition? d = some x ∧ x.states = y.states ∧ x.transitions = y.transitions ∧
      x.composite = y.composite := by
  have he := (h.definition d).symm
  rw [hd] at he
  obtain ⟨x, hx, hxy⟩ := Option.map_eq_some_iff.mp he
  simp only [Definition.ties, Prod.mk.injEq] at hxy
  exact ⟨x, hx, hxy⟩

theorem state_of (h : SameTies g g') (hs : g'.state? s = some st') :
    ∃ st, g.state? s = some st ∧ st.owner = st'.owner ∧ st.name = st'.name ∧
      st.submachine = st'.submachine := by
  have he := (h.state s).symm
  rw [hs] at he
  obtain ⟨st, hst, hss⟩ := Option.map_eq_some_iff.mp he
  simp only [State.ties, Prod.mk.injEq] at hss
  exact ⟨st, hst, hss.1, hss.2.1, hss.2.2.1⟩

theorem transition_of {ur : Transition κ} (h : SameTies g g') (ht : g'.transition? t = some ur) :
    ∃ tr, g.transition? t = some tr ∧ tr.owner = ur.owner ∧ tr.name = ur.name ∧
      tr.source = ur.source ∧ tr.target = ur.target := by
  have he := (h.transition t).symm
  rw [ht] at he
  obtain ⟨tr, htr, htt⟩ := Option.map_eq_some_iff.mp he
  simp only [Transition.ties, Prod.mk.injEq] at htt
  exact ⟨tr, htr, htt⟩

theorem superdefinition_eq (h : SameTies g g') : g'.superdefinition = g.superdefinition := by
  have hle {g g' : Graph κ} (h : SameTies g g') {d e : DefinitionId}
      (hd : g'.superdefinition d = some e) : g.superdefinition d = some e := by
    obtain ⟨y, s, st', hy, hs, hst', rfl⟩ := superdefinition_eq_some.mp hd
    obtain ⟨x, hx, -, -, hc⟩ := h.definition_of hy
    obtain ⟨st, hst, ho, -⟩ := h.state_of hst'
    exact superdefinition_eq_some.mpr ⟨x, s, st, hx, hc.trans hs, hst, ho⟩
  funext d
  apply Option.ext
  intro e
  exact ⟨hle h, hle h.symm⟩

theorem within_eq (h : SameTies g g') : g'.Within = g.Within := by
  unfold Within
  rw [h.superdefinition_eq]

theorem listed (h : SameTies g g') (hg : g.Listed) : g'.Listed := by
  have hs {γ : Type} (p : _ → γ) : (fun s => (g'.state? s).map (p ∘ State.ties)) =
      fun s => (g.state? s).map (p ∘ State.ties) := by
    funext s
    simpa only [Option.map_map] using congrArg (Option.map p) (h.state s)
  have hd {γ : Type} (p : _ → γ) : (fun d => (g'.definition? d).map (p ∘ Definition.ties)) =
      fun d => (g.definition? d).map (p ∘ Definition.ties) := by
    funext d
    simpa only [Option.map_map] using congrArg (Option.map p) (h.definition d)
  have ht {γ : Type} (p : _ → γ) : (fun t => (g'.transition? t).map (p ∘ Transition.ties)) =
      fun t => (g.transition? t).map (p ∘ Transition.ties) := by
    funext t
    simpa only [Option.map_map] using congrArg (Option.map p) (h.transition t)
  have hso : g'.stateOwner? = g.stateOwner? := hs (·.1)
  have hsl : g'.statesOf? = g.statesOf? := hd (·.1)
  have hto : g'.transitionOwner? = g.transitionOwner? := ht (·.1)
  have htl : g'.transitionsOf? = g.transitionsOf? := hd (·.2.1)
  have hsrc : g'.source? = g.source? := ht (·.2.2.1)
  have hout : g'.outgoing? = g.outgoing? := hs (·.2.2.2.2)
  have htgt : g'.target? = g.target? := ht (·.2.2.2)
  have hin : g'.incoming? = g.incoming? := hs (·.2.2.2.1)
  constructor
  · rw [hso, hsl]; exact hg.states
  · rw [hto, htl]; exact hg.transitions
  · rw [hsrc, hout]; exact hg.outgoing
  · rw [htgt, hin]; exact hg.incoming

theorem placed (h : SameTies g g') (hg : g.Placed) : g'.Placed := by
  constructor
  · intro s st' hst'
    obtain ⟨st, hst, ho, -⟩ := h.state_of hst'
    obtain ⟨x, hx⟩ := hg.owner hst
    obtain ⟨y, hy, -⟩ := h.symm.definition_of hx
    exact ⟨y, ho ▸ hy⟩
  · intro t tr' htr'
    obtain ⟨tr, htr, -, -, hs, -⟩ := h.transition_of htr'
    obtain ⟨st, hst⟩ := hg.source htr
    obtain ⟨st', hst', -⟩ := h.symm.state_of hst
    exact ⟨st', hs ▸ hst'⟩
  · intro t tr' htr'
    obtain ⟨tr, htr, -, -, -, hs⟩ := h.transition_of htr'
    obtain ⟨st, hst⟩ := hg.target htr
    obtain ⟨st', hst', -⟩ := h.symm.state_of hst
    exact ⟨st', hs ▸ hst'⟩
  · intro t tr' htr'
    obtain ⟨tr, htr, ho, -⟩ := h.transition_of htr'
    rw [h.size, ← ho]
    exact hg.known htr

theorem names (h : SameTies g g') (hg : g.NamesUnique) : g'.NamesUnique := by
  constructor
  · intro s s' st st' hs hs' ho hn
    obtain ⟨q, hq, hqo, hqn, -⟩ := h.state_of hs
    obtain ⟨q', hq', hqo', hqn', -⟩ := h.state_of hs'
    exact hg.state hq hq' (by rw [hqo, hqo', ho]) (by rw [hqn, hqn', hn])
  · intro t u tr ur ht hu ho hn
    obtain ⟨q, hq, hqo, hqn, -⟩ := h.transition_of ht
    obtain ⟨q', hq', hqo', hqn', -⟩ := h.transition_of hu
    exact hg.transition hq hq' (by rw [hqo, hqo', ho]) (by rw [hqn, hqn', hn])

theorem nested (h : SameTies g g') (hg : g.Nested) : g'.Nested := by
  constructor
  · obtain ⟨x, hx, hc⟩ := hg.root
    obtain ⟨y, hy, -, -, hyc⟩ := h.symm.definition_of hx
    exact ⟨y, h.root ▸ hy, hyc.trans hc⟩
  · intro d y hy hr
    obtain ⟨x, hx, -, -, hc⟩ := h.definition_of hy
    obtain ⟨s, st, hs, hst, hsub⟩ := hg.enclosed hx (h.root ▸ hr)
    obtain ⟨st', hst', -, -, hsub'⟩ := h.symm.state_of hst
    exact ⟨s, st', hc ▸ hs, hst', hsub'.trans hsub⟩
  · intro s st' d hst' hd
    obtain ⟨st, hst, ho, -, hsub⟩ := h.state_of hst'
    obtain ⟨x, hx, hc, hlt⟩ := hg.nested hst (hsub.trans hd)
    obtain ⟨y, hy, -, -, hyc⟩ := h.symm.definition_of hx
    exact ⟨y, hy, hyc.trans hc, ho ▸ hlt⟩
  · intro s c st' y hst' hy hc
    obtain ⟨st, hst, ho, -⟩ := h.state_of hst'
    obtain ⟨x, hx, -, -, hxc⟩ := h.definition_of hy
    exact hg.deeper hst (ho ▸ hx) (hxc.trans hc)

theorem scope (h : SameTies g g') (hg : g.Scoped) : g'.Scoped := by
  constructor
  · intro t tr' y st' ht hy hs
    obtain ⟨tr, htr, ho, -, hsrc, -⟩ := h.transition_of ht
    obtain ⟨x, hx, -⟩ := h.definition_of hy
    obtain ⟨st, hst, hso, -⟩ := h.state_of hs
    rw [h.within_eq, ← ho, ← hso]
    exact hg.source htr (ho ▸ hx) (hsrc ▸ hst)
  · intro t tr' y st' ht hy hs
    obtain ⟨tr, htr, ho, -, -, htgt⟩ := h.transition_of ht
    obtain ⟨x, hx, -⟩ := h.definition_of hy
    obtain ⟨st, hst, hso, -⟩ := h.state_of hs
    rw [h.within_eq, ← ho, ← hso]
    exact hg.target htr (ho ▸ hx) (htgt ▸ hst)

/-- Marks and kept answers apart, the ties stand. -/
theorem tied (h : SameTies g g') (hg : g.Tied) (hm : g'.Marked) (hc : g'.Current) : g'.Tied :=
  ⟨h.listed hg.listed, h.placed hg.placed, h.names hg.names, h.nested hg.nested,
    h.scope hg.scope, hm, hc⟩

end SameTies

/-! ## Marks -/

namespace Marked

theorem modifyDefinition (h : g.Marked) {f : Definition κ → Definition κ}
    (hf : ∀ x m, (f x).marked m = x.marked m) : (g.modifyDefinition d f).Marked := by
  have hmarked {e : DefinitionId} {x : Definition κ} {m : Mark} :
      (if e = d then f x else x).marked m = x.marked m := by
    split
    · exact hf x m
    · rfl
  constructor
  · intro e y m s hy hm
    rw [definition?_modifyDefinition] at hy
    obtain ⟨x, hx, rfl⟩ := Option.map_eq_some_iff.mp hy
    exact h.marked hx (hmarked.symm.trans hm)
  · intro s st m hs hk
    obtain ⟨x, hx, hm⟩ := h.kind hs hk
    refine ⟨if st.owner = d then f x else x, ?_, hmarked.trans hm⟩
    rw [definition?_modifyDefinition, hx]
    rfl

theorem modifyState (h : g.Marked) {f : State κ → State κ} (ho : ∀ st, (f st).owner = st.owner)
    (hk : ∀ st, (f st).kind = st.kind) : (g.modifyState s f).Marked := by
  have hstate {q : StateId} {st : State κ} (hq : (g.modifyState s f).state? q = some st) :
      ∃ st₀, g.state? q = some st₀ ∧ st₀.owner = st.owner ∧ st₀.kind = st.kind := by
    rw [state?_modifyState] at hq
    obtain ⟨st₀, hst₀, rfl⟩ := Option.map_eq_some_iff.mp hq
    refine ⟨st₀, hst₀, ?_⟩
    split
    · exact ⟨(ho st₀).symm, (hk st₀).symm⟩
    · exact ⟨rfl, rfl⟩
  constructor
  · intro d x m q hx hm
    obtain ⟨st, hst, hso, hsk⟩ := h.marked hx hm
    refine ⟨if q = s then f st else st, ?_, ?_⟩
    · rw [state?_modifyState, hst]
      rfl
    · split
      · exact ⟨(ho st).trans hso, (hk st).trans hsk⟩
      · exact ⟨hso, hsk⟩
  · intro q st m hq hm
    obtain ⟨st₀, hst₀, hso, hsk⟩ := hstate hq
    obtain ⟨x, hx, hxm⟩ := h.kind hst₀ (hsk.trans hm)
    exact ⟨x, hso ▸ hx, hxm⟩

end Marked

theorem marked_setMarked {m m' : Mark} {s : Option StateId} :
    (x.setMarked m s).marked m' = if m' = m then s else x.marked m' := by
  cases m <;> cases m' <;> rfl

theorem kind_inj {m m' : Mark} (h : m.kind = m'.kind) : m = m' := by
  cases m <;> cases m' <;> first | rfl | cases h

theorem eq_other_of_ne {m m' : Mark} (h : m' ≠ m) : m' = m.other := by
  cases m <;> cases m' <;> first | rfl | exact absurd rfl h

theorem other_ne (m : Mark) : m.other ≠ m := by cases m <;> decide

section
variable {m : Mark} {new : Option StateId}

theorem state?_moveMark :
    (g.moveMark d x new m).state? s = (g.state? s).map fun st =>
      { st with kind :=
        if new = some s then m.kind
        else if x.marked m = some s ∧ st.kind = m.kind then .normal
        else st.kind } := by
  simp only [moveMark, state?_modifyDefinition]
  cases hold : x.marked m <;> cases new <;>
    simp only [state?_modifyState, Option.map_map] <;> cases hs : g.state? s <;>
    simp only [Option.map_none, Option.map_some, Function.comp, reduceCtorEq, false_and, if_false,
      Option.some.injEq]
  all_goals
    rename_i st
    obtain ⟨spec, kind, owner, sub, inc, out⟩ := st
    grind

theorem definition?_moveMark :
    (g.moveMark d x new m).definition? e = (g.definition? e).map fun y =>
      if e = d then
        if new.isSome ∧ x.marked m.other = new then (y.setMarked m new).setMarked m.other none
        else y.setMarked m new
      else y := by
  simp only [moveMark, definition?_modifyDefinition]
  cases x.marked m <;> cases new <;> rfl

theorem sameTies_moveMark : SameTies g (g.moveMark d x new m) := by
  have hset (y : Definition κ) (m : Mark) (s : Option StateId) :
      (y.setMarked m s).ties = y.ties := by
    cases m <;> rfl
  refine ⟨?_, ?_, ?_, fun e => ?_, fun s => ?_, fun t => ?_⟩
  · unfold moveMark
    cases x.marked m <;> cases new <;> rfl
  · unfold moveMark
    cases x.marked m <;> cases new <;> exact Arena.size_modify ..
  · unfold moveMark
    cases x.marked m <;> cases new <;> rfl
  · rw [definition?_moveMark, Option.map_map]
    congr 1
    funext y
    simp only [Function.comp]
    split
    · split
      · rw [hset, hset]
      · rw [hset]
    · rfl
  · rw [state?_moveMark, Option.map_map]
    rfl
  · unfold moveMark
    cases x.marked m <;> cases new <;> rfl

/-- What a definition marks after a move. A state that gets the one mark loses the other. -/
theorem marked_moveMark {y : Definition κ} {m' : Mark}
    (hy : y = if new.isSome ∧ x.marked m.other = new then (x.setMarked m new).setMarked m.other none
      else x.setMarked m new) :
    y.marked m' = if m' = m then new else if new.isSome ∧ x.marked m.other = new then none
      else x.marked m.other := by
  subst y
  by_cases hm : m' = m
  · subst m'
    rw [if_pos rfl]
    split
    · rw [marked_setMarked, if_neg (other_ne m).symm, marked_setMarked, if_pos rfl]
    · rw [marked_setMarked, if_pos rfl]
  · obtain rfl := eq_other_of_ne hm
    rw [if_neg hm]
    split
    · rw [marked_setMarked, if_pos rfl]
    · rw [marked_setMarked, if_neg hm]

/-- A state that the move neither marks nor unmarks. -/
theorem state?_moveMark_kept (hst : g.state? s = some st) (hnew : new ≠ some s)
    (hold : ¬ (x.marked m = some s ∧ st.kind = m.kind)) :
    (g.moveMark d x new m).state? s = some st := by
  rw [state?_moveMark, hst, Option.map_some, if_neg hnew, if_neg hold]

namespace Marked

variable (h : g.Marked) (hd : g.definition? d = some x)
  (hnew : ∀ s, new = some s → ∃ st, g.state? s = some st ∧ st.owner = d) {m' : Mark}
include h hd hnew

/-- The states that the definition marks after a move. -/
theorem of_moved (hs : (if m' = m then new else if new.isSome ∧ x.marked m.other = new then none
    else x.marked m.other) = some s) :
    ∃ st, (g.moveMark d x new m).state? s = some st ∧ st.owner = d ∧ st.kind = m'.kind := by
  by_cases hm : m' = m
  · rw [if_pos hm] at hs
    obtain ⟨st, hst, ho⟩ := hnew s hs
    rw [state?_moveMark, hst]
    exact ⟨_, rfl, ho, by simp only [hs, if_true, hm]⟩
  · obtain rfl := eq_other_of_ne hm
    rw [if_neg hm] at hs
    split at hs
    · cases hs
    · rename_i hboth
      obtain ⟨st, hst, ho, hk⟩ := h.marked hd hs
      have hne : new ≠ some s := by
        rintro rfl
        exact hboth ⟨rfl, hs⟩
      have hkind : st.kind ≠ m.kind := fun hk' => hm (kind_inj (hk.symm.trans hk'))
      exact ⟨st, state?_moveMark_kept hst hne fun hb => hkind hb.2, ho, hk⟩

/-- The states that another definition marks. -/
theorem of_beside {y : Definition κ} (he : e ≠ d) (hy : g.definition? e = some y)
    (hs : y.marked m' = some s) :
    ∃ st, (g.moveMark d x new m).state? s = some st ∧ st.owner = e ∧ st.kind = m'.kind := by
  obtain ⟨st, hst, ho, hk⟩ := h.marked hy hs
  have hne : new ≠ some s := by
    intro hs'
    obtain ⟨st', hst', ho'⟩ := hnew s hs'
    rw [hst] at hst'
    obtain rfl := Option.some.inj hst'
    exact he (ho.symm.trans ho')
  have hold : x.marked m ≠ some s := by
    intro hs'
    obtain ⟨st', hst', ho', -⟩ := h.marked hd hs'
    rw [hst] at hst'
    obtain rfl := Option.some.inj hst'
    exact he (ho.symm.trans ho')
  exact ⟨st, state?_moveMark_kept hst hne fun hb => hold hb.1, ho, hk⟩

/-- A state of a kind is marked by its owner after a move. -/
theorem kind_moved {st' : State κ} (hs : (g.moveMark d x new m).state? s = some st')
    (hk : st'.kind = m'.kind) :
    ∃ y, (g.moveMark d x new m).definition? st'.owner = some y ∧ y.marked m' = some s := by
  rw [state?_moveMark] at hs
  obtain ⟨st, hst, rfl⟩ := Option.map_eq_some_iff.mp hs
  simp only [definition?_moveMark]
  by_cases hne : new = some s
  · obtain ⟨st₁, hst₁, ho⟩ := hnew s hne
    rw [hst] at hst₁
    obtain rfl := Option.some.inj hst₁
    rw [if_pos hne] at hk
    obtain rfl := kind_inj hk
    rw [ho, hd]
    refine ⟨_, rfl, ?_⟩
    show (ite (d = d) _ _ : Definition κ).marked m = _
    rw [if_pos rfl, marked_moveMark rfl, if_pos rfl, hne]
  rw [if_neg hne] at hk
  split at hk
  · cases m' <;> cases hk
  · rename_i hold
    obtain ⟨y, hy, hm⟩ := h.kind hst hk
    rw [hy]
    refine ⟨_, rfl, ?_⟩
    split
    · rename_i ho
      rw [ho, hd] at hy
      obtain rfl := Option.some.inj hy
      have hmm : m' ≠ m := by
        rintro rfl
        exact hold ⟨hm, hk⟩
      obtain rfl := eq_other_of_ne hmm
      rw [marked_moveMark rfl, if_neg hmm, if_neg (fun hb => hne (hb.2.symm.trans hm))]
      exact hm
    · exact hm

theorem moveMark : (g.moveMark d x new m).Marked := by
  refine ⟨fun {e y m' s} hy hs => ?_, fun hs hk => h.kind_moved hd hnew hs hk⟩
  rw [definition?_moveMark] at hy
  obtain ⟨y₀, hy₀, hyy⟩ := Option.map_eq_some_iff.mp hy
  by_cases he : e = d
  · subst e
    rw [hd] at hy₀
    obtain rfl := Option.some.inj hy₀
    rw [if_pos rfl] at hyy
    rw [marked_moveMark hyy.symm] at hs
    exact h.of_moved hd hnew hs
  · rw [if_neg he] at hyy
    subst y₀
    exact h.of_beside hd hnew he hy₀ hs

end Marked

end

namespace Tied

theorem modifyDefinition (h : g.Tied) {f : Definition κ → Definition κ}
    (hf : ∀ x, (f x).ties = x.ties) (hm : ∀ x m, (f x).marked m = x.marked m) :
    (g.modifyDefinition d f).Tied :=
  (SameTies.modifyDefinition f hf).tied h (h.marked.modifyDefinition hm)
    (h.current.modifyDefinition f)

theorem modifyState (h : g.Tied) {f : State κ → State κ} (hf : ∀ st, (f st).ties = st.ties)
    (hk : ∀ st, (f st).kind = st.kind) (hn : ∀ st, (f st).neighbours = st.neighbours) :
    (g.modifyState s f).Tied :=
  (SameTies.modifyState f hf).tied h (h.marked.modifyState (fun st => congrArg (·.1) (hf st)) hk)
    (h.current.modifyState hn (fun st => congrArg (·.2.2.2.1) (hf st))
      fun st => congrArg (·.2.2.2.2) (hf st))

theorem modifyTransition (h : g.Tied) {f : Transition κ → Transition κ}
    (hf : ∀ tr, (f tr).ties = tr.ties) : (g.modifyTransition t f).Tied :=
  (SameTies.modifyTransition f hf).tied h ⟨h.marked.marked, h.marked.kind⟩
    (h.current.modifyTransition (fun tr => congrArg (·.2.2.1) (hf tr))
      fun tr => congrArg (·.2.2.2) (hf tr))

theorem moveMark {m : Mark} {new : Option StateId} (h : g.Tied) (hd : g.definition? d = some x)
    (hnew : ∀ s, new = some s → ∃ st, g.state? s = some st ∧ st.owner = d) :
    (g.moveMark d x new m).Tied :=
  sameTies_moveMark.tied h (h.marked.moveMark hd hnew) h.current.moveMark

theorem rememberNeighbours (h : g.Tied) (s : StateId) : (g.rememberNeighbours s).Tied :=
  (SameTies.modifyState (s := s) (fun st => { st with neighbours := some (g.neighboursOf st) })
    fun _ => rfl).tied h (h.marked.modifyState (fun _ => rfl) fun _ => rfl)
    (h.current.rememberNeighbours s)

end Tied

end Graph
end Statechart
