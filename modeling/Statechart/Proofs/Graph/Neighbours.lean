import Statechart.Proofs.Graph.Ties

/-!
# Kept answers

A state keeps what a query on its neighbours has answered. The answer depends on nothing but the
transitions that the state lists and on their ends, so it stands as long as those stand. An edit of
either discards it.
-/

namespace Statechart.Graph

variable {κ : Type} {g g' : Graph κ} {d : DefinitionId} {s : StateId} {t : TransitionId}
  {st st' : State κ}

theorem computeNeighbours_congr (hin : st'.incoming = st.incoming)
    (hout : st'.outgoing = st.outgoing) (hsource : ∀ t ∈ st.incoming, g'.source? t = g.source? t)
    (htarget : ∀ t ∈ st.outgoing, g'.target? t = g.target? t) :
    g'.computeNeighbours st' = g.computeNeighbours st := by
  have hsources : st.incoming.filterMap g'.source? = st.incoming.filterMap g.source? :=
    List.filterMap_congr hsource
  have htargets : st.outgoing.filterMap g'.target? = st.outgoing.filterMap g.target? :=
    List.filterMap_congr htarget
  show (⟨distinct (st'.incoming.filterMap g'.source?), distinct (st'.outgoing.filterMap g'.target?),
    distinct (st'.incoming ++ st'.outgoing)⟩ : Neighbours) = _
  rw [hin, hout, hsources, htargets]
  rfl

namespace Current

/-- Kept answers stand if each comes from a state with the same neighbours. -/
theorem carry (h : g.Current)
    (hs : ∀ {s st' n}, g'.state? s = some st' → st'.neighbours = some n →
      ∃ st, g.state? s = some st ∧ st.neighbours = some n ∧
        g'.computeNeighbours st' = g.computeNeighbours st) : g'.Current := by
  refine ⟨fun hst' hn => ?_⟩
  obtain ⟨st, hst, hn₀, hsame⟩ := hs hst' hn
  rw [hsame]
  exact h.neighbours hst hn₀

theorem modifyDefinition (h : g.Current) (f : Definition κ → Definition κ) :
    (g.modifyDefinition d f).Current := h.carry fun hst hn => ⟨_, hst, hn, rfl⟩

theorem modifyState (h : g.Current) {f : State κ → State κ}
    (hf : ∀ st, (f st).neighbours = st.neighbours) (hin : ∀ st, (f st).incoming = st.incoming)
    (hout : ∀ st, (f st).outgoing = st.outgoing) : (g.modifyState s f).Current := by
  refine h.carry fun {q st' n} hst' hn => ?_
  rw [state?_modifyState] at hst'
  obtain ⟨st, hst, rfl⟩ := Option.map_eq_some_iff.mp hst'
  refine ⟨st, hst, ?_, ?_⟩
  · split at hn
    · exact (hf st).symm.trans hn
    · exact hn
  · split
    · exact computeNeighbours_congr (hin st) (hout st) (fun _ _ => rfl) (fun _ _ => rfl)
    · rfl

theorem modifyTransition (h : g.Current) {f : Transition κ → Transition κ}
    (hsource : ∀ tr, (f tr).source = tr.source) (htarget : ∀ tr, (f tr).target = tr.target) :
    (g.modifyTransition t f).Current := by
  refine h.carry fun hst hn => ⟨_, hst, hn, computeNeighbours_congr rfl rfl ?_ ?_⟩
  · intro u _
    rw [source?, source?, transition?_modifyTransition, Option.map_map]
    congr 1
    funext tr
    simp only [Function.comp]
    split
    · exact hsource tr
    · rfl
  · intro u _
    rw [target?, target?, transition?_modifyTransition, Option.map_map]
    congr 1
    funext tr
    simp only [Function.comp]
    split
    · exact htarget tr
    · rfl

theorem moveMark (h : g.Current) {x : Definition κ} {new : Option StateId} {m : Mark} :
    (g.moveMark d x new m).Current := by
  have hmodify {g : Graph κ} {s : StateId} {f : State κ → State κ} (h : g.Current)
      (hf : ∀ st, ∃ k, f st = { st with kind := k }) : (g.modifyState s f).Current := by
    refine h.modifyState (fun st => ?_) (fun st => ?_) (fun st => ?_) <;>
      obtain ⟨k, hk⟩ := hf st <;> rw [hk]
  have hset {g : Graph κ} (h : g.Current) (s : StateId) :
      (g.modifyState s fun st => { st with kind := m.kind }).Current :=
        hmodify h fun st => ⟨m.kind, rfl⟩
  unfold Graph.moveMark
  cases x.marked m with
  | none =>
    cases new with
    | none => exact h.modifyDefinition _
    | some s => exact (hset h s).modifyDefinition _
  | some p =>
    have hold : (g.modifyState p fun st =>
        if st.kind = m.kind then { st with kind := .normal } else st).Current := by
      refine hmodify h fun st => ?_
      split
      · exact ⟨_, rfl⟩
      · exact ⟨st.kind, rfl⟩
    cases new with
    | none => exact hold.modifyDefinition _
    | some s => exact (hset hold s).modifyDefinition _

theorem insertState (h : g.Current) (spec : StateSpec κ) : (g.insertState d spec).Current := by
  refine h.carry fun {s st' n} hst' hn => ?_
  rw [state?_insertState] at hst'
  split at hst'
  · obtain rfl := Option.some.inj hst'
    cases hn
  · exact ⟨st', hst', hn, rfl⟩

/-- The ends of a new transition discard what they keep. -/
theorem insertTransition (h : g.Current) (hl : g.Listed) (spec : TransitionSpec κ) :
    (g.insertTransition d spec).Current := by
  refine h.carry fun {s st' n} hst' hn => ?_
  rw [state?_insertTransition] at hst'
  obtain ⟨st, hst, rfl⟩ := Option.map_eq_some_iff.mp hst'
  have hends : ¬ (s = spec.source ∨ s = spec.target) := by
    intro hend
    rw [if_pos hend] at hn
    cases hn
  rw [if_neg hends] at hn
  have hsource : s ≠ spec.source := fun he => hends (.inl he)
  have htarget : s ≠ spec.target := fun he => hends (.inr he)
  have hold {t : TransitionId} (ht : t ∈ st.incoming ++ st.outgoing) :
      (g.insertTransition d spec).transition? t = g.transition? t := by
    obtain ⟨tr, htr⟩ := hl.incident_live hst ht
    rw [transition?_insertTransition, if_neg]
    rintro rfl
    rw [transition?_nextTransition] at htr
    cases htr
  refine ⟨st, hst, hn, computeNeighbours_congr (if_neg htarget) (if_neg hsource) ?_ ?_⟩
  · intro t ht
    rw [source?, hold (List.mem_append_left _ ht), source?]
  · intro t ht
    rw [target?, hold (List.mem_append_right _ ht), target?]

theorem insertSubmachine (h : g.Current) (name : String) : (g.insertSubmachine s name).Current := by
  refine h.carry fun {q st' n} hst' hn => ?_
  rw [state?_insertSubmachine] at hst'
  obtain ⟨st, hst, rfl⟩ := Option.map_eq_some_iff.mp hst'
  refine ⟨st, hst, ?_, ?_⟩
  · split at hn <;> exact hn
  · split <;> rfl

/-- A query answers what it would compute, whether it computes or not. -/
theorem neighboursOf_eq (h : g.Current) (hs : g.state? s = some st) :
    g.neighboursOf st = g.computeNeighbours st := by
  rw [neighboursOf]
  cases hn : st.neighbours with
  | none => rfl
  | some n => exact h.neighbours hs hn

theorem rememberNeighbours (h : g.Current) (s : StateId) : (g.rememberNeighbours s).Current := by
  refine ⟨fun {q st' n} hst' hn => ?_⟩
  rw [Graph.rememberNeighbours, ← Graph.modifyState, state?_modifyState] at hst'
  obtain ⟨st, hst, hst''⟩ := Option.map_eq_some_iff.mp hst'
  by_cases hq : q = s
  · rw [if_pos hq] at hst''
    subst st'
    exact (Option.some.inj hn).symm.trans (h.neighboursOf_eq hst)
  · rw [if_neg hq] at hst''
    subst st'
    exact h.neighbours hst hn

end Current

end Statechart.Graph
