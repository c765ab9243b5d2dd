import Statechart.Proofs.Graph.Canonical
import Statechart.Proofs.Machine.Isolation
import Statechart.Proofs.Machine.Readiness

/-!
# Isolating again

Isolation takes every handle of a machine and of its records into the copy, or drops it. What the
machine holds then are handles of the copy, and a copy of the copy takes these to themselves. So a
machine that is isolated again, with nothing done in between, is the same machine with the same
records, and what was refused the first time is refused again.
-/

namespace Statechart

variable {σ κ : Type}

namespace Graph

variable {g : Graph κ} {d : DefinitionId} {c : GraphCopy} {s s' : StateId} {t t' : TransitionId}

namespace Identity

theorem state? (h : g.Identity c) {st : State κ}
    (hs : g.state? s = some st) : c.state? s = some s := by
  rw [GraphCopy.state?, h.state, hs]
  rfl

theorem transition? (h : g.Identity c) {tr : Transition κ} (ht : g.transition? t = some tr) :
    c.transition? t = some t := by
  rw [GraphCopy.transition?, h.transition, ht]
  rfl

end Identity

/-- The map to a copy keeps to the handles of the copy, and these a copy of the copy takes to
themselves. -/
structure Settles (c c' : GraphCopy) : Prop where
  state : ∀ {s s'}, c.state? s = some s' → c'.state? s' = some s'
  transition : ∀ {t t'}, c.transition? t = some t' → c'.transition? t' = some t'

theorem settles_copyMap (h : g.Tied) (hd : ∃ x, g.definition? d = some x) :
    Settles (g.copyMap d) ((g.copyOf d).copyMap (g.copyOf d).root) where
  state hs := by
    obtain ⟨-, st', -, hst', -⟩ := (isCopy_copyOf h hd).state _ _ hs
    exact (identity_copyMap h hd).state? hst'
  transition ht := by
    obtain ⟨-, tr', -, htr', -⟩ := (isCopy_copyOf h hd).transition _ _ ht
    exact (identity_copyMap h hd).transition? htr'

end Graph

namespace Graph.Settles

variable {c c' : GraphCopy} (h : Graph.Settles c c')
include h

theorem bind_state {o : Option StateId} : (o.bind c.state?).bind c'.state? = o.bind c.state? := by
  cases hs : o.bind c.state? with
  | none => rfl
  | some s =>
    obtain ⟨q, -, hq⟩ := Option.bind_eq_some_iff.mp hs
    exact h.state hq

theorem bind_transition {o : Option TransitionId} :
    (o.bind c.transition?).bind c'.transition? = o.bind c.transition? := by
  cases ht : o.bind c.transition? with
  | none => rfl
  | some t =>
    obtain ⟨u, -, hu⟩ := Option.bind_eq_some_iff.mp ht
    exact h.transition hu

/-- A record that has been moved stays as it is. -/
theorem copied {r r' : HistoryRecord} (hr : r.copied c = some r') : r'.copied c' = some r' := by
  obtain ⟨new, hnew, rfl⟩ := Option.map_eq_some_iff.mp hr
  rw [HistoryRecord.copied, h.state hnew, Option.map_some, h.bind_state, h.bind_transition]

end Graph.Settles

/-- Records that have been mapped stay as they are if what they were mapped to does. -/
theorem LogStore.remap_remap {f f' : HistoryRecord → Option HistoryRecord} (st : LogStore)
    (l : HistoryLog) (h : ∀ {r r'}, f r = some r' → f' r' = some r') :
    (st.remap l f).remap l f' = st.remap l f := by
  have hrecords (rs : List HistoryRecord) : (rs.filterMap f).filterMap f' = rs.filterMap f := by
    rw [List.filterMap_filterMap]
    refine List.filterMap_congr fun r _ => ?_
    cases hr : f r with
    | none => rfl
    | some r' => exact h hr
  refine congrArg LogStore.mk (Array.ext_getElem? fun i => ?_)
  simp only [remap, update, Array.getElem?_modify]
  split
  · rw [Option.map_map]
    exact congrArg (Option.map · _) (funext hrecords)
  · rfl

namespace Machine

variable {m m' n : Machine κ} {c c' : GraphCopy}

theorem copiedActive_of_settles (hc : Graph.Settles c c') {active : Option StateId}
    (h : m.copiedActive c = .ok active) (hn : n.active = active) :
    n.copiedActive c' = .ok active := by
  rw [copiedActive] at h ⊢
  rw [hn]
  cases hs : m.active with
  | none =>
    rw [hs] at h
    cases h
    rfl
  | some s =>
    cases hs' : c.state? s with
    | none =>
      simp only [hs, hs'] at h
      cases h
    | some s' =>
      simp only [hs, hs'] at h
      cases h
      simp only [hc.state hs']

theorem copiedPending_of_settles (hc : Graph.Settles c c') {pending : Option Pending}
    (h : m.copiedPending c = .ok pending) (hn : n.pending = pending) :
    n.copiedPending c' = .ok pending := by
  rw [copiedPending] at h ⊢
  rw [hn]
  cases hp : m.pending with
  | none =>
    rw [hp] at h
    cases h
    rfl
  | some p =>
    cases ht : c.transition? p.transition with
    | none =>
      simp only [hp, ht] at h
      cases h
    | some t =>
      simp only [hp, ht] at h
      cases h
      simp only [hc.transition ht]

/-- A machine on a graph that is its own copy is isolated as it is if the copy keeps what it
holds. -/
theorem isolated_self (hrunning : m.running = false) (hroot : m.definition = m.graph.root)
    (hcopy : m.graph.copyDefinition m.graph.root = .ok (m.graph, c))
    (hactive : m.copiedActive c = .ok m.active) (hpending : m.copiedPending c = .ok m.pending)
    (hlast : m.lastTransition.bind c.transition? = m.lastTransition) : m.isolated = .ok (m, c) := by
  rw [isolated, if_neg (ne_true_of_eq_false hrunning), hroot, hcopy]
  simp only [hactive, hpending, hlast, ← hroot]

/-- A machine that has been isolated is what isolation makes of it. -/
theorem isolated_isolated (hg : m.graph.Tied) (h : m.isolated = .ok (m', c)) :
    ∃ c', m'.isolated = .ok (m', c') ∧ Graph.Settles c c' := by
  have hd := live_of_isolated h
  obtain ⟨hgraph, hroot, rfl⟩ := graph_isolated hg h
  obtain ⟨_, active, pending, hrunning, -, hactive, hpending, hm'⟩ := isolated_ok h
  have hsettles := Graph.settles_copyMap hg hd
  refine ⟨_, isolated_self ?_ hroot ?_ ?_ ?_ ?_, hsettles⟩
  · rw [hm']
    exact hrunning
  · rw [hgraph]
    exact Graph.copyDefinition_copyOf hg hd
  · exact copiedActive_of_settles hsettles (by rw [hactive, hm']) rfl
  · exact copiedPending_of_settles hsettles (by rw [hpending, hm']) rfl
  · rw [hm']
    exact hsettles.bind_transition

theorem history_isolated (h : m.isolated = .ok (m', c)) : m'.history = m.history := by
  obtain ⟨g, active, pending, -, -, -, -, rfl⟩ := isolated_ok h
  rfl

end Machine

/-- Copying is canonical. To copy the root of a copy gives an equal graph, in which every element
keeps its place and every list its order, and takes each handle to itself. A machine that is asked
twice in a row to isolate itself is told the second time what it was told the first, and keeps every
handle that it and its records hold. -/
theorem copying_canonical {g : Graph κ} {d : DefinitionId} (hreachable : g.Reachable)
    (hlive : (g.definition? d).isSome) : ∃ copy c c', g.copyDefinition d = .ok (copy, c) ∧
      copy.copyDefinition copy.root = .ok (copy, c') ∧ copy.Identity c' ∧
      ∀ w : World σ κ, w.machine.graph = g → w.machine.definition = d →
        ∃ o w', Engine.attempt Engine.isolate w = .ok o w' ∧
          ∀ (env : σ) (now : Instant),
            Engine.attempt Engine.isolate { w' with env, now } = .ok o { w' with env, now } := by
  have hg := hreachable.tied
  have hd := Option.isSome_iff_exists.mp hlive
  refine ⟨g.copyOf d, g.copyMap d, (g.copyOf d).copyMap (g.copyOf d).root,
    Graph.copyDefinition_eq hg hd,
    Graph.copyDefinition_copyOf hg hd, Graph.identity_copyMap hg hd, ?_⟩
  rintro w rfl rfl
  have hfirst := Engine.isolate_apply w
  cases hm : w.machine.isolated with
  | error e =>
    simp only [hm] at hfirst
    refine ⟨_, _, Engine.attempt_of_error hfirst, fun env now => Engine.attempt_of_error ?_⟩
    rw [Engine.isolate_apply]
    simp only [hm]
  | ok mc =>
    obtain ⟨m, c⟩ := mc
    simp only [hm] at hfirst
    refine ⟨_, _, Engine.attempt_of_ok hfirst, fun env now => Engine.attempt_of_ok ?_⟩
    obtain ⟨c', hagain, hsettles⟩ := Machine.isolated_isolated hg hm
    rw [Engine.isolate_apply]
    simp only [hagain, Machine.history_isolated hm,
      LogStore.remap_remap w.logs w.machine.history hsettles.copied]

/-- A copy of states that a walk meets in another order than they were made in. -/
theorem copying_canonical_between : let g := (Graph.new "between").edited betweenEdits
    g.Reachable ∧ (g.definition? ⟨0⟩).isSome ∧ ∃ copy c c', g.copyDefinition ⟨0⟩ = .ok (copy, c) ∧
      copy.copyDefinition copy.root = .ok (copy, c') ∧ copy.Identity c' ∧
      ∀ w : World Unit Unit, w.machine.graph = g → w.machine.definition = ⟨0⟩ →
        ∃ o w', Engine.attempt Engine.isolate w = .ok o w' ∧
          ∀ (env : Unit) (now : Instant),
            Engine.attempt Engine.isolate { w' with env, now } = .ok o { w' with env, now } := by
  have hreachable := (Graph.Reachable.new "between").edited betweenEdits
  have hlive : (((Graph.new "between").edited betweenEdits).definition? ⟨0⟩).isSome := by decide
  exact ⟨hreachable, hlive, copying_canonical hreachable hlive⟩

end Statechart
