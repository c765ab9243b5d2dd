import Mathlib.Logic.Relation
import Statechart.Proofs.Graph.Lookup
import Statechart.Proofs.Graph.Roster

/-!
# The ties of a graph

The handles of the elements of a graph agree with one another. The invariant is in parts, since most
changes touch only one or two of them. It holds of every graph that edits can make, and so does not
say that the owner of a transition is live: a definition may go before its transitions do.
-/

namespace Statechart.Graph

variable {κ : Type}

/-! ## Lists and what they list -/

def stateOwner? (g : Graph κ) (s : StateId) : Option DefinitionId := (g.state? s).map (·.owner)

def statesOf? (g : Graph κ) (d : DefinitionId) : Option (List StateId) :=
  (g.definition? d).map (·.states)

def transitionOwner? (g : Graph κ) (t : TransitionId) : Option DefinitionId :=
  (g.transition? t).map (·.owner)

def transitionsOf? (g : Graph κ) (d : DefinitionId) : Option (List TransitionId) :=
  (g.definition? d).map (·.transitions)

def source? (g : Graph κ) (t : TransitionId) : Option StateId := (g.transition? t).map (·.source)

def outgoing? (g : Graph κ) (s : StateId) : Option (List TransitionId) :=
  (g.state? s).map (·.outgoing)

def target? (g : Graph κ) (t : TransitionId) : Option StateId := (g.transition? t).map (·.target)

def incoming? (g : Graph κ) (s : StateId) : Option (List TransitionId) :=
  (g.state? s).map (·.incoming)

/-- Every list of the graph holds what names its holder. -/
structure Listed (g : Graph κ) : Prop where
  states : Roster g.stateOwner? g.statesOf?
  transitions : Roster g.transitionOwner? g.transitionsOf?
  outgoing : Roster g.source? g.outgoing?
  incoming : Roster g.target? g.incoming?

/-! ## The other parts -/

/-- A live state has a live owner and a live transition has live ends. The owner of a transition has
been live. -/
structure Placed (g : Graph κ) : Prop where
  owner : ∀ {s : StateId} {st : State κ}, g.state? s = some st → ∃ x,
    g.definition? st.owner = some x
  source : ∀ {t : TransitionId} {tr : Transition κ}, g.transition? t = some tr →
    ∃ st, g.state? tr.source = some st
  target : ∀ {t : TransitionId} {tr : Transition κ}, g.transition? t = some tr →
    ∃ st, g.state? tr.target = some st
  known : ∀ {t : TransitionId} {tr : Transition κ}, g.transition? t = some tr →
    tr.owner.index < g.definitions.size

/-- Names are unique among the states and among the transitions of an owner. -/
structure NamesUnique (g : Graph κ) : Prop where
  state : ∀ {s s' : StateId} {st st' : State κ}, g.state? s = some st → g.state? s' = some st' →
    st.owner = st'.owner → st.name = st'.name → s = s'
  transition : ∀ {t u : TransitionId} {tr ur : Transition κ}, g.transition? t = some tr →
    g.transition? u = some ur → tr.owner = ur.owner → tr.name = ur.name → t = u

/-- Every live definition but the root is nested in a live state. What is nested has the higher
handle, which is why nesting ends. -/
structure Nested (g : Graph κ) : Prop where
  root : ∃ x, g.definition? g.root = some x ∧ x.composite = none
  enclosed : ∀ {d : DefinitionId} {x : Definition κ}, g.definition? d = some x → d ≠ g.root →
    ∃ s st, x.composite = some s ∧ g.state? s = some st ∧ st.submachine = some d
  nested : ∀ {s : StateId} {st : State κ} {d : DefinitionId}, g.state? s = some st →
    st.submachine = some d →
    ∃ x, g.definition? d = some x ∧ x.composite = some s ∧ st.owner.index < d.index
  deeper : ∀ {s c : StateId} {st : State κ} {x : Definition κ}, g.state? s = some st →
    g.definition? st.owner = some x → x.composite = some c → c.index < s.index

/-- A definition is another or lies in it, at any depth. -/
def Within (g : Graph κ) : DefinitionId → DefinitionId → Prop :=
  Relation.ReflTransGen fun d e => g.superdefinition d = some e

/-- The ends of a transition belong to its owner or to a definition around it. -/
structure Scoped (g : Graph κ) : Prop where
  source : ∀ {t : TransitionId} {tr : Transition κ} {x : Definition κ} {st : State κ},
    g.transition? t = some tr → g.definition? tr.owner = some x → g.state? tr.source = some st →
    g.Within tr.owner st.owner
  target : ∀ {t : TransitionId} {tr : Transition κ} {x : Definition κ} {st : State κ},
    g.transition? t = some tr → g.definition? tr.owner = some x → g.state? tr.target = some st →
    g.Within tr.owner st.owner

/-- A definition marks the states of its own that are of the kind. -/
structure Marked (g : Graph κ) : Prop where
  marked : ∀ {d : DefinitionId} {x : Definition κ} {m : Mark} {s : StateId},
    g.definition? d = some x →
    x.marked m = some s → ∃ st, g.state? s = some st ∧ st.owner = d ∧ st.kind = m.kind
  kind : ∀ {s : StateId} {st : State κ} {m : Mark}, g.state? s = some st → st.kind = m.kind →
    ∃ x, g.definition? st.owner = some x ∧ x.marked m = some s

/-- What a state keeps of its neighbours is what a query would compute. -/
structure Current (g : Graph κ) : Prop where
  neighbours : ∀ {s : StateId} {st : State κ} {n : Neighbours}, g.state? s = some st →
    st.neighbours = some n → n = g.computeNeighbours st

structure Tied (g : Graph κ) : Prop where
  listed : g.Listed
  placed : g.Placed
  names : g.NamesUnique
  nested : g.Nested
  scope : g.Scoped
  marked : g.Marked
  current : g.Current

/-! ## A new graph -/

theorem definition?_new {name : String} {d : DefinitionId} {x : Definition κ}
    (h : (Graph.new name).definition? d = some x) : d = ⟨0⟩ ∧ x = .blank name none := by
  simp only [Graph.new, definition?, Arena.get?_push, Arena.get?_empty] at h
  split at h
  · rename_i h0
    exact ⟨DefinitionId.index_inj.mp h0, (Option.some.inj h).symm⟩
  · cases h

theorem tied_new (name : String) : (Graph.new name : Graph κ).Tied where
  listed := by
    constructor
    · refine Roster.of_empty fun d l hl => ?_
      obtain ⟨x, hx, rfl⟩ := Option.map_eq_some_iff.mp hl
      rw [(definition?_new hx).2]
      rfl
    · refine Roster.of_empty fun d l hl => ?_
      obtain ⟨x, hx, rfl⟩ := Option.map_eq_some_iff.mp hl
      rw [(definition?_new hx).2]
      rfl
    · exact Roster.of_empty fun s l hl => by cases hl
    · exact Roster.of_empty fun s l hl => by cases hl
  placed := by constructor <;> (intros; contradiction)
  names := by constructor <;> (intros; contradiction)
  nested := by
    constructor
    · exact ⟨.blank name none, rfl, rfl⟩
    · intro d x h hr
      exact absurd (definition?_new h).1 hr
    · intro s st d h; cases h
    · intro s c st x h; cases h
  scope := by constructor <;> (intros; contradiction)
  marked := by
    constructor
    · intro d x m s h hm
      obtain ⟨-, rfl⟩ := definition?_new h
      cases m <;> cases hm
    · intro s st m h; cases h
  current := by constructor; intros; contradiction

/-! ## What the lists hold -/

section
variable {g : Graph κ} {d : DefinitionId} {s : StateId} {t : TransitionId} {x : Definition κ}
  {st : State κ} {tr : Transition κ}

theorem stateOwner?_of (hs : g.state? s = some st) : g.stateOwner? s = some st.owner := by
  rw [stateOwner?, hs, Option.map_some]

theorem statesOf?_of (hx : g.definition? d = some x) : g.statesOf? d = some x.states := by
  rw [statesOf?, hx, Option.map_some]

theorem transitionOwner?_of (ht : g.transition? t = some tr) :
    g.transitionOwner? t = some tr.owner := by
  rw [transitionOwner?, ht, Option.map_some]

theorem transitionsOf?_of (hx : g.definition? d = some x) :
    g.transitionsOf? d = some x.transitions := by
  rw [transitionsOf?, hx, Option.map_some]

theorem source?_of (ht : g.transition? t = some tr) : g.source? t = some tr.source := by
  rw [source?, ht, Option.map_some]

theorem outgoing?_of (hs : g.state? s = some st) : g.outgoing? s = some st.outgoing := by
  rw [outgoing?, hs, Option.map_some]

theorem target?_of (ht : g.transition? t = some tr) : g.target? t = some tr.target := by
  rw [target?, ht, Option.map_some]

theorem incoming?_of (hs : g.state? s = some st) : g.incoming? s = some st.incoming := by
  rw [incoming?, hs, Option.map_some]

namespace Listed

variable (h : g.Listed)
include h

theorem state_mem (hx : g.definition? st.owner = some x)
    (hs : g.state? s = some st) : s ∈ x.states :=
  h.states.mem (stateOwner?_of hs) (statesOf?_of hx)

theorem transition_mem (hx : g.definition? tr.owner = some x) (ht : g.transition? t = some tr) :
    t ∈ x.transitions :=
  h.transitions.mem (transitionOwner?_of ht) (transitionsOf?_of hx)

theorem state_live (hx : g.definition? d = some x) (hs : s ∈ x.states) :
    ∃ st, g.state? s = some st ∧ st.owner = d :=
  Option.map_eq_some_iff.mp (h.states.owner (statesOf?_of hx) hs)

theorem transition_live (hx : g.definition? d = some x) (ht : t ∈ x.transitions) :
    ∃ tr, g.transition? t = some tr ∧ tr.owner = d :=
  Option.map_eq_some_iff.mp (h.transitions.owner (transitionsOf?_of hx) ht)

theorem outgoing_live (hs : g.state? s = some st) (ht : t ∈ st.outgoing) :
    ∃ tr, g.transition? t = some tr ∧ tr.source = s :=
  Option.map_eq_some_iff.mp (h.outgoing.owner (outgoing?_of hs) ht)

theorem incoming_live (hs : g.state? s = some st) (ht : t ∈ st.incoming) :
    ∃ tr, g.transition? t = some tr ∧ tr.target = s :=
  Option.map_eq_some_iff.mp (h.incoming.owner (incoming?_of hs) ht)

theorem incident_live (hs : g.state? s = some st) (ht : t ∈ st.incoming ++ st.outgoing) :
    ∃ tr, g.transition? t = some tr := by
  rcases List.mem_append.mp ht with hin | hout
  · obtain ⟨tr, htr, -⟩ := h.incoming_live hs hin
    exact ⟨tr, htr⟩
  · obtain ⟨tr, htr, -⟩ := h.outgoing_live hs hout
    exact ⟨tr, htr⟩

theorem nodup_states (hx : g.definition? d = some x) : x.states.Nodup :=
  h.states.nodup (statesOf?_of hx)

theorem nodup_transitions (hx : g.definition? d = some x) : x.transitions.Nodup :=
  h.transitions.nodup (transitionsOf?_of hx)

end Listed

end

/-! ## What nesting gives -/

section
variable {g : Graph κ} {d e : DefinitionId} {s s' c : StateId} {x : Definition κ} {st st' : State κ}

theorem superdefinition_eq_some :
    g.superdefinition d = some e ↔
      ∃ x s st, g.definition? d = some x ∧ x.composite = some s ∧ g.state? s = some st ∧
      st.owner = e := by
  simp only [superdefinition, Option.bind_eq_bind, Option.bind_eq_some_iff, Option.some.injEq]
  constructor
  · rintro ⟨x, hx, s, hs, st, hst, he⟩
    exact ⟨x, s, st, hx, hs, hst, he⟩
  · rintro ⟨x, s, st, hx, hs, hst, he⟩
    exact ⟨x, hx, s, hs, st, hst, he⟩

theorem superstate_eq_some :
    g.superstate s = some c ↔
      ∃ st x, g.state? s = some st ∧ g.definition? st.owner = some x ∧ x.composite = some c := by
  simp only [superstate, Option.bind_eq_bind, Option.bind_eq_some_iff]
  constructor
  · rintro ⟨st, hst, x, hx, hc⟩
    exact ⟨st, x, hst, hx, hc⟩
  · rintro ⟨st, x, hst, hx, hc⟩
    exact ⟨st, hst, x, hx, hc⟩

namespace Nested

variable (h : g.Nested)
include h

theorem composite_live (hd : g.definition? d = some x) (hc : x.composite = some c) :
    ∃ st, g.state? c = some st ∧ st.submachine = some d := by
  by_cases hr : d = g.root
  · obtain ⟨y, hy, hn⟩ := h.root
    rw [hr, hy] at hd
    obtain rfl := Option.some.inj hd
    rw [hn] at hc
    cases hc
  · obtain ⟨s, st, hs, hst, hsub⟩ := h.enclosed hd hr
    rw [hc] at hs
    obtain rfl := Option.some.inj hs
    exact ⟨st, hst, hsub⟩

/-- A definition is nested in one state only. -/
theorem submachine_inj (hs : g.state? s = some st) (hs' : g.state? s' = some st')
    (hd : st.submachine = some d) (hd' : st'.submachine = some d) : s = s' := by
  obtain ⟨x, hx, hc, -⟩ := h.nested hs hd
  obtain ⟨x', hx', hc', -⟩ := h.nested hs' hd'
  rw [hx] at hx'
  obtain rfl := Option.some.inj hx'
  exact Option.some.inj (hc.symm.trans hc')

theorem superdefinition_lt (hd : g.superdefinition d = some e) : e.index < d.index := by
  obtain ⟨x, s, st, hx, hs, hst, rfl⟩ := superdefinition_eq_some.mp hd
  obtain ⟨st', hst', hsub⟩ := h.composite_live hx hs
  rw [hst] at hst'
  obtain rfl := Option.some.inj hst'
  obtain ⟨y, -, -, hlt⟩ := h.nested hst hsub
  exact hlt

theorem superstate_lt (hs : g.superstate s = some c) : c.index < s.index := by
  obtain ⟨st, x, hst, hx, hc⟩ := superstate_eq_some.mp hs
  exact h.deeper hst hx hc

/-- Nothing lies right inside a state that is not composite. -/
theorem superstate_ne (hs : g.state? s = some st) (hsub : st.submachine = none) :
    g.superstate c ≠ some s := by
  intro hc
  obtain ⟨ct, x, hct, hx, hxs⟩ := superstate_eq_some.mp hc
  obtain ⟨st', hst', hsub'⟩ := h.composite_live hx hxs
  rw [hs] at hst'
  obtain rfl := Option.some.inj hst'
  rw [hsub] at hsub'
  cases hsub'

end Nested

/-- The states that lie right inside a composite state are those of its definition. -/
theorem Tied.mem_states_iff (h : g.Tied) (hs : g.state? s = some st) (hsub : st.submachine = some d)
    (hx : g.definition? d = some x) : c ∈ x.states ↔ g.superstate c = some s := by
  obtain ⟨x', hx', hxs, -⟩ := h.nested.nested hs hsub
  rw [hx] at hx'
  obtain rfl := Option.some.inj hx'
  rw [h.listed.states.mem_iff (statesOf?_of hx), superstate_eq_some]
  constructor
  · intro hc
    obtain ⟨ct, hct, rfl⟩ := Option.map_eq_some_iff.mp hc
    exact ⟨ct, x, hct, hx, hxs⟩
  · rintro ⟨ct, y, hct, hy, hys⟩
    obtain ⟨st', hst', hsub'⟩ := h.nested.composite_live hy hys
    rw [hs] at hst'
    obtain rfl := Option.some.inj hst'
    rw [hsub] at hsub'
    rw [stateOwner?_of hct]
    exact hsub'.symm

end

end Statechart.Graph
