import Statechart.Graph.Edit

/-!
# Lookups after a change

Each change of a graph is described by what it does to the three lookups. A lookup in an arena that
the change does not touch is the same by definition.
-/

namespace Statechart

namespace Arena

variable {α : Type}

/-- An arena is its size and its lookups. -/
theorem ext_get? {a b : Arena α} (hsize : a.size = b.size)
    (hget : ∀ i, a.get? i = b.get? i) : a = b := by
  obtain ⟨xs⟩ := a
  obtain ⟨ys⟩ := b
  simp only [size] at hsize
  congr 1
  apply Array.ext hsize
  intro i hi hi'
  have h := hget i
  simpa only [get?, Array.getElem?_eq_getElem hi, Array.getElem?_eq_getElem hi',
    Option.join_some] using h

theorem get?_eq_none_of_size_le {a : Arena α} {i : Nat} (h : a.size ≤ i) : a.get? i = none := by
  simp [get?, Array.getElem?_eq_none h]

theorem get?_empty (i : Nat) : (empty : Arena α).get? i = none := rfl

end Arena

namespace StateId

theorem index_inj {s s' : StateId} : s.index = s'.index ↔ s = s' :=
  ⟨fun h => congrArg StateId.mk h, congrArg index⟩

end StateId

namespace TransitionId

theorem index_inj {t t' : TransitionId} : t.index = t'.index ↔ t = t' :=
  ⟨fun h => congrArg TransitionId.mk h, congrArg index⟩

end TransitionId

namespace DefinitionId

theorem index_inj {d d' : DefinitionId} : d.index = d'.index ↔ d = d' :=
  ⟨fun h => congrArg DefinitionId.mk h, congrArg index⟩

end DefinitionId

namespace Graph

variable {κ : Type} {g : Graph κ} {d e : DefinitionId} {s s' : StateId} {t u : TransitionId}
  {x : Definition κ} {st : State κ} {tr : Transition κ}

/-! ## Live handles -/

theorem definition?_lt (h : g.definition? d = some x) : d.index < g.definitions.size :=
  Arena.lt_size_of_get? h

theorem state?_lt (h : g.state? s = some st) : s.index < g.states.size := Arena.lt_size_of_get? h

theorem transition?_lt (h : g.transition? t = some tr) : t.index < g.transitions.size :=
  Arena.lt_size_of_get? h

theorem definition_ok_iff : g.definition d = .ok x ↔ g.definition? d = some x := by
  unfold definition
  cases g.definition? d <;> simp

theorem state_ok_iff : g.state s = .ok st ↔ g.state? s = some st := by
  unfold state
  cases g.state? s <;> simp

theorem transition_ok_iff : g.transition t = .ok tr ↔ g.transition? t = some tr := by
  unfold transition
  cases g.transition? t <;> simp

/-! ## Single elements -/

theorem definition?_modifyDefinition (f : Definition κ → Definition κ) :
    (g.modifyDefinition d f).definition? e = (g.definition? e).map fun x =>
      if e = d then f x else x := by
  simp only [definition?, modifyDefinition, Arena.get?_modify, DefinitionId.index_inj]
  split
  · subst_vars; rfl
  · simp

theorem state?_modifyState (f : State κ → State κ) :
    (g.modifyState s f).state? s' = (g.state? s').map fun st => if s' = s then f st else st := by
  simp only [state?, modifyState, Arena.get?_modify, StateId.index_inj]
  split
  · subst_vars; rfl
  · simp

theorem transition?_modifyTransition (f : Transition κ → Transition κ) :
    (g.modifyTransition t f).transition? u =
      (g.transition? u).map fun tr => if u = t then f tr else tr := by
  simp only [transition?, modifyTransition, Arena.get?_modify, TransitionId.index_inj]
  split
  · subst_vars; rfl
  · simp

@[simp] theorem state?_modifyDefinition (f : Definition κ → Definition κ) :
    (g.modifyDefinition d f).state? s = g.state? s := rfl

@[simp] theorem transition?_modifyDefinition (f : Definition κ → Definition κ) :
    (g.modifyDefinition d f).transition? t = g.transition? t := rfl

@[simp] theorem definition?_modifyState (f : State κ → State κ) :
    (g.modifyState s f).definition? d = g.definition? d := rfl

@[simp] theorem transition?_modifyState (f : State κ → State κ) :
    (g.modifyState s f).transition? t = g.transition? t := rfl

@[simp] theorem definition?_modifyTransition (f : Transition κ → Transition κ) :
    (g.modifyTransition t f).definition? d = g.definition? d := rfl

@[simp] theorem state?_modifyTransition (f : Transition κ → Transition κ) :
    (g.modifyTransition t f).state? s = g.state? s := rfl

/-! ## New elements -/

/-- The handle that the next state gets. -/
def nextState (g : Graph κ) : StateId := ⟨g.states.size⟩

def nextTransition (g : Graph κ) : TransitionId := ⟨g.transitions.size⟩

def nextDefinition (g : Graph κ) : DefinitionId := ⟨g.definitions.size⟩

theorem state?_nextState : g.state? g.nextState = none :=
  Arena.get?_eq_none_of_size_le (Nat.le_refl _)

theorem transition?_nextTransition : g.transition? g.nextTransition = none :=
  Arena.get?_eq_none_of_size_le (Nat.le_refl _)

theorem definition?_nextDefinition : g.definition? g.nextDefinition = none :=
  Arena.get?_eq_none_of_size_le (Nat.le_refl _)

/-- A state as it is when it joins a definition. -/
def newState (d : DefinitionId) (spec : StateSpec κ) : State κ :=
  { toStateSpec := spec, kind := .normal, owner := d, submachine := none,
    incoming := [], outgoing := [] }

theorem state?_insertState (spec : StateSpec κ) :
    (g.insertState d spec).state? s = if s = g.nextState then some (newState d spec)
      else g.state? s := by
  show (g.states.push (newState d spec)).get? s.index = _
  simp only [Arena.get?_push, ← StateId.index_inj]
  rfl

theorem definition?_insertState (spec : StateSpec κ) :
    (g.insertState d spec).definition? e = (g.definition? e).map fun x =>
      if e = d then { x with states := x.states ++ [g.nextState] } else x :=
  definition?_modifyDefinition _

@[simp] theorem transition?_insertState (spec : StateSpec κ) :
    (g.insertState d spec).transition? t = g.transition? t := rfl

theorem transition?_insertTransition (spec : TransitionSpec κ) :
    (g.insertTransition d spec).transition? t =
      if t = g.nextTransition then some { toTransitionSpec := spec, owner := d }
        else g.transition? t := by
  show (g.transitions.push _).get? t.index = _
  simp only [Arena.get?_push, ← TransitionId.index_inj]
  rfl

theorem definition?_insertTransition (spec : TransitionSpec κ) :
    (g.insertTransition d spec).definition? e = (g.definition? e).map fun x =>
      if e = d then { x with transitions := x.transitions ++ [g.nextTransition] } else x :=
  definition?_modifyDefinition _

theorem state?_insertTransition (spec : TransitionSpec κ) :
    (g.insertTransition d spec).state? s = (g.state? s).map fun st =>
      { st with
        outgoing := if s = spec.source then st.outgoing ++ [g.nextTransition] else st.outgoing
        incoming := if s = spec.target then st.incoming ++ [g.nextTransition] else st.incoming
        neighbours := if s = spec.source ∨ s = spec.target then none else st.neighbours } := by
  simp only [insertTransition, state?_modifyState, state?_modifyDefinition, Option.map_map]
  show Option.map _ (g.state? s) = _
  congr 1
  funext st
  simp only [Function.comp]
  split <;> split <;> simp only [*, or_true, true_or, or_false, if_true, if_false] <;> rfl

theorem definition?_insertSubmachine (name : String) :
    (g.insertSubmachine s name).definition? d =
      if d = g.nextDefinition then some (.blank name (some s)) else g.definition? d := by
  show (g.definitions.push (.blank name (some s))).get? d.index = _
  simp only [Arena.get?_push, ← DefinitionId.index_inj]
  rfl

theorem state?_insertSubmachine (name : String) :
    (g.insertSubmachine s name).state? s' = (g.state? s').map fun st =>
      if s' = s then { st with submachine := some g.nextDefinition } else st :=
  state?_modifyState _

@[simp] theorem transition?_insertSubmachine (name : String) :
    (g.insertSubmachine s name).transition? t = g.transition? t := rfl

end Graph
end Statechart
