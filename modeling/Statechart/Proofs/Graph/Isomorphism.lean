import Statechart.Proofs.Graph.CopyTies
import Statechart.Proofs.Graph.Ownership

/-!
# Copying is an isomorphism

What a copy of a definition is, said through the map from the handles of the graph to those of the
copy and not through where the walk puts each element. Every graph that can be made is tied, so
copying any of its definitions gives such a copy.
-/

namespace Statechart.Graph

variable {κ : Type} {g : Graph κ} {d e : DefinitionId} {s : StateId} {t : TransitionId}

/-- The graphs that edits and copies make, with queries in between, which keep their answers. -/
inductive Reachable : Graph κ → Prop
  | new (name : String) : Reachable (Graph.new name)
  | edit {g : Graph κ} (e : Edit κ) : Reachable g → Reachable (e.after g)
  | query {g : Graph κ} (s : StateId) : Reachable g → Reachable (g.rememberNeighbours s)
  | copy {g copy : Graph κ} {c : GraphCopy} {d : DefinitionId} : Reachable g →
    g.copyDefinition d = .ok (copy, c) → Reachable copy

theorem Reachable.tied (h : g.Reachable) : g.Tied := by
  induction h with
  | new name => exact tied_new name
  | edit e _ ih => exact ih.after e
  | query s _ ih => exact ih.rememberNeighbours s
  | @copy g copy c d _ hc ih =>
    cases hd : g.definition? d with
    | none =>
      rw [copyDefinition, definition, hd] at hc
      cases hc
    | some x =>
      rw [copyDefinition_eq ih ⟨x, hd⟩] at hc
      obtain ⟨rfl, -⟩ := Prod.mk.inj (Except.ok.inj hc)
      exact tied_copyOf ih ⟨x, hd⟩

/-- A definition and its copy. Only the copy of the root is no longer nested. -/
structure DefinitionCopied (c : GraphCopy) (root : Prop) (x x' : Definition κ) : Prop where
  name : x'.name = x.name
  fallback : x'.fallback = x.fallback
  states : x'.states.map some = x.states.map c.state?
  transitions : x'.transitions = x.transitions.filterMap c.transition?
  start : x'.start.map some = x.start.map c.state?
  final : x'.final.map some = x.final.map c.state?
  nested : ¬ root → x'.composite.map some = x.composite.map c.state?
  top : root → x'.composite = none

/-- A state and its copy, which lists the copies of the transitions at the state and nothing
else. -/
structure StateCopied (g : Graph κ) (c : GraphCopy) (s : StateId) (st st' : State κ) : Prop where
  spec : st'.toStateSpec = st.toStateSpec
  kind : st'.kind = st.kind
  owner : c.definition? st.owner = some st'.owner
  submachine : st'.submachine.map some = st.submachine.map c.definition?
  incoming : st'.incoming.Nodup ∧ ∀ t', t' ∈ st'.incoming ↔
    ∃ t tr, g.transition? t = some tr ∧ tr.target = s ∧ c.transition? t = some t'
  outgoing : st'.outgoing.Nodup ∧ ∀ t', t' ∈ st'.outgoing ↔
    ∃ t tr, g.transition? t = some tr ∧ tr.source = s ∧ c.transition? t = some t'

/-- A transition and its copy, which differ in their handles only. -/
structure TransitionCopied (c : GraphCopy) (tr tr' : Transition κ) : Prop where
  spec : tr'.toTransitionSpec =
    { tr.toTransitionSpec with source := tr'.source, target := tr'.target }
  owner : c.definition? tr.owner = some tr'.owner
  source : c.state? tr.source = some tr'.source
  target : c.state? tr.target = some tr'.target

/-- The second graph is the definition and all within it, by way of the map. -/
structure IsCopy (g : Graph κ) (d : DefinitionId) (copy : Graph κ) (c : GraphCopy) : Prop where
  definition_iff : ∀ e, (c.definition? e).isSome ↔ (g.definition? e).isSome ∧ g.isWithin e d
  state_iff : ∀ s, (c.state? s).isSome ↔ ∃ st, g.state? s = some st ∧
    (c.definition? st.owner).isSome
  transition_iff : ∀ t, (c.transition? t).isSome ↔ ∃ e x tr, (c.definition? e).isSome ∧
    g.definition? e = some x ∧ t ∈ x.transitions ∧ g.transition? t = some tr ∧
    (c.state? tr.source).isSome ∧ (c.state? tr.target).isSome
  definitions_only : ∀ e, c.map.lookup (.definition e) = (c.definition? e).map .definition
  states_only : ∀ s, c.map.lookup (.state s) = (c.state? s).map .state
  transitions_only : ∀ t, c.map.lookup (.transition t) = (c.transition? t).map .transition
  injective : ∀ k l k', c.map.lookup k = some k' → c.map.lookup l = some k' → k = l
  covers_definitions : ∀ i, i < copy.definitions.size → ∃ e, c.definition? e = some ⟨i⟩
  covers_states : ∀ i, i < copy.states.size → ∃ s, c.state? s = some ⟨i⟩
  covers_transitions : ∀ i, i < copy.transitions.size → ∃ t, c.transition? t = some ⟨i⟩
  root : c.definition? d = some copy.root
  definition : ∀ e e', c.definition? e = some e' →
    ∃ x x', g.definition? e = some x ∧ copy.definition? e' = some x' ∧
    DefinitionCopied c (e = d) x x'
  state : ∀ s s', c.state? s = some s' →
    ∃ st st', g.state? s = some st ∧ copy.state? s' = some st' ∧ StateCopied g c s st st'
  transition : ∀ t t', c.transition? t = some t' →
    ∃ tr tr', g.transition? t = some tr ∧ copy.transition? t' = some tr' ∧ TransitionCopied c tr tr'

/-! ## The map of a copy -/

/-- The map that comes with the copy of a definition. -/
def copyMap (g : Graph κ) (d : DefinitionId) : GraphCopy :=
  ⟨(g.linking d (g.linkedDefinitions d (g.walkDefinitions d)) (g.copiedTransitions d)).map⟩

theorem lookup_copyMap {k : NodeRef} :
    (g.copyMap d).map.lookup k = (g.linking d [] (g.copiedTransitions d)).get? k := rfl

theorem lookup_copyMap_definition :
    (g.copyMap d).map.lookup (.definition e) =
    if e ∈ g.walkDefinitions d then some (.definition ((g.placement d).definition e))
      else none := by
  rw [lookup_copyMap, get?_linking_definition]

theorem lookup_copyMap_state : (g.copyMap d).map.lookup (.state s) =
    if s ∈ g.walkStates d then some (.state ((g.placement d).state s)) else none := by
  rw [lookup_copyMap, get?_linking_state]

theorem lookup_copyMap_transition :
    (g.copyMap d).map.lookup (.transition t) =
    if t ∈ g.copiedTransitions d then some (.transition ((g.placement d).transition t))
      else none := by
  rw [lookup_copyMap, get?_linking_transition]

theorem lookup_copyMap_definition_eq_some {k : NodeRef} :
    (g.copyMap d).map.lookup (.definition e) = some k ↔
      e ∈ g.walkDefinitions d ∧ .definition ((g.placement d).definition e) = k := by
  rw [lookup_copyMap_definition]
  split <;> simp [*]

theorem lookup_copyMap_state_eq_some {k : NodeRef} : (g.copyMap d).map.lookup (.state s) = some k ↔
    s ∈ g.walkStates d ∧ .state ((g.placement d).state s) = k := by
  rw [lookup_copyMap_state]
  split <;> simp [*]

theorem lookup_copyMap_transition_eq_some {k : NodeRef} :
    (g.copyMap d).map.lookup (.transition t) = some k ↔
      t ∈ g.copiedTransitions d ∧ .transition ((g.placement d).transition t) = k := by
  rw [lookup_copyMap_transition]
  split <;> simp [*]

theorem definition?_copyMap : (g.copyMap d).definition? e =
    if e ∈ g.walkDefinitions d then some ((g.placement d).definition e) else none := by
  rw [GraphCopy.definition?, lookup_copyMap_definition]
  split <;> rfl

theorem state?_copyMap : (g.copyMap d).state? s =
    if s ∈ g.walkStates d then some ((g.placement d).state s) else none := by
  rw [GraphCopy.state?, lookup_copyMap_state]
  split <;> rfl

theorem transition?_copyMap : (g.copyMap d).transition? t =
    if t ∈ g.copiedTransitions d then some ((g.placement d).transition t) else none := by
  rw [GraphCopy.transition?, lookup_copyMap_transition]
  split <;> rfl

theorem isSome_definition?_copyMap :
    ((g.copyMap d).definition? e).isSome ↔ e ∈ g.walkDefinitions d := by
  rw [definition?_copyMap]
  split <;> simp [*]

theorem isSome_state?_copyMap : ((g.copyMap d).state? s).isSome ↔ s ∈ g.walkStates d := by
  rw [state?_copyMap]
  split <;> simp [*]

theorem isSome_transition?_copyMap :
    ((g.copyMap d).transition? t).isSome ↔ t ∈ g.copiedTransitions d := by
  rw [transition?_copyMap]
  split <;> simp [*]

theorem definition?_copyMap_eq_some {e' : DefinitionId} : (g.copyMap d).definition? e = some e' ↔
    e ∈ g.walkDefinitions d ∧ (g.placement d).definition e = e' := by
  rw [definition?_copyMap]
  split <;> simp [*]

theorem state?_copyMap_eq_some {s' : StateId} : (g.copyMap d).state? s = some s' ↔
    s ∈ g.walkStates d ∧ (g.placement d).state s = s' := by
  rw [state?_copyMap]
  split <;> simp [*]

theorem transition?_copyMap_eq_some {t' : TransitionId} : (g.copyMap d).transition? t = some t' ↔
    t ∈ g.copiedTransitions d ∧ (g.placement d).transition t = t' := by
  rw [transition?_copyMap]
  split <;> simp [*]

/-- A state of a definition that is copied, or none, goes where the map says. -/
theorem map_state?_copyMap {s? : Option StateId} (hs : ∀ s ∈ s?, s ∈ g.walkStates d) :
    (s?.map (g.placement d).state).map some = s?.map (g.copyMap d).state? := by
  cases s? with
  | none => rfl
  | some s =>
    rw [Option.map_some, Option.map_some, Option.map_some, state?_copyMap, if_pos (hs s rfl)]

/-- Different elements have different copies. -/
theorem copyMap_injective {k l k' : NodeRef} (hk : (g.copyMap d).map.lookup k = some k')
    (hl : (g.copyMap d).map.lookup l = some k') : k = l := by
  cases k with
  | definition e =>
    obtain ⟨he, rfl⟩ := lookup_copyMap_definition_eq_some.mp hk
    cases l with
    | definition f =>
      obtain ⟨hf, heq⟩ := lookup_copyMap_definition_eq_some.mp hl
      rw [placement_definition_inj hf (NodeRef.definition.inj heq)]
    | state q => cases (lookup_copyMap_state_eq_some.mp hl).2
    | transition u => cases (lookup_copyMap_transition_eq_some.mp hl).2
  | state s =>
    obtain ⟨hs, rfl⟩ := lookup_copyMap_state_eq_some.mp hk
    cases l with
    | definition f => cases (lookup_copyMap_definition_eq_some.mp hl).2
    | state q =>
      obtain ⟨hq, heq⟩ := lookup_copyMap_state_eq_some.mp hl
      rw [placement_state_inj hq (NodeRef.state.inj heq)]
    | transition u => cases (lookup_copyMap_transition_eq_some.mp hl).2
  | transition t =>
    obtain ⟨ht, rfl⟩ := lookup_copyMap_transition_eq_some.mp hk
    cases l with
    | definition f => cases (lookup_copyMap_definition_eq_some.mp hl).2
    | state q => cases (lookup_copyMap_state_eq_some.mp hl).2
    | transition u =>
      obtain ⟨hu, heq⟩ := lookup_copyMap_transition_eq_some.mp hl
      rw [placement_transition_inj hu (NodeRef.transition.inj heq)]

/-! ## The elements of a copy -/

section
variable {x : Definition κ} {st : State κ} {tr : Transition κ} (h : g.Tied)
  (hd : ∃ x, g.definition? d = some x)
include h hd

theorem mem_walkStates_of_marked {m : Mark} (he : e ∈ g.walkDefinitions d)
    (hx : g.definition? e = some x) (hs : s ∈ x.marked m) : s ∈ g.walkStates d := by
  obtain ⟨st, hst, rfl, -⟩ := h.marked.marked hx hs
  exact mem_walkStates_of_owner h hd hst he

theorem definitionCopied (he : e ∈ g.walkDefinitions d) (hx : g.definition? e = some x) :
    DefinitionCopied (g.copyMap d) (e = d) x
      ((g.placement d).linkDefinition d e (x.transitions.filter (g.endsInside d)) x) where
  name := rfl
  fallback := rfl
  states := by
    show (x.states.map (g.placement d).state).map some = _
    rw [List.map_map]
    refine List.map_congr_left fun s hs => ?_
    rw [state?_copyMap, if_pos (states_mem_walkStates h hd he hx hs)]
    rfl
  transitions := by
    show (x.transitions.filter (g.endsInside d)).map (g.placement d).transition = _
    rw [← List.filterMap_eq_map, List.filterMap_filter]
    refine List.filterMap_congr fun t ht => ?_
    rw [transition?_copyMap]
    split
    · rename_i hin
      rw [if_pos (mem_copiedTransitions_of he hx (List.mem_filter.mpr ⟨ht, hin⟩))]
      rfl
    · rename_i hout
      have hne : t ∉ g.copiedTransitions d := fun hm => hout (List.mem_filter.mp hm).2
      rw [if_neg hne]
  start := map_state?_copyMap fun _ hs => mem_walkStates_of_marked (m := .start) h hd he hx hs
  final := map_state?_copyMap fun _ hs => mem_walkStates_of_marked (m := .final) h hd he hx hs
  nested := by
    intro hne
    show (if e = d then none else x.composite.map (g.placement d).state).map some = _
    rw [if_neg hne]
    refine map_state?_copyMap fun c hc => ?_
    obtain ⟨s, -, hs, -, -, hm⟩ := composite_mem_walk h hd he hne hx
    rw [hs] at hc
    obtain rfl := Option.some.inj hc
    exact hm
  top := fun he => if_pos he

/-- What a state of a copy lists at either end are the copies of the transitions at that end. -/
theorem listed_at_end (p : Transition κ → StateId) (s : StateId) :
    (((g.copiedTransitions d).filter fun t => (g.transition? t).map p = some s).map
        (g.placement d).transition).Nodup ∧
      ∀ t', t' ∈ ((g.copiedTransitions d).filter fun t => (g.transition? t).map p = some s).map
          (g.placement d).transition ↔
        ∃ t tr, g.transition? t = some tr ∧ p tr = s ∧ (g.copyMap d).transition? t = some t' := by
  have hnd := (nodup_copiedTransitions h hd).filter fun t => (g.transition? t).map p = some s
  refine ⟨hnd.map_on fun t ht _ _ heq => ?_, fun t' => ?_⟩
  · exact placement_transition_inj (List.mem_filter.mp ht).1 heq
  rw [List.mem_map]
  constructor
  · rintro ⟨t, ht, rfl⟩
    obtain ⟨hm, hend⟩ := List.mem_filter.mp ht
    obtain ⟨tr, htr, rfl⟩ := Option.map_eq_some_iff.mp (of_decide_eq_true hend)
    exact ⟨t, tr, htr, rfl, transition?_copyMap_eq_some.mpr ⟨hm, rfl⟩⟩
  · rintro ⟨t, tr, htr, rfl, hc⟩
    obtain ⟨hm, rfl⟩ := transition?_copyMap_eq_some.mp hc
    refine ⟨t, List.mem_filter.mpr ⟨hm, decide_eq_true ?_⟩, rfl⟩
    rw [htr, Option.map_some]

theorem stateCopied (hs : s ∈ g.walkStates d) (hst : g.state? s = some st) :
    StateCopied g (g.copyMap d) s st
      ((g.placement d).linkState g (g.copiedTransitions d) s st) where
  spec := rfl
  kind := rfl
  owner := definition?_copyMap_eq_some.mpr ⟨owner_mem_walkDefinitions h hd hs hst, rfl⟩
  submachine := by
    show (st.submachine.map (g.placement d).definition).map some = _
    cases hsub : st.submachine with
    | none => rfl
    | some e =>
      have he := (submachine_mem_walk h hd hs hst hsub).1
      rw [Option.map_some, Option.map_some, Option.map_some, definition?_copyMap, if_pos he]
  incoming := listed_at_end h hd (·.target) s
  outgoing := listed_at_end h hd (·.source) s

theorem transitionCopied (ht : t ∈ g.copiedTransitions d) (htr : g.transition? t = some tr) :
    TransitionCopied (g.copyMap d) tr ((g.placement d).linkTransition tr) where
  spec := rfl
  owner := definition?_copyMap_eq_some.mpr ⟨(ends_mem_walk h hd ht htr).1, rfl⟩
  source := state?_copyMap_eq_some.mpr ⟨(ends_mem_walk h hd ht htr).2.1, rfl⟩
  target := state?_copyMap_eq_some.mpr ⟨(ends_mem_walk h hd ht htr).2.2, rfl⟩

/-- The copy in closed form is a copy. -/
theorem isCopy_copyOf : g.IsCopy d (g.copyOf d) (g.copyMap d) where
  definition_iff := by
    intro e
    rw [isSome_definition?_copyMap, mem_walkDefinitions h hd, isWithin_iff h.nested]
    constructor
    · intro hw
      obtain ⟨x, hx⟩ := definition_live_of_within hd hw
      exact ⟨by rw [hx]; rfl, hw⟩
    · exact And.right
  state_iff := by
    intro s
    simp only [isSome_state?_copyMap, isSome_definition?_copyMap, mem_walkStates h hd,
      mem_walkDefinitions h hd]
  transition_iff := by
    intro t
    simp only [isSome_transition?_copyMap, isSome_definition?_copyMap, isSome_state?_copyMap]
    constructor
    · intro ht
      obtain ⟨tr, htr, ho, hends⟩ := (mem_copiedTransitions h hd).mp ht
      obtain ⟨x, hx⟩ := walkDefinitions_live h hd ho
      exact ⟨tr.owner, x, tr, ho, hx, h.listed.transition_mem hx htr, htr, hends⟩
    · rintro ⟨e, x, tr, he, hx, hm, htr, hends⟩
      obtain ⟨tr', htr', rfl⟩ := h.listed.transition_live hx hm
      rw [htr] at htr'
      obtain rfl := Option.some.inj htr'
      exact (mem_copiedTransitions h hd).mpr ⟨tr, htr, he, hends⟩
  definitions_only := by
    intro e
    rw [lookup_copyMap_definition, definition?_copyMap]
    split <;> rfl
  states_only := by
    intro s
    rw [lookup_copyMap_state, state?_copyMap]
    split <;> rfl
  transitions_only := by
    intro t
    rw [lookup_copyMap_transition, transition?_copyMap]
    split <;> rfl
  injective := fun _ _ _ hk hl => copyMap_injective hk hl
  covers_definitions := by
    intro i hi
    obtain ⟨x, hx⟩ := Arena.live_ofList hi
    obtain ⟨e, -, he, hei, -⟩ := of_definition?_copyOf h hd hx
    exact ⟨e, definition?_copyMap_eq_some.mpr ⟨he, hei⟩⟩
  covers_states := by
    intro i hi
    obtain ⟨st, hst⟩ := Arena.live_ofList hi
    obtain ⟨s, -, hs, hsi, -⟩ := of_state?_copyOf h hd hst
    exact ⟨s, state?_copyMap_eq_some.mpr ⟨hs, hsi⟩⟩
  covers_transitions := by
    intro i hi
    obtain ⟨tr, htr⟩ := Arena.live_ofList hi
    obtain ⟨t, -, ht, hti, -⟩ := of_transition?_copyOf h hd htr
    exact ⟨t, transition?_copyMap_eq_some.mpr ⟨ht, hti⟩⟩
  root := definition?_copyMap_eq_some.mpr ⟨(mem_walkDefinitions h hd).mpr .refl, placement_root hd⟩
  definition := by
    intro e e' he'
    obtain ⟨he, rfl⟩ := definition?_copyMap_eq_some.mp he'
    obtain ⟨x, hx⟩ := walkDefinitions_live h hd he
    exact ⟨x, _, hx, definition?_copyOf h hd he hx, definitionCopied h hd he hx⟩
  state := by
    intro s s' hs'
    obtain ⟨hs, rfl⟩ := state?_copyMap_eq_some.mp hs'
    obtain ⟨st, hst⟩ := walkStates_live h hd hs
    exact ⟨st, _, hst, state?_copyOf h hd hs hst, stateCopied h hd hs hst⟩
  transition := by
    intro t t' ht'
    obtain ⟨ht, rfl⟩ := transition?_copyMap_eq_some.mp ht'
    obtain ⟨tr, htr⟩ := copiedTransitions_live h hd ht
    exact ⟨tr, _, htr, transition?_copyOf h hd ht htr, transitionCopied h hd ht htr⟩

end

/-- Copying a live definition of a graph that can be made succeeds and is an isomorphism from the
definition and all within it onto a graph of its own. -/
theorem copyDefinition_isCopy (hg : g.Reachable) (hd : (g.definition? d).isSome) :
    ∃ copy c, g.copyDefinition d = .ok (copy, c) ∧ g.IsCopy d copy c := by
  have hlive := Option.isSome_iff_exists.mp hd
  exact ⟨g.copyOf d, g.copyMap d, copyDefinition_eq hg.tied hlive, isCopy_copyOf hg.tied hlive⟩

theorem Reachable.edited (h : g.Reachable) (es : List (Edit κ)) : (g.edited es).Reachable := by
  induction es generalizing g with
  | nil => exact h
  | cons e es ih => exact ih (.edit e h)

/-- The states x and y are nested in the state b. One transition stays among them and one leads out
to a. -/
def nestingEdits : List (Edit Unit) :=
  [.addState ⟨0⟩ { name := "a" }, .addState ⟨0⟩ { name := "b" }, .attachSubmachine ⟨1⟩ "b",
    .addState ⟨1⟩ { name := "x" }, .addState ⟨1⟩ { name := "y" },
    .addTransition ⟨1⟩ { name := "x->y", source := ⟨2⟩, target := ⟨3⟩ },
    .addTransition ⟨1⟩ { name := "y->a", source := ⟨3⟩, target := ⟨0⟩ }]

theorem isCopy_nestingEdits :
    ((Graph.new "g").edited nestingEdits).Reachable ∧
      (((Graph.new "g").edited nestingEdits).definition? ⟨1⟩).isSome ∧
      ∃ copy c, ((Graph.new "g").edited nestingEdits).copyDefinition ⟨1⟩ = .ok (copy, c) ∧
        ((Graph.new "g").edited nestingEdits).IsCopy ⟨1⟩ copy c := by
  have hreachable := (Reachable.new (κ := Unit) "g").edited nestingEdits
  have hlive : (((Graph.new "g").edited nestingEdits).definition? ⟨1⟩).isSome := by decide +kernel
  exact ⟨hreachable, hlive, copyDefinition_isCopy hreachable hlive⟩

end Statechart.Graph
