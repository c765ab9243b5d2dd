import Statechart.Proofs.Graph.Neighbours
import Statechart.Proofs.Graph.Nesting

/-!
# Parts of a graph

What stays of a graph when some elements go, from the arenas and from every list and mark. The ties
stand if no element stays without what it needs: the owner of a state, the composite state of a
definition, the nested definition of a state and the ends of a transition. A transition may stay
without its owner.
-/

namespace Statechart

namespace Arena

variable {α : Type}

/-- What stays of an arena, changed. -/
def restrict (a : Arena α) (stays : Nat → Bool) (f : α → α) : Arena α :=
  ⟨a.slots.mapIdx fun i o => if stays i then o.map f else none⟩

theorem size_restrict (a : Arena α) (stays : Nat → Bool) (f : α → α) :
    (a.restrict stays f).size = a.size :=
  Array.size_mapIdx ..

theorem get?_restrict (a : Arena α) (stays : Nat → Bool) (f : α → α) (i : Nat) :
    (a.restrict stays f).get? i = if stays i then (a.get? i).map f else none := by
  simp only [get?, restrict, Array.getElem?_mapIdx]
  cases a.slots[i]? with
  | none => simp
  | some o =>
    simp only [Option.map_some, Option.join_some]

end Arena

/-- The elements of a graph that stay. -/
structure Kept where
  state : StateId → Bool
  definition : DefinitionId → Bool
  transition : TransitionId → Bool

namespace Kept

def meet (k k' : Kept) : Kept :=
  ⟨fun s => k.state s && k'.state s, fun d => k.definition d && k'.definition d,
    fun t => k.transition t && k'.transition t⟩

end Kept

namespace Graph

variable {κ : Type} {g g' : Graph κ} {k k' : Kept} {d e : DefinitionId} {s s' c : StateId}
  {t : TransitionId} {x y : Definition κ} {st : State κ} {tr : Transition κ}

/-- A graph is its root, the sizes of its arenas and its lookups. -/
theorem ext_lookups (hroot : g.root = g'.root) (hd : g.definitions.size = g'.definitions.size)
    (hs : g.states.size = g'.states.size) (ht : g.transitions.size = g'.transitions.size)
    (hds : ∀ d, g.definition? d = g'.definition? d) (hss : ∀ s, g.state? s = g'.state? s)
    (hts : ∀ t, g.transition? t = g'.transition? t) : g = g' := by
  obtain ⟨ds, ss, ts, r⟩ := g
  obtain ⟨ds', ss', ts', r'⟩ := g'
  obtain rfl : r = r' := hroot
  obtain rfl : ds = ds' := Arena.ext_get? hd fun i => hds ⟨i⟩
  obtain rfl : ss = ss' := Arena.ext_get? hs fun i => hss ⟨i⟩
  obtain rfl : ts = ts' := Arena.ext_get? ht fun i => hts ⟨i⟩
  rfl

/-- What stays of a definition that stays. -/
def restrictDefinition (k : Kept) (x : Definition κ) : Definition κ :=
  { x with
    states := x.states.filter k.state
    transitions := x.transitions.filter k.transition
    start := x.start.filter k.state
    final := x.final.filter k.state }

/-- What stays of a state that stays. What was answered on its neighbours stays if they all do. -/
def restrictState (k : Kept) (st : State κ) : State κ :=
  { st with
    incoming := st.incoming.filter k.transition
    outgoing := st.outgoing.filter k.transition
    neighbours := if ∀ t ∈ st.incoming ++ st.outgoing, k.transition t then st.neighbours else none }

def restrict (g : Graph κ) (k : Kept) : Graph κ where
  definitions := g.definitions.restrict (fun i => k.definition ⟨i⟩) (restrictDefinition k)
  states := g.states.restrict (fun i => k.state ⟨i⟩) (restrictState k)
  transitions := g.transitions.restrict (fun i => k.transition ⟨i⟩) id
  root := g.root

theorem definition?_restrict :
    (g.restrict k).definition? d =
      if k.definition d then (g.definition? d).map (restrictDefinition k) else none :=
  Arena.get?_restrict ..

theorem state?_restrict :
    (g.restrict k).state? s = if k.state s then (g.state? s).map (restrictState k) else none :=
  Arena.get?_restrict ..

theorem transition?_restrict :
    (g.restrict k).transition? t = if k.transition t then g.transition? t else none := by
  have h := Arena.get?_restrict g.transitions (fun i => k.transition ⟨i⟩) id t.index
  rwa [Option.map_id] at h

theorem size_restrict : (g.restrict k).definitions.size = g.definitions.size :=
  Arena.size_restrict ..

theorem of_definition?_restrict (h : (g.restrict k).definition? d = some y) :
    ∃ x, k.definition d = true ∧ g.definition? d = some x ∧ y = restrictDefinition k x := by
  rw [definition?_restrict] at h
  split at h
  · obtain ⟨x, hx, rfl⟩ := Option.map_eq_some_iff.mp h
    exact ⟨x, ‹_›, hx, rfl⟩
  · cases h

theorem of_state?_restrict (h : (g.restrict k).state? s = some st) :
    ∃ st₀, k.state s = true ∧ g.state? s = some st₀ ∧ st = restrictState k st₀ := by
  rw [state?_restrict] at h
  split at h
  · obtain ⟨st₀, hst₀, rfl⟩ := Option.map_eq_some_iff.mp h
    exact ⟨st₀, ‹_›, hst₀, rfl⟩
  · cases h

theorem of_transition?_restrict (h : (g.restrict k).transition? t = some tr) :
    k.transition t = true ∧ g.transition? t = some tr := by
  rw [transition?_restrict] at h
  split at h
  · exact ⟨‹_›, h⟩
  · cases h

theorem definition?_restrict_of (hk : k.definition d = true) (h : g.definition? d = some x) :
    (g.restrict k).definition? d = some (restrictDefinition k x) := by
  rw [definition?_restrict, if_pos hk, h]
  rfl

theorem state?_restrict_of (hk : k.state s = true) (h : g.state? s = some st) :
    (g.restrict k).state? s = some (restrictState k st) := by
  rw [state?_restrict, if_pos hk, h]
  rfl

theorem transition?_restrict_of (hk : k.transition t = true) (h : g.transition? t = some tr) :
    (g.restrict k).transition? t = some tr := by
  rw [transition?_restrict, if_pos hk, h]

theorem marked_restrictDefinition (m : Mark) :
    (restrictDefinition k x).marked m = (x.marked m).filter k.state := by
  cases m <;> rfl

theorem restrictDefinition_restrictDefinition :
    restrictDefinition k' (restrictDefinition k x) = restrictDefinition (k.meet k') x := by
  simp only [restrictDefinition, Kept.meet, List.filter_filter, Option.filter_filter, Bool.and_comm]

theorem restrictState_restrictState :
    restrictState k' (restrictState k st) = restrictState (k.meet k') st := by
  have hall : (∀ t ∈ st.incoming ++ st.outgoing, (k.meet k').transition t = true) ↔
      (∀ t ∈ (restrictState k st).incoming ++ (restrictState k st).outgoing,
        k'.transition t = true) ∧ ∀ t ∈ st.incoming ++ st.outgoing, k.transition t = true := by
    simp only [restrictState, Kept.meet, ← List.filter_append, List.mem_filter, Bool.and_eq_true]
    exact ⟨fun h => ⟨fun t ht => (h t ht.1).2, fun t ht => (h t ht).1⟩,
      fun h t ht => ⟨h.2 t ht, h.1 t ⟨ht, h.2 t ht⟩⟩⟩
  have hneighbours : (restrictState k' (restrictState k st)).neighbours =
      (restrictState (k.meet k') st).neighbours :=
    (ite_and ..).symm.trans (if_congr hall.symm rfl rfl)
  calc restrictState k' (restrictState k st)
    _ = { st with
          incoming := (st.incoming.filter k.transition).filter k'.transition
          outgoing := (st.outgoing.filter k.transition).filter k'.transition
          neighbours := (restrictState k' (restrictState k st)).neighbours } := rfl
    _ = restrictState (k.meet k') st := by
      rw [hneighbours]
      simp only [restrictState, Kept.meet, List.filter_filter, Bool.and_comm]

/-- What stays of what stays. -/
theorem restrict_restrict : (g.restrict k).restrict k' = g.restrict (k.meet k') := by
  refine ext_lookups rfl ?_ ?_ ?_ (fun d => ?_) (fun s => ?_) (fun t => ?_)
  · simp only [restrict, Arena.size_restrict]
  · simp only [restrict, Arena.size_restrict]
  · simp only [restrict, Arena.size_restrict]
  · have hmeet : (k.meet k').definition d = (k.definition d && k'.definition d) := rfl
    rw [definition?_restrict, definition?_restrict, definition?_restrict, hmeet]
    by_cases hk : k.definition d = true <;> by_cases hk' : k'.definition d = true <;>
      simp only [hk, hk', Bool.and_true, Bool.and_false, if_true, if_false, Option.map_none,
        Option.map_map, Bool.false_eq_true]
    congr 1
    funext x
    exact restrictDefinition_restrictDefinition
  · have hmeet : (k.meet k').state s = (k.state s && k'.state s) := rfl
    rw [state?_restrict, state?_restrict, state?_restrict, hmeet]
    by_cases hk : k.state s = true <;> by_cases hk' : k'.state s = true <;>
      simp only [hk, hk', Bool.and_true, Bool.and_false, if_true, if_false, Option.map_none,
        Option.map_map, Bool.false_eq_true]
    congr 1
    funext st
    exact restrictState_restrictState
  · have hmeet : (k.meet k').transition t = (k.transition t && k'.transition t) := rfl
    rw [transition?_restrict, transition?_restrict, transition?_restrict, hmeet]
    by_cases hk : k.transition t = true <;> by_cases hk' : k'.transition t = true <;>
      simp only [hk, hk', Bool.and_true, Bool.and_false, if_true, if_false, Bool.false_eq_true]

/-! ## Lists that are backed -/

/-- Every list and every mark of the graph is backed by what it names. -/
structure Backed (g : Graph κ) : Prop where
  listed : g.Listed
  marks : ∀ {d : DefinitionId} {x : Definition κ} {m : Mark} {s : StateId},
    g.definition? d = some x → x.marked m = some s → g.stateOwner? s = some d

theorem stateOwner?_restrict :
    (g.restrict k).stateOwner? = fun s => if k.state s then g.stateOwner? s else none := by
  funext s
  simp only [stateOwner?, state?_restrict]
  split
  · rw [Option.map_map]; rfl
  · rfl

theorem statesOf?_restrict : (g.restrict k).statesOf? =
    fun d => if k.definition d then (g.statesOf? d).map (·.filter k.state) else none := by
  funext d
  simp only [statesOf?, definition?_restrict]
  split
  · rw [Option.map_map, Option.map_map]; rfl
  · rfl

theorem transitionOwner?_restrict :
    (g.restrict k).transitionOwner? = fun t => if k.transition t then
      g.transitionOwner? t else none := by
  funext t
  simp only [transitionOwner?, transition?_restrict]
  split <;> rfl

theorem transitionsOf?_restrict : (g.restrict k).transitionsOf? =
    fun d => if k.definition d then (g.transitionsOf? d).map (·.filter k.transition) else none := by
  funext d
  simp only [transitionsOf?, definition?_restrict]
  split
  · rw [Option.map_map, Option.map_map]; rfl
  · rfl

theorem source?_restrict :
    (g.restrict k).source? = fun t => if k.transition t then g.source? t else none := by
  funext t
  simp only [source?, transition?_restrict]
  split <;> rfl

theorem outgoing?_restrict : (g.restrict k).outgoing? =
    fun s => if k.state s then (g.outgoing? s).map (·.filter k.transition) else none := by
  funext s
  simp only [outgoing?, state?_restrict]
  split
  · rw [Option.map_map, Option.map_map]; rfl
  · rfl

theorem target?_restrict :
    (g.restrict k).target? = fun t => if k.transition t then g.target? t else none := by
  funext t
  simp only [target?, transition?_restrict]
  split <;> rfl

theorem incoming?_restrict : (g.restrict k).incoming? =
    fun s => if k.state s then (g.incoming? s).map (·.filter k.transition) else none := by
  funext s
  simp only [incoming?, state?_restrict]
  split
  · rw [Option.map_map, Option.map_map]; rfl
  · rfl

theorem Listed.restrict (h : g.Listed) : (g.restrict k).Listed := by
  constructor
  · rw [stateOwner?_restrict, statesOf?_restrict]
    exact h.states.restrict _ _
  · rw [transitionOwner?_restrict, transitionsOf?_restrict]
    exact h.transitions.restrict _ _
  · rw [source?_restrict, outgoing?_restrict]
    exact h.outgoing.restrict _ _
  · rw [target?_restrict, incoming?_restrict]
    exact h.incoming.restrict _ _

theorem Backed.restrict (h : g.Backed) : (g.restrict k).Backed := by
  refine ⟨h.listed.restrict, ?_⟩
  intro d y m s hy hm
  obtain ⟨x, -, hx, rfl⟩ := of_definition?_restrict hy
  rw [marked_restrictDefinition, Option.filter_eq_some_iff] at hm
  obtain ⟨st, hst, ho⟩ := Option.map_eq_some_iff.mp (h.marks hx hm.1)
  rw [stateOwner?_of (state?_restrict_of hm.2 hst)]
  exact congrArg some ho

theorem Tied.backed (h : g.Tied) : g.Backed := by
  refine ⟨h.listed, fun hx hm => ?_⟩
  obtain ⟨st, hst, ho, -⟩ := h.marked.marked hx hm
  rw [stateOwner?_of hst]
  exact congrArg some ho

theorem Backed.restrictDefinition_congr (h : g.Backed) (hx : g.definition? d = some x)
    (hs : ∀ s st, g.state? s = some st → k.state s = k'.state s)
    (ht : ∀ t tr, g.transition? t = some tr → k.transition t = k'.transition t) :
    restrictDefinition k x = restrictDefinition k' x := by
  have hmark (m : Mark) : (x.marked m).filter k.state = (x.marked m).filter k'.state := by
    cases hm : x.marked m with
    | none => rfl
    | some s =>
      obtain ⟨st, hst, -⟩ := Option.map_eq_some_iff.mp (h.marks hx hm)
      simp only [Option.filter, hs s st hst]
  have hstates : x.states.filter k.state = x.states.filter k'.state := by
    refine List.filter_congr fun s hm => ?_
    obtain ⟨st, hst, -⟩ := h.listed.state_live hx hm
    exact hs s st hst
  have htransitions : x.transitions.filter k.transition = x.transitions.filter k'.transition := by
    refine List.filter_congr fun t hm => ?_
    obtain ⟨tr, htr, -⟩ := h.listed.transition_live hx hm
    exact ht t tr htr
  have hstart := hmark .start
  have hfinal := hmark .final
  simp only [Definition.marked] at hstart hfinal
  simp only [restrictDefinition, hstates, htransitions, hstart, hfinal]

theorem Listed.restrictState_congr (h : g.Listed) (hs : g.state? s = some st)
    (ht : ∀ t tr, g.transition? t = some tr → k.transition t = k'.transition t) :
    restrictState k st = restrictState k' st := by
  have hin : st.incoming.filter k.transition = st.incoming.filter k'.transition := by
    refine List.filter_congr fun t hm => ?_
    obtain ⟨tr, htr, -⟩ := h.incoming_live hs hm
    exact ht t tr htr
  have hout : st.outgoing.filter k.transition = st.outgoing.filter k'.transition := by
    refine List.filter_congr fun t hm => ?_
    obtain ⟨tr, htr, -⟩ := h.outgoing_live hs hm
    exact ht t tr htr
  have hall : (∀ t ∈ st.incoming ++ st.outgoing, k.transition t = true) ↔
      ∀ t ∈ st.incoming ++ st.outgoing, k'.transition t = true := by
    refine forall₂_congr fun t hm => ?_
    obtain ⟨tr, htr⟩ := h.incident_live hs hm
    rw [ht t tr htr]
  simp only [restrictState, hin, hout, hall]

/-- Only what becomes of the live elements matters. -/
theorem Backed.restrict_congr (h : g.Backed)
    (hs : ∀ s st, g.state? s = some st → k.state s = k'.state s)
    (hd : ∀ d x, g.definition? d = some x → k.definition d = k'.definition d)
    (ht : ∀ t tr, g.transition? t = some tr → k.transition t = k'.transition t) :
    g.restrict k = g.restrict k' := by
  refine ext_lookups rfl ?_ ?_ ?_ (fun d => ?_) (fun s => ?_) (fun t => ?_)
  · simp only [Graph.restrict, Arena.size_restrict]
  · simp only [Graph.restrict, Arena.size_restrict]
  · simp only [Graph.restrict, Arena.size_restrict]
  · simp only [definition?_restrict]
    cases hx : g.definition? d with
    | none => simp
    | some x =>
      rw [hd d x hx, Option.map_some, Option.map_some, h.restrictDefinition_congr hx hs ht]
  · simp only [state?_restrict]
    cases hst : g.state? s with
    | none => simp
    | some st =>
      rw [hs s st hst, Option.map_some, Option.map_some, h.listed.restrictState_congr hst ht]
  · simp only [transition?_restrict]
    cases htr : g.transition? t with
    | none => simp
    | some tr => rw [ht t tr htr]

/-! ## Parts that keep the ties -/

/-- No element stays without what it needs. -/
structure Closed (g : Graph κ) (k : Kept) : Prop where
  root : k.definition g.root = true
  owner : ∀ {s : StateId} {st : State κ}, g.state? s = some st → k.state s = true →
    k.definition st.owner = true
  composite : ∀ {d : DefinitionId} {x : Definition κ} {c : StateId}, g.definition? d = some x →
    k.definition d = true → x.composite = some c → k.state c = true
  nested : ∀ {s : StateId} {st : State κ} {d : DefinitionId}, g.state? s = some st →
    k.state s = true → st.submachine = some d → k.definition d = true
  source : ∀ {t : TransitionId} {tr : Transition κ}, g.transition? t = some tr →
    k.transition t = true → k.state tr.source = true
  target : ∀ {t : TransitionId} {tr : Transition κ}, g.transition? t = some tr →
    k.transition t = true → k.state tr.target = true

section
variable (hk : g.Closed k)
include hk

theorem superdefinition_restrict (hd : k.definition d = true) :
    (g.restrict k).superdefinition d = g.superdefinition d := by
  apply Option.ext
  intro e
  rw [superdefinition_eq_some, superdefinition_eq_some]
  constructor
  · rintro ⟨y, c, st, hy, hc, hst, rfl⟩
    obtain ⟨x, -, hx, rfl⟩ := of_definition?_restrict hy
    obtain ⟨st₀, -, hst₀, rfl⟩ := of_state?_restrict hst
    exact ⟨x, c, st₀, hx, hc, hst₀, rfl⟩
  · rintro ⟨x, c, st, hx, hc, hst, rfl⟩
    exact ⟨_, c, _, definition?_restrict_of hd hx, hc,
      state?_restrict_of (hk.composite hx hd hc) hst, rfl⟩

theorem superstate_restrict (hs : k.state s = true) :
    (g.restrict k).superstate s = g.superstate s := by
  apply Option.ext
  intro c
  rw [superstate_eq_some, superstate_eq_some]
  constructor
  · rintro ⟨st, y, hst, hy, hc⟩
    obtain ⟨st₀, -, hst₀, rfl⟩ := of_state?_restrict hst
    obtain ⟨x, -, hx, rfl⟩ := of_definition?_restrict hy
    exact ⟨st₀, x, hst₀, hx, hc⟩
  · rintro ⟨st, x, hst, hx, hc⟩
    have hko := hk.owner hst hs
    exact ⟨_, _, state?_restrict_of hs hst, definition?_restrict_of hko hx, hc⟩

/-- What stays has all that is around it, and nothing more. -/
theorem within_restrict (hd : k.definition d = true) :
    (g.restrict k).Within d e ↔ g.Within d e := by
  constructor
  · intro h
    induction h using Relation.ReflTransGen.head_induction_on with
    | refl => exact .refl
    | head hs _ ih =>
      rw [superdefinition_restrict hk hd] at hs
      obtain ⟨x, c, st, hx, hc, hst, ho⟩ := superdefinition_eq_some.mp hs
      exact .head hs (ih (ho ▸ hk.owner hst (hk.composite hx hd hc)))
  · intro h
    induction h using Relation.ReflTransGen.head_induction_on with
    | refl => exact .refl
    | head hs _ ih =>
      obtain ⟨x, c, st, hx, hc, hst, ho⟩ := superdefinition_eq_some.mp hs
      rw [← superdefinition_restrict hk hd] at hs
      exact .head hs (ih (ho ▸ hk.owner hst (hk.composite hx hd hc)))

theorem inside_restrict (hs : k.state s = true) : (g.restrict k).Inside s c ↔ g.Inside s c := by
  constructor
  · intro h
    induction h using Relation.ReflTransGen.head_induction_on with
    | refl => exact .refl
    | head hs' _ ih =>
      rw [superstate_restrict hk hs] at hs'
      obtain ⟨st, x, hst, hx, hc⟩ := superstate_eq_some.mp hs'
      exact .head hs' (ih (hk.composite hx (hk.owner hst hs) hc))
  · intro h
    induction h using Relation.ReflTransGen.head_induction_on with
    | refl => exact .refl
    | head hs' _ ih =>
      obtain ⟨st, x, hst, hx, hc⟩ := superstate_eq_some.mp hs'
      rw [← superstate_restrict hk hs] at hs'
      exact .head hs' (ih (hk.composite hx (hk.owner hst hs) hc))

theorem Placed.restrict (h : g.Placed) : (g.restrict k).Placed := by
  constructor
  · intro s st hs
    obtain ⟨st₀, hks, hst₀, rfl⟩ := of_state?_restrict hs
    obtain ⟨x, hx⟩ := h.owner hst₀
    have hko := hk.owner hst₀ hks
    exact ⟨_, definition?_restrict_of hko hx⟩
  · intro t tr ht
    obtain ⟨hkt, htr⟩ := of_transition?_restrict ht
    obtain ⟨st, hst⟩ := h.source htr
    exact ⟨_, state?_restrict_of (hk.source htr hkt) hst⟩
  · intro t tr ht
    obtain ⟨hkt, htr⟩ := of_transition?_restrict ht
    obtain ⟨st, hst⟩ := h.target htr
    exact ⟨_, state?_restrict_of (hk.target htr hkt) hst⟩
  · intro t tr ht
    rw [size_restrict]
    exact h.known (of_transition?_restrict ht).2

theorem Nested.restrict (h : g.Nested) : (g.restrict k).Nested := by
  constructor
  · obtain ⟨x, hx, hc⟩ := h.root
    exact ⟨_, definition?_restrict_of hk.root hx, hc⟩
  · intro d y hy hr
    obtain ⟨x, hkd, hx, rfl⟩ := of_definition?_restrict hy
    obtain ⟨c, st, hc, hst, hsub⟩ := h.enclosed hx hr
    exact ⟨c, _, hc, state?_restrict_of (hk.composite hx hkd hc) hst, hsub⟩
  · intro s st d hs hsub
    obtain ⟨st₀, hks, hst₀, rfl⟩ := of_state?_restrict hs
    obtain ⟨x, hx, hc, hlt⟩ := h.nested hst₀ hsub
    exact ⟨_, definition?_restrict_of (hk.nested hst₀ hks hsub) hx, hc, hlt⟩
  · intro s c st y hs hy hc
    obtain ⟨st₀, -, hst₀, rfl⟩ := of_state?_restrict hs
    obtain ⟨x, -, hx, rfl⟩ := of_definition?_restrict hy
    exact h.deeper hst₀ hx hc

theorem Scoped.restrict (h : g.Scoped) : (g.restrict k).Scoped := by
  constructor
  · intro t tr y st ht hy hs
    obtain ⟨x, hkd, hx, rfl⟩ := of_definition?_restrict hy
    obtain ⟨st₀, -, hst₀, rfl⟩ := of_state?_restrict hs
    have hw := h.source (of_transition?_restrict ht).2 hx hst₀
    exact (within_restrict hk hkd).mpr hw
  · intro t tr y st ht hy hs
    obtain ⟨x, hkd, hx, rfl⟩ := of_definition?_restrict hy
    obtain ⟨st₀, -, hst₀, rfl⟩ := of_state?_restrict hs
    have hw := h.target (of_transition?_restrict ht).2 hx hst₀
    exact (within_restrict hk hkd).mpr hw

theorem Marked.restrict (h : g.Marked) : (g.restrict k).Marked := by
  constructor
  · intro d y m s hy hm
    obtain ⟨x, -, hx, rfl⟩ := of_definition?_restrict hy
    rw [marked_restrictDefinition, Option.filter_eq_some_iff] at hm
    obtain ⟨st, hst, ho, hkind⟩ := h.marked hx hm.1
    exact ⟨_, state?_restrict_of hm.2 hst, ho, hkind⟩
  · intro s st m hs hkind
    obtain ⟨st₀, hks, hst₀, rfl⟩ := of_state?_restrict hs
    obtain ⟨x, hx, hm⟩ := h.kind hst₀ hkind
    have hko := hk.owner hst₀ hks
    refine ⟨_, definition?_restrict_of hko hx, ?_⟩
    rw [marked_restrictDefinition, hm, Option.filter_some, if_pos hks]

end

theorem NamesUnique.restrict (h : g.NamesUnique) : (g.restrict k).NamesUnique := by
  constructor
  · intro s s' st st' hs hs' ho hn
    obtain ⟨q, -, hq, rfl⟩ := of_state?_restrict hs
    obtain ⟨q', -, hq', rfl⟩ := of_state?_restrict hs'
    exact h.state hq hq' ho hn
  · intro t u tr ur ht hu
    exact h.transition (of_transition?_restrict ht).2 (of_transition?_restrict hu).2

/-- A state that keeps its answer keeps its transitions. -/
theorem Current.restrict (h : g.Current) : (g.restrict k).Current := by
  refine h.carry fun {s st' n} hst' hn => ?_
  obtain ⟨st, -, hst, rfl⟩ := of_state?_restrict hst'
  have hall : ∀ t ∈ st.incoming ++ st.outgoing, k.transition t = true := by
    by_contra hnot
    rw [restrictState, if_neg hnot] at hn
    cases hn
  rw [restrictState, if_pos hall] at hn
  have hin : ∀ t ∈ st.incoming, k.transition t = true :=
    fun t ht => hall t (List.mem_append_left _ ht)
  have hout : ∀ t ∈ st.outgoing, k.transition t = true :=
    fun t ht => hall t (List.mem_append_right _ ht)
  refine ⟨st, hst, hn, computeNeighbours_congr (List.filter_eq_self.mpr hin)
    (List.filter_eq_self.mpr hout) (fun t ht => ?_) fun t ht => ?_⟩
  · rw [source?, transition?_restrict, if_pos (hin t ht), source?]
  · rw [target?, transition?_restrict, if_pos (hout t ht), target?]

theorem Tied.restrict (h : g.Tied) (hk : g.Closed k) : (g.restrict k).Tied :=
  ⟨h.listed.restrict, h.placed.restrict hk, h.names.restrict, h.nested.restrict hk,
    h.scope.restrict hk, h.marked.restrict hk, h.current.restrict⟩

end Graph
end Statechart
