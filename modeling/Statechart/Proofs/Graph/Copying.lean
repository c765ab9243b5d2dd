import Statechart.Proofs.Copier.Basic
import Statechart.Proofs.Graph.Walks

/-!
# Copying a tree of definitions

The copy of a definition places its nodes in the order of the walk. This module follows the copier:
first through definitions and states, where each node comes out with its references already renamed,
then through the transitions.
-/

namespace Statechart

namespace Arena

variable {α : Type}

def append (a : Arena α) (xs : List α) : Arena α := ⟨a.slots ++ (xs.map some).toArray⟩

@[simp] theorem append_nil (a : Arena α) : a.append [] = a := by simp [append]

theorem append_append (a : Arena α) (xs ys : List α) :
    (a.append xs).append ys = a.append (xs ++ ys) := by
  simp [append]

theorem push_append (a : Arena α) (x : α) (xs : List α) :
    (a.push x).append xs = a.append (x :: xs) := by
  simp [append, push]

theorem size_append (a : Arena α) (xs : List α) : (a.append xs).size = a.size + xs.length := by
  simp [append, size]

theorem get?_append (a : Arena α) (xs : List α) (i : Nat) :
    (a.append xs).get? i = if i < a.size then a.get? i else xs[i - a.size]? := by
  by_cases h : i < a.size
  · rw [if_pos h, get?, append, Array.getElem?_append_left h]
    rfl
  · rw [if_neg h, get?, append, Array.getElem?_append_right (Nat.le_of_not_lt h),
      List.getElem?_toArray, List.getElem?_map]
    show (xs[i - a.size]?.map some).join = _
    cases xs[i - a.size]? <;> rfl

/-- A change of the first of the elements appended. -/
theorem modify_append (a : Arena α) (x : α) (xs : List α) (f : α → α) :
    (a.append (x :: xs)).modify a.size f = a.append (f x :: xs) := by
  refine ext_get? (by simp [size_append]) fun i => ?_
  rw [get?_modify, get?_append, get?_append, get?_append]
  split
  · subst_vars
    simp
  · split
    · rfl
    · rename_i hne hle
      obtain ⟨j, hj⟩ : ∃ j, i - a.size = j + 1 := ⟨i - a.size - 1, by omega⟩
      rw [hj, List.getElem?_cons_succ, List.getElem?_cons_succ]

theorem modify_push (a : Arena α) (x : α) (f : α → α) :
    (a.push x).modify a.size f = a.push (f x) := by
  have h := modify_append a x [] f
  rwa [← push_append, ← push_append, append_nil, append_nil] at h

end Arena

/-- Where the nodes of a graph go. -/
structure Renaming where
  definition : DefinitionId → DefinitionId
  state : StateId → StateId
  transition : TransitionId → TransitionId

namespace Renaming

variable {κ : Type}

def node (ρ : Renaming) : NodeRef → NodeRef
  | .definition d => .definition (ρ.definition d)
  | .state s => .state (ρ.state s)
  | .transition t => .transition (ρ.transition t)

/-- A definition with its references renamed, but for its transitions. -/
def placeDefinition (ρ : Renaming) (root d : DefinitionId) (x : Definition κ) : Definition κ :=
  { x with
    states := x.states.map ρ.state
    composite := if d = root then none else x.composite.map ρ.state
    start := x.start.map ρ.state
    final := x.final.map ρ.state }

/-- A state with its references renamed and no transitions at it. -/
def placeState (ρ : Renaming) (st : State κ) : State κ :=
  { st with
    owner := ρ.definition st.owner
    submachine := st.submachine.map ρ.definition
    incoming := []
    outgoing := []
    neighbours := none }

end Renaming

namespace Graph

variable {κ : Type}

/-- The definitions among some nodes, as placed. -/
def placedDefinitions (g : Graph κ) (ρ : Renaming) (root : DefinitionId) (ks : List NodeRef) :
    List (Definition κ) :=
  ks.filterMap fun k => k.definition?.bind fun d => (g.definition? d).map (ρ.placeDefinition root d)

def placedStates (g : Graph κ) (ρ : Renaming) (ks : List NodeRef) : List (State κ) :=
  ks.filterMap fun k => k.state?.bind fun s => (g.state? s).map ρ.placeState

/-- A copy under way after some more nodes. -/
def grow (g : Graph κ) (ρ : Renaming) (root : DefinitionId) (c : Copier (Graph κ) NodeRef)
    (ks : List NodeRef) : Copier (Graph κ) NodeRef where
  target :=
    { c.target with
      definitions := c.target.definitions.append (g.placedDefinitions ρ root ks)
      states := c.target.states.append (g.placedStates ρ ks) }
  map := ks.reverse.map (fun k => (k, ρ.node k)) ++ c.map

/-- The renaming numbers the nodes in order, definitions from `i` and states from `j` on. -/
def Aligned (ρ : Renaming) : Nat → Nat → List NodeRef → Prop
  | _, _, [] => True
  | i, j, .definition d :: ks => ρ.definition d = ⟨i⟩ ∧ Aligned ρ (i + 1) j ks
  | i, j, .state s :: ks => ρ.state s = ⟨j⟩ ∧ Aligned ρ i (j + 1) ks
  | _, _, .transition _ :: _ => False

/-- The copier has met none of the nodes, and will give them the handles that the renaming says. -/
structure Ready (g : Graph κ) (ρ : Renaming) (c : Copier (Graph κ) NodeRef)
    (ks : List NodeRef) : Prop where
  fresh : ∀ k ∈ ks, c.get? k = none
  nodup : ks.Nodup
  definition : ∀ d, .definition d ∈ ks → ∃ x, g.definition? d = some x
  state : ∀ s, .state s ∈ ks → ∃ st, g.state? s = some st
  aligned : Aligned ρ c.target.definitions.size c.target.states.size ks

variable {g : Graph κ} {ρ : Renaming} {root d e : DefinitionId} {c c' : Copier (Graph κ) NodeRef}
  {k : NodeRef} {ks ls : List NodeRef} {s : StateId} {x : Definition κ} {st : State κ} {m n : Nat}

theorem grow_nil : g.grow ρ root c [] = c := by
  simp [grow, placedDefinitions, placedStates]

theorem grow_append : g.grow ρ root c (ks ++ ls) = g.grow ρ root (g.grow ρ root c ks) ls := by
  simp only [grow, placedDefinitions, placedStates, List.filterMap_append, Arena.append_append,
    List.reverse_append, List.map_append, List.append_assoc]

/-- A copy knows the nodes that it has grown by, and those from before. -/
theorem get?_grow : (g.grow ρ root c ks).get? k = if k ∈ ks then some (ρ.node k) else c.get? k := by
  rw [Copier.get?, grow, List.lookup_append, Copier.lookup_map]
  simp only [List.mem_reverse]
  split <;> rfl

theorem size_grow_definition (hx : g.definition? d = some x) :
    (g.grow ρ root c [.definition d]).target.definitions.size = c.target.definitions.size + 1 ∧
      (g.grow ρ root c [.definition d]).target.states.size = c.target.states.size := by
  simp [grow, Arena.size_append, placedDefinitions, placedStates, NodeRef.definition?,
    NodeRef.state?, hx]

theorem size_grow_state (hs : g.state? s = some st) :
    (g.grow ρ root c [.state s]).target.definitions.size = c.target.definitions.size ∧
      (g.grow ρ root c [.state s]).target.states.size = c.target.states.size + 1 := by
  simp [grow, Arena.size_append, placedDefinitions, placedStates, NodeRef.definition?,
    NodeRef.state?, hs]

namespace Ready

theorem congr (h : g.Ready ρ c ks) (hget : ∀ k ∈ ks, c'.get? k = none)
    (hd : c'.target.definitions.size = c.target.definitions.size)
    (hs : c'.target.states.size = c.target.states.size) : g.Ready ρ c' ks :=
  ⟨hget, h.nodup, h.definition, h.state, by rw [hd, hs]; exact h.aligned⟩

theorem tail (h : g.Ready ρ c (k :: ks)) : g.Ready ρ (g.grow ρ root c [k]) ks := by
  obtain ⟨hk, hnd⟩ := List.nodup_cons.mp h.nodup
  refine ⟨fun l hl => ?_, hnd, fun d hd => h.definition d (List.mem_cons_of_mem _ hd),
    fun s hs => h.state s (List.mem_cons_of_mem _ hs), ?_⟩
  · rw [get?_grow, if_neg, h.fresh l (List.mem_cons_of_mem _ hl)]
    rintro hlk
    rw [List.mem_singleton.mp hlk] at hl
    exact hk hl
  · have ha := h.aligned
    cases k with
    | definition d =>
      obtain ⟨x, hx⟩ := h.definition d List.mem_cons_self
      rw [(size_grow_definition hx).1, (size_grow_definition hx).2]
      exact ha.2
    | state s =>
      obtain ⟨st, hst⟩ := h.state s List.mem_cons_self
      rw [(size_grow_state hst).1, (size_grow_state hst).2]
      exact ha.2
    | transition t => exact ha.elim

theorem append_right (h : g.Ready ρ c (ks ++ ls)) : g.Ready ρ (g.grow ρ root c ks) ls := by
  induction ks generalizing c with
  | nil =>
    rw [grow_nil]
    exact h
  | cons k ks ih =>
    rw [← List.singleton_append, grow_append]
    exact ih h.tail

theorem append_left (h : g.Ready ρ c (ks ++ ls)) : g.Ready ρ c ks := by
  refine ⟨fun k hk => h.fresh k (List.mem_append_left _ hk), (List.nodup_append.mp h.nodup).1,
    fun d hd => h.definition d (List.mem_append_left _ hd),
    fun s hs => h.state s (List.mem_append_left _ hs), ?_⟩
  have ha := h.aligned
  generalize c.target.definitions.size = i at ha ⊢
  generalize c.target.states.size = j at ha ⊢
  clear h
  induction ks generalizing i j with
  | nil => trivial
  | cons k ks ih =>
    cases k with
    | definition d => exact ⟨ha.1, ih _ _ ha.2⟩
    | state s => exact ⟨ha.1, ih _ _ ha.2⟩
    | transition t => exact ha

end Ready

theorem get?_grow_of_not_mem (h : k ∉ ks) : (g.grow ρ root c ks).get? k = c.get? k := by
  rw [get?_grow, if_neg h]

theorem get?_grow_of_mem (h : k ∈ ks) : (g.grow ρ root c ks).get? k = some (ρ.node k) := by
  rw [get?_grow, if_pos h]

end Graph

/-! ## Definitions and states -/

namespace Graph

variable {κ : Type} {g : Graph κ} {ρ : Renaming} {root d e : DefinitionId}
  {c c' : Copier (Graph κ) NodeRef} {k : NodeRef} {ks ls : List NodeRef} {s : StateId}
  {x : Definition κ} {st : State κ} {m n : Nat}

/-- How far below a definition its states begin. -/
def floor (x : Definition κ) : Nat := x.composite.elim 0 (·.index + 1)

/-- Copying a definition grows the copy by the nodes of the definition. The composite state around
it has been copied before, unless the copying starts here. -/
def CopiesDefinition (g : Graph κ) (ρ : Renaming) (root : DefinitionId) (n : Nat) : Prop :=
  ∀ {c d x m}, g.definition? d = some x → root.index ≤ d.index → g.definitions.size ≤ m + d.index →
    (g.definitions.size - d.index) + (g.states.size - floor x) ≤ n →
    (∀ q, x.composite = some q →
      c.get? (.state q) = if d = root then none else some (.state (ρ.state q))) →
    g.Ready ρ c (g.nodesBelow m d) →
    Copier.copyWithin copyRule g n (.definition d) c =
      (some (.definition (ρ.definition d)), g.grow ρ root c (g.nodesBelow m d))

/-- Copying a state of a definition under way grows the copy by the state and what is nested in
it. -/
def CopiesState (g : Graph κ) (ρ : Renaming) (root : DefinitionId) (n : Nat) : Prop :=
  ∀ {c s st m}, g.state? s = some st → root.index ≤ st.owner.index →
    g.definitions.size ≤ m + (st.owner.index + 1) →
    (g.definitions.size - (st.owner.index + 1)) + (g.states.size - s.index) ≤ n →
    c.get? (.definition st.owner) = some (.definition (ρ.definition st.owner)) →
    g.Ready ρ c (.state s :: g.nodesInside m s) →
    Copier.copyWithin copyRule g n (.state s) c =
      (some (.state (ρ.state s)), g.grow ρ root c (.state s :: g.nodesInside m s))

/-- A copy under way right after the clone of a state. -/
def cloneState (c : Copier (Graph κ) NodeRef) (s : StateId)
    (st : State κ) : Copier (Graph κ) NodeRef :=
  c.record (.state s) (.state c.target.nextState)
    { c.target with
      states := c.target.states.push { st with incoming := [], outgoing := [] }.invalidate }

theorem get?_cloneState :
    (cloneState c s st).get? k = if k = .state s then some (.state c.target.nextState)
      else c.get? k := by
  rw [cloneState, Copier.get?, Copier.record, List.lookup_cons]
  by_cases hk : k = .state s
  · rw [if_pos hk, hk, beq_self_eq_true]
  · rw [if_neg hk, beq_eq_false_iff_ne.mpr hk]
    rfl

/-- The state is as it should be once what is nested in it has been copied. -/
theorem grow_cloneState (hs : g.state? s = some st) (hρ : ρ.state s = c.target.nextState)
    (root : DefinitionId) (owner : Option DefinitionId)
    (ho : owner.getD st.owner = ρ.definition st.owner) (ks : List NodeRef) :
    (⟨(g.grow ρ root (cloneState c s st) ks).target.modifyState c.target.nextState fun y =>
        { y with owner := owner.getD y.owner, submachine := st.submachine.map ρ.definition },
      (g.grow ρ root (cloneState c s st) ks).map⟩ : Copier (Graph κ) NodeRef) =
      g.grow ρ root c (.state s :: ks) := by
  have hdefs : g.placedDefinitions ρ root (.state s :: ks) = g.placedDefinitions ρ root ks := rfl
  have hstates : g.placedStates ρ (.state s :: ks) = ρ.placeState st :: g.placedStates ρ ks := by
    rw [placedStates, List.filterMap_cons, NodeRef.state?, Option.bind_some, hs]
    rfl
  have hmap : (.state s :: ks).reverse.map (fun k => (k, ρ.node k)) ++ c.map =
      ks.reverse.map (fun k => (k, ρ.node k)) ++
        (NodeRef.state s, NodeRef.state c.target.nextState) :: c.map := by
    rw [List.reverse_cons, List.map_append, List.append_assoc, ← hρ]
    rfl
  simp only [grow, cloneState, Copier.record, hdefs, hstates, hmap, modifyState, nextState,
    Arena.push_append]
  congr 2
  rw [Arena.modify_append]
  simp only [Renaming.placeState, State.invalidate, ho]

theorem ready_cloneState (hs : g.state? s = some st) (h : g.Ready ρ c (.state s :: ks)) :
    g.Ready ρ (cloneState c s st) ks := by
  have htail : g.Ready ρ (g.grow ρ ⟨0⟩ c [.state s]) ks := h.tail
  refine htail.congr (fun k hk => ?_) ?_ ?_
  · rw [get?_cloneState, if_neg, h.fresh k (List.mem_cons_of_mem _ hk)]
    rintro rfl
    exact (List.nodup_cons.mp h.nodup).1 hk
  · rw [(size_grow_state hs).1]
    rfl
  · rw [(size_grow_state hs).2]
    exact Arena.size_push ..

/-- Copying a state begins with its clone. -/
theorem copyWithin_state (hs : g.state? s = some st) (h : g.Ready ρ c (.state s :: ks)) :
    Copier.copyWithin copyRule g (n + 1) (.state s) c =
      (some (.state (ρ.state s)),
        (deepenState (Copier.copyWithin copyRule g n) c.target.nextState
          (cloneState c s st)).2) := by
  have hclone : copyRule.clone? g (.state s) c.target =
      some (.state c.target.nextState,
        { c.target with
          states :=
              c.target.states.push { st with incoming := [], outgoing := [] }.invalidate }) := by
    show cloneNode g (.state s) c.target = _
    rw [cloneNode, hs]
    rfl
  have hρ : ρ.state s = c.target.nextState := h.aligned.1
  rw [Copier.copyWithin_new (h.fresh _ List.mem_cons_self) hclone, hρ]
  rfl

section
variable {copy : NodeRef → GraphCopying κ (Option NodeRef)} {owner nested nested' : DefinitionId}
  (hs : c.target.state? s = some st)
  (howner : copy (.definition st.owner) c = (some (.definition owner), c))
include hs howner

theorem deepenState_simple (hsub : st.submachine = none) :
    deepenState copy s c = ((), { c with
      target := c.target.modifyState s fun y => { y with owner, submachine := none } }) := by
  rw [deepenState, Copier.get_bind, hs]
  dsimp only
  rw [Copier.bind_of howner, hsub]
  rfl

theorem deepenState_composite (hsub : st.submachine = some nested)
    (hcopy : copy (.definition nested) c = (some (.definition nested'), c')) :
    deepenState copy s c = ((), { c' with
      target := c'.target.modifyState s fun y =>
        { y with owner, submachine := some nested' } }) := by
  rw [deepenState, Copier.get_bind, hs]
  dsimp only
  rw [Copier.bind_of howner, hsub]
  dsimp only
  rw [Copier.bind_of hcopy]
  rfl

end

theorem CopiesDefinition.state (h : g.Tied) (hn : g.CopiesDefinition ρ root n) :
    g.CopiesState ρ root (n + 1) := by
  intro c s st m hs hroot hm hfuel howner hready
  have hρ : ρ.state s = c.target.nextState := hready.aligned.1
  rw [copyWithin_state hs hready]
  congr 1
  have hget : (cloneState c s st).target.state? c.target.nextState =
      some { st with incoming := [], outgoing := [] }.invalidate := by
    show (c.target.states.push _).get? c.target.states.size = _
    rw [Arena.get?_push, if_pos rfl]
  have hknown : Copier.copyWithin copyRule g n (.definition st.owner) (cloneState c s st) =
      (some (.definition (ρ.definition st.owner)), cloneState c s st) := by
    refine Copier.copyWithin_known ?_
    rw [get?_cloneState, if_neg (by simp), howner]
  have hgrow := fun ks => grow_cloneState hs hρ root (some (ρ.definition st.owner)) rfl ks
  cases hsub : st.submachine with
  | none =>
    have hnested : g.nodesInside m s =
      [] := by rw [nodesInside, nestedIn, hs, Option.bind_some, hsub]
    rw [deepenState_simple hget hknown hsub, hnested, ← hgrow [], hsub, grow_nil]
    rfl
  | some e =>
    have hnested : g.nodesInside m s = g.nodesBelow m e := by
      rw [nodesInside, nestedIn, hs, Option.bind_some, hsub]
    obtain ⟨x, hx, hxs, hlt⟩ := h.nested.nested hs hsub
    have hcopy : Copier.copyWithin copyRule g n (.definition e) (cloneState c s st) =
        (some (.definition (ρ.definition e)),
          g.grow ρ root (cloneState c s st) (g.nodesBelow m e)) := by
      have hfloor : floor x = s.index + 1 := by rw [floor, hxs]; rfl
      have hslt := state?_lt hs
      have hxlt := definition?_lt hx
      refine hn hx (by omega) (by omega) (by omega) ?_ (hnested ▸ ready_cloneState hs hready)
      intro q hq
      rw [hxs] at hq
      obtain rfl := Option.some.inj hq
      have hne : e ≠ root := by
        rintro rfl
        omega
      rw [get?_cloneState, if_pos rfl, if_neg hne, hρ]
    rw [deepenState_composite hget hknown hsub hcopy, hnested, ← hgrow, hsub]
    rfl

/-- The states of a definition under way are copied one after the other. -/
theorem CopiesState.filterMapM (hn : g.CopiesState ρ root n) (hroot : root.index ≤ d.index)
    (hm : g.definitions.size ≤ m + (d.index + 1)) (ss : List StateId)
    (hss : ∀ s ∈ ss, (∃ st, g.state? s = some st ∧ st.owner = d) ∧
      (g.definitions.size - (d.index + 1)) + (g.states.size - s.index) ≤ n)
    (hd : c.get? (.definition d) = some (.definition (ρ.definition d)))
    (hready : g.Ready ρ c (ss.flatMap fun s => .state s :: g.nodesInside m s)) :
    (ss.filterMapM fun s => do
      pure ((← Copier.copyWithin copyRule g n (.state s)).bind (·.state?)) :
        GraphCopying κ (List StateId)) c =
      (ss.map ρ.state, g.grow ρ root c (ss.flatMap fun s => .state s :: g.nodesInside m s)) := by
  induction ss generalizing c with
  | nil =>
    rw [List.flatMap_nil, grow_nil]
    rfl
  | cons s ss ih =>
    obtain ⟨⟨st, hst, rfl⟩, hfuel⟩ := hss s List.mem_cons_self
    rw [List.flatMap_cons] at hready ⊢
    have hfirst := hn hst hroot hm hfuel hd hready.append_left
    have hrest := ih (c := g.grow ρ root c (.state s :: g.nodesInside m s))
      (fun q hq => hss q (List.mem_cons_of_mem _ hq)) (by rw [get?_grow, hd]; split <;> rfl)
      hready.append_right
    rw [List.filterMapM_cons, grow_append]
    have hone : (do pure ((← Copier.copyWithin copyRule g n (.state s)).bind (·.state?)) :
        GraphCopying κ (Option StateId)) c =
        (some (ρ.state s), g.grow ρ root c (.state s :: g.nodesInside m s)) := by
      rw [Copier.bind_of hfirst]
      rfl
    exact (Copier.bind_of hone).trans ((Copier.bind_of hrest).trans rfl)

/-- A copy under way right after the clone of a definition. -/
def cloneDefinition (c : Copier (Graph κ) NodeRef) (d : DefinitionId) (x : Definition κ) :
    Copier (Graph κ) NodeRef :=
  c.record (.definition d) (.definition c.target.nextDefinition)
    { c.target with definitions := c.target.definitions.push x }

theorem get?_cloneDefinition :
    (cloneDefinition c d x).get? k =
      if k = .definition d then some (.definition c.target.nextDefinition) else c.get? k := by
  rw [cloneDefinition, Copier.get?, Copier.record, List.lookup_cons]
  by_cases hk : k = .definition d
  · rw [if_pos hk, hk, beq_self_eq_true]
  · rw [if_neg hk, beq_eq_false_iff_ne.mpr hk]
    rfl

theorem grow_cloneDefinition (hx : g.definition? d = some x)
    (hρ : ρ.definition d = c.target.nextDefinition) (f : Definition κ → Definition κ)
    (hf : f x = ρ.placeDefinition root d x) (ks : List NodeRef) :
    (⟨(g.grow ρ root (cloneDefinition c d x) ks).target.modifyDefinition c.target.nextDefinition f,
      (g.grow ρ root (cloneDefinition c d x) ks).map⟩ : Copier (Graph κ) NodeRef) =
      g.grow ρ root c (.definition d :: ks) := by
  have hstates : g.placedStates ρ (.definition d :: ks) = g.placedStates ρ ks := rfl
  have hdefs : g.placedDefinitions ρ root (.definition d :: ks) =
      ρ.placeDefinition root d x :: g.placedDefinitions ρ root ks := by
    rw [placedDefinitions, List.filterMap_cons, NodeRef.definition?, Option.bind_some, hx]
    rfl
  have hmap : (.definition d :: ks).reverse.map (fun k => (k, ρ.node k)) ++ c.map =
      ks.reverse.map (fun k => (k, ρ.node k)) ++
        (NodeRef.definition d, NodeRef.definition c.target.nextDefinition) :: c.map := by
    rw [List.reverse_cons, List.map_append, List.append_assoc, ← hρ]
    rfl
  simp only [grow, cloneDefinition, Copier.record, hdefs, hstates, hmap,
    modifyDefinition, nextDefinition, Arena.push_append]
  congr 2
  rw [Arena.modify_append, hf]

/-- The composite state around a definition is not among its nodes. -/
theorem composite_not_mem_nodesBelow (h : g.Tied) (hx : g.definition? d = some x)
    (hn : g.definitions.size ≤ n + d.index) (hs : x.composite = some s) :
    .state s ∉ g.nodesBelow n d := by
  intro hm
  obtain ⟨st, hst, hw⟩ := (state_mem_nodesBelow h ⟨x, hx⟩ hn).mp hm
  have hsup := superdefinition_eq_some.mpr ⟨x, s, st, hx, hs, hst, rfl⟩
  have hlt := h.nested.superdefinition_lt hsup
  have hle := Within.index_le h.nested hw
  omega

theorem ready_cloneDefinition (hx : g.definition? d = some x)
    (h : g.Ready ρ c (.definition d :: ks)) : g.Ready ρ (cloneDefinition c d x) ks := by
  have htail : g.Ready ρ (g.grow ρ ⟨0⟩ c [.definition d]) ks := h.tail
  refine htail.congr (fun k hk => ?_) ?_ ?_
  · rw [get?_cloneDefinition, if_neg, h.fresh k (List.mem_cons_of_mem _ hk)]
    rintro rfl
    exact (List.nodup_cons.mp h.nodup).1 hk
  · rw [(size_grow_definition hx).1]
    exact Arena.size_push ..
  · rw [(size_grow_definition hx).2]
    rfl

/-- The states of a definition come after the composite state around it. -/
theorem floor_le (h : g.Tied) (hx : g.definition? d = some x)
    (hs : s ∈ x.states) : floor x ≤ s.index := by
  obtain ⟨st, hst, ho⟩ := h.listed.state_live hx hs
  unfold floor
  cases hc : x.composite with
  | none => exact Nat.zero_le _
  | some q => exact h.nested.deeper hst (ho ▸ hx) hc

/-- The marks of a definition are among its states, so that a copy that has met them can look them
up. -/
theorem bind_marked_grow (h : g.Tied) (hx : g.definition? d = some x) (mk : Mark)
    (hks : ∀ s ∈ x.states, .state s ∈ ks) :
    ((x.marked mk).bind fun s => ((g.grow ρ root c ks).get? (.state s)).bind (·.state?)) =
      (x.marked mk).map ρ.state := by
  cases hm : x.marked mk with
  | none => rfl
  | some s =>
    obtain ⟨st, hst, ho, -⟩ := h.marked.marked hx hm
    have hs : s ∈ x.states := h.listed.state_mem (ho ▸ hx) hst
    rw [Option.bind_some, get?_grow_of_mem (hks s hs)]
    rfl

/-- The state around a definition is not among its nodes: what was known of it before is known
after. -/
theorem bind_composite_grow (h : g.Tied) (hx : g.definition? d = some x)
    (hn : g.definitions.size ≤ n + d.index)
    (hc : ∀ q, x.composite = some q →
      c.get? (.state q) = if d = root then none else some (.state (ρ.state q)))
    (hks : ∀ k ∈ ks, k ∈ g.nodesBelow n d) :
    (x.composite.bind fun s =>
        ((g.grow ρ root (cloneDefinition c d x) ks).get? (.state s)).bind (·.state?)) =
      if d = root then none else x.composite.map ρ.state := by
  cases hq : x.composite with
  | none => split <;> rfl
  | some q =>
    have hout := composite_not_mem_nodesBelow h hx hn hq
    rw [Option.bind_some, get?_grow_of_not_mem (fun hin => hout (hks _ hin)), get?_cloneDefinition,
      if_neg (by simp), hc q hq]
    split <;> rfl

/-- Copying a definition begins with its clone. -/
theorem copyWithin_definition (hx : g.definition? d = some x)
    (h : g.Ready ρ c (.definition d :: ks)) :
    Copier.copyWithin copyRule g (n + 1) (.definition d) c =
      (some (.definition (ρ.definition d)),
        (deepenDefinition (Copier.copyWithin copyRule g n) c.target.nextDefinition
          (cloneDefinition c d x)).2) := by
  have hclone : copyRule.clone? g (.definition d) c.target =
      some (.definition c.target.nextDefinition,
        { c.target with definitions := c.target.definitions.push x }) := by
    show cloneNode g (.definition d) c.target = _
    rw [cloneNode, hx]
    rfl
  have hρ : ρ.definition d = c.target.nextDefinition := h.aligned.1
  rw [Copier.copyWithin_new (h.fresh _ List.mem_cons_self) hclone, hρ]
  rfl

theorem CopiesState.definition (h : g.Tied) (hn : g.CopiesState ρ root n) :
    g.CopiesDefinition ρ root (n + 1) := by
  intro c d x m hx hroot hm hfuel hcomposite hready
  have hxlt := definition?_lt hx
  obtain ⟨m, rfl⟩ : ∃ m', m = m' + 1 := ⟨m - 1, by omega⟩
  have hbelow := nodesBelow_succ (n := m) hx
  rw [hbelow] at hready ⊢
  have hρ : ρ.definition d = c.target.nextDefinition := hready.aligned.1
  rw [copyWithin_definition hx hready]
  congr 1
  have hget : (cloneDefinition c d x).target.definition? c.target.nextDefinition = some x := by
    show (c.target.definitions.push _).get? c.target.definitions.size = _
    rw [Arena.get?_push, if_pos rfl]
  have hloop := hn.filterMapM (c := cloneDefinition c d x) (d := d) (m := m) hroot
    (by omega) x.states (fun s hs => by
      obtain ⟨st, hst, ho⟩ := h.listed.state_live hx hs
      refine ⟨⟨st, hst, ho⟩, ?_⟩
      have hslt := state?_lt hst
      have hfloor := floor_le h hx hs
      omega)
    (by rw [get?_cloneDefinition, if_pos rfl, hρ]) (ready_cloneDefinition hx hready)
  rw [deepenDefinition, Copier.get_bind, hget]
  dsimp only
  rw [Copier.bind_of hloop, ← grow_cloneDefinition hx hρ]
  · rfl
  · generalize hks : (x.states.flatMap fun s => .state s :: g.nodesInside m s) = ks at hbelow ⊢
    have hmem (s : StateId) (hs : s ∈ x.states) : .state s ∈ ks :=
      hks ▸ List.mem_flatMap.mpr ⟨s, hs, List.mem_cons_self⟩
    have hmark (mk : Mark) : ((x.marked mk).bind fun s =>
        ((g.grow ρ root (cloneDefinition c d x) ks).get? (.state s)).bind (·.state?)) =
          (x.marked mk).map ρ.state :=
      bind_marked_grow h hx mk hmem
    have hcomp : (x.composite.bind fun s =>
        ((g.grow ρ root (cloneDefinition c d x) ks).get? (.state s)).bind (·.state?)) =
          if d = root then none else x.composite.map ρ.state :=
      bind_composite_grow h hx hm hcomposite fun k hk => hbelow ▸ List.mem_cons_of_mem _ hk
    have hstart := hmark .start
    have hfinal := hmark .final
    simp only [Definition.marked] at hstart hfinal
    rw [Renaming.placeDefinition, ← hcomp, ← hstart, ← hfinal]

/-- The copier goes through a definition in the order of the walk. -/
theorem copiesDefinition (h : g.Tied) (n : Nat) :
    g.CopiesDefinition ρ root n ∧ g.CopiesState ρ root n := by
  induction n with
  | zero =>
    constructor
    · intro c d x m hx hroot hm hfuel
      have hlt := definition?_lt hx
      omega
    · intro c s st m hs hroot hm hfuel
      have hlt := state?_lt hs
      omega
  | succ n ih =>
    obtain ⟨hd, hs⟩ := ih
    exact ⟨CopiesState.definition h hs, CopiesDefinition.state h hd⟩

end Graph
end Statechart
