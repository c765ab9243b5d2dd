import Statechart.Proofs.Graph.Replica

/-!
# A copy is its own copy

A walk of a copy meets the copies in the order in which a walk of the definition meets what they are
copies of. That is the order in which the copies have their places, so each element of a copy stands
where a copy of the copy puts it. What a copy has forgotten of its original, by whatever edits that
was made, is forgotten at once: to copy the copy changes nothing and takes every handle to itself.
-/

namespace Statechart

/-- A test for being one of the places that are taken, where each stays where it is. -/
theorem ite_mem_map {α β γ : Type} [DecidableEq α] {xs : List α} {place again : α → α}
    {node : α → β} {y : α} {o : Option γ} (hlive : ∀ x ∈ xs, place x = y → ∃ a, o = some a)
    (htaken : ∀ a, o = some a → ∃ x ∈ xs, place x = y)
    (hstays : ∀ x ∈ xs, again (place x) = place x) :
    (if y ∈ xs.map place then some (node (again y)) else none) = o.map fun _ => node y := by
  cases ho : o with
  | none =>
    refine if_neg fun hmem => ?_
    obtain ⟨x, hx, heq⟩ := List.mem_map.mp hmem
    obtain ⟨a, ha⟩ := hlive x hx heq
    rw [ho] at ha
    cases ha
  | some a =>
    obtain ⟨x, hx, rfl⟩ := htaken a ho
    rw [if_pos (List.mem_map_of_mem hx), hstays x hx, Option.map_some]

/-- Where each element has gone to its place in a list, the places are in order. -/
theorem idxOf_map_place {α β : Type} [DecidableEq α] [DecidableEq β] {place : Nat → β}
    (hplace : place.Injective) {xs : List α} (hnd : xs.Nodup) {x : α} (hx : x ∈ xs) :
    (xs.map fun y => place (xs.idxOf y)).idxOf (place (xs.idxOf x)) = xs.idxOf x := by
  have hplaced : (xs.map fun y => place (xs.idxOf y)).Nodup :=
    hnd.map_on fun y hy z _ heq => (List.idxOf_inj hy).mp (hplace heq)
  refine ((idxOf_eq_iff hplaced (List.mem_map_of_mem hx) _).mpr ?_).symm
  rw [List.getElem?_map, (idxOf_eq_iff hnd hx _).mp rfl, Option.map_some]

namespace Graph

/-- The map takes each element of the graph to itself, and nothing else to anything. -/
structure Identity {κ : Type} (g : Graph κ) (c : GraphCopy) : Prop where
  definition : ∀ e, c.map.lookup (.definition e) = (g.definition? e).map fun _ => .definition e
  state : ∀ s, c.map.lookup (.state s) = (g.state? s).map fun _ => .state s
  transition : ∀ t, c.map.lookup (.transition t) = (g.transition? t).map fun _ => .transition t

variable {κ : Type} {g : Graph κ} {d e : DefinitionId} {s : StateId} {t : TransitionId}
  {x : Definition κ} {st : State κ} {tr : Transition κ} {n m : Nat}

/-- A walk that is allowed to go deep enough meets the same however deep it is allowed to go. -/
theorem nodesBelow_eq (h : g.Tied) (hd : ∃ x, g.definition? d = some x)
    (hn : g.definitions.size ≤ n + d.index) (hm : g.definitions.size ≤ m + d.index) :
    g.nodesBelow n d = g.nodesBelow m d := by
  obtain ⟨x, hx⟩ := hd
  have hlt := definition?_lt hx
  induction n generalizing d m x with
  | zero => omega
  | succ n ih =>
    cases m with
    | zero => omega
    | succ m =>
      rw [nodesBelow_succ hx, nodesBelow_succ hx]
      refine congrArg _ (List.flatMap_congr fun s hs => congrArg _ ?_)
      unfold nodesInside
      cases hf : g.nestedIn s with
      | none => rfl
      | some f =>
        obtain ⟨-, ⟨y, hy⟩, hnf⟩ := h.below hx hn hs hf
        obtain ⟨-, -, hmf⟩ := h.below hx hm hs hf
        exact ih hnf hmf y hy (definition?_lt hy)

/-! ## Walks of a copy -/

section
variable (h : g.Tied) (hd : ∃ x, g.definition? d = some x)
include h hd

theorem nestedIn_copyOf (hs : s ∈ g.walkStates d) :
    (g.copyOf d).nestedIn ((g.placement d).state s) =
      (g.nestedIn s).map (g.placement d).definition := by
  obtain ⟨st, hst⟩ := walkStates_live h hd hs
  rw [nestedIn, nestedIn, state?_copyOf h hd hs hst, hst]
  rfl

/-- A walk of a copied definition meets the copies of what a walk of the definition meets. -/
theorem nodesBelow_copyOf (n : Nat) (he : e ∈ g.walkDefinitions d) :
    (g.copyOf d).nodesBelow n ((g.placement d).definition e) =
      (g.nodesBelow n e).map (g.placement d).node := by
  induction n generalizing e with
  | zero => rfl
  | succ n ih =>
    obtain ⟨x, hx⟩ := walkDefinitions_live h hd he
    rw [nodesBelow_succ hx, nodesBelow_succ (definition?_copyOf h hd he hx)]
    show _ :: (x.states.map (g.placement d).state).flatMap _ = _ :: List.map _ _
    rw [List.flatMap_map, List.map_flatMap]
    refine congrArg _ (List.flatMap_congr fun s hs => congrArg _ ?_)
    have hmem := states_mem_walkStates h hd he hx hs
    unfold nodesInside
    rw [nestedIn_copyOf h hd hmem]
    cases hf : g.nestedIn s with
    | none => rfl
    | some f =>
      obtain ⟨st, hst, hsub⟩ := nestedIn_eq_some.mp hf
      exact ih (submachine_mem_walk h hd hmem hst hsub).1

/-- A walk of a whole copy meets the copies of all that was copied. -/
theorem nodesBelow_root_copyOf :
    (g.copyOf d).nodesBelow (g.copyOf d).definitions.size (g.copyOf d).root =
    (g.nodesBelow g.definitions.size d).map (g.placement d).node := by
  have hcopy := tied_copyOf h hd
  have hroot : (g.copyOf d).root = (g.placement d).definition d := (placement_root hd).symm
  have hlong := nodesBelow_copyOf h hd ((g.copyOf d).definitions.size + g.definitions.size)
    ((mem_walkDefinitions h hd).mpr .refl)
  rw [nodesBelow_eq hcopy hcopy.live_root (m := (g.copyOf d).definitions.size + g.definitions.size)
    (by omega) (by omega),
    nodesBelow_eq h hd (m := (g.copyOf d).definitions.size + g.definitions.size) (by omega)
      (by omega), hroot, hlong]

theorem walkDefinitions_copyOf :
    (g.copyOf d).walkDefinitions (g.copyOf d).root =
      (g.walkDefinitions d).map (g.placement d).definition := by
  rw [walkDefinitions, nodesBelow_root_copyOf h hd, List.filterMap_map, walkDefinitions,
    List.map_filterMap]
  refine List.filterMap_congr fun k _ => ?_
  cases k <;> rfl

theorem walkStates_copyOf :
    (g.copyOf d).walkStates (g.copyOf d).root = (g.walkStates d).map (g.placement d).state := by
  rw [walkStates_eq, nodesBelow_root_copyOf h hd, List.filterMap_map, walkStates_eq,
    List.map_filterMap]
  refine List.filterMap_congr fun k _ => ?_
  cases k <;> rfl

/-- Both ends of a transition of a copy lie in the copy. -/
theorem endsInside_copyOf (ht : t ∈ g.copiedTransitions d) :
    (g.copyOf d).endsInside (g.copyOf d).root ((g.placement d).transition t) = true := by
  obtain ⟨tr, htr⟩ := copiedTransitions_live h hd ht
  obtain ⟨-, hsource, htarget⟩ := ends_mem_walk h hd ht htr
  rw [endsInside, transition?_copyOf h hd ht htr, Option.any_some,
    walkStates_copyOf h hd, Bool.and_eq_true, List.contains_iff_mem, List.contains_iff_mem]
  exact ⟨List.mem_map_of_mem hsource, List.mem_map_of_mem htarget⟩

/-- So a copy of a copy leaves no transition behind. -/
theorem copiedTransitions_copyOf :
    (g.copyOf d).copiedTransitions (g.copyOf d).root =
      (g.copiedTransitions d).map (g.placement d).transition := by
  rw [copiedTransitions_eq, walkDefinitions_copyOf h hd, List.flatMap_map,
    copiedTransitions_eq, List.map_flatMap]
  refine List.flatMap_congr fun e he => ?_
  obtain ⟨x, hx⟩ := walkDefinitions_live h hd he
  rw [definition?_copyOf h hd he hx, hx]
  show ((x.transitions.filter (g.endsInside d)).map (g.placement d).transition).filter _ =
    List.map _ _
  refine List.filter_eq_self.mpr fun t' ht' => ?_
  obtain ⟨t, ht, rfl⟩ := List.mem_map.mp ht'
  exact endsInside_copyOf h hd (mem_copiedTransitions_of he hx ht)

/-! ## Everything is in its place -/

/-- A copy of a copy puts each definition where it stands. -/
theorem placement_definition_copyOf (he : e ∈ g.walkDefinitions d) :
    ((g.copyOf d).placement (g.copyOf d).root).definition ((g.placement d).definition e) =
      (g.placement d).definition e := by
  refine congrArg DefinitionId.mk ?_
  rw [walkDefinitions_copyOf h hd]
  exact idxOf_map_place (fun _ _ => DefinitionId.mk.inj) (nodup_walkDefinitions h hd) he

theorem placement_state_copyOf (hs : s ∈ g.walkStates d) :
    ((g.copyOf d).placement (g.copyOf d).root).state ((g.placement d).state s) =
      (g.placement d).state s := by
  refine congrArg StateId.mk ?_
  rw [walkStates_copyOf h hd]
  exact idxOf_map_place (fun _ _ => StateId.mk.inj) (nodup_walkStates h hd) hs

theorem placement_transition_copyOf (ht : t ∈ g.copiedTransitions d) :
    ((g.copyOf d).placement (g.copyOf d).root).transition ((g.placement d).transition t) =
      (g.placement d).transition t := by
  refine congrArg TransitionId.mk ?_
  rw [copiedTransitions_copyOf h hd]
  exact idxOf_map_place (fun _ _ => TransitionId.mk.inj) (nodup_copiedTransitions h hd) ht

/-- What a copied definition names keeps its place, and nothing of it is left behind. -/
theorem linkDefinition_copyOf (he : e ∈ g.walkDefinitions d) (hx : g.definition? e = some x) :
    let y := (g.placement d).linkDefinition d e (x.transitions.filter (g.endsInside d)) x
    ((g.copyOf d).placement (g.copyOf d).root).linkDefinition (g.copyOf d).root
      ((g.placement d).definition e)
      (y.transitions.filter ((g.copyOf d).endsInside (g.copyOf d).root)) y = y := by
  intro y
  let σ := (g.copyOf d).placement (g.copyOf d).root
  have hmarked {m : Mark} {o : Option StateId} (ho : x.marked m = o) :
      (o.map (g.placement d).state).map σ.state = o.map (g.placement d).state := by
    cases o with
    | none => rfl
    | some s =>
      exact congrArg some (placement_state_copyOf h hd (mem_walkStates_of_marked h hd he hx ho))
  have hstates : y.states.map σ.state = y.states := by
    show (x.states.map _).map _ = x.states.map _
    rw [List.map_map]
    exact List.map_congr_left fun s hs =>
      placement_state_copyOf h hd (states_mem_walkStates h hd he hx hs)
  have htransitions : (y.transitions.filter ((g.copyOf d).endsInside (g.copyOf d).root)).map
      σ.transition = y.transitions := by
    show (((x.transitions.filter _).map _).filter _).map _ = (x.transitions.filter _).map _
    rw [List.filter_eq_self.mpr, List.map_map]
    · exact List.map_congr_left fun t ht =>
        placement_transition_copyOf h hd (mem_copiedTransitions_of he hx ht)
    · intro t' ht'
      obtain ⟨t, ht, rfl⟩ := List.mem_map.mp ht'
      exact endsInside_copyOf h hd (mem_copiedTransitions_of he hx ht)
  have hcomposite : (if (g.placement d).definition e = (g.copyOf d).root then none
      else y.composite.map σ.state) = y.composite := by
    show (if _ then none else (if e = d then none else x.composite.map _).map _) =
      if e = d then none else x.composite.map _
    by_cases heq : e = d
    · rw [if_pos heq, Option.map_none, ite_self]
    · -- Only the definition copied has become the root.
      have hroot : (g.placement d).definition e ≠ (g.copyOf d).root := fun hroot =>
        heq (placement_definition_inj he (hroot.trans (placement_root hd).symm))
      obtain ⟨c, -, hc, -, -, hmem⟩ := composite_mem_walk h hd he heq hx
      rw [if_neg hroot, if_neg heq, hc]
      exact congrArg some (placement_state_copyOf h hd hmem)
  show ({ y with
    states := y.states.map σ.state
    composite := if (g.placement d).definition e = (g.copyOf d).root then
      none else y.composite.map σ.state
    start := y.start.map σ.state
    final := y.final.map σ.state
    transitions := (y.transitions.filter ((g.copyOf d).endsInside (g.copyOf d).root)).map
        σ.transition } :
      Definition κ) = y
  have hstart : y.start.map σ.state = y.start := hmarked (m := .start) rfl
  have hfinal : y.final.map σ.state = y.final := hmarked (m := .final) rfl
  rw [hstates, hcomposite, hstart, hfinal, htransitions]

/-- The transitions at either end of a copied state are met in the order in which the state lists
them. -/
theorem at_end_copyOf {p : Transition κ → StateId}
    (hp : ∀ tr, p ((g.placement d).linkTransition tr) = (g.placement d).state (p tr))
    (hs : s ∈ g.walkStates d) :
    (((g.copyOf d).copiedTransitions (g.copyOf d).root).filter fun t =>
        ((g.copyOf d).transition? t).map p = some ((g.placement d).state s)).map
      ((g.copyOf d).placement (g.copyOf d).root).transition =
      ((g.copiedTransitions d).filter fun t => (g.transition? t).map p = some s).map
        (g.placement d).transition := by
  let ends (t : TransitionId) : Bool :=
    decide (((g.copyOf d).transition? t).map p = some ((g.placement d).state s))
  have hsame : (g.copiedTransitions d).filter (ends ∘ (g.placement d).transition) =
      (g.copiedTransitions d).filter fun t => (g.transition? t).map p = some s := by
    refine List.filter_congr fun t ht => decide_eq_decide.mpr ?_
    obtain ⟨tr, htr⟩ := copiedTransitions_live h hd ht
    rw [transition?_copyOf h hd ht htr, htr, Option.map_some, Option.map_some, hp,
      Option.some_inj, Option.some_inj]
    exact ⟨fun heq => (placement_state_inj hs heq.symm).symm, fun heq => congrArg _ heq⟩
  rw [copiedTransitions_copyOf h hd, List.filter_map, hsame, List.map_map]
  exact List.map_congr_left fun t ht => placement_transition_copyOf h hd (List.mem_filter.mp ht).1

/-- What a copied state names keeps its place, in the lists of transitions too. -/
theorem linkState_copyOf (hs : s ∈ g.walkStates d) (hst : g.state? s = some st) :
    let y := (g.placement d).linkState g (g.copiedTransitions d) s st
    ((g.copyOf d).placement (g.copyOf d).root).linkState (g.copyOf d)
      ((g.copyOf d).copiedTransitions (g.copyOf d).root) ((g.placement d).state s) y = y := by
  intro y
  let σ := (g.copyOf d).placement (g.copyOf d).root
  have howner : σ.definition y.owner = y.owner :=
    placement_definition_copyOf h hd (owner_mem_walkDefinitions h hd hs hst)
  have hsubmachine : y.submachine.map σ.definition = y.submachine := by
    show (st.submachine.map _).map _ = st.submachine.map _
    cases hsub : st.submachine with
    | none => rfl
    | some e =>
      exact congrArg some (placement_definition_copyOf h hd
        (submachine_mem_walk h hd hs hst hsub).1)
  let listed (ends : TransitionId → Option StateId) : List TransitionId :=
    (((g.copyOf d).copiedTransitions (g.copyOf d).root).filter fun t =>
      ends t = some ((g.placement d).state s)).map σ.transition
  have hincoming : listed (g.copyOf d).target? = y.incoming := at_end_copyOf h hd (fun _ => rfl) hs
  have houtgoing : listed (g.copyOf d).source? = y.outgoing := at_end_copyOf h hd (fun _ => rfl) hs
  show ({ y with
    owner := σ.definition y.owner
    submachine := y.submachine.map σ.definition
    incoming := listed (g.copyOf d).target?
    outgoing := listed (g.copyOf d).source? } : State κ) = y
  rw [howner, hsubmachine, hincoming, houtgoing]

/-- What a copied transition names keeps its place. -/
theorem linkTransition_copyOf (ht : t ∈ g.copiedTransitions d) (htr : g.transition? t = some tr) :
    ((g.copyOf d).placement (g.copyOf d).root).linkTransition ((g.placement d).linkTransition tr) =
      (g.placement d).linkTransition tr := by
  obtain ⟨howner, hsource, htarget⟩ := ends_mem_walk h hd ht htr
  show ({ (g.placement d).linkTransition tr with
    owner := ((g.copyOf d).placement (g.copyOf d).root).definition
      ((g.placement d).definition tr.owner)
    source := ((g.copyOf d).placement (g.copyOf d).root).state ((g.placement d).state tr.source)
    target := ((g.copyOf d).placement (g.copyOf d).root).state ((g.placement d).state tr.target) } :
      Transition κ) = _
  rw [placement_definition_copyOf h hd howner, placement_state_copyOf h hd hsource,
    placement_state_copyOf h hd htarget]
  rfl

/-! ## The copy of a copy -/

/-- The copy of a copy is the copy. -/
theorem copyOf_copyOf : (g.copyOf d).copyOf (g.copyOf d).root = g.copyOf d := by
  let k := g.copyOf d
  have hdefinitions : k.linkedDefinitions k.root (k.walkDefinitions k.root) =
      g.linkedDefinitions d (g.walkDefinitions d) := by
    rw [linkedDefinitions, walkDefinitions_copyOf h hd, List.filterMap_map, linkedDefinitions]
    refine List.filterMap_congr fun e he => ?_
    obtain ⟨x, hx⟩ := walkDefinitions_live h hd he
    rw [Function.comp_apply, definition?_copyOf h hd he hx, hx]
    exact congrArg some (linkDefinition_copyOf h hd he hx)
  have hstates : k.linkedStates k.root (k.copiedTransitions k.root) =
      g.linkedStates d (g.copiedTransitions d) := by
    rw [linkedStates, walkStates_copyOf h hd, List.filterMap_map, linkedStates]
    refine List.filterMap_congr fun s hs => ?_
    obtain ⟨st, hst⟩ := walkStates_live h hd hs
    rw [Function.comp_apply, state?_copyOf h hd hs hst, hst]
    exact congrArg some (linkState_copyOf h hd hs hst)
  have htransitions : k.linkedTransitions k.root (k.copiedTransitions k.root) =
      g.linkedTransitions d (g.copiedTransitions d) := by
    rw [linkedTransitions, copiedTransitions_copyOf h hd, List.filterMap_map, linkedTransitions]
    refine List.filterMap_congr fun t ht => ?_
    obtain ⟨tr, htr⟩ := copiedTransitions_live h hd ht
    rw [Function.comp_apply, transition?_copyOf h hd ht htr, htr]
    exact congrArg some (linkTransition_copyOf h hd ht htr)
  show (⟨.ofList (k.linkedDefinitions k.root (k.walkDefinitions k.root)),
    .ofList (k.linkedStates k.root (k.copiedTransitions k.root)),
    .ofList (k.linkedTransitions k.root (k.copiedTransitions k.root)), ⟨0⟩⟩ : Graph κ) = _
  rw [hdefinitions, hstates, htransitions]
  rfl

/-- The map of the copy of a copy takes each handle of the copy to itself. -/
theorem identity_copyMap : (g.copyOf d).Identity ((g.copyOf d).copyMap (g.copyOf d).root) where
  definition e' := by
    rw [lookup_copyMap_definition, walkDefinitions_copyOf h hd]
    refine ite_mem_map (fun e he heq => ?_) (fun y hy => ?_) fun e =>
      placement_definition_copyOf h hd
    · obtain ⟨x, hx⟩ := walkDefinitions_live h hd he
      exact heq ▸ ⟨_, definition?_copyOf h hd he hx⟩
    · obtain ⟨e, x, he, heq, -⟩ := of_definition?_copyOf h hd hy
      exact ⟨e, he, heq⟩
  state s' := by
    rw [lookup_copyMap_state, walkStates_copyOf h hd]
    refine ite_mem_map (fun s hs heq => ?_) (fun y hy => ?_) fun s => placement_state_copyOf h hd
    · obtain ⟨st, hst⟩ := walkStates_live h hd hs
      exact heq ▸ ⟨_, state?_copyOf h hd hs hst⟩
    · obtain ⟨s, st, hs, heq, -⟩ := of_state?_copyOf h hd hy
      exact ⟨s, hs, heq⟩
  transition t' := by
    rw [lookup_copyMap_transition, copiedTransitions_copyOf h hd]
    refine ite_mem_map (fun t ht heq => ?_) (fun y hy => ?_) fun t =>
      placement_transition_copyOf h hd
    · obtain ⟨tr, htr⟩ := copiedTransitions_live h hd ht
      exact heq ▸ ⟨_, transition?_copyOf h hd ht htr⟩
    · obtain ⟨t, tr, ht, heq, -⟩ := of_transition?_copyOf h hd hy
      exact ⟨t, ht, heq⟩

/-- To copy the root of a copy gives the copy again. -/
theorem copyDefinition_copyOf : (g.copyOf d).copyDefinition (g.copyOf d).root =
    .ok (g.copyOf d, (g.copyOf d).copyMap (g.copyOf d).root) := by
  have hcopy := tied_copyOf h hd
  rw [copyDefinition_eq hcopy hcopy.live_root, copyOf_copyOf h hd]
  rfl

end

end Graph
end Statechart
