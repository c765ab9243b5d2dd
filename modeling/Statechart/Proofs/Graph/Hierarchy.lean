import Statechart.Proofs.Graph.Isomorphism

/-!
# Nesting is a finite tree

Chains of enclosing elements, entries into composite states and walks below a definition are bounded
in their definitions. On the graphs that can be made the bounds are never met: loops and recursions
without any bound come to the same end. Handles grow inwards, in copies too, and that is the
measure.
-/

namespace Statechart

/-! ## Loops that end -/

/-- Following `next` from the first element ends, and the list is what it meets. -/
inductive Exhausts {α : Type} (next : α → Option α) : α → List α → Prop
  | stop {a : α} : next a = none → Exhausts next a [a]
  | step {a b : α} {l : List α} : next a = some b → Exhausts next b l → Exhausts next a (a :: l)

namespace Exhausts

variable {α : Type} {next : α → Option α} {rank : α → Nat} {a b : α} {l l' : List α} {n : Nat}

/-- As many steps as the rank says are enough, and none are needed where the loop does not begin. -/
theorem of_follow (hrank : ∀ {a b}, next a = some b → rank b < rank a)
    (hn : ∀ b, next a = some b → rank a ≤ n) : Exhausts next a (follow next n a) := by
  induction n generalizing a with
  | zero =>
    cases hb : next a with
    | none => exact .stop hb
    | some b =>
      have hlt := hrank hb
      have hle := hn b hb
      omega
  | succ n ih =>
    rw [follow]
    cases hb : next a with
    | none => exact .stop hb
    | some b =>
      refine .step hb (ih fun c hc => ?_)
      have hlt := hrank hb
      have hle := hn b hb
      omega

theorem unique (h : Exhausts next a l) (h' : Exhausts next a l') : l = l' := by
  induction h generalizing l' with
  | stop hnone =>
    cases h' with
    | stop _ => rfl
    | step hb _ =>
      rw [hnone] at hb
      cases hb
  | step hb _ ih =>
    cases h' with
    | stop hnone =>
      rw [hb] at hnone
      cases hnone
    | step hb' htail =>
      rw [hb] at hb'
      obtain rfl := Option.some.inj hb'
      rw [ih htail]

/-- The loop can be taken up again at any element that it meets. -/
theorem of_mem (h : Exhausts next a l) (hb : b ∈ l) : ∃ l', Exhausts next b l' ∧ l' <:+ l := by
  induction h with
  | stop hnone =>
    obtain rfl := List.mem_singleton.mp hb
    exact ⟨_, .stop hnone, List.suffix_rfl⟩
  | step hc htail ih =>
    rcases List.mem_cons.mp hb with rfl | hb
    · exact ⟨_, .step hc htail, List.suffix_rfl⟩
    · obtain ⟨l', hl', hsuffix⟩ := ih hb
      exact ⟨l', hl', hsuffix.trans (List.suffix_cons _ _)⟩

/-- A loop that ends never comes back. -/
theorem nodup (h : Exhausts next a l) : l.Nodup := by
  induction h with
  | stop _ => exact List.nodup_singleton _
  | @step a b l hb htail ih =>
    refine List.nodup_cons.mpr ⟨fun ha => ?_, ih⟩
    obtain ⟨l', hl', hsuffix⟩ := htail.of_mem ha
    obtain rfl := hl'.unique (.step hb htail)
    have hle := hsuffix.length_le
    rw [List.length_cons] at hle
    omega

theorem getLast? (h : Exhausts next a l) : ∃ b, l.getLast? = some b ∧ next b = none := by
  induction h with
  | stop hnone => exact ⟨_, rfl, hnone⟩
  | @step a b l hb htail ih =>
    obtain ⟨c, hc, hnone⟩ := ih
    refine ⟨c, ?_, hnone⟩
    rw [List.getLast?_cons, hc]
    rfl

end Exhausts

namespace Graph

variable {κ : Type} {g : Graph κ} {d e : DefinitionId} {s q c : StateId} {x : Definition κ}
  {st : State κ}

/-- A walk below the one definition goes on to the other, which is nested in a state of it. -/
def Subdefinition (g : Graph κ) (e d : DefinitionId) : Prop :=
  ∃ x, g.definition? d = some x ∧ ∃ s ∈ x.states, g.nestedIn s = some e

/-- Every walk along the nesting ends, and what the walks give is a tree. -/
structure FiniteNesting (g : Graph κ) : Prop where
  definitionChain : ∀ d, Exhausts g.superdefinition d (g.definitionChain d)
  ancestors : ∀ s, Exhausts g.superstate s (g.ancestors s)
  entry : ∀ s, ∃ l, Exhausts g.entryStep s l ∧ l.getLast? = some (g.resolveEntryTarget s)
  walk : WellFounded g.Subdefinition
  walkStates : ∀ {d x}, g.definition? d = some x →
    g.walkStates d = x.states.flatMap fun s => s :: (g.nestedIn s).elim [] g.walkStates
  walkTransitions : ∀ {d x}, g.definition? d = some x → g.walkTransitions d =
    x.transitions ++ x.states.flatMap fun s => (g.nestedIn s).elim [] g.walkTransitions
  chain_nodup : ∀ d, (g.definitionChain d).Nodup
  chain_root : ∀ {d x}, g.definition? d = some x → (g.definitionChain d).getLast? = some g.root
  irreflexive : ∀ s, g.isSubstateOf s s = false
  transitive : ∀ {a b c}, g.isSubstateOf a b → g.isSubstateOf b c → g.isSubstateOf a c
  antisymmetric : ∀ {a b}, g.isSubstateOf a b → g.isSubstateOf b a = false
  entry_inside : ∀ s, g.resolveEntryTarget s = s ∨ g.isSubstateOf (g.resolveEntryTarget s) s
  entry_end : ∀ s, g.entryStep (g.resolveEntryTarget s) = none
  walk_nodup : (g.walkStates g.root).Nodup
  walk_live : ∀ s, s ∈ g.walkStates g.root ↔ (g.state? s).isSome
  walk_composite : ∀ {s st d}, g.state? s = some st → st.submachine = some d →
    s :: g.walkStates d <:+: g.walkStates g.root
  walk_within : ∀ {s st} d, g.state? s = some st → (s ∈ g.walkStates d ↔ g.isWithin st.owner d)

/-! ## Chains -/

theorem entryStep_eq_some : g.entryStep s = some q ↔ ∃ st d x, g.state? s = some st ∧
    st.submachine = some d ∧ g.definition? d = some x ∧ x.start = some q := by
  simp only [entryStep, Option.bind_eq_bind, Option.bind_eq_some_iff]
  constructor
  · rintro ⟨st, hst, d, hd, x, hx, hq⟩
    exact ⟨st, d, x, hst, hd, hx, hq⟩
  · rintro ⟨st, d, x, hst, hd, hx, hq⟩
    exact ⟨st, hst, d, hd, x, hx, hq⟩

section
variable (h : g.Tied)
include h

theorem Tied.exhausts_definitionChain (d : DefinitionId) :
    Exhausts g.superdefinition d (g.definitionChain d) :=
  .of_follow h.nested.superdefinition_lt fun _ he => Nat.le_of_lt (superdefinition_live he)

theorem Tied.exhausts_ancestors (s : StateId) : Exhausts g.superstate s (g.ancestors s) :=
  .of_follow h.nested.superstate_lt fun _ hc => Nat.le_of_lt (superstate_live hc)

theorem Tied.superstate_of_entryStep (hq : g.entryStep s = some q) : g.superstate q = some s := by
  obtain ⟨st, d, x, hst, hd, hx, hstart⟩ := entryStep_eq_some.mp hq
  obtain ⟨qt, hqt, ho, -⟩ := h.marked.marked (m := .start) hx hstart
  obtain ⟨x', hx', hc, -⟩ := h.nested.nested hst hd
  rw [hx] at hx'
  obtain rfl := Option.some.inj hx'
  exact superstate_eq_some.mpr ⟨qt, x, hqt, ho ▸ hx, hc⟩

/-- Entering leads to higher handles, of which there are no more than the arena has places. -/
theorem Tied.exhausts_entry (s : StateId) :
    Exhausts g.entryStep s (follow g.entryStep g.states.size s) := by
  have hrank {a b : StateId} (hb : g.entryStep a = some b) :
      g.states.size - b.index < g.states.size - a.index := by
    have hsuper := h.superstate_of_entryStep hb
    have hlt := h.nested.superstate_lt hsuper
    have hlive := superstate_live hsuper
    omega
  exact .of_follow hrank fun _ _ => Nat.sub_le ..

theorem Tied.getLast?_entry (s : StateId) :
    (follow g.entryStep g.states.size s).getLast? = some (g.resolveEntryTarget s) ∧
      g.entryStep (g.resolveEntryTarget s) = none := by
  obtain ⟨q, hq, hnone⟩ := (h.exhausts_entry s).getLast?
  rw [resolveEntryTarget, hq]
  exact ⟨rfl, hnone⟩

theorem Tied.inside_resolveEntryTarget (s : StateId) : g.Inside (g.resolveEntryTarget s) s := by
  have hreaches := follow_mem_reaches (List.mem_of_getLast? (h.getLast?_entry s).1)
  generalize g.resolveEntryTarget s = q at hreaches ⊢
  induction hreaches with
  | refl => exact .refl
  | tail _ hstep ih => exact .head (h.superstate_of_entryStep hstep) ih

omit h in
theorem isSubstateOf_iff (hg : g.Nested) : g.isSubstateOf s c = true ↔ s ≠ c ∧ g.Inside s c := by
  rw [isSubstateOf, Bool.and_eq_true, bne_iff_ne, List.contains_iff_mem, mem_ancestors hg]

omit h in
/-- States inside each other are the same. -/
theorem Inside.antisymm (hg : g.Nested) (hs : g.Inside s c) (hc : g.Inside c s) : s = c := by
  have hle := hs.index_le hg
  have hle' := hc.index_le hg
  exact StateId.index_inj.mp (by omega)

/-- A live definition that nothing is around is the root. -/
theorem Tied.getLast?_definitionChain (hx : g.definition? d = some x) :
    (g.definitionChain d).getLast? = some g.root := by
  obtain ⟨e, he, hnone⟩ := (h.exhausts_definitionChain d).getLast?
  have hwithin : g.Within d e := mem_definitionChain_within (List.mem_of_getLast? he)
  have hlive : ∃ y, g.definition? e = some y := by
    rcases Relation.ReflTransGen.cases_tail hwithin with rfl | ⟨f, -, hf⟩
    · exact ⟨x, hx⟩
    · obtain ⟨-, s, st, -, -, hst, rfl⟩ := superdefinition_eq_some.mp hf
      exact h.placed.owner hst
  obtain ⟨y, hy⟩ := hlive
  have hroot : e = g.root := by
    by_contra hne
    obtain ⟨s, st, hs, hst, -⟩ := h.nested.enclosed hy hne
    rw [superdefinition_eq_some.mpr ⟨y, s, st, hy, hs, hst, rfl⟩] at hnone
    cases hnone
  exact hroot ▸ he

theorem Tied.within_root (hx : g.definition? d = some x) : g.Within d g.root :=
  mem_definitionChain_within (List.mem_of_getLast? (h.getLast?_definitionChain hx))

/-! ## Walks -/

theorem Tied.wellFounded_subdefinition : WellFounded g.Subdefinition := by
  refine Subrelation.wf (fun {e d} hed => ?_) (measure fun d => g.definitions.size - d.index).wf
  obtain ⟨x, hx, hs⟩ := hed
  have hsup := (h.superdefinition_iff hx).mpr hs
  have hlt := h.nested.superdefinition_lt hsup
  have hlive := superdefinition_live hsup
  show g.definitions.size - e.index < g.definitions.size - d.index
  omega

/-- Levels beyond those that there are change nothing. -/
theorem Tied.nodesBelow_eq {n m : Nat} (hx : g.definition? d = some x)
    (hn : g.definitions.size ≤ n + d.index) (hm : g.definitions.size ≤ m + d.index) :
    g.nodesBelow n d = g.nodesBelow m d := by
  induction n generalizing d x m with
  | zero =>
    have hlt := definition?_lt hx
    omega
  | succ n ih =>
    cases m with
    | zero =>
      have hlt := definition?_lt hx
      omega
    | succ m =>
      have hinside {s : StateId} (hs : s ∈ x.states) : g.nodesInside n s = g.nodesInside m s := by
        unfold nodesInside
        cases hf : g.nestedIn s with
        | none => rfl
        | some f =>
          obtain ⟨-, ⟨y, hy⟩, hnf⟩ := h.below hx hn hs hf
          obtain ⟨-, -, hmf⟩ := h.below hx hm hs hf
          exact ih hy hnf hmf
      rw [nodesBelow_succ hx, nodesBelow_succ hx, List.flatMap_congr fun s hs => by rw [hinside hs]]

/-- The walk below what is nested in a state is the same by itself and as part of a walk. -/
theorem Tied.nodesBelow_nested {n : Nat} (hx : g.definition? d = some x)
    (hn : g.definitions.size = n + 1) (hs : s ∈ x.states) (he : g.nestedIn s = some e) :
    g.nodesBelow n e = g.nodesBelow g.definitions.size e := by
  obtain ⟨-, ⟨y, hy⟩, hle⟩ := h.below hx (n := n) (by omega) hs he
  exact h.nodesBelow_eq hy hle (Nat.le_add_right ..)

theorem Tied.walkStates_eq_flatMap (hx : g.definition? d = some x) :
    g.walkStates d = x.states.flatMap fun s => s :: (g.nestedIn s).elim [] g.walkStates := by
  have hlt := definition?_lt hx
  obtain ⟨n, hn⟩ : ∃ n, g.definitions.size = n + 1 := ⟨g.definitions.size - 1, by omega⟩
  rw [Graph.walkStates, hn, statesBelow, hx]
  refine List.flatMap_congr fun s hs => congrArg (s :: ·) ?_
  cases he : g.nestedIn s with
  | none => rfl
  | some e =>
    show g.statesBelow n e = g.statesBelow g.definitions.size e
    rw [← nodesBelow_states, ← nodesBelow_states, h.nodesBelow_nested hx hn hs he]

theorem Tied.walkTransitions_eq_append (hx : g.definition? d = some x) : g.walkTransitions d =
    x.transitions ++ x.states.flatMap fun s => (g.nestedIn s).elim [] g.walkTransitions := by
  have hlt := definition?_lt hx
  obtain ⟨n, hn⟩ : ∃ n, g.definitions.size = n + 1 := ⟨g.definitions.size - 1, by omega⟩
  rw [Graph.walkTransitions, hn, transitionsBelow, hx]
  refine congrArg (x.transitions ++ ·) (List.flatMap_congr fun s hs => ?_)
  cases he : g.nestedIn s with
  | none => rfl
  | some e =>
    show g.transitionsBelow n e = g.transitionsBelow g.definitions.size e
    rw [← nodesBelow_transitions, ← nodesBelow_transitions, h.nodesBelow_nested hx hn hs he]

theorem Tied.state_infix_walkStates (hx : g.definition? d = some x) (hs : s ∈ x.states) :
    s :: (g.nestedIn s).elim [] g.walkStates <:+: g.walkStates d := by
  obtain ⟨before, after, hl⟩ := List.append_of_mem hs
  rw [h.walkStates_eq_flatMap hx, hl, List.flatMap_append, List.flatMap_cons]
  exact List.infix_append' ..

/-- The walk below a definition is one piece of the walk below any definition around it. -/
theorem Tied.walkStates_infix (hd : ∃ x, g.definition? d = some x) (hw : g.Within e d) :
    g.walkStates e <:+: g.walkStates d := by
  induction hw using Relation.ReflTransGen.head_induction_on with
  | refl => exact List.infix_rfl
  | @head e c hsup hw ih =>
    obtain ⟨y, hy⟩ := definition_live_of_within hd hw
    obtain ⟨s, hs, he⟩ := (h.superdefinition_iff hy).mp hsup
    have hpiece := h.state_infix_walkStates hy hs
    rw [he] at hpiece
    exact ((List.suffix_cons s _).isInfix.trans hpiece).trans ih

theorem Tied.composite_infix_walkStates (hs : g.state? s = some st)
    (hsub : st.submachine = some d) :
    s :: g.walkStates d <:+: g.walkStates g.root := by
  obtain ⟨x, hx⟩ := h.placed.owner hs
  obtain ⟨r, hr, -⟩ := h.nested.root
  have hpiece := h.state_infix_walkStates hx (h.listed.state_mem hx hs)
  rw [nestedIn_eq_some.mpr ⟨st, hs, hsub⟩] at hpiece
  exact hpiece.trans (h.walkStates_infix ⟨r, hr⟩ (h.within_root hx))

theorem Tied.mem_walkStates_iff_isWithin (d : DefinitionId) (hs : g.state? s = some st) :
    s ∈ g.walkStates d ↔ g.isWithin st.owner d := by
  rw [isWithin_iff h.nested]
  cases hd : g.definition? d with
  | some x =>
    rw [mem_walkStates h ⟨x, hd⟩]
    constructor
    · rintro ⟨st', hst', hw⟩
      rw [hs] at hst'
      obtain rfl := Option.some.inj hst'
      exact hw
    · exact fun hw => ⟨st, hs, hw⟩
  | none =>
    -- the owner of a live state is live, and so is all around it
    have hnil : g.walkStates d = [] := by
      rw [Graph.walkStates]
      cases g.definitions.size with
      | zero => rfl
      | succ n => rw [statesBelow, hd]
    rw [hnil]
    constructor
    · intro hm
      cases hm
    · intro hw
      rcases Relation.ReflTransGen.cases_tail hw with rfl | ⟨f, -, hf⟩
      · obtain ⟨x, hx⟩ := h.placed.owner hs
        rw [hd] at hx
        cases hx
      · obtain ⟨-, q, qt, -, -, hqt, rfl⟩ := superdefinition_eq_some.mp hf
        obtain ⟨x, hx⟩ := h.placed.owner hqt
        rw [hd] at hx
        cases hx

theorem Tied.mem_walkStates_root : s ∈ g.walkStates g.root ↔ (g.state? s).isSome := by
  obtain ⟨r, hr, -⟩ := h.nested.root
  rw [mem_walkStates h ⟨r, hr⟩, Option.isSome_iff_exists]
  constructor
  · rintro ⟨st, hst, -⟩
    exact ⟨st, hst⟩
  · rintro ⟨st, hst⟩
    obtain ⟨x, hx⟩ := h.placed.owner hst
    exact ⟨st, hst, h.within_root hx⟩

end

theorem Tied.finiteNesting (h : g.Tied) : g.FiniteNesting where
  definitionChain := h.exhausts_definitionChain
  ancestors := h.exhausts_ancestors
  entry s := ⟨_, h.exhausts_entry s, (h.getLast?_entry s).1⟩
  walk := h.wellFounded_subdefinition
  walkStates := h.walkStates_eq_flatMap
  walkTransitions := h.walkTransitions_eq_append
  chain_nodup d := (h.exhausts_definitionChain d).nodup
  chain_root := h.getLast?_definitionChain
  irreflexive s := by rw [isSubstateOf, bne_self_eq_false, Bool.false_and]
  transitive {a b c} hab hbc := by
    obtain ⟨hne, hab⟩ := (isSubstateOf_iff h.nested).mp hab
    obtain ⟨-, hbc⟩ := (isSubstateOf_iff h.nested).mp hbc
    refine (isSubstateOf_iff h.nested).mpr ⟨?_, hab.trans hbc⟩
    rintro rfl
    exact hne (hab.antisymm h.nested hbc)
  antisymmetric {a b} hab := by
    obtain ⟨hne, hab⟩ := (isSubstateOf_iff h.nested).mp hab
    refine Bool.eq_false_iff.mpr fun hba => ?_
    exact hne (hab.antisymm h.nested ((isSubstateOf_iff h.nested).mp hba).2)
  entry_inside s := by
    by_cases he : g.resolveEntryTarget s = s
    · exact .inl he
    · exact .inr ((isSubstateOf_iff h.nested).mpr ⟨he, h.inside_resolveEntryTarget s⟩)
  entry_end s := (h.getLast?_entry s).2
  walk_nodup := by
    obtain ⟨r, hr, -⟩ := h.nested.root
    exact nodup_walkStates h ⟨r, hr⟩
  walk_live _ := h.mem_walkStates_root
  walk_composite := h.composite_infix_walkStates
  walk_within := h.mem_walkStates_iff_isWithin

/-- Whatever edits, copies and queries made a graph, its nesting is a finite tree. -/
theorem Reachable.finite_nesting (h : g.Reachable) : g.FiniteNesting := h.tied.finiteNesting

theorem finite_nesting_nestingEdits :
    ((Graph.new "g").edited nestingEdits).walkStates ⟨0⟩ = [⟨0⟩, ⟨1⟩, ⟨2⟩, ⟨3⟩] ∧
      ((Graph.new "g").edited nestingEdits).Reachable ∧
      ((Graph.new "g").edited nestingEdits).FiniteNesting := by
  have hreachable := (Reachable.new (κ := Unit) "g").edited nestingEdits
  exact ⟨by decide +kernel, hreachable, hreachable.finite_nesting⟩

end Graph
end Statechart
