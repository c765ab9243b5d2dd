import Mathlib.Data.List.Nodup
import Statechart.Graph.Copy
import Statechart.Proofs.Graph.Nesting
import Statechart.Proofs.Graph.Restriction

/-!
# The nodes of a definition

A definition, its states and what is nested in them, in the order in which a walk meets them. Each
node is met once.
-/

namespace Statechart.Graph

variable {κ : Type}

/-- A definition, then each of its states followed by what is nested in it, at most `n` levels
deep. -/
def nodesBelow (g : Graph κ) : Nat → DefinitionId → List NodeRef
  | 0, _ => []
  | n + 1, d =>
    match g.definition? d with
    | none => []
    | some x => .definition d :: x.states.flatMap fun s =>
      .state s :: match g.nestedIn s with
        | some nested => nodesBelow g n nested
        | none => []

/-- What is nested in a state, at most `n` levels deep. -/
def nodesInside (g : Graph κ) (n : Nat) (s : StateId) : List NodeRef :=
  match g.nestedIn s with
  | some nested => g.nodesBelow n nested
  | none => []

variable {g : Graph κ} {d e f : DefinitionId} {s q : StateId} {x : Definition κ} {st : State κ}
  {n : Nat}

theorem nodesBelow_succ (hx : g.definition? d = some x) :
    g.nodesBelow (n + 1) d =
      .definition d :: x.states.flatMap fun s => .state s :: g.nodesInside n s := by
  rw [nodesBelow, hx]
  rfl

theorem nestedIn_eq_some :
    g.nestedIn s = some d ↔ ∃ st, g.state? s = some st ∧ st.submachine = some d := by
  rw [nestedIn, Option.bind_eq_some_iff]

theorem mem_nodesInside {k : NodeRef} :
    k ∈ g.nodesInside n s ↔ ∃ e, g.nestedIn s = some e ∧ k ∈ g.nodesBelow n e := by
  unfold nodesInside
  cases g.nestedIn s with
  | none => simp
  | some e => simp

/-- Of two definitions around a third, one is within the other. -/
theorem Within.total (hd : g.Within f d) (he : g.Within f e) : g.Within d e ∨ g.Within e d := by
  refine Relation.ReflTransGen.total_of_right_unique ?_ hd he
  intro a b c hb hc
  rw [hb] at hc
  exact Option.some.inj hc

section
variable (h : g.Nested)
include h

theorem Within.index_le (hw : g.Within d e) : e.index ≤ d.index := by
  induction hw with
  | refl => exact Nat.le_refl _
  | tail _ hc ih => exact Nat.le_trans (Nat.le_of_lt (h.superdefinition_lt hc)) ih

/-- What is nested in a state of a definition lies right below the definition. -/
theorem superdefinition_of_nested (hs : g.state? s = some st) (hsub : st.submachine = some e) :
    g.superdefinition e = some st.owner := by
  obtain ⟨x, hx, hc, -⟩ := h.nested hs hsub
  exact superdefinition_eq_some.mpr ⟨x, s, st, hx, hc, hs, rfl⟩

/-- Definitions side by side are not within one another. -/
theorem Within.eq_of_siblings (hd : g.superdefinition d = some f)
    (he : g.superdefinition e = some f) (hw : g.Within d e) : d = e := by
  rcases Relation.ReflTransGen.cases_head hw with heq | ⟨c, hc, hce⟩
  · exact heq
  · rw [hd] at hc
    obtain rfl := Option.some.inj hc
    have hle := Within.index_le h hce
    have hlt := h.superdefinition_lt he
    omega

end

/-- Right below a definition lies what is nested in its states. -/
theorem Tied.superdefinition_iff (h : g.Tied) (hx : g.definition? d = some x) :
    g.superdefinition e = some d ↔ ∃ s ∈ x.states, g.nestedIn s = some e := by
  constructor
  · intro he
    obtain ⟨y, s, st, hy, hc, hst, rfl⟩ := superdefinition_eq_some.mp he
    obtain ⟨st', hst', hsub⟩ := h.nested.composite_live hy hc
    rw [hst] at hst'
    obtain rfl := Option.some.inj hst'
    exact ⟨s, h.listed.state_mem hx hst, nestedIn_eq_some.mpr ⟨st, hst, hsub⟩⟩
  · rintro ⟨s, hs, he⟩
    obtain ⟨st, hst, hsub⟩ := nestedIn_eq_some.mp he
    obtain ⟨st', hst', ho⟩ := h.listed.state_live hx hs
    rw [hst] at hst'
    obtain rfl := Option.some.inj hst'
    exact ho ▸ superdefinition_of_nested h.nested hst hsub

/-- What is nested in a state of a definition lies right below the definition, and a walk reaches
it. -/
theorem Tied.below (h : g.Tied) (hx : g.definition? d = some x)
    (hn : g.definitions.size ≤ n + 1 + d.index) (hs : s ∈ x.states) (hf : g.nestedIn s = some f) :
    g.superdefinition f = some d ∧ (∃ y, g.definition? f = some y) ∧
      g.definitions.size ≤ n + f.index := by
  have hsup := (h.superdefinition_iff hx).mpr ⟨s, hs, hf⟩
  obtain ⟨y, -, -, hy, -⟩ := superdefinition_eq_some.mp hsup
  have hlt := h.nested.superdefinition_lt hsup
  exact ⟨hsup, ⟨y, hy⟩, by omega⟩

/-- The definitions that a walk meets are those within the one that it starts from. -/
theorem definition_mem_nodesBelow (h : g.Tied) (hd : ∃ x, g.definition? d = some x)
    (hn : g.definitions.size ≤ n + d.index) :
    .definition e ∈ g.nodesBelow n d ↔ g.Within e d := by
  obtain ⟨x, hx⟩ := hd
  induction n generalizing d x with
  | zero =>
    have hlt := definition?_lt hx
    omega
  | succ n ih =>
    rw [nodesBelow_succ hx]
    simp only [List.mem_cons, NodeRef.definition.injEq, List.mem_flatMap, reduceCtorEq, false_or,
      mem_nodesInside]
    have hstep {f : DefinitionId} (hf : g.superdefinition f = some d) :
        .definition e ∈ g.nodesBelow n f ↔ g.Within e f := by
      obtain ⟨y, -, -, hy, -⟩ := superdefinition_eq_some.mp hf
      have hlt := h.nested.superdefinition_lt hf
      exact ih (by omega) y hy
    constructor
    · rintro (rfl | ⟨s, hs, f, hf, he⟩)
      · exact .refl
      · have hsup := (h.superdefinition_iff hx).mpr ⟨s, hs, hf⟩
        exact ((hstep hsup).mp he).tail hsup
    · intro hw
      rcases Relation.ReflTransGen.cases_tail hw with rfl | ⟨f, hf, hsup⟩
      · exact .inl rfl
      · obtain ⟨s, hs, hsf⟩ := (h.superdefinition_iff hx).mp hsup
        exact .inr ⟨s, hs, f, hsf, (hstep hsup).mpr hf⟩

/-- The states that a walk meets are those of the definitions that it meets. -/
theorem state_mem_nodesBelow (h : g.Tied) (hd : ∃ x, g.definition? d = some x)
    (hn : g.definitions.size ≤ n + d.index) :
    .state q ∈ g.nodesBelow n d ↔ ∃ qt, g.state? q = some qt ∧ g.Within qt.owner d := by
  obtain ⟨x, hx⟩ := hd
  induction n generalizing d x with
  | zero =>
    have hlt := definition?_lt hx
    omega
  | succ n ih =>
    rw [nodesBelow_succ hx]
    simp only [List.mem_cons, NodeRef.state.injEq, List.mem_flatMap, reduceCtorEq, false_or,
      mem_nodesInside]
    have hstep {f : DefinitionId} (hf : g.superdefinition f = some d) :
        .state q ∈ g.nodesBelow n f ↔ ∃ qt, g.state? q = some qt ∧ g.Within qt.owner f := by
      obtain ⟨y, -, -, hy, -⟩ := superdefinition_eq_some.mp hf
      have hlt := h.nested.superdefinition_lt hf
      exact ih (by omega) y hy
    constructor
    · rintro ⟨s, hs, rfl | ⟨f, hf, he⟩⟩
      · obtain ⟨qt, hqt, rfl⟩ := h.listed.state_live hx hs
        exact ⟨qt, hqt, .refl⟩
      · have hsup := (h.superdefinition_iff hx).mpr ⟨s, hs, hf⟩
        obtain ⟨qt, hqt, hw⟩ := (hstep hsup).mp he
        exact ⟨qt, hqt, hw.tail hsup⟩
    · rintro ⟨qt, hqt, hw⟩
      rcases Relation.ReflTransGen.cases_tail hw with rfl | ⟨f, hf, hsup⟩
      · exact ⟨q, h.listed.state_mem hx hqt, .inl rfl⟩
      · obtain ⟨s, hs, hsf⟩ := (h.superdefinition_iff hx).mp hsup
        exact ⟨s, hs, .inr ⟨f, hsf, (hstep hsup).mpr ⟨qt, hqt, hf⟩⟩⟩

theorem transition_not_mem_nodesBelow {t : TransitionId} : .transition t ∉ g.nodesBelow n d := by
  induction n generalizing d with
  | zero => exact List.not_mem_nil
  | succ n ih =>
    cases hx : g.definition? d with
    | none =>
      rw [nodesBelow, hx]
      exact List.not_mem_nil
    | some x =>
      rw [nodesBelow_succ hx]
      simp only [List.mem_cons, List.mem_flatMap, reduceCtorEq, false_or,
        mem_nodesInside, not_exists, not_and]
      intro s _ e _
      exact ih

/-- What is nested in a state of a definition is neither the definition nor one of its states. -/
theorem Tied.ne_of_mem_nodesInside (h : g.Tied) (hx : g.definition? d = some x)
    (hn : g.definitions.size ≤ n + 1 + d.index) (hs : s ∈ x.states) {k : NodeRef}
    (hk : k ∈ g.nodesInside n s) : k ≠ .definition d ∧ ∀ q ∈ x.states, k ≠ .state q := by
  obtain ⟨f, hf, hk⟩ := mem_nodesInside.mp hk
  obtain ⟨hsup, hlive, hnf⟩ := h.below hx hn hs hf
  have hlt := h.nested.superdefinition_lt hsup
  constructor
  · rintro rfl
    have hle := Within.index_le h.nested ((definition_mem_nodesBelow h hlive hnf).mp hk)
    omega
  · rintro q hq rfl
    obtain ⟨qt, hqt, hw⟩ := (state_mem_nodesBelow h hlive hnf).mp hk
    obtain ⟨qt', hqt', ho⟩ := h.listed.state_live hx hq
    rw [hqt] at hqt'
    obtain rfl := Option.some.inj hqt'
    have hle := Within.index_le h.nested hw
    rw [ho] at hle
    omega

/-- A node is nested in one state of a definition at most. -/
theorem Tied.eq_of_mem_nodesInside (h : g.Tied) (hx : g.definition? d = some x)
    (hn : g.definitions.size ≤ n + 1 + d.index) (hs : s ∈ x.states) (hq : q ∈ x.states)
    {k : NodeRef} (hks : k ∈ g.nodesInside n s) (hkq : k ∈ g.nodesInside n q) : s = q := by
  obtain ⟨f, hf, hkf⟩ := mem_nodesInside.mp hks
  obtain ⟨f', hf', hkf'⟩ := mem_nodesInside.mp hkq
  obtain ⟨hsup, hlive, hnf⟩ := h.below hx hn hs hf
  obtain ⟨hsup', hlive', hnf'⟩ := h.below hx hn hq hf'
  have hsame {e : DefinitionId} (hw : g.Within e f) (hw' : g.Within e f') : f = f' := by
    rcases Within.total hw hw' with h₁ | h₁
    · exact Within.eq_of_siblings h.nested hsup hsup' h₁
    · exact (Within.eq_of_siblings h.nested hsup' hsup h₁).symm
  have hff : f = f' := by
    cases k with
    | definition e =>
      exact hsame ((definition_mem_nodesBelow h hlive hnf).mp hkf)
        ((definition_mem_nodesBelow h hlive' hnf').mp hkf')
    | state p =>
      obtain ⟨pt, hpt, hw⟩ := (state_mem_nodesBelow h hlive hnf).mp hkf
      obtain ⟨pt', hpt', hw'⟩ := (state_mem_nodesBelow h hlive' hnf').mp hkf'
      rw [hpt] at hpt'
      obtain rfl := Option.some.inj hpt'
      exact hsame hw hw'
    | transition t => exact absurd hkf transition_not_mem_nodesBelow
  subst f'
  obtain ⟨st, hst, hsub⟩ := nestedIn_eq_some.mp hf
  obtain ⟨qt, hqt, hsub'⟩ := nestedIn_eq_some.mp hf'
  exact h.nested.submachine_inj hst hqt hsub hsub'

theorem nodup_nodesBelow (h : g.Tied) (hd : ∃ x, g.definition? d = some x)
    (hn : g.definitions.size ≤ n + d.index) : (g.nodesBelow n d).Nodup := by
  obtain ⟨x, hx⟩ := hd
  induction n generalizing d x with
  | zero => exact List.nodup_nil
  | succ n ih =>
    have hup {s : StateId} {k : NodeRef} (hs : s ∈ x.states) (hk : k ∈ g.nodesInside n s) :=
      h.ne_of_mem_nodesInside hx hn hs hk
    rw [nodesBelow_succ hx]
    refine List.nodup_cons.mpr ⟨?_, List.nodup_flatMap.mpr ⟨?_, ?_⟩⟩
    · simp only [List.mem_flatMap, List.mem_cons, reduceCtorEq, false_or, not_exists, not_and]
      intro s hs hk
      exact (hup hs hk).1 rfl
    · intro s hs
      refine List.nodup_cons.mpr ⟨fun hk => (hup hs hk).2 s hs rfl, ?_⟩
      unfold nodesInside
      cases hf : g.nestedIn s with
      | none => exact List.nodup_nil
      | some f =>
        obtain ⟨-, ⟨y, hy⟩, hnf⟩ := h.below hx hn hs hf
        exact ih hnf y hy
    · refine List.Pairwise.imp_of_mem ?_ (h.listed.nodup_states hx)
      intro s q hs hq hne k hks hkq
      rcases List.mem_cons.mp hks with rfl | hks
      · rcases List.mem_cons.mp hkq with heq | hkq
        · exact hne (NodeRef.state.inj heq)
        · exact (hup hq hkq).2 s hs rfl
      · rcases List.mem_cons.mp hkq with rfl | hkq
        · exact (hup hs hks).2 q hq rfl
        · exact hne (h.eq_of_mem_nodesInside hx hn hs hq hks hkq)

/-! ## Around before inside -/

/-- A definition lies right below another, or a state right inside another. -/
def Encloses (g : Graph κ) : NodeRef → NodeRef → Prop
  | .definition f, .definition e => g.superdefinition e = some f
  | .state p, .state q => g.superstate q = some p
  | _, _ => False

/-- A walk meets what its nodes enclose. -/
theorem Encloses.mem_nodesBelow (h : g.Tied) (hd : ∃ x, g.definition? d = some x)
    (hn : g.definitions.size ≤ n + d.index) {k l : NodeRef} (hl : l ∈ g.nodesBelow n d)
    (he : g.Encloses l k) : k ∈ g.nodesBelow n d := by
  cases l <;> cases k <;> try exact he.elim
  · rename_i f e
    have hsup : g.superdefinition e = some f := he
    rw [definition_mem_nodesBelow h hd hn] at hl ⊢
    exact .head hsup hl
  · rename_i p q
    obtain ⟨qt, x, hqt, hx, hc⟩ := superstate_eq_some.mp he
    obtain ⟨pt, hpt, hw⟩ := (state_mem_nodesBelow h hd hn).mp hl
    rw [state_mem_nodesBelow h hd hn]
    exact ⟨qt, hqt, .head (superdefinition_eq_some.mpr ⟨x, p, pt, hx, hc, hpt, rfl⟩) hw⟩

/-- What a state of a definition encloses, at any depth, stands right after it in the walk. -/
theorem Encloses.mem_nodesInside (h : g.Tied) (hx : g.definition? d = some x)
    (hn : g.definitions.size ≤ n + 1 + d.index) (hs : s ∈ x.states) {k l : NodeRef}
    (hl : l ∈ .state s :: g.nodesInside n s) (he : g.Encloses l k) : k ∈ g.nodesInside n s := by
  rcases List.mem_cons.mp hl with rfl | hl
  · cases k <;> try exact he.elim
    rename_i q
    obtain ⟨qt, y, hqt, hy, hc⟩ := superstate_eq_some.mp he
    obtain ⟨st, hst, hsub⟩ := h.nested.composite_live hy hc
    have hnested := nestedIn_eq_some.mpr ⟨st, hst, hsub⟩
    obtain ⟨-, hlive, hnf⟩ := h.below hx hn hs hnested
    exact Graph.mem_nodesInside.mpr ⟨qt.owner, hnested,
      (state_mem_nodesBelow h hlive hnf).mpr ⟨qt, hqt, .refl⟩⟩
  · obtain ⟨f, hf, hl⟩ := Graph.mem_nodesInside.mp hl
    obtain ⟨-, hlive, hnf⟩ := h.below hx hn hs hf
    exact Graph.mem_nodesInside.mpr ⟨f, hf, he.mem_nodesBelow h hlive hnf hl⟩

/-- A walk meets a node before what the node encloses. -/
theorem nodesBelow_ordered (h : g.Tied) (hd : ∃ x, g.definition? d = some x)
    (hn : g.definitions.size ≤ n + d.index) :
    (g.nodesBelow n d).Pairwise fun k l => ¬ g.Encloses l k := by
  obtain ⟨x, hx⟩ := hd
  induction n generalizing d x with
  | zero => exact List.Pairwise.nil
  | succ n ih =>
    have hnodup := nodup_nodesBelow h ⟨x, hx⟩ hn
    rw [nodesBelow_succ hx, List.nodup_cons, List.nodup_flatMap] at hnodup
    obtain ⟨-, hblock, hapart⟩ := hnodup
    rw [nodesBelow_succ hx]
    refine List.pairwise_cons.mpr ⟨?_, List.pairwise_flatMap.mpr ⟨?_, ?_⟩⟩
    · intro k hk he
      cases k <;> try exact he.elim
      rename_i f
      have hsup : g.superdefinition d = some f := he
      have hw := (definition_mem_nodesBelow (e := f) h ⟨x, hx⟩ hn).mp (by
        rw [nodesBelow_succ hx]
        exact List.mem_cons_of_mem _ hk)
      have hle := Within.index_le h.nested hw
      have hlt := h.nested.superdefinition_lt hsup
      omega
    · intro s hs
      refine List.pairwise_cons.mpr ⟨fun k hk he => ?_, ?_⟩
      · exact (List.nodup_cons.mp (hblock s hs)).1
          (he.mem_nodesInside h hx hn hs (List.mem_cons_of_mem _ hk))
      · unfold nodesInside
        cases hf : g.nestedIn s with
        | none => exact List.Pairwise.nil
        | some f =>
          obtain ⟨-, ⟨y, hy⟩, hnf⟩ := h.below hx hn hs hf
          exact ih hnf y hy
    · refine hapart.imp_of_mem fun {s q} _ hq hdisjoint k hk l hl he => ?_
      exact hdisjoint hk (List.mem_cons_of_mem _ (he.mem_nodesInside h hx hn hq hl))

/-! ## Walks over one kind of node -/

/-- The definitions within a definition, in the order of the walk. -/
def walkDefinitions (g : Graph κ) (d : DefinitionId) : List DefinitionId :=
  (g.nodesBelow g.definitions.size d).filterMap (·.definition?)

theorem walkDefinitions_cons (hx : g.definition? d = some x) :
    g.walkDefinitions d = d :: (x.states.flatMap fun s =>
      .state s :: g.nodesInside (g.definitions.size - 1) s).filterMap (·.definition?) := by
  have hlt := definition?_lt hx
  obtain ⟨n, hn⟩ : ∃ n, g.definitions.size = n + 1 := ⟨g.definitions.size - 1, by omega⟩
  rw [walkDefinitions, hn, nodesBelow_succ hx]
  rfl

theorem nodesBelow_states : (g.nodesBelow n d).filterMap (·.state?) = g.statesBelow n d := by
  induction n generalizing d with
  | zero => rfl
  | succ n ih =>
    rw [statesBelow]
    cases hx : g.definition? d with
    | none =>
      rw [nodesBelow, hx]
      rfl
    | some x =>
      rw [nodesBelow_succ hx]
      simp only [List.filterMap_cons, NodeRef.state?, List.filterMap_flatMap]
      refine List.flatMap_congr fun s _ => ?_
      unfold nodesInside
      cases g.nestedIn s with
      | none => rfl
      | some e => exact congrArg (s :: ·) ih

theorem nodesBelow_transitions :
    ((g.nodesBelow n d).filterMap (·.definition?)).flatMap
      (fun e => (g.definition? e).elim [] (·.transitions)) = g.transitionsBelow n d := by
  induction n generalizing d with
  | zero => rfl
  | succ n ih =>
    rw [transitionsBelow]
    cases hx : g.definition? d with
    | none =>
      rw [nodesBelow, hx]
      rfl
    | some x =>
      rw [nodesBelow_succ hx]
      simp only [List.filterMap_cons, NodeRef.definition?, List.filterMap_flatMap,
        List.flatMap_cons, hx, Option.elim_some, List.flatMap_assoc]
      congr 1
      refine List.flatMap_congr fun s _ => ?_
      unfold nodesInside
      cases g.nestedIn s with
      | none => rfl
      | some e => exact ih

theorem walkStates_eq : g.walkStates d = (g.nodesBelow g.definitions.size d).filterMap (·.state?) :=
  nodesBelow_states.symm

theorem walkTransitions_eq :
    g.walkTransitions d = (g.walkDefinitions d).flatMap fun e =>
      (g.definition? e).elim [] (·.transitions) :=
  nodesBelow_transitions.symm

theorem definition_live_of_within (hd : ∃ x, g.definition? d = some x) (hw : g.Within e d) :
    ∃ x, g.definition? e = some x := by
  rcases Relation.ReflTransGen.cases_head hw with rfl | ⟨f, hf, -⟩
  · exact hd
  · obtain ⟨x, -, -, hx, -⟩ := superdefinition_eq_some.mp hf
    exact ⟨x, hx⟩

section
variable (h : g.Tied) (hd : ∃ x, g.definition? d = some x)
include h hd

theorem mem_walkDefinitions : e ∈ g.walkDefinitions d ↔ g.Within e d := by
  rw [← definition_mem_nodesBelow h hd (Nat.le_add_right _ _), walkDefinitions, List.mem_filterMap]
  constructor
  · rintro ⟨k, hk, he⟩
    cases k <;> cases he
    exact hk
  · intro hk
    exact ⟨_, hk, rfl⟩

theorem mem_walkStates : s ∈ g.walkStates d ↔ ∃ st, g.state? s = some st ∧ g.Within st.owner d := by
  rw [← state_mem_nodesBelow h hd (Nat.le_add_right _ _), walkStates_eq, List.mem_filterMap]
  constructor
  · rintro ⟨k, hk, he⟩
    cases k <;> cases he
    exact hk
  · intro hk
    exact ⟨_, hk, rfl⟩

theorem nodup_walkDefinitions : (g.walkDefinitions d).Nodup := by
  refine List.Nodup.filterMap ?_ (nodup_nodesBelow h hd (Nat.le_add_right _ _))
  intro k l e hk hl
  cases k <;> cases hk
  cases l <;> cases hl
  rfl

theorem nodup_walkStates : (g.walkStates d).Nodup := by
  rw [walkStates_eq]
  refine List.Nodup.filterMap ?_ (nodup_nodesBelow h hd (Nat.le_add_right _ _))
  intro k l e hk hl
  cases k <;> cases hk
  cases l <;> cases hl
  rfl

end

end Statechart.Graph
