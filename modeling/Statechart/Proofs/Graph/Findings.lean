import Statechart.Machine.Error
import Statechart.Proofs.Graph.Kinds
import Statechart.Proofs.Graph.Validity

/-!
# Findings

What is found on a definition, against the live elements themselves. Each kind of finding has a
condition on the marks and the live transitions, with no word of the lists and answers that the
checks go by; the findings are the defects of the definition and of all within it, place by place in
the order of a walk.
-/

namespace Statechart.Graph

variable {κ : Type} {g : Graph κ} {d : DefinitionId} {s : StateId} {m : Mark} {x : Definition κ}
  {st : State κ} {k : NodeRef}

/-! ## Defects -/

/-- A live state that its definition marks. -/
def Marks (g : Graph κ) (m : Mark) (s : StateId) : Prop :=
  ∃ st x, g.state? s = some st ∧ g.definition? st.owner = some x ∧ x.marked m = some s

/-- The condition of each kind of finding. -/
inductive Defect (g : Graph κ) : NodeRef → FindingKind → Prop
  | unstarted {d : DefinitionId} {x : Definition κ} : g.definition? d = some x → x.start = none →
      Defect g (.definition d) .noStartState
  | unended {d : DefinitionId} {x : Definition κ} : g.definition? d = some x → x.final = none →
      Defect g (.definition d) .noEndState
  | untouched {s : StateId} {st : State κ} : g.state? s = some st →
      (∀ t tr, g.transition? t = some tr → tr.source ≠ s ∧ tr.target ≠ s) →
      Defect g (.state s) .stateWithoutTransitions
  | endUnreached {s : StateId} : g.Marks .final s →
      (∀ t tr, g.transition? t = some tr → tr.target = s → tr.source = s) →
      Defect g (.state s) .endStateCannotBeReached
  | endLeft {s : StateId} {t : TransitionId} {tr : Transition κ} : g.Marks .final s →
      g.transition? t = some tr → tr.source = s →
      Defect g (.state s) .endStateHasOutboundTransitions
  | endComposite {s : StateId} {st : State κ} {d : DefinitionId} : g.Marks .final s →
      g.state? s = some st → st.submachine = some d → Defect g (.state s) .endStateHasSubstates
  | startNotLeft {s : StateId} : g.Marks .start s →
      (∀ t tr, g.transition? t = some tr → tr.source ≠ s) →
      Defect g (.state s) .startStateHasNoOutboundTransitions
  | unreached {s : StateId} {st : State κ} : g.state? s = some st → (∀ m, ¬ g.Marks m s) →
      (∀ t tr, g.transition? t = some tr → tr.target = s → tr.source = s) →
      Defect g (.state s) .stateHasNoInboundTransitions
  | notLeft {s : StateId} {st : State κ} : g.state? s = some st → (∀ m, ¬ g.Marks m s) →
      (∀ t tr, g.transition? t = some tr → tr.source = s → tr.target = s) →
      Defect g (.state s) .stateHasNoOutboundTransitions

/-- What a finding calls the place that it is at. -/
def placeName (g : Graph κ) : NodeRef → String
  | .definition d => g.definitionLabel d
  | .state s => g.pathOfState s
  | .transition t => g.pathOfTransition t

open scoped Classical in
/-- The defects of a place that are of one of the kinds. -/
noncomputable def defectsOf (g : Graph κ) (k : NodeRef) (kinds : List FindingKind) : List Finding :=
  (kinds.filter fun kind => g.Defect k kind).map fun kind => ⟨kind, g.placeName k⟩

/-- The defects of a place, in the order of the kinds. -/
noncomputable def defectsAt (g : Graph κ) (k : NodeRef) : List Finding :=
  g.defectsOf k FindingKind.all

/-- The definitions and states of a definition, each state followed by what is nested in it. -/
def places (g : Graph κ) (d : DefinitionId) : List NodeRef := g.nodesBelow g.definitions.size d

theorem defectsOf_cons_of_not {kind : FindingKind} {kinds : List FindingKind}
    (hkind : ¬ g.Defect k kind) : g.defectsOf k (kind :: kinds) = g.defectsOf k kinds := by
  rw [defectsOf, List.filter_cons_of_neg (by simpa using hkind), ← defectsOf]

/-- A check of a kind finds what there is of the kind. -/
theorem defectsOf_cons {kind : FindingKind} {kinds : List FindingKind} {ok : Bool}
    (hok : g.Defect k kind ↔ ¬ ok = true) :
    g.defectsOf k (kind :: kinds) = (require ok kind (g.placeName k)).findings ++
      g.defectsOf k kinds := by
  by_cases hkind : g.Defect k kind
  · rw [defectsOf, List.filter_cons_of_pos (by simpa using hkind), List.map_cons,
      ← defectsOf, findings_require, if_neg (hok.mp hkind)]
    rfl
  · rw [defectsOf_cons_of_not hkind, findings_require, if_pos (not_not.mp (mt hok.mpr hkind)),
      List.nil_append]

theorem defectsOf_eq_nil {kinds : List FindingKind} (hnone : ∀ kind ∈ kinds, ¬ g.Defect k kind) :
    g.defectsOf k kinds = [] := by
  rw [defectsOf, List.filter_eq_nil_iff.mpr
    fun kind hkind => by simpa using hnone kind hkind, List.map_nil]

/-- The defects of a live definition are the checks that fail. -/
theorem defect_definition_iff (hx : g.definition? d = some x) (kind : FindingKind) :
    g.Defect (.definition d) kind ↔
      match kind with
      | .noStartState => ¬ x.start.isSome = true
      | .noEndState => ¬ x.final.isSome = true
      | _ => False := by
  simp only [Bool.not_eq_true, Option.isSome_eq_false_iff, Option.isNone_iff_eq_none]
  constructor
  · intro hdefect
    cases hdefect with
    | unstarted hx' hnone =>
      rw [hx] at hx'
      exact Option.some.inj hx' ▸ hnone
    | unended hx' hnone =>
      rw [hx] at hx'
      exact Option.some.inj hx' ▸ hnone
  · intro hcondition
    cases kind with
    | noStartState => exact .unstarted hx hcondition
    | noEndState => exact .unended hx hcondition
    | _ => exact hcondition.elim

theorem findingsAt_definition (hx : g.definition? d = some x) :
    g.findingsAt (.definition d) = g.defectsAt (.definition d) := by
  have hdefect := defect_definition_iff hx
  rw [findingsAt, checksAt, hx, defectsAt, FindingKind.all, defectsOf_cons (hdefect .noStartState),
    defectsOf_cons (hdefect .noEndState), defectsOf_eq_nil]
  · rfl
  · intro kind hkind hdefect
    cases hdefect with
    | unstarted => exact absurd hkind (by decide)
    | unended => exact absurd hkind (by decide)

section
variable (h : g.Tied)
include h

theorem Tied.marks_iff (hs : g.state? s = some st) : g.Marks m s ↔ st.kind = m.kind := by
  obtain ⟨x, hx⟩ := h.placed.owner hs
  rw [h.kind_iff hs hx]
  constructor
  · rintro ⟨st', x', hst', hx', hm⟩
    rw [hs] at hst'
    obtain rfl := Option.some.inj hst'
    rw [hx] at hx'
    obtain rfl := Option.some.inj hx'
    exact hm
  · exact fun hm => ⟨st, x, hs, hx, hm⟩

theorem Tied.incident_isEmpty_iff (hs : g.state? s = some st) :
    (g.incidentTransitions s).isEmpty = true ↔
    ∀ t tr, g.transition? t = some tr → tr.source ≠ s ∧ tr.target ≠ s := by
  rw [List.isEmpty_iff, List.eq_nil_iff_forall_not_mem]
  simp only [(h.adjacencyExact.incident hs).2, not_exists, not_and, not_or]

theorem Tied.targets_isEmpty_iff (hs : g.state? s = some st) : (g.targets s).isEmpty = true ↔
    ∀ t tr, g.transition? t = some tr → tr.source ≠ s := by
  rw [List.isEmpty_iff, List.eq_nil_iff_forall_not_mem]
  simp only [(h.adjacencyExact.targets hs).2, not_exists, not_and]
  exact ⟨fun hnone t tr ht hsource => hnone _ t tr ht hsource rfl, fun hnone _ t tr ht hsource =>
    absurd hsource (hnone t tr ht)⟩

theorem Tied.sources_any_iff (hs : g.state? s = some st) : (g.sources s).any (· != s) = true ↔
    ¬ ∀ t tr, g.transition? t = some tr → tr.target = s → tr.source = s := by
  simp only [List.any_eq_true, (h.adjacencyExact.sources hs).2, bne_iff_ne]
  push Not
  constructor
  · rintro ⟨q, ⟨t, tr, ht, rfl, htarget⟩, hne⟩
    exact ⟨t, tr, ht, htarget, hne⟩
  · rintro ⟨t, tr, ht, htarget, hne⟩
    exact ⟨_, ⟨t, tr, ht, rfl, htarget⟩, hne⟩

theorem Tied.targets_any_iff (hs : g.state? s = some st) : (g.targets s).any (· != s) = true ↔
    ¬ ∀ t tr, g.transition? t = some tr → tr.source = s → tr.target = s := by
  simp only [List.any_eq_true, (h.adjacencyExact.targets hs).2, bne_iff_ne]
  push Not
  constructor
  · rintro ⟨q, ⟨t, tr, ht, hsource, rfl⟩, hne⟩
    exact ⟨t, tr, ht, hsource, hne⟩
  · rintro ⟨t, tr, ht, hsource, hne⟩
    exact ⟨_, ⟨t, tr, ht, hsource, rfl⟩, hne⟩

theorem Tied.unmarked_iff (hs : g.state? s = some st) :
    (∀ m, ¬ g.Marks m s) ↔ st.kind = .normal := by
  simp only [h.marks_iff hs]
  constructor
  · intro hnone
    cases hk : st.kind with
    | normal => rfl
    | start => exact absurd hk (hnone .start)
    | final => exact absurd hk (hnone .final)
  · rintro hk m
    rw [hk]
    cases m <;> decide

/-- The defects of a live state are the checks that fail. -/
theorem Tied.defect_state_iff (hs : g.state? s = some st) (kind : FindingKind) :
    g.Defect (.state s) kind ↔
    match kind with
    | .noStartState | .noEndState => False
    | .stateWithoutTransitions => ¬ (!(g.incidentTransitions s).isEmpty) = true
    | .endStateCannotBeReached => st.kind = .final ∧ ¬ (g.sources s).any (· != s) = true
    | .endStateHasOutboundTransitions => st.kind = .final ∧ ¬ (g.targets s).isEmpty = true
    | .endStateHasSubstates => st.kind = .final ∧ ¬ (!st.isComposite) = true
    | .startStateHasNoOutboundTransitions => st.kind = .start ∧ ¬ (!(g.targets s).isEmpty) = true
    | .stateHasNoInboundTransitions => st.kind = .normal ∧ ¬ (g.sources s).any (· != s) = true
    | .stateHasNoOutboundTransitions =>
      st.kind = .normal ∧ ¬ (g.targets s).any (· != s) = true := by
  have hfinal : g.Marks .final s ↔ st.kind = .final := h.marks_iff hs
  have hstart : g.Marks .start s ↔ st.kind = .start := h.marks_iff hs
  simp only [Bool.not_eq_true', Bool.not_eq_false, h.incident_isEmpty_iff hs, h.sources_any_iff hs,
    h.targets_any_iff hs, h.targets_isEmpty_iff hs, not_not, ← hfinal, ← hstart,
    ← h.unmarked_iff hs]
  constructor
  · rintro hdefect
    cases hdefect with
    | untouched _ hnone => exact hnone
    | endUnreached hm hnone => exact ⟨hm, hnone⟩
    | endLeft hm ht hsource => exact ⟨hm, fun hnone => hnone _ _ ht hsource⟩
    | endComposite hm hs' hd =>
      rw [hs] at hs'
      obtain rfl := Option.some.inj hs'
      rw [State.isComposite, hd]
      exact ⟨hm, rfl⟩
    | startNotLeft hm hnone => exact ⟨hm, hnone⟩
    | unreached _ hm hnone => exact ⟨hm, hnone⟩
    | notLeft _ hm hnone => exact ⟨hm, hnone⟩
  · intro hcondition
    cases kind with
    | noStartState => exact hcondition.elim
    | noEndState => exact hcondition.elim
    | stateWithoutTransitions => exact .untouched hs hcondition
    | endStateCannotBeReached => exact .endUnreached hcondition.1 hcondition.2
    | endStateHasOutboundTransitions =>
      obtain ⟨hm, hsome⟩ := hcondition
      push Not at hsome
      obtain ⟨t, tr, ht, hsource⟩ := hsome
      exact .endLeft hm ht hsource
    | endStateHasSubstates =>
      obtain ⟨d, hd⟩ := Option.isSome_iff_exists.mp hcondition.2
      exact .endComposite hcondition.1 hs hd
    | startStateHasNoOutboundTransitions => exact .startNotLeft hcondition.1 hcondition.2
    | stateHasNoInboundTransitions => exact .unreached hs hcondition.1 hcondition.2
    | stateHasNoOutboundTransitions => exact .notLeft hs hcondition.1 hcondition.2

/-- The checks of a state find its defects; those of other kinds than the state's are none. -/
theorem Tied.findingsAt_state (hs : g.state? s = some st) :
    g.findingsAt (.state s) = g.defectsAt (.state s) := by
  have hdefect := h.defect_state_iff hs
  rw [findingsAt, checksAt, checksOf, hs, defectsAt, FindingKind.all,
    defectsOf_cons_of_not (hdefect .noStartState).mp,
    defectsOf_cons_of_not (hdefect .noEndState).mp,
    defectsOf_cons (hdefect .stateWithoutTransitions), List.flatMap_cons]
  refine congrArg (_ ++ ·) ?_
  -- the kind says which checks there are, and rules out the defects of the other kinds
  cases hk : st.kind with
  | normal =>
    simp only [hk, reduceCtorEq, false_and, true_and] at hdefect
    rw [defectsOf_cons_of_not (hdefect .endStateCannotBeReached).mp,
      defectsOf_cons_of_not (hdefect .endStateHasOutboundTransitions).mp,
      defectsOf_cons_of_not (hdefect .startStateHasNoOutboundTransitions).mp,
      defectsOf_cons (hdefect .stateHasNoInboundTransitions),
      defectsOf_cons (hdefect .stateHasNoOutboundTransitions),
      defectsOf_cons_of_not (hdefect .endStateHasSubstates).mp]
    rfl
  | start =>
    simp only [hk, reduceCtorEq, false_and, true_and] at hdefect
    rw [defectsOf_cons_of_not (hdefect .endStateCannotBeReached).mp,
      defectsOf_cons_of_not (hdefect .endStateHasOutboundTransitions).mp,
      defectsOf_cons (hdefect .startStateHasNoOutboundTransitions),
      defectsOf_cons_of_not (hdefect .stateHasNoInboundTransitions).mp,
      defectsOf_cons_of_not (hdefect .stateHasNoOutboundTransitions).mp,
      defectsOf_cons_of_not (hdefect .endStateHasSubstates).mp]
    rfl
  | final =>
    simp only [hk, reduceCtorEq, false_and, true_and] at hdefect
    rw [defectsOf_cons (hdefect .endStateCannotBeReached),
      defectsOf_cons (hdefect .endStateHasOutboundTransitions),
      defectsOf_cons_of_not (hdefect .startStateHasNoOutboundTransitions).mp,
      defectsOf_cons_of_not (hdefect .stateHasNoInboundTransitions).mp,
      defectsOf_cons_of_not (hdefect .stateHasNoOutboundTransitions).mp,
      defectsOf_cons (hdefect .endStateHasSubstates)]
    rfl

/-! ## All findings -/

theorem Tied.places_eq (hx : g.definition? d = some x) :
    g.places d = .definition d :: x.states.flatMap fun s =>
      .state s :: (g.nestedIn s).elim [] g.places := by
  have hlt := definition?_lt hx
  obtain ⟨n, hn⟩ : ∃ n, g.definitions.size = n + 1 := ⟨g.definitions.size - 1, by omega⟩
  rw [places, hn, nodesBelow_succ hx]
  refine congrArg (_ :: ·) (List.flatMap_congr fun s hs => congrArg (_ :: ·) ?_)
  unfold nodesInside
  cases he : g.nestedIn s with
  | none => rfl
  | some e => exact h.nodesBelow_nested hx hn hs he

theorem Tied.validate_eq (hx : g.definition? d = some x) :
    g.validate d = (g.places d).flatMap g.defectsAt := by
  have hn : g.definitions.size ≤ g.definitions.size + d.index := Nat.le_add_right ..
  rw [validate_eq_flatMap]
  refine List.flatMap_congr fun k hk => ?_
  cases k with
  | definition e =>
    obtain ⟨y, hy⟩ := definition_live_of_within ⟨x, hx⟩
      ((definition_mem_nodesBelow h ⟨x, hx⟩ hn).mp hk)
    exact findingsAt_definition hy
  | state s =>
    obtain ⟨st, hst, -⟩ := (state_mem_nodesBelow h ⟨x, hx⟩ hn).mp hk
    exact h.findingsAt_state hst
  | transition t => exact absurd hk transition_not_mem_nodesBelow

end

/-- Validation finds the defects of a definition and of all within it, each once and in the order of
a walk, and its three forms agree. -/
structure FindingsExact (g : Graph κ) : Prop where
  places : ∀ {d x}, g.definition? d = some x →
    g.places d = .definition d :: x.states.flatMap fun s =>
      .state s :: (g.nestedIn s).elim [] g.places
  nodup : ∀ {d x}, g.definition? d = some x → (g.places d).Nodup
  definitions : ∀ {d x}, g.definition? d = some x → ∀ e, .definition e ∈ g.places d ↔ g.isWithin e d
  states : ∀ {d x}, g.definition? d = some x → ∀ s, .state s ∈ g.places d ↔
    ∃ st, g.state? s = some st ∧ g.isWithin st.owner d
  findings : ∀ {d x}, g.definition? d = some x → g.validate d = (g.places d).flatMap g.defectsAt
  valid : ∀ d, g.isValid d = true ↔ g.validate d = []
  strict : ∀ d, g.validateStrict d = .ok () ↔ g.validate d = []
  carried : ∀ d e, g.validateStrict d = .error e ↔ g.validate d ≠ [] ∧ e =
    .objectInvalid (g.validate d)

theorem isValid_iff_validate : g.isValid d = true ↔ g.validate d = [] := Checked.isPassed_iff

theorem validateStrict_eq :
    g.validateStrict d = if g.validate d = [] then
      .ok () else .error (.objectInvalid (g.validate d)) := by
  simp only [validateStrict, List.isEmpty_iff]

theorem Tied.findingsExact (h : g.Tied) : g.FindingsExact where
  places := h.places_eq
  nodup hx := nodup_nodesBelow h ⟨_, hx⟩ (Nat.le_add_right ..)
  definitions hx e := by
    rw [isWithin_iff h.nested]
    exact definition_mem_nodesBelow h ⟨_, hx⟩ (Nat.le_add_right ..)
  states hx s := by
    simp only [isWithin_iff h.nested]
    exact state_mem_nodesBelow h ⟨_, hx⟩ (Nat.le_add_right ..)
  findings := h.validate_eq
  valid _ := isValid_iff_validate
  strict d := by
    rw [validateStrict_eq]
    split
    · rename_i hnone
      exact ⟨fun _ => hnone, fun _ => rfl⟩
    · rename_i hsome
      exact ⟨nofun, fun hnone => absurd hnone hsome⟩
  carried d e := by
    rw [validateStrict_eq]
    split
    · rename_i hnone
      exact ⟨nofun, fun hsome => absurd hnone hsome.1⟩
    · rename_i hsome
      rw [Except.error.injEq]
      exact ⟨fun he => ⟨hsome, he.symm⟩, fun he => he.2.symm⟩

/-- Whatever edits, copies and queries made a graph, what is found on it is what is wrong with
it. -/
theorem Reachable.findings_exact (h : g.Reachable) : g.FindingsExact := h.tied.findingsExact

/-- The end state b is reached from itself alone and holds a definition, the state c stands alone,
and a, which is left for itself, is no start. -/
def faultyEdits : List (Edit Unit) :=
  [.addState ⟨0⟩ { name := "a" }, .addState ⟨0⟩ { name := "b" }, .addState ⟨0⟩ { name := "c" },
    .setFinal ⟨0⟩ (some ⟨1⟩), .attachSubmachine ⟨1⟩ "b", .addState ⟨1⟩ { name := "x" },
    .setStart ⟨1⟩ (some ⟨3⟩),
    .addTransition ⟨0⟩ { name := "a->a", source := ⟨0⟩, target := ⟨0⟩ },
    .addTransition ⟨1⟩ { name := "b->b", source := ⟨1⟩, target := ⟨1⟩ }]

theorem findings_exact_faultyEdits :
    ((Graph.new "g").edited faultyEdits).validate ⟨0⟩ =
        [⟨.noStartState, "g"⟩, ⟨.stateHasNoInboundTransitions, "a"⟩,
          ⟨.stateHasNoOutboundTransitions, "a"⟩,
          ⟨.endStateCannotBeReached, "b"⟩, ⟨.endStateHasOutboundTransitions, "b"⟩,
          ⟨.endStateHasSubstates, "b"⟩,
          ⟨.noEndState, "b"⟩, ⟨.stateWithoutTransitions, "b::x"⟩,
          ⟨.startStateHasNoOutboundTransitions, "b::x"⟩,
          ⟨.stateWithoutTransitions, "c"⟩, ⟨.stateHasNoInboundTransitions, "c"⟩,
          ⟨.stateHasNoOutboundTransitions, "c"⟩] ∧
      ((Graph.new "g").edited faultyEdits).Reachable ∧
      ((Graph.new "g").edited faultyEdits).FindingsExact := by
  have hreachable := (Reachable.new (κ := Unit) "g").edited faultyEdits
  exact ⟨by decide +kernel, hreachable, hreachable.findings_exact⟩

end Statechart.Graph
