import Statechart.Proofs.Graph.Adjacency
import Statechart.Proofs.Graph.Hierarchy
import Statechart.Validation

/-!
# Valid graphs

The findings on a definition are those at the places that a walk below it meets. A root without
findings therefore says something of every live definition and of every live state: there are states
to start in and to end in, the end states are those that no transition leaves, and nothing is nested
in an end state.
-/

namespace Statechart

namespace Checked

theorem isPassed_iff {c : Checked} : c.isPassed = true ↔ c.findings = [] := by
  cases c with
  | passed => exact ⟨fun _ => rfl, fun _ => rfl⟩
  | failed first rest => exact ⟨nofun, nofun⟩

theorem findings_both (c c' : Checked) : (c.both c').findings = c.findings ++ c'.findings := by
  cases c <;> rfl

/-- All checks together find what each of them finds, in order. -/
theorem findings_all (cs : List Checked) : (all cs).findings = cs.flatMap findings := by
  induction cs with
  | nil => rfl
  | cons c cs ih => rw [all, List.foldr_cons, findings_both, ← all, ih, List.flatMap_cons]

end Checked

namespace Graph

variable {κ : Type} {g : Graph κ} {d : DefinitionId} {s q : StateId} {x : Definition κ}
  {st : State κ} {n : Nat}

/-- The checks at one place of a graph. -/
def checksAt (g : Graph κ) : NodeRef → List Checked
  | .definition d =>
    match g.definition? d with
    | none => []
    | some x =>
      [require x.start.isSome .noStartState (g.definitionLabel d),
        require x.final.isSome .noEndState (g.definitionLabel d)]
  | .state s => g.checksOf s
  | .transition _ => []

/-- The findings at one place of a graph. -/
def findingsAt (g : Graph κ) (k : NodeRef) : List Finding := (g.checksAt k).flatMap (·.findings)

theorem checksBelow_eq_flatMap : g.checksBelow n d = (g.nodesBelow n d).flatMap g.checksAt := by
  induction n generalizing d with
  | zero => rfl
  | succ n ih =>
    cases hx : g.definition? d with
    | none => rw [checksBelow, nodesBelow, hx, List.flatMap_nil]
    | some x =>
      have hmarks : g.checksAt (.definition d) =
          [require x.start.isSome .noStartState (g.definitionLabel d),
            require x.final.isSome .noEndState (g.definitionLabel d)] := by
        rw [checksAt, hx]
      rw [nodesBelow_succ hx, List.flatMap_cons, hmarks, List.flatMap_assoc, checksBelow, hx]
      refine congrArg (_ ++ ·) (List.flatMap_congr fun s _ => ?_)
      rw [List.flatMap_cons, nodesInside]
      refine congrArg (g.checksOf s ++ ·) ?_
      cases g.nestedIn s with
      | none => rfl
      | some e => exact ih

theorem validate_eq_flatMap :
    g.validate d = (g.nodesBelow g.definitions.size d).flatMap g.findingsAt := by
  rw [validate, check, Checked.findings_all, checksBelow_eq_flatMap, List.flatMap_assoc]
  rfl

theorem findings_require {ok : Bool} {kind : FindingKind} {element : String} :
    (require ok kind element).findings = if ok then [] else [⟨kind, element⟩] := by
  cases ok <;> rfl

theorem findings_require_eq_nil {ok : Bool} {kind : FindingKind} {element : String} :
    (require ok kind element).findings = [] ↔ ok = true := by
  cases ok <;> simp [findings_require]

/-- What a root without findings says of the definitions and states of a graph. -/
structure Validated (g : Graph κ) : Prop where
  start : ∀ {d x}, g.definition? d = some x → ∃ s, x.start = some s
  final : ∀ {d x}, g.definition? d = some x → ∃ s, x.final = some s
  outgoing : ∀ {s st}, g.state? s = some st → (st.outgoing = [] ↔ st.kind = .final)
  submachine : ∀ {s st}, g.state? s = some st → st.kind = .final → st.submachine = none

section
variable (h : g.Tied)
include h

/-- A definition has no findings if and only if there are none at the definitions and states within
it. -/
theorem Tied.isValid_iff (hd : ∃ x, g.definition? d = some x) : g.isValid d = true ↔
    (∀ e, g.Within e d → g.findingsAt (.definition e) = []) ∧
      ∀ s st, g.state? s = some st → g.Within st.owner d → g.findingsAt (.state s) = [] := by
  rw [isValid, Checked.isPassed_iff, ← validate, validate_eq_flatMap, List.flatMap_eq_nil_iff]
  have hn : g.definitions.size ≤ g.definitions.size + d.index := Nat.le_add_right ..
  constructor
  · intro hall
    refine ⟨fun e he => hall _ ((definition_mem_nodesBelow h hd hn).mpr he), fun s st hst hw => ?_⟩
    exact hall (.state s) ((state_mem_nodesBelow h hd hn).mpr ⟨st, hst, hw⟩)
  · rintro ⟨hdefinitions, hstates⟩ k hk
    cases k with
    | definition e => exact hdefinitions e ((definition_mem_nodesBelow h hd hn).mp hk)
    | state s =>
      obtain ⟨st, hst, hw⟩ := (state_mem_nodesBelow h hd hn).mp hk
      exact hstates s st hst hw
    | transition t => rfl

theorem Tied.targets_eq_nil (hs : g.state? s = some st) : g.targets s = [] ↔ st.outgoing = [] := by
  simp only [List.eq_nil_iff_forall_not_mem, (h.adjacencyExact.targets hs).2,
    h.listed.mem_outgoing hs]
  constructor
  · rintro hnone t ⟨tr, ht, hsource⟩
    exact hnone tr.target ⟨t, tr, ht, hsource, rfl⟩
  · rintro hnone q ⟨t, tr, ht, hsource, -⟩
    exact hnone t ⟨tr, ht, hsource⟩

/-- A state without findings is left by transitions unless it is an end state, in which nothing is
nested. -/
theorem Tied.outgoing_of_findingsAt (hs : g.state? s = some st)
    (hnone : g.findingsAt (.state s) = []) :
    (st.outgoing = [] ↔ st.kind = .final) ∧ (st.kind = .final → st.submachine = none) := by
  rw [findingsAt, checksAt, checksOf, hs, List.flatMap_cons] at hnone
  have hkind := (List.append_eq_nil_iff.mp hnone).2
  have hleft {p : StateId → Bool} (hany : (g.targets s).any p = true) : st.outgoing ≠ [] := by
    rw [Ne, ← h.targets_eq_nil hs]
    rintro hempty
    rw [hempty] at hany
    cases hany
  cases hk : st.kind with
  | normal =>
    simp only [hk, List.flatMap_cons, List.flatMap_nil, List.append_eq_nil_iff,
      findings_require_eq_nil] at hkind
    exact ⟨⟨fun hempty => absurd hempty (hleft hkind.2.1), nofun⟩, nofun⟩
  | start =>
    simp only [hk, List.flatMap_cons, List.flatMap_nil, List.append_nil, findings_require_eq_nil,
      Bool.not_eq_true', ← Bool.not_eq_true, List.isEmpty_iff] at hkind
    rw [h.targets_eq_nil hs] at hkind
    exact ⟨⟨fun hempty => absurd hempty hkind, nofun⟩, nofun⟩
  | final =>
    simp only [hk, List.flatMap_cons, List.flatMap_nil, List.append_eq_nil_iff,
      findings_require_eq_nil, List.isEmpty_iff] at hkind
    obtain ⟨-, htargets, hsimple, -⟩ := hkind
    rw [h.targets_eq_nil hs] at htargets
    rw [State.isComposite, Bool.not_eq_true', Option.isSome_eq_false_iff,
      Option.isNone_iff_eq_none] at hsimple
    exact ⟨⟨fun _ => rfl, fun _ => htargets⟩, fun _ => hsimple⟩

theorem Tied.validated (hvalid : g.isValid g.root = true) : g.Validated := by
  obtain ⟨r, hr, -⟩ := h.nested.root
  obtain ⟨hdefinitions, hstates⟩ := (h.isValid_iff ⟨r, hr⟩).mp hvalid
  have hmarks {d : DefinitionId} {x : Definition κ} (hx : g.definition? d = some x) :
      x.start.isSome = true ∧ x.final.isSome = true := by
    have hnone := hdefinitions d (h.within_root hx)
    simpa only [findingsAt, checksAt, hx, List.flatMap_cons, List.flatMap_nil,
      List.append_eq_nil_iff, and_true, findings_require_eq_nil] using hnone
  have hstate {s : StateId} {st : State κ} (hs : g.state? s = some st) :
      (st.outgoing = [] ↔ st.kind = .final) ∧ (st.kind = .final → st.submachine = none) := by
    obtain ⟨x, hx⟩ := h.placed.owner hs
    exact h.outgoing_of_findingsAt hs (hstates s st hs (h.within_root hx))
  exact ⟨fun hx => Option.isSome_iff_exists.mp (hmarks hx).1,
    fun hx => Option.isSome_iff_exists.mp (hmarks hx).2,
    fun hs => (hstate hs).1, fun hs => (hstate hs).2⟩

end

/-- On a valid graph entering any live state leads to a state in which nothing is nested. -/
theorem Validated.simple_resolveEntryTarget (hv : g.Validated) (h : g.Tied)
    (hs : ∃ st, g.state? s = some st) :
    ∃ st, g.state? (g.resolveEntryTarget s) = some st ∧ st.submachine = none := by
  have hlive : ∃ st, g.state? (g.resolveEntryTarget s) = some st := by
    rcases Relation.ReflTransGen.cases_head (h.inside_resolveEntryTarget s) with heq | ⟨c, hc, -⟩
    · rwa [heq]
    · obtain ⟨st, x, hst, -⟩ := superstate_eq_some.mp hc
      exact ⟨st, hst⟩
  obtain ⟨st, hst⟩ := hlive
  refine ⟨st, hst, Option.eq_none_iff_forall_ne_some.mpr fun d hd => ?_⟩
  obtain ⟨x, hx, -⟩ := h.nested.nested hst hd
  obtain ⟨q, hq⟩ := hv.start hx
  have hnone := (h.getLast?_entry s).2
  rw [entryStep_eq_some.mpr ⟨st, d, x, hst, hd, hx, hq⟩] at hnone
  cases hnone

end Graph
end Statechart
