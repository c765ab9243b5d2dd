import Statechart.Proofs.Graph.Isomorphism

/-!
# Kinds of states

Where a definition starts and ends is kept twice: the definition marks a state, and the state has
the kind. Edits move marks from state to state, trade one mark for the other and take marks away
with their states. Whatever they do, and in copies too, the two agree.
-/

namespace Statechart.Graph

variable {κ : Type} {g : Graph κ} {d : DefinitionId} {s : StateId} {m : Mark} {x : Definition κ}
  {st : State κ}

/-- The kinds of the live states and the marks of the live definitions say the same. Of the states
of a definition at most one has the kind of a mark, which is the one that it marks. -/
structure KindsAgree (g : Graph κ) : Prop where
  owner : ∀ {s st}, g.state? s = some st → ∃ x, g.definition? st.owner = some x ∧
    (st.kind = .start ↔ x.start = some s) ∧ (st.kind = .final ↔ x.final = some s) ∧
      (st.kind = .normal ↔ x.start ≠ some s ∧ x.final ≠ some s)
  starts : ∀ {d x}, g.definition? d = some x →
    x.states.filter (fun s => (g.state? s).any (·.kind = .start)) = x.start.toList
  finals : ∀ {d x}, g.definition? d = some x →
    x.states.filter (fun s => (g.state? s).any (·.kind = .final)) = x.final.toList
  member : ∀ {d x s}, g.definition? d = some x → x.start = some s ∨ x.final = some s →
    s ∈ x.states ∧ ∃ st, g.state? s = some st ∧ st.owner = d
  apart : ∀ {d x s}, g.definition? d = some x → x.start = some s → x.final ≠ some s

section
variable (h : g.Tied)
include h

theorem Tied.kind_iff (hs : g.state? s = some st) (hx : g.definition? st.owner = some x) :
    st.kind = m.kind ↔ x.marked m = some s := by
  constructor
  · intro hk
    obtain ⟨x', hx', hm⟩ := h.marked.kind hs hk
    rw [hx] at hx'
    obtain rfl := Option.some.inj hx'
    exact hm
  · intro hm
    obtain ⟨st', hst', -, hk⟩ := h.marked.marked hx hm
    rw [hs] at hst'
    obtain rfl := Option.some.inj hst'
    exact hk

theorem Tied.marked_mem (hx : g.definition? d = some x) (hm : x.marked m = some s) :
    s ∈ x.states ∧ ∃ st, g.state? s = some st ∧ st.owner = d := by
  obtain ⟨st, hst, rfl, -⟩ := h.marked.marked hx hm
  exact ⟨h.listed.state_mem hx hst, st, hst, rfl⟩

/-- The states of the kind of a mark are the one that the definition marks. -/
theorem Tied.filter_kind (hx : g.definition? d = some x) :
    x.states.filter (fun s => (g.state? s).any (·.kind = m.kind)) = (x.marked m).toList := by
  have hkind {s : StateId} (hs : s ∈ x.states) :
      (g.state? s).any (·.kind = m.kind) = true ↔ x.marked m = some s := by
    obtain ⟨st, hst, rfl⟩ := h.listed.state_live hx hs
    rw [hst, Option.any_some, decide_eq_true_iff]
    exact h.kind_iff hst hx
  cases hm : x.marked m with
  | none =>
    refine List.filter_eq_nil_iff.mpr fun s hs hany => ?_
    rw [hkind hs, hm] at hany
    cases hany
  | some p =>
    have hpred {s : StateId} (hs : s ∈ x.states) :
        (g.state? s).any (·.kind = m.kind) = (s == p) := by
      rw [Bool.eq_iff_iff, hkind hs, hm, Option.some.injEq, beq_iff_eq, eq_comm]
    rw [List.filter_congr fun s hs => hpred hs, List.filter_beq,
      List.count_eq_one_of_mem (h.listed.nodup_states hx) (h.marked_mem hx hm).1]
    rfl

theorem Tied.kindsAgree : g.KindsAgree where
  owner {s st} hs := by
    obtain ⟨x, hx⟩ := h.placed.owner hs
    have hstart : st.kind = .start ↔ x.start = some s := h.kind_iff (m := .start) hs hx
    have hfinal : st.kind = .final ↔ x.final = some s := h.kind_iff (m := .final) hs hx
    refine ⟨x, hx, hstart, hfinal, ?_⟩
    rw [Ne, ← hstart, Ne, ← hfinal]
    cases st.kind <;> decide
  starts hx := h.filter_kind (m := .start) hx
  finals hx := h.filter_kind (m := .final) hx
  member {d x s} hx hm := by
    rcases hm with hm | hm
    · exact h.marked_mem (m := .start) hx hm
    · exact h.marked_mem (m := .final) hx hm
  apart {d x s} hx hstart hfinal := by
    obtain ⟨st, hst, rfl, hk⟩ := h.marked.marked (m := .start) hx hstart
    have hk' : st.kind = .final := (h.kind_iff (m := .final) hst hx).mpr hfinal
    rw [hk] at hk'
    cases hk'

end

/-- Whatever edits, copies and queries made a graph, its kinds and marks agree. -/
theorem Reachable.kinds_agree (h : g.Reachable) : g.KindsAgree := h.tied.kindsAgree

/-- The start mark goes from a to b, which was the end; the end mark goes to a and leaves with it.
In c a definition is installed. -/
def remarkingEdits : List (Edit Unit) :=
  [.addState ⟨0⟩ { name := "a" }, .addState ⟨0⟩ { name := "b" }, .addState ⟨0⟩ { name := "c" },
    .setStart ⟨0⟩ (some ⟨0⟩), .setFinal ⟨0⟩ (some ⟨1⟩), .setStart ⟨0⟩ (some ⟨1⟩),
    .setFinal ⟨0⟩ (some ⟨0⟩),
    .attachSubmachine ⟨2⟩ "c", .extend ⟨1⟩ { name := "c", initial := some "x", final := some "y" },
    .removeState ⟨0⟩]

theorem kinds_agree_remarkingEdits :
    (((Graph.new "g").edited remarkingEdits).definition? ⟨0⟩).map (fun x => (x.start, x.final)) =
        some (some ⟨1⟩, none) ∧
      (((Graph.new "g").edited remarkingEdits).definition? ⟨1⟩).map (fun x => (x.start, x.final)) =
        some (some ⟨3⟩, some ⟨4⟩) ∧
      ((Graph.new "g").edited remarkingEdits).Reachable ∧
      ((Graph.new "g").edited remarkingEdits).KindsAgree := by
  have hreachable := (Reachable.new (κ := Unit) "g").edited remarkingEdits
  exact ⟨by decide +kernel, by decide +kernel, hreachable, hreachable.kinds_agree⟩

end Statechart.Graph
