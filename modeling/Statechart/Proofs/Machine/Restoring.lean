import Statechart.Proofs.Machine.Candidates
import Statechart.Snapshot.Restore

/-!
# Restoring snapshots

What a restored machine is. The check of a snapshot is whether the queued transition leaves the
active state; that the machine is not at its end then is left to the snapshot.
-/

namespace Statechart

variable {κ : Type} {m m' : Machine κ} {s : Snapshot} {q : StateId} {t : TransitionId}

namespace Snapshot

/-- The snapshot queues nothing at the end of the definition of a machine. -/
def Settled (s : Snapshot) (m : Machine κ) : Prop :=
  s.transitionQueue = [] ∨
    ∀ q, s.resolveActive m = .ok (some q) →
    (m.graph.definition? m.definition).bind (·.final) ≠ some q

theorem Settled.congr (h : s.Settled m) (hgraph : m'.graph = m.graph)
    (hdefinition : m'.definition = m.definition) : s.Settled m' := by
  have hresolve : s.resolveActive m' = s.resolveActive m := by
    rw [resolveActive, resolveActive, hgraph]
    have hcovers : m'.covers = m.covers := by
      funext q
      rw [Machine.covers, Machine.covers, hgraph, hdefinition]
    rw [hcovers]
  rw [Settled, hresolve, hgraph, hdefinition]
  exact h

theorem leaves_iff : leaves m q t = true ↔ ∃ ts, m.candidatesFrom q = .ok ts ∧ t ∈ ts := by
  rw [leaves]
  cases m.candidatesFrom q with
  | ok ts => simp
  | error e => simp

/-- Restoring changes where an idle machine is and its queues. What is queued leaves the active
state. -/
theorem restoreInto_ok (h : s.restoreInto m = .ok m') :
    ∃ active pending, m' = { m with active, pending, events := s.eventQueue } ∧ m.running = false ∧
      m.graph.definitionLabel m.definition = s.definition ∧
      s.resolveActive m = .ok active ∧ s.resolvePending m = .ok pending ∧
      ∀ p, pending = some p → ∃ q, active = some q ∧ leaves m q p.transition = true := by
  simp only [restoreInto, Bind.bind, Except.bind] at h
  split at h
  · cases h
  split at h
  · cases h
  rename_i hidle
  split at h
  · cases h
  rename_i hlabel
  split at h
  · cases h
  rename_i active hactive
  split at h
  · cases h
  rename_i pending hpending
  split at h
  · cases h
  rename_i hcheck
  refine ⟨active, pending, (Except.ok.inj h).symm, Bool.eq_false_iff.mpr hidle,
    Decidable.not_not.mp hlabel, hactive, hpending, ?_⟩
  rintro p rfl
  cases active with
  | none => cases hcheck
  | some q =>
    refine ⟨q, rfl, ?_⟩
    rw [checkPending] at hcheck
    split at hcheck
    · assumption
    · cases hcheck

/-- What waits in the slot of a restored machine comes from the queue of the snapshot. -/
theorem pending_eq_none {pending : Option Pending} (hs : s.transitionQueue = [])
    (h : s.resolvePending m = .ok pending) : pending = none := by
  rw [resolvePending, hs] at h
  exact (Except.ok.inj h).symm

/-- What waits in the slot of a restored machine has the arguments that the snapshot has for it. -/
theorem exists_of_resolvePending {p : Pending} (h : s.resolvePending m = .ok (some p)) :
    ∃ queued ∈ s.transitionQueue, queued.args = p.args := by
  rw [resolvePending] at h
  split at h
  · cases h
  · rename_i queued hqueue
    split at h
    · cases h
      exact ⟨queued, hqueue ▸ List.mem_cons_self, rfl⟩
    · cases h
  · cases h

/-- A machine on a tied graph is ready once a settled snapshot is restored. -/
theorem Settled.ready (hs : s.Settled m) (hg : m.graph.Tied)
    (h : s.restoreInto m = .ok m') : m'.Ready := by
  obtain ⟨active, pending, rfl, -, -, hactive, hpending, hleaves⟩ := restoreInto_ok h
  intro p hp
  obtain rfl : pending = some p := hp
  obtain ⟨q, rfl, hq⟩ := hleaves p rfl
  obtain ⟨ts, hts, ht⟩ := leaves_iff.mp hq
  refine ⟨?_, q, rfl, (Machine.leaves_of_mem hg hts ht).congr rfl rfl⟩
  have hqueue : s.transitionQueue ≠ [] := by
    intro hnil
    cases pending_eq_none hnil hpending
  have hfinal := (hs.resolve_left hqueue) q hactive
  show (_ && (some q == _)) = false
  rw [beq_eq_false_iff_ne.mpr (Ne.symm hfinal), Bool.and_false]

end Snapshot
end Statechart
