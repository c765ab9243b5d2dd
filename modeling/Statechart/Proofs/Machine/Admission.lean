import Statechart.Proofs.Machine.Cutoff
import Statechart.Proofs.Machine.Restoring
import Statechart.Proofs.Machine.Running
import Statechart.Proofs.Machine.Scope
import Statechart.Proofs.Graph.Hierarchy

/-!
# What a restored snapshot is admitted for

A machine gets into a state by entering it, which leads on to the start states of what is nested in
it, and a transition into its slot by queueing, which is refused at the end of the definition and
while states are left or entered. Restoring checks neither. It checks that a queued transition
leaves the active state, and nothing else is left to check.
-/

namespace Statechart

open Json

variable {σ κ : Type}

/-- Entering a state ends there exactly if no state is entered inside. -/
theorem Graph.Tied.resolveEntryTarget_eq_self {g : Graph κ} (h : g.Tied) {s : StateId} :
    g.resolveEntryTarget s = s ↔ g.entryStep s = none := by
  have hlast := h.getLast?_entry s
  constructor
  · intro heq
    rw [heq] at hlast
    exact hlast.2
  · intro hnone
    have hone := (h.exhausts_entry s).unique (.stop hnone)
    rw [hone] at hlast
    exact (Option.some.inj hlast.1).symm

namespace Machine

/-- States are being left or entered, or an effect is run. -/
def inTransit (m : Machine κ) : Bool := m.phase.entry || m.phase.exit || m.phase.effect

theorem inTransit_of_idle {m : Machine κ} (h : m.phase = .idle) : m.inTransit = false := by
  rw [inTransit, h]
  rfl

theorem atEnd_iff_of_active {m : Machine κ} {s : StateId} (hactive : m.active = some s) :
    m.atEnd = true ↔ (m.graph.definition? m.definition).bind (·.final) = some s := by
  rw [atEnd, hactive]
  cases (m.graph.definition? m.definition).bind (·.final) with
  | none => exact iff_of_false Bool.false_ne_true (Option.some_ne_none s).symm
  | some f =>
    rw [Option.isSome_some, Bool.true_and, beq_iff_eq]
    exact eq_comm

end Machine

namespace Engine

variable {w : World σ κ} {t : TransitionId} {args : List Value}

/-- Queueing a candidate of the active state succeeds, unless something is under way that forbids
it. -/
theorem queueTransition_of_candidate {s : StateId} {ts : List TransitionId}
    (htransit : w.machine.inTransit = false) (hpending : w.machine.pending = none)
    (hend : w.machine.atEnd = false) (hactive : w.machine.active = some s)
    (hts : w.machine.candidatesFrom s = .ok ts) (ht : t ∈ ts) :
    queueTransition t args w = .ok ()
      ((w.mapMachine fun m => { m with pending := some ⟨t, args⟩ }).notify
        (.transitionQueued t)) := by
  obtain ⟨tr, htr, -⟩ := Machine.leadsInto_of_candidate hts ht
  have hcandidates : candidates w = .ok ts w := by
    rw [candidates, machine_bind, hactive]
    dsimp only
    rw [hts]
    rfl
  have hphase : ¬ (w.machine.phase.entry || w.machine.phase.exit ||
      w.machine.phase.effect) = true :=
    ne_true_of_eq_false htransit
  rw [queueTransition, machine_bind, if_neg hphase, hpending, hactive,
    Graph.transition_ok_iff.mpr htr, hend]
  refine (bind_of_ok hcandidates).trans ?_
  rw [if_pos (List.contains_iff_mem.mpr ht)]
  rfl

/-- Queueing succeeds with the slot empty, exactly for the candidates of the active state, as long
as the machine is not at its end and no states are being left or entered. -/
theorem queueTransition_ok_iff : (∃ w', queueTransition t args w = .ok () w') ↔
    w.machine.inTransit = false ∧ w.machine.pending = none ∧ w.machine.atEnd = false ∧
      ∃ s ts, w.machine.active = some s ∧ w.machine.candidatesFrom s = .ok ts ∧ t ∈ ts := by
  constructor
  · rintro ⟨w', hw'⟩
    have htransit : w.machine.inTransit = false := by
      by_contra htransit
      have hphase : (w.machine.phase.entry || w.machine.phase.exit ||
          w.machine.phase.effect) = true :=
        Bool.of_not_eq_false htransit
      rw [queueTransition, machine_bind, if_pos hphase] at hw'
      cases hw'
    rcases queueTransition_cases t args w with ⟨e, he⟩
      | ⟨s, ts, hpending, hactive, hend, hts, ht, -⟩
    · cases he.symm.trans hw'
    · exact ⟨htransit, hpending, hend, s, ts, hactive, hts, ht⟩
  · rintro ⟨htransit, hpending, hend, s, ts, hactive, hts, ht⟩
    exact ⟨_, queueTransition_of_candidate htransit hpending hend hactive hts ht⟩

end Engine

namespace Snapshot

variable {m m' : Machine κ} {s : Snapshot} {w : World σ κ}

theorem pending_eq_none_iff {pending : Option Pending} (h : s.resolvePending m = .ok pending) :
    pending = none ↔ s.transitionQueue = [] := by
  refine ⟨?_, fun hnil => pending_eq_none hnil h⟩
  rintro rfl
  rw [resolvePending] at h
  split at h
  · assumption
  · split at h <;> cases h
  · cases h

/-- The state that a machine is put into is one that entering it would end in, unless something
starts inside. -/
theorem leaf_iff (hg : m.graph.Tied) (h : s.restoreInto m = .ok m') :
    (∀ q, m'.active = some q → m'.graph.resolveEntryTarget q = q) ↔
      ∀ q, s.resolveActive m = .ok (some q) → m.graph.entryStep q = none := by
  obtain ⟨active, pending, rfl, -, -, hactive, -, -⟩ := restoreInto_ok h
  rw [hactive]
  refine forall_congr' fun q => imp_congr ⟨congrArg _, Except.ok.inj⟩ ?_
  exact hg.resolveEntryTarget_eq_self

/-- What a machine is put into the slot of could have been queued, unless it is at the end or in
transit. -/
theorem queueable_iff (h : s.restoreInto m = .ok m')
    (hw : w.machine = { m' with pending := none }) :
    (∀ p, m'.pending = some p → ∃ w', Engine.queueTransition p.transition p.args w = .ok () w') ↔
      s.Settled m ∧ (s.transitionQueue = [] ∨ m.inTransit = false) := by
  obtain ⟨active, pending, rfl, -, -, hactive, hpending, hleaves⟩ := restoreInto_ok h
  have hqueue := pending_eq_none_iff hpending
  cases pending with
  | none =>
    have hnil := hqueue.mp rfl
    exact iff_of_true nofun ⟨.inl hnil, .inl hnil⟩
  | some p =>
    have hne : s.transitionQueue ≠ [] := fun hnil => Option.some_ne_none p (hqueue.mpr hnil)
    obtain ⟨q, rfl, hq⟩ := hleaves p rfl
    obtain ⟨ts, hts, ht⟩ := leaves_iff.mp hq
    have hend : w.machine.atEnd = true ↔
        (m.graph.definition? m.definition).bind (·.final) = some q := by
      rw [hw]
      exact Machine.atEnd_iff_of_active rfl
    have hsettled : s.Settled m ↔ w.machine.atEnd = false := by
      rw [Settled, or_iff_right hne, hactive, ← Bool.not_eq_true, hend]
      exact ⟨fun h => h q rfl, fun h q' hq' => Option.some.inj (Except.ok.inj hq') ▸ h⟩
    have hcandidate : ∃ q' us, w.machine.active = some q' ∧ w.machine.candidatesFrom q' = .ok us ∧
        p.transition ∈ us := by
      rw [hw]
      exact ⟨q, ts, rfl, hts, ht⟩
    have hempty : w.machine.pending = none := by rw [hw]
    have htransit : w.machine.inTransit = m.inTransit := by
      rw [hw]
      rfl
    rw [hsettled, or_iff_right hne, ← htransit]
    constructor
    · intro h
      obtain ⟨htransit, -, hend, -⟩ := Engine.queueTransition_ok_iff.mp (h p rfl)
      exact ⟨hend, htransit⟩
    · rintro ⟨hend, htransit⟩ p' hp'
      obtain rfl := Option.some.inj hp'
      exact Engine.queueTransition_ok_iff.mpr ⟨htransit, hempty, hend, hcandidate⟩

end Snapshot

/-- A machine that a snapshot has been restored into is in a state that entering it ends in, with
what waits in its slot fit to be queued, exactly if nothing starts inside the state that the
snapshot names, the snapshot queues nothing at the end of the definition, and it queues nothing
while states are being left or entered. -/
theorem Engine.restored_admissible_iff {s : Snapshot} {w w' : World σ κ}
    (hreachable : w.machine.graph.Reachable) (hrestored : Engine.restore s w = .ok (.ok ()) w') :
    ((∀ q, w'.machine.active = some q → w'.machine.graph.resolveEntryTarget q = q) ∧
      ∀ p, w'.machine.pending = some p → ∃ v, Engine.queueTransition p.transition p.args
        (w'.mapMachine ({ · with pending := none })) = .ok () v) ↔
    (∀ q, s.resolveActive w.machine = .ok (some q) → w.machine.graph.entryStep q = none) ∧
      s.Settled w.machine ∧ (s.transitionQueue = [] ∨ w.machine.inTransit = false) := by
  rw [Engine.restore, Engine.machine_bind] at hrestored
  cases hinto : s.restoreInto w.machine with
  | error e =>
    rw [hinto] at hrestored
    cases hrestored
  | ok m' =>
    rw [hinto] at hrestored
    cases hrestored
    exact and_congr (Snapshot.leaf_iff hreachable.tied hinto) (Snapshot.queueable_iff hinto rfl)

/-! ## Snapshots that are let in -/

/-- A state at which the definition ends, with a way on, and a state in which another is entered. -/
def berthEdits : List (Edit Unit) :=
  [.addState ⟨0⟩ { name := "a" }, .addState ⟨0⟩ { name := "b" }, .attachSubmachine ⟨1⟩ "b",
    .addState ⟨1⟩ { name := "x" }, .setStart ⟨1⟩ (some ⟨2⟩),
    .addTransition ⟨0⟩ { name := "a->b", source := ⟨0⟩, target := ⟨1⟩ }, .setFinal ⟨0⟩ (some ⟨0⟩)]

def berth : World Unit Unit := .fresh ((Graph.new "berth").edited berthEdits)

/-- A snapshot that names a state of it, and what it queues. -/
def berthing (state : String) (queue : List QueuedTransition) : Snapshot :=
  ⟨Snapshot.currentVersion, .ofNat 1, .ofNat 2, ⟨0, 0, 0⟩, "berth", some state, queue, [], []⟩

def berthed (state : String) (queue : List QueuedTransition) : World Unit Unit :=
  (Engine.restore (berthing state queue)).after berth

theorem restored_unentered :
    Engine.restore (berthing "b" []) berth = .ok (.ok ()) (berthed "b" []) :=
  Engine.ok_of_answer? (by decide +kernel)

theorem restored_ended : Engine.restore (berthing "a" [⟨"a->b", []⟩]) berth =
    .ok (.ok ()) (berthed "a" [⟨"a->b", []⟩]) :=
  Engine.ok_of_answer? (by decide +kernel)

theorem restored_admissible_iff_berth :
    berth.machine.graph.Reachable ∧
      Engine.restore (berthing "b" []) berth = .ok (.ok ()) (berthed "b" []) ∧
      (((∀ q, (berthed "b" []).machine.active = some q →
          (berthed "b" []).machine.graph.resolveEntryTarget q = q) ∧
        ∀ p, (berthed "b" []).machine.pending = some p → ∃ v,
        Engine.queueTransition p.transition p.args
          ((berthed "b" []).mapMachine ({ · with pending := none })) = .ok () v) ↔
      (∀ q, (berthing "b" []).resolveActive berth.machine = .ok (some q) →
          berth.machine.graph.entryStep q = none) ∧
        (berthing "b" []).Settled berth.machine ∧
        ((berthing "b" []).transitionQueue = [] ∨ berth.machine.inTransit = false)) := by
  have hreachable : berth.machine.graph.Reachable := (Graph.Reachable.new "berth").edited berthEdits
  exact ⟨hreachable, restored_unentered,
    Engine.restored_admissible_iff hreachable restored_unentered⟩

/-- A machine is put into b, though entering b leads to x, and at the end of its definition into a
with a way to b in its slot, which is refused there. -/
theorem unfit_berth :
    berth.machine.graph.Reachable ∧
      (Engine.restore (berthing "b" []) berth = .ok (.ok ()) (berthed "b" []) ∧
        (berthed "b" []).machine.active = some ⟨1⟩ ∧
        (berthed "b" []).machine.graph.resolveEntryTarget ⟨1⟩ = ⟨2⟩) ∧
      Engine.restore (berthing "a" [⟨"a->b", []⟩]) berth =
        .ok (.ok ()) (berthed "a" [⟨"a->b", []⟩]) ∧
        (berthed "a" [⟨"a->b", []⟩]).machine.pending.map (·.transition) = some ⟨0⟩ ∧
        (Engine.queueTransition ⟨0⟩ []).answer?
          ((berthed "a" [⟨"a->b", []⟩]).mapMachine ({ · with pending := none })) = none :=
  ⟨(Graph.Reachable.new "berth").edited berthEdits,
    ⟨restored_unentered, by decide +kernel, by decide +kernel⟩,
    restored_ended, by decide +kernel, by decide +kernel⟩

end Statechart
