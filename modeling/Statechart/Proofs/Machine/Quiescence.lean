import Statechart.Machine.Copies
import Statechart.Proofs.Machine.Gears
import Statechart.Proofs.Machine.Provenance

/-!
# Quiescence

Between operations nothing is under way: no run, no phase and no firing. This is whatever operations
are asked of a machine, whether they succeed or fail, and whatever the bodies that they run into ask
for in turn.
-/

namespace Statechart

open Json

variable {σ κ α : Type}

namespace World

variable {b : Bool} {t : Option TransitionId} {k : Phase}

theorem settled_true : Settled fun _ : World σ κ => True := ⟨fun _ _ => trivial, fun _ _ => trivial⟩

theorem indifferent_geared : Indifferent (Under (σ := σ) (κ := κ) b t (fun _ => True) k) :=
  fun _ _ h => ⟨h.1.congr rfl, trivial⟩

end World

namespace Engine

variable {r : Responder σ κ} {hook : κ → Engine σ κ Unit} {n : Nat} {q : Request κ}
  {t : Option TransitionId} {k : Phase}

theorem phased_geared (b : Bool) (t : Option TransitionId) :
    Phased (World.Under (σ := σ) (κ := κ) b t fun _ => True) (World.Under b t fun _ => True)
      fun _ => False :=
  phased_under World.settled_true World.settled_true (fun _ => id) nofun b t

theorem crosses_geared {b : Bool}
    (hr : ∀ k' : Phase, k'.effect = k.effect → r.Keeps (World.Under b t (fun _ => True) k')) :
    Crosses r (World.Under b t fun _ => True) (World.Under b t fun _ => True) (fun _ => False) k :=
  crosses_of_bears (phased_geared b t) (fun _ h => ⟨h.1.notify _, trivial⟩) fun k' hk' =>
    (hr k' hk').bears

/-- What is asked of a machine while a run is under way leaves its flags as they are. -/
theorem geared_carryOut (hr : ∀ k, r.Keeps (World.Under true t (fun _ => True) k))
    (hook : κ → Engine σ κ Unit) (n : Nat) (q : Request κ) (k : Phase) :
    Keeps (World.Under true t (fun _ => True) k) (carryOut r hook n q) := by
  have hbearing := (phased_geared (σ := σ) (κ := κ) true t).bearing k
  exact bears_iff_keeps.mp (Triple.carryOut (phased_geared true t) hbearing
    (fun _ => id) (hr k).bears
    (crosses_geared fun k' _ => hr k')
      (bears_running hbearing (fun _ h => h.1.running) (hr k).bears n))

/-- What is asked of a machine while no run is under way leaves its flags as they are. -/
theorem geared_carryOut_idle (hk : k.effect = false)
    (hbusy : ∀ t k, r.Keeps (World.Under true t (fun _ => True) k))
    (hidle : ∀ k' : Phase, k'.effect = false → r.Keeps (World.Under false none (fun _ => True) k'))
    (hhook : ∀ key, Keeps (World.Under true none (fun _ => True) k) (hook key)) :
    Keeps (World.Under false none (fun _ => True) k) (carryOut r hook n q) := by
  have hfire (p : Pending) (w : World σ κ) (hw : World.Under true none (fun _ => True) k w) :
      ∃ M, Conducts r (fun _ => True) (fun _ => True) M (fun _ => False) k p w :=
    ⟨fun _ => True, {
      settled := World.settled_true
      effect := by
        rintro _ rfl
        have hbearing := (phased_geared (σ := σ) (κ := κ) true (some p.transition)).bearing
          (setPhaseFlag k .effect true)
        refine bears_invoke hbearing (hbusy _ _).bears _ _ _ _
          ⟨⟨hw.1.running, nofun, ?_, .inr rfl⟩, trivial⟩
        exact congrArg (setPhaseFlag · .effect true) hw.1.phase
      crosses := crosses_geared fun k' _ => hbusy _ k'
      fired := fun _ _ _ _ => trivial
      lost := fun _ _ => trivial }⟩
  exact bears_iff_keeps.mp
    (Triple.carryOut (phased_geared false none) ((phased_geared false none).bearing k)
    (fun _ => id) (hidle k hk).bears (crosses_geared fun k' hk' => hidle k' (hk'.trans hk))
    (under_carryOut_of_runs World.settled_true World.settled_true (fun _ => id) nofun hk hfire
      (fun key => bears_iff_keeps.mpr (hhook key)) (hbusy none k).bears (hidle k hk).bears))

end Engine

namespace Host

/-- Whatever bodies ask for while a run is under way leaves the flags as they are. -/
theorem keeps_geared (h : Host σ κ) (t : Option TransitionId) (n : Nat)
    (q : Request κ) (k : Phase) :
    Engine.Keeps (World.Under true t (fun _ => True) k) (h.perform n q) := by
  induction n generalizing q k with
  | zero => exact .throw
  | succ n ih =>
    have hr (k : Phase) : (h.responder (h.perform n)).Keeps
        (World.Under true t (fun _ => True) k) :=
      keeps_responder World.indifferent_geared h.makes_any fun q _ => ih q k
    exact Engine.geared_carryOut hr _ n q k

/-- Whatever bodies ask for while no run is under way leaves the flags as they are. -/
theorem keeps_geared_idle (h : Host σ κ) (n : Nat) (q : Request κ) {k : Phase}
    (hk : k.effect = false) :
    Engine.Keeps (World.Under false none (fun _ => True) k) (h.perform n q) := by
  induction n generalizing q k with
  | zero => exact .throw
  | succ n ih =>
    have hbusy (t : Option TransitionId) (k : Phase) :
        (h.responder (h.perform n)).Keeps (World.Under true t (fun _ => True) k) :=
      keeps_responder World.indifferent_geared h.makes_any fun q _ => h.keeps_geared t n q k
    have hidle (k : Phase) (hk : k.effect = false) :
        (h.responder (h.perform n)).Keeps (World.Under false none (fun _ => True) k) :=
      keeps_responder World.indifferent_geared h.makes_any fun q _ => ih q hk
    exact Engine.geared_carryOut_idle hk hbusy hidle fun key =>
      keeps_hook World.indifferent_geared h.makes_any n (fun q _ => h.keeps_geared none n q k) key

end Host

/-! ## Machines at rest -/

namespace Machine

/-- Nothing is under way in the machine. -/
structure Quiescent (m : Machine κ) : Prop where
  running : m.running = false
  paused : m.paused = false
  phase : m.phase = .idle
  firing : m.firing = none

/-- Machines as they are made: for a definition, as a fork of another, or for what is nested in a
state. -/
inductive Made : Machine κ → Prop
  | bound (id : Uuid) (g : Graph κ) (d : DefinitionId) (o : MachineOptions) (logs : LogStore) :
    Made (bound id g d o logs).1
  | forked (m : Machine κ) (id : Uuid) (logs : LogStore) : Made (m.fork id logs).1
  | spawned {m m' : Machine κ} {s : StateId} {id : Uuid} {logs logs' : LogStore}
    (h : m.spawnSubmachine s id logs = .ok (m', logs')) : Made m'

variable {m : Machine κ}

theorem spawnSubmachine_ok {m' : Machine κ} {c : StateId} {id : Uuid} {logs logs' : LogStore}
    (h : m.spawnSubmachine c id logs = .ok (m', logs')) :
    ∃ ct d history, m.graph.state? c = some ct ∧
      ct.submachine = some d ∧ m' =
        { id, graph := m.graph, definition := d, history, options := m.options } ∧
      (history, logs') = if m.options.propagateHistory then logs.forwardingTo m.history
        else logs.create := by
  rw [spawnSubmachine] at h
  cases hc : m.graph.state c with
  | error e =>
    rw [hc] at h
    cases h
  | ok ct =>
    rw [hc] at h
    dsimp only at h
    cases hnested : ct.submachine with
    | none =>
      rw [hnested] at h
      cases h
    | some d =>
      rw [hnested] at h
      cases h
      exact ⟨ct, d, _, Graph.state_ok_iff.mp hc, hnested, rfl, rfl⟩

theorem Made.quiescent (h : m.Made) : m.Quiescent := by
  cases h with
  | bound id g d o logs => exact ⟨rfl, rfl, rfl, rfl⟩
  | forked m id logs => exact ⟨rfl, rfl, rfl, rfl⟩
  | spawned h =>
    obtain ⟨ct, d, history, -, -, rfl, -⟩ := spawnSubmachine_ok h
    exact ⟨rfl, rfl, rfl, rfl⟩

/-- To be quiescent is to have the flags of a machine in which nothing is under way. -/
theorem quiescent_iff {w : World σ κ} : w.machine.Quiescent ↔ w.Geared false none .idle :=
  ⟨fun h => ⟨h.running, fun _ => h.paused, h.phase, .inl h.firing⟩,
    fun h => ⟨h.running, h.paused rfl, h.phase, h.firing.elim (fun hnone => hnone)
      fun hnone => hnone⟩⟩

end Machine

namespace Host

variable {h : Host σ κ}

/-- An operation, whether it succeeds or fails, leaves nothing under way. -/
theorem Step.quiescent {q : Request κ} {w w' : World σ κ} (hs : h.Step q w w')
    (hw : w.machine.Quiescent) : w'.machine.Quiescent := by
  obtain ⟨n, env, now, hn⟩ := hs
  have hgeared : World.Geared false none .idle { w with env, now } :=
    (Machine.quiescent_iff.mp hw).congr rfl
  exact Machine.quiescent_iff.mpr ((h.keeps_geared_idle n q rfl).leads ⟨hgeared, trivial⟩ hn).1

/-- Whatever operations are asked of a machine since it was made, and whatever the bodies that they
run into ask for in turn: between operations nothing is under way in it. -/
theorem quiescent_of_steps {w : Nat → World σ κ} {q : Nat → Request κ} {n : Nat}
    (hmade : (w 0).machine.Made) (hsteps : ∀ i < n, h.Step (q i) (w i) (w (i + 1))) :
    ∀ i ≤ n, (w i).machine.Quiescent := by
  intro i
  induction i with
  | zero => exact fun _ => hmade.quiescent
  | succ i ih => exact fun hi => (hsteps i hi).quiescent (ih (Nat.le_of_succ_le hi))

end Host

/-- The activity asks for a pause, which a run grants and nothing takes back. -/
theorem quiescent_paused :
    relay.machine.Made ∧
    (∀ i < 4, (Host.asking .pause).Step (legs i) ((Host.asking .pause).worlds 4 legs relay i)
      ((Host.asking .pause).worlds 4 legs relay (i + 1))) ∧
    .paused ∈ ((Host.asking .pause).worlds 4 legs relay 3).notices ∧
    ∀ i ≤ 4, ((Host.asking .pause).worlds 4 legs relay i).machine.Quiescent := by
  have hsteps : ∀ i < 4,
      (Host.asking .pause).Step (legs i) ((Host.asking .pause).worlds 4 legs relay i)
      ((Host.asking .pause).worlds 4 legs relay (i + 1)) := by
    have hall : ∀ i < 4, (Host.asking .pause).completes 4 (legs i)
        ((Host.asking .pause).worlds 4 legs relay i) = true := by decide +kernel
    exact fun i hi => Host.step_next (hall i hi)
  have hmade : relay.machine.Made := .bound default _ _ {} .empty
  exact ⟨hmade, hsteps, by decide +kernel,
    Host.quiescent_of_steps (w := (Host.asking .pause).worlds 4 legs relay) hmade hsteps⟩

end Statechart
