import Statechart.Proofs.Machine.Provenance
import Statechart.Proofs.Machine.Underway

/-!
# Nested runs

While a run is under way no other begins: a run that a body asks for is refused, and an event that
it dispatches is at most queued. Only runs set the flag that this depends on. A body that runs into
a start, a move or a guard with no run under way begins a run of its own.
-/

namespace Statechart

open Json

variable {σ κ : Type}

/-- What came of a call that asks for a run. -/
def Call.run? : Call σ κ → Option (Except MachineError RunOutcome)
  | ⟨.run _, _, o, _⟩ | ⟨.runWith .., _, o, _⟩ | ⟨.runEvents, _, o, _⟩ => some o
  | _ => none

/-- The event that a call dispatches, and what came of it. -/
def Call.dispatch? : Call σ κ → Option (Event × Except MachineError DispatchOutcome)
  | ⟨.dispatch e, _, o, _⟩ => some (e, o)
  | _ => none

/-- Requests for a run. -/
def Request.AsksToRun : Request κ → Prop
  | .run _ | .runWith .. | .runEvents => True
  | _ => False

/-- No nested run comes of the call. -/
structure Call.Defers (c : Call σ κ) : Prop where
  run : ∀ o, c.run? = some o → o = .ok .alreadyRunning
  dispatch : ∀ e o, c.dispatch? = some (e, o) →
    (∀ t, o ≠ .ok (.fired t)) ∧ ∀ t, o = .ok (.queued t) →
    c.after.machine.pending = some ⟨t, e.args⟩
  holds : c.before.Holds c.after

namespace Engine

variable {r : Responder σ κ} {w w' : World σ κ} {e : Event}

theorem asRun_ne_alreadyRunning {work : Engine σ κ (Nat × StopReason)}
    (h : w.machine.running = false) : asRun work w ≠ .ok .alreadyRunning w' := by
  rw [asRun_idle h]
  intro hw
  obtain ⟨a, v, -, hpure⟩ := exists_of_bind_ok hw
  cases hpure

theorem runEvents_ne_alreadyRunning {n : Nat} (h : w.machine.running = false) :
    runEvents r n w ≠ .ok .alreadyRunning w' := by
  rw [runEvents_idle h]
  intro hw
  obtain ⟨a, v, -, hpure⟩ := exists_of_bind_ok hw
  cases hpure

/-- A run that is asked for is refused if and only if one is under way. -/
theorem alreadyRunning_iff {hook : κ → Engine σ κ Unit} {n : Nat} {c : Call σ κ}
    {o : Except MachineError RunOutcome}
    (hc : attempt (carryOut r hook n c.request) c.before = .ok c.outcome c.after)
    (hrun : c.run? = some o) : o = .ok .alreadyRunning ↔ c.before.machine.running = true := by
  have hasked {x : Engine σ κ RunOutcome} {w w' : World σ κ} {o : Except MachineError RunOutcome}
      (hamid : w.machine.running = true → x w = reenter w)
      (hidle : w.machine.running = false → ∀ w', x w ≠ .ok .alreadyRunning w')
        (hx : attempt x w = .ok o w') :
      o = .ok .alreadyRunning ↔ w.machine.running = true := by
    cases hrunning : w.machine.running with
    | true =>
      obtain ⟨v, hv, -⟩ := reenter_eq w
      rw [attempt, hamid hrunning, hv] at hx
      cases hx
      exact ⟨fun _ => rfl, fun _ => rfl⟩
    | false =>
      refine ⟨?_, fun h => absurd h Bool.false_ne_true⟩
      rintro rfl
      rcases of_attempt hx with ⟨a, ha, hok⟩ | ⟨e, he, -⟩
      · cases ha
        exact absurd hok (hidle hrunning w')
      · cases he
  obtain ⟨q, before, outcome, after⟩ := c
  cases q with
  | run mode =>
    cases hrun
    exact hasked asRun_running (fun h _ => asRun_ne_alreadyRunning h) hc
  | runWith mode key =>
    cases hrun
    exact hasked asRun_running (fun h _ => asRun_ne_alreadyRunning h) hc
  | runEvents =>
    cases hrun
    exact hasked runEvents_running (fun h _ => runEvents_ne_alreadyRunning h) hc
  | _ => cases hrun

/-- An event dispatched while no run is under way does not stay queued. -/
theorem dispatch_ne_queued (n : Nat) (e : Event) :
    Triple (fun w => w.machine.running = false) (dispatch r n e) (fun o _ => ∀ t, o ≠ .queued t)
      fun _ _ => True := by
  have hnow : Triple (fun _ => True) (dispatchNow r n e) (fun o _ => ∀ t, o ≠ .queued t)
      fun _ _ => True := by
    rw [dispatchNow_eq]
    refine .bind .any fun ts => ?_
    match ts with
    | [] => exact fun _ _ => nofun
    | [(t, label)] =>
      exact .bind .any fun _ => .bind .any fun _ => .bind .any fun _ _ _ => nofun
    | _ :: _ :: _ => exact fun _ _ => nofun
  intro w hw
  rw [dispatch_idle hw]
  exact Triple.thenAlways hnow _ trivial

/-- What comes of an event that is dispatched, by whether a run is under way. -/
theorem dispatch_outcome {n : Nat} {o : Except MachineError DispatchOutcome}
    (hdispatch : attempt (dispatch r n e) w = .ok o w') :
    (w.machine.running = true → (∀ t, o ≠ .ok (.fired t)) ∧
      ∀ t, o = .ok (.queued t) → w'.machine.pending = some ⟨t, e.args⟩) ∧
    (w.machine.running = false → ∀ t, o ≠ .ok (.queued t)) := by
  rcases of_attempt hdispatch with ⟨a, rfl, hok⟩ | ⟨err, rfl, -⟩
  · refine ⟨fun hrunning => ?_, fun hidle t ht => ?_⟩
    · have hselect := (dispatch_running hrunning).symm.trans hok
      rcases selectAndQueue_cases hselect with rfl | ⟨ts, rfl⟩ | ⟨t, rfl, hslot⟩
      · exact ⟨nofun, nofun⟩
      · exact ⟨nofun, nofun⟩
      · refine ⟨nofun, fun t' ht => ?_⟩
        cases ht
        exact hslot
    · have houtcome := dispatch_ne_queued (r := r) n e w hidle
      rw [hok] at houtcome
      cases ht
      exact houtcome t rfl
  · exact ⟨fun _ => ⟨nofun, nofun⟩, fun _ => nofun⟩

end Engine

namespace Host

variable {h : Host σ κ} {n : Nat} {q : Request κ} {w : World σ κ} {c : Call σ κ}

/-- A call made while a run is under way starts no other. -/
theorem defers_of_running (hc : c ∈ h.calls n q w)
    (hrunning : c.before.machine.running = true) : c.Defers := by
  obtain ⟨k, hk⟩ := carryOut_of_mem_calls hc
  obtain ⟨k', -, hk'⟩ := performed_of_mem_calls hc
  refine ⟨fun o ho => (Engine.alreadyRunning_iff hk ho).mpr hrunning, fun e o ho => ?_,
    (goes_of_attempt hrunning hk').toHolds⟩
  obtain ⟨q, before, outcome, after⟩ := c
  cases q with
  | dispatch e =>
    cases ho
    exact (Engine.dispatch_outcome hk).1 hrunning
  | _ => cases ho

end Host

namespace World

/-- All calls so far were made with a run under way. -/
def Nested (w : World (Diary σ κ) κ) : Prop :=
  w.Tells fun calls _ => ∀ c ∈ calls, c.before.machine.running = true

/-- So it is, and a run is under way now. -/
def Nesting (w : World (Diary σ κ) κ) : Prop :=
  w.Tells fun calls running => running = true ∧ ∀ c ∈ calls, c.before.machine.running = true

theorem heedless_nesting : Heedless (Nesting (σ := σ) (κ := κ)) :=
  heedless_tells (K := fun calls running => running = true ∧ ∀ c ∈ calls,
    c.before.machine.running = true)

theorem Nesting.ensues {w w' : World (Diary σ κ) κ} (hw : w.Nesting)
    (h : w.Ensues w') : w'.Nesting := by
  obtain ⟨made, hcalls, -, hmade⟩ := h.calls
  refine ⟨h.running, fun c hc => ?_⟩
  rw [hcalls] at hc
  exact (List.mem_append.mp hc).elim (hw.2 c) fun hc => (hmade c hc).1

end World

namespace Engine

variable {r : Responder (Diary σ κ) κ} (hr : r.Keeps World.Nesting)
include hr

theorem nesting_fireTransition (p : Pending) :
    Matches (.within World.Nesting) (fireTransition r p) (fireTransition r p) :=
  matches_fireTransition (Comparison.fires_heedless World.heedless_nesting) hr.matches p fun _ _ =>
    Comparison.records_heedless World.heedless_nesting _ _ _

omit hr in
theorem nested_reenter : Keeps World.Nested (reenter : Engine (Diary σ κ) κ RunOutcome) :=
  keeps_iff_matches.mpr (matches_reenter
    (Comparison.handles_heedless World.heedless_tells).toSteers)

theorem nested_run {hook : Option (Engine (Diary σ κ) κ Unit)}
    (hhook : Keeps World.Nesting (hook.forM id)) (n : Nat) (mode : RunMode) :
    Keeps World.Nested (run r n mode hook) := by
  have hminds : (Comparison.within (World.Nesting (σ := σ) (κ := κ))).Steers .same :=
    (Comparison.handles_heedless World.heedless_nesting).toSteers
  have hprocess : Keeps World.Nesting (processTransitions r n mode hook) :=
    keeps_iff_matches.mpr (matches_processTransitions
      (Comparison.queues_heedless World.heedless_nesting).takes
      (fun p _ => nesting_fireTransition hr p) (keeps_iff_matches.mp hhook) hminds n mode)
  exact .of_reenter (fun _ => asRun_running) nested_reenter
    (.asRun (fun _ h => h.2) (fun _ h => ⟨rfl, h.1⟩) (hprocess.mono_post (fun _ _ h => h.2)
      fun _ _ h => h.2))

theorem nested_runEvents (n : Nat) : Keeps World.Nested (runEvents r n) := by
  have hqueues : (Comparison.within (World.Nesting (σ := σ) (κ := κ))).Queues .same :=
    Comparison.queues_heedless World.heedless_nesting
  have hprocess : Keeps World.Nesting (processEvents r n 0) :=
    keeps_iff_matches.mpr (matches_processEvents hqueues.takes
      (fun p _ => nesting_fireTransition hr p)
      (Comparison.handles_heedless World.heedless_nesting) hr.matches
        (matches_queueTransition hqueues) n 0)
  exact .of_reenter (fun _ => runEvents_running) nested_reenter
    (.runEvents (fun _ h => h.2) (fun _ h => ⟨rfl, h.1⟩) (hprocess.mono_post (fun _ _ h => h.2)
      fun _ _ h => h.2))

end Engine

namespace Host

variable {h : Host σ κ} {n : Nat} {q : Request κ} {w : World σ κ} {c : Call σ κ}

/-- Every call made while a run is carried out is made with a run under way. -/
theorem running_of_mem_calls (hq : q.AsksToRun) (hc : c ∈ h.calls n q w) :
    c.before.machine.running = true := by
  have hr (m : Nat) : (h.diarist m).Keeps World.Nesting :=
    keeps_diarist_of_ensues (fun _ => And.left) (fun _ _ => World.Nesting.ensues) m
  have hhook (m : Nat) (key : κ) :
      Engine.Keeps World.Nesting ((some (h.callingHook m key)).forM id) :=
    keeps_callingHook_of_ensues (fun _ => And.left) (fun _ _ => World.Nesting.ensues) m key
  have hnoting : Engine.Keeps World.Nested (h.noting n q) := by
    cases n with
    | zero => exact .throw
    | succ n =>
      cases q with
      | run mode => exact Engine.nested_run (hr n) .pure n mode
      | runWith mode key => exact Engine.nested_run (hr n) (hhook n key) n mode
      | runEvents => exact Engine.nested_runEvents (hr n) n
      | _ => exact hq.elim
  exact calls_of_keeps hnoting (fun _ hc => absurd hc List.not_mem_nil) c hc

/-- Of the calls that bodies make during an operation: one made with a run under way starts no
other. Otherwise a run that is asked for is not refused, and an event that is dispatched does not
stay queued. All calls made while a run is carried out are made with a run under way. -/
theorem no_nested_run (h : Host σ κ) (n : Nat) (q : Request κ) (w : World σ κ) :
    (∀ c ∈ h.calls n q w, c.before.machine.running = true → c.Defers) ∧
    (∀ c ∈ h.calls n q w, c.before.machine.running = false →
      (∀ o, c.run? = some o → o ≠ .ok .alreadyRunning) ∧
      ∀ e o, c.dispatch? = some (e, o) → ∀ t, o ≠ .ok (.queued t)) ∧
    (q.AsksToRun → ∀ c ∈ h.calls n q w, c.Defers) := by
  refine ⟨fun c hc => defers_of_running hc,
    fun c hc hidle => ⟨fun o ho hrefused => ?_, fun e o ho => ?_⟩,
    fun hq c hc => defers_of_running hc (running_of_mem_calls hq hc)⟩
  · obtain ⟨k, hk⟩ := carryOut_of_mem_calls hc
    cases hidle.symm.trans ((Engine.alreadyRunning_iff hk ho).mp hrefused)
  · obtain ⟨k, hk⟩ := carryOut_of_mem_calls hc
    obtain ⟨q, before, outcome, after⟩ := c
    cases q with
    | dispatch e =>
      cases ho
      exact (Engine.dispatch_outcome hk).2 hidle
    | _ => cases ho

end Host

/-- The activity that a run comes to asks for a run. -/
theorem no_nested_run_relayed :
    ((Host.asking (.run .continuous)).calls 4 .runEvents
      ((Host.asking (.run .continuous)).worlds 4 legs relay 2)).length = 1 ∧
    ∀ c ∈ (Host.asking (.run .continuous)).calls 4 .runEvents
      ((Host.asking (.run .continuous)).worlds 4 legs relay 2), c.Defers :=
  ⟨by decide +kernel, (Host.no_nested_run _ 4 .runEvents _).2.2 trivial⟩

/-- The machine is put into the state in the middle. There an activity that asks for a run gets one,
and where it dispatches an event the transition that is queued is lost. -/
theorem nested_run_relay :
    (∃ c ∈ (Host.asking (.run .continuous)).calls 4 (.goto ⟨1⟩ []) relay,
      c.run? = some (.ok (.completed 0 .queueEmpty))) ∧
    ∃ c ∈ (Host.asking (.dispatch ⟨"go", []⟩)).calls 4 (.goto ⟨1⟩ []) relay,
    c.dispatch?.isSome ∧ ¬ c.Defers := by
  refine ⟨by decide +kernel, ?_⟩
  have hlost : ∃ c ∈ (Host.asking (.dispatch ⟨"go", []⟩)).calls 4 (.goto ⟨1⟩ []) relay,
      c.dispatch?.isSome ∧
      .transitionQueued ⟨1⟩ ∈ c.after.notices ∧ .transitionQueued ⟨1⟩ ∉ c.before.notices ∧
      c.after.machine.pending.isNone := by decide +kernel
  obtain ⟨c, hc, hdispatch, hqueued, hfresh, hslot⟩ := hlost
  refine ⟨c, hc, hdispatch, fun hdefers => ?_⟩
  obtain ⟨told, htold⟩ := hdefers.holds.told
  rw [htold.notices] at hqueued
  obtain ⟨args, hp⟩ := htold.waits ⟨1⟩ ((List.mem_append.mp hqueued).resolve_left hfresh)
  rw [hp] at hslot
  cases hslot

end Statechart
