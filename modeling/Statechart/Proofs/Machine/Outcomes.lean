import Statechart.Proofs.Machine.Halting
import Statechart.Proofs.Machine.Stepwise

/-!
# What a run reports

A completed run answers with a count of firings and a reason to stop. Bodies may have moved the
machine, filled the slot, paused, resumed or asked for runs in the meantime: each reason is given
with a look at the machine after which no body is run any more, so that it still holds of the
machine that the run leaves behind.
-/

namespace Statechart

open Json

variable {σ κ : Type}

/-- What a run in a mode that begins in the first world and ends in the second reports is so. -/
structure World.Reports (mode : RunMode) (fired : Nat) (stop : StopReason)
    (w w' : World σ κ) : Prop where
  /-- As many firings as are counted have been told of. -/
  counted : ∃ told, w'.notices = w.notices ++ told ∧ (told.filterMap Notice.fired?).length = fired
  empty : stop = .queueEmpty → w'.machine.pending = none
  arrived : stop = .atEnd → w'.machine.atEnd = true
  stepped : stop = .singleStep → mode = .single ∧ fired = 1
  single : mode = .single → fired ≤ 1
  continuous : mode = .continuous → w'.machine.pending ≠ none → stop = .paused ∨ stop = .atEnd

namespace World

/-- From the first world to the second a run in the mode has fired so often and goes on. -/
def Runs (mode : RunMode) (fired : Nat) (s w : World (Diary σ κ) κ) : Prop :=
  ∃ ts : List TransitionId, s.Advances [] ts w ∧ ts.length = fired ∧ (mode = .single → fired = 0)

variable {mode : RunMode} {fired : Nat} {stop : StopReason} {s u v w : World (Diary σ κ) κ}
  {w' : World σ κ}

theorem runs_refl (mode : RunMode) (hs : s.machine.running = true) : s.Runs mode 0 s :=
  ⟨[], advances_refl hs, rfl, fun _ => rfl⟩

theorem Runs.running (h : s.Runs mode fired w) : w.machine.running = true := by
  obtain ⟨ts, hadvances, -⟩ := h
  exact hadvances.running

theorem Runs.ensues (h : s.Runs mode fired v) (hw : v.Ensues w) : s.Runs mode fired w := by
  obtain ⟨ts, hadvances, hlength, hsingle⟩ := h
  refine ⟨ts, ?_, hlength, hsingle⟩
  have hends := hadvances.trans (advances_of_ensues hw)
  rwa [List.append_nil, List.append_nil] at hends

/-- The slot has no part in what has fired. -/
theorem Runs.vacated (h : s.Runs mode fired w) : s.Runs mode fired w.vacated := by
  obtain ⟨ts, hadvances, hrest⟩ := h
  exact ⟨ts, ⟨hadvances.running, hadvances.told, hadvances.account⟩, hrest⟩

theorem Advances.counted {taken : List Event} {ts : List TransitionId} (h : s.Advances taken ts w) :
    ∃ told, w.notices = s.notices ++ told ∧ (told.filterMap Notice.fired?).length = ts.length := by
  obtain ⟨told, hnotices, -, hfired⟩ := h.told
  exact ⟨told, hnotices, congrArg List.length hfired⟩

theorem Runs.single (h : s.Runs mode fired w) : mode = .single → fired = 0 := by
  obtain ⟨-, -, -, hsingle⟩ := h
  exact hsingle

theorem Runs.counted (h : s.Runs mode fired w) :
    ∃ told, w.notices = s.notices ++ told ∧ (told.filterMap Notice.fired?).length = fired := by
  obtain ⟨ts, hadvances, rfl, -⟩ := h
  exact hadvances.counted

theorem Runs.atMost (h : s.Runs mode fired w) (hmode : mode = .single) : fired ≤ 1 := by
  rw [h.single hmode]
  exact Nat.zero_le 1

theorem Runs.paused (h : s.Runs mode fired w) : s.Reports mode fired .paused w :=
  ⟨h.counted, nofun, nofun, nofun, h.atMost, fun _ _ => .inl rfl⟩

theorem Runs.atEnd (h : s.Runs mode fired w) (hend : w.machine.atEnd = true) :
    s.Reports mode fired .atEnd w :=
  ⟨h.counted, nofun, fun _ => hend, nofun, h.atMost, fun _ _ => .inr rfl⟩

theorem Runs.queueEmpty (h : s.Runs mode fired w) (hempty : w.machine.pending = none) :
    s.Reports mode fired .queueEmpty w :=
  ⟨h.counted, fun _ => hempty, nofun, nofun, h.atMost, fun _ hpending => absurd hempty hpending⟩

/-- One more transition has fired. -/
theorem Runs.fires (h : s.Runs mode fired v) {t : TransitionId} {previous : Option StateId}
    {new : StateId} (hfiring : v.Firing t u)
    (hw : w.tally = (u.notify (.transitionFired t previous new)).tally) :
    ∃ ts : List TransitionId, s.Advances [] ts w ∧ ts.length = fired + 1 := by
  obtain ⟨ts, hadvances, hlength, -⟩ := h
  refine ⟨ts ++ [t], ((hfiring.advances hadvances).fire t previous new).congr hw, ?_⟩
  rw [List.length_append, hlength, List.length_singleton]

/-- The end of a run has no part in what it reports. -/
theorem Reports.stopped (h : s.Reports mode fired stop w) : s.Reports mode fired stop w.stopped :=
  ⟨h.counted, h.empty, h.arrived, h.stepped, h.single, h.continuous⟩

/-- Nor have the beginning of the run and the notes on calls. -/
theorem Reports.plain (h : w'.opened.begun.Reports mode fired stop w) :
    w'.Reports mode fired stop w.plain :=
  ⟨h.counted, h.empty, h.arrived, h.stepped, h.single, h.continuous⟩

end World

namespace Engine

variable {r : Responder (Diary σ κ) κ} (hr : ∀ v : World (Diary σ κ) κ, r.Keeps v.Ensues)
  {hook : Option (Engine (Diary σ κ) κ Unit)}
  (hhook : ∀ x, hook = some x → ∀ v : World (Diary σ κ) κ, Keeps v.Ensues x)
  {s : World (Diary σ κ) κ} {mode : RunMode} {fired : Nat}

section
include hr

/-- After the firing of what was in the slot a single run has done its one firing, and any other
goes on. -/
theorem runs_fireTransition {p : Pending} {rest : Engine (Diary σ κ) κ (Nat × StopReason)}
    (hrest : mode = .continuous →
      Triple (s.Runs mode (fired + 1)) rest (fun o => s.Reports mode o.1 o.2)
      fun _ _ => True) :
    Triple (s.Runs mode fired)
      (fireTransition r p >>= fun _ => if mode = .single then
        pure (fired + 1, .singleStep) else rest)
      (fun o => s.Reports mode o.1 o.2) fun _ _ => True := by
  have hfire : Triple (s.Runs mode fired) (fireTransition r p)
      (fun _ w => (∃ ts : List TransitionId, s.Advances [] ts w ∧ ts.length = fired + 1) ∧
        (mode = .single → fired = 0))
      fun _ _ => True := by
    intro w hw
    have hfires := firing_fireTransition hr hw.running p w rfl
    cases ho : fireTransition r p w with
    | ok a w' =>
      rw [ho] at hfires
      obtain ⟨u, previous, new, hfiring, htally⟩ := hfires
      exact ⟨hw.fires hfiring htally, hw.single⟩
    | error e w' => trivial
  refine .bind hfire fun _ => ?_
  rintro w ⟨⟨ts, hadvances, hlength⟩, hsingle⟩
  cases mode with
  | single =>
    have hone : ts.length = 1 := hlength.trans (congrArg (· + 1) (hsingle rfl))
    refine ⟨hlength ▸ hadvances.counted, nofun, nofun, fun _ => ⟨rfl, hlength ▸ hone⟩,
      fun _ => ?_, nofun⟩
    exact Nat.le_of_eq (hlength ▸ hone)
  | continuous => exact hrest rfl w ⟨ts, hadvances, hlength, nofun⟩

include hhook

theorem reports_fireQueued (fuel fired : Nat) :
    Triple (s.Runs mode fired) (fireQueued r mode hook fuel fired) (fun o => s.Reports mode o.1 o.2)
      fun _ _ => True := by
  induction fuel generalizing fired with
  | zero => exact fun _ _ => trivial
  | succ fuel ih =>
    intro w hw
    rw [fireQueued, machine_bind]
    cases hpaused : w.machine.paused with
    | true => exact hw.paused
    | false =>
    cases hend : w.machine.atEnd with
    | true => exact hw.atEnd hend
    | false =>
    have hasked : Triple (s.Runs mode fired) (hook.forM id) (fun _ => s.Runs mode fired)
        fun _ _ => True := by
      cases hook with
      | none => exact fun _ hv => hv
      | some x =>
        intro v hv
        have hensues := hhook x rfl v v (.refl hv.running)
        have hasks : (some x).forM id v = x v := rfl
        rw [hasks]
        cases ho : x v with
        | ok a v' =>
          rw [ho] at hensues
          exact hv.ensues hensues
        | error e v' => trivial
    refine Triple.bind hasked (fun _ => ?_) w hw
    intro v hv
    rw [bind_of_ok (takePending_eq v)]
    cases hp : v.machine.pending with
    | none => exact hv.vacated.queueEmpty rfl
    | some p => exact runs_fireTransition hr (fun _ => ih (fired + 1)) v.vacated hv.vacated

theorem reports_processTransitions (fuel : Nat) :
    Triple (s.Runs mode 0) (processTransitions r fuel mode hook) (fun o => s.Reports mode o.1 o.2)
      fun _ _ => True := by
  intro w hw
  rw [processTransitions, machine_bind]
  cases hend : w.machine.atEnd with
  | true => exact hw.atEnd hend
  | false =>
  rw [if_neg Bool.false_ne_true, bind_of_ok (takePending_eq w)]
  cases hp : w.machine.pending with
  | none => exact reports_fireQueued hr hhook fuel 0 w.vacated hw.vacated
  | some p =>
    exact runs_fireTransition hr (fun _ => reports_fireQueued hr hhook fuel 1) w.vacated hw.vacated

end

end Engine

namespace Host

variable {h : Host σ κ} {n fired : Nat} {mode : RunMode} {stop : StopReason} {w w' : World σ κ}

theorem reports_asRun {work : Engine (Diary σ κ) κ (Nat × StopReason)} {v : World (Diary σ κ) κ}
    (hwork : Engine.Triple (w.opened.begun.Runs mode 0) work
      (fun o => w.opened.begun.Reports mode o.1 o.2)
      fun _ _ => True)
    (hrun : Engine.attempt (Engine.asRun work) w.opened = .ok (.ok (.completed fired stop)) v) :
    w.Reports mode fired stop v.plain := by
  cases hrunning : w.machine.running with
  | true =>
    obtain ⟨u, hreenter, -⟩ := Engine.reenter_eq w.opened
    have hnested : Engine.asRun work w.opened = .ok .alreadyRunning u :=
      (Engine.asRun_running (w := w.opened) hrunning).trans hreenter
    cases (Engine.attempt_of_ok hnested).symm.trans hrun
  | false =>
    obtain ⟨o, u, hattempt, hcompleted, rfl⟩ :=
      Engine.exists_of_attempt_asRun (w := w.opened) hrunning hrun
    have hreports := hwork _ (World.runs_refl mode rfl)
    rcases Engine.of_attempt hattempt with ⟨a, rfl, hok⟩ | ⟨e, rfl, -⟩
    · rw [hok] at hreports
      cases hcompleted
      exact hreports.stopped.plain
    · cases hcompleted

/-- A completed run counts the firings told of, and stops for the reason that it gives: with nothing
in the slot, with the machine at its end, or after the one firing of a single run, which fires no
more than that. Only a pause or the end has a continuous run leave something in the slot. -/
theorem run_reports
    (hrun : h.perform n (.run mode) w = .ok (.completed fired stop) w' ∨
      ∃ key, h.perform n (.runWith mode key) w = .ok (.completed fired stop) w') :
    w.Reports mode fired stop w' := by
  cases n with
  | zero =>
    rcases hrun with hrun | ⟨key, hrun⟩
    · cases hrun
    · cases hrun
  | succ n =>
    have hr (v : World (Diary σ κ) κ) := ensues_diarist (h := h) v n
    rcases hrun with hrun | ⟨key, hrun⟩
    · obtain ⟨v, hnoting, rfl, -⟩ := noting_of_attempt (Engine.attempt_of_ok hrun)
      have hhook (x : Engine (Diary σ κ) κ Unit) (hx : none = some x) (v : World (Diary σ κ) κ) :
          Engine.Keeps v.Ensues x := by cases hx
      exact reports_asRun (Engine.reports_processTransitions hr hhook n) hnoting
    · obtain ⟨v, hnoting, rfl, -⟩ := noting_of_attempt (Engine.attempt_of_ok hrun)
      have hhook (x : Engine (Diary σ κ) κ Unit) (hx : some (h.callingHook n key) = some x)
          (v : World (Diary σ κ) κ) : Engine.Keeps v.Ensues x := by
        cases hx
        exact ensues_callingHook v n key
      exact reports_asRun (Engine.reports_processTransitions hr hhook n) hnoting

end Host

namespace Errand

/-- A machine in b with nothing in the slot. -/
def halfway : World Unit (List Errand) :=
  (underway []).mapMachine ({ · with active := some ⟨1⟩, pending := none })

end Errand

open Errand

/-- A continuous run whose activity queues and pauses leaves that in the slot. A single run fires
what its hook queues into the empty slot. -/
theorem run_reports_errands :
    (host.perform 4 (.run .continuous) (underway [.queue, .pause]) =
        .ok (.completed 1 .paused)
          ((host.perform 4 (.run .continuous)).after (underway [.queue, .pause])) ∧
      (underway [.queue, .pause]).Reports .continuous 1 .paused
        ((host.perform 4 (.run .continuous)).after (underway [.queue, .pause]))) ∧
    host.perform 4 (.runWith .single [.queue]) halfway =
        .ok (.completed 1 .singleStep)
          ((host.perform 4 (.runWith .single [.queue])).after halfway) ∧
      halfway.Reports .single 1 .singleStep
        ((host.perform 4 (.runWith .single [.queue])).after halfway) := by
  have hpauses := Engine.ok_of_answer? (x := host.perform 4 (.run .continuous))
    (w := underway [.queue, .pause]) (a := .completed 1 .paused) (by decide +kernel)
  have hsteps := Engine.ok_of_answer? (x := host.perform 4 (.runWith .single [.queue]))
    (w := halfway) (a := .completed 1 .singleStep) (by decide +kernel)
  exact ⟨⟨hpauses, Host.run_reports (.inl hpauses)⟩, hsteps, Host.run_reports (.inr ⟨_, hsteps⟩)⟩

end Statechart
