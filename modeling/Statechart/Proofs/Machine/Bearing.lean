import Statechart.Proofs.Machine.Cutoff
import Statechart.Proofs.Machine.Running

/-!
# Work between firings

Between two steps of a firing, and while none is under way, a machine may be asked for anything that
does not run it. Whatever that comes to, the flags stay as they are and no firing begins or ends. A
condition that only these have a part in is borne by all such work, also where the work fails or is
cut off, and the work comes up with no error that tells of a firing within a firing.
-/

namespace Statechart

open Json

variable {σ κ α β : Type}

/-- The error tells of a firing within a firing. -/
def MachineError.Overlaps : MachineError → Prop
  | .unexpectedRecursion .fireTransition | .unexpectedRecursion .effect => True
  | _ => False

/-- The notice tells that the behavior of a phase is about to be run, or that a firing has ended. -/
def Notice.Phasing : Notice → Prop
  | .stateExited _ | .stateEntered _ | .effectInvoked _ | .activityInvoked _
    | .transitionFired .. => True
  | _ => False

/-- The notice tells that the behavior of a state is about to be run. -/
def Notice.Staging : Notice → Prop
  | .stateExited _ | .stateEntered _ | .activityInvoked _ => True
  | _ => False

namespace World

/-- From the first world to the second no phase and no firing has begun or ended. A run may have
been stopped or resumed, and the transition that is fired may have been forgotten. -/
structure Onward (w w' : World σ κ) : Prop where
  running : w'.machine.running = w.machine.running
  paused : w'.machine.paused = w.machine.paused ∨ w.machine.running = true
  phase : w'.machine.phase = w.machine.phase
  firing : w'.machine.firing = w.machine.firing ∨ w'.machine.firing = none
  env : w'.env = w.env
  notices : ∃ told, w'.notices = w.notices ++ told ∧ ∀ n ∈ told, ¬ n.Phasing

/-- What goes on has no part in the condition. -/
def Lasting (I : World σ κ → Prop) : Prop := ∀ w w', I w → w.Onward w' → I w'

variable {w w' : World σ κ}

theorem Onward.of_machine {m : Machine κ} (hrunning : m.running = w.machine.running)
    (hpaused : m.paused = w.machine.paused) (hphase : m.phase = w.machine.phase)
    (hfiring : m.firing = w.machine.firing ∨ m.firing = none) :
    w.Onward { w with machine := m } where
  running := hrunning
  paused := .inl hpaused
  phase := hphase
  firing := hfiring
  env := rfl
  notices := ⟨[], (List.append_nil _).symm, nofun⟩

theorem Onward.notify (w : World σ κ) {n : Notice} (hn : ¬ n.Phasing) : w.Onward (w.notify n) where
  running := rfl
  paused := .inl rfl
  phase := rfl
  firing := .inl rfl
  env := rfl
  notices := ⟨[n], rfl, fun _ hmem => List.mem_singleton.mp hmem ▸ hn⟩

theorem Onward.logs (w : World σ κ) (logs : LogStore) : w.Onward { w with logs } where
  running := rfl
  paused := .inl rfl
  phase := rfl
  firing := .inl rfl
  env := rfl
  notices := ⟨[], (List.append_nil _).symm, nofun⟩

/-- A run under way is stopped or resumed. -/
theorem Onward.setPaused (h : w.machine.running = true) (paused : Bool) :
    w.Onward (w.mapMachine ({ · with paused })) where
  running := rfl
  paused := .inr h
  phase := rfl
  firing := .inl rfl
  env := rfl
  notices := ⟨[], (List.append_nil _).symm, nofun⟩

end World

namespace Engine

variable {I X : World σ κ → Prop} {B : MachineError → Prop} {x : Engine σ κ α}
  {f : α → Engine σ κ β} {r : Responder σ κ}

/-- How work ends that does not succeed: with the one condition and no error of the kind if it
fails, with the other if it is cut off. -/
def Ends (I X : World σ κ → Prop) (B : MachineError → Prop) : Stop → World σ κ → Prop
  | .fault e, w => I w ∧ ¬ B e
  | .exhausted, w => X w

/-- Work keeps the condition and fails with no error of the kind. It may be cut off with the other
condition. -/
def Bears (I X : World σ κ → Prop) (B : MachineError → Prop) (x : Engine σ κ α) : Prop :=
  Triple I x (fun _ => I) (Ends I X B)

/-- Conditions that work between firings bears. -/
structure Bearing (I X : World σ κ → Prop) (B : MachineError → Prop) : Prop where
  lasts : World.Lasting I
  cut : ∀ w, I w → X w
  faults : ∀ e, B e → e.Overlaps

theorem Ends.holds {e : Stop} {w : World σ κ} (h : Ends I I B e w) : I w := by
  cases e with
  | fault e => exact h.1
  | exhausted => exact h

theorem Ends.map {I' X' : World σ κ → Prop} {e : Stop} {w w' : World σ κ} (h : Ends I X B e w)
    (hI : I w → I' w') (hX : X w → X' w') : Ends I' X' B e w' := by
  cases e with
  | fault e => exact ⟨hI h.1, h.2⟩
  | exhausted => exact hX h

/-- Work that keeps a condition bears it. -/
theorem bears_iff_keeps : Bears I I (fun _ => False) x ↔ Keeps I x := by
  constructor
  · exact fun hx => Triple.mono_error hx fun _ _ => Ends.holds
  · refine fun hx => Triple.mono_error hx fun e w hw => ?_
    cases e with
    | fault e => exact ⟨hw, id⟩
    | exhausted => exact hw

namespace Bears

theorem bind (hx : Bears I X B x) (hf : ∀ a, Bears I X B (f a)) : Bears I X B (x >>= f) :=
  Triple.bind hx hf

theorem seq {rest : Engine σ κ β} (hx : Bears I X B x) (hrest : Bears I X B rest) :
    Bears I X B (x >>= fun _ => rest) := Triple.seq hx hrest

theorem pure {a : α} : Bears I X B (Pure.pure a : Engine σ κ α) := fun _ hw => hw

theorem machine : Bears I X B (Engine.machine : Engine σ κ (Machine κ)) := fun _ hw => hw

theorem fail {e : MachineError} (he : ¬ B e) : Bears I X B (fail e : Engine σ κ α) :=
  fun _ hw => ⟨hw, he⟩

theorem check {p : Prop} [Decidable p] {e : MachineError} {f : Unit → Engine σ κ α} (he : ¬ B e)
    (h : Bears I X B (f ())) : Bears I X B (if p then Engine.fail e >>= f else f ()) := by
  split
  · exact bind (fail he) fun _ => h
  · exact h

theorem ite {p : Prop} [Decidable p] {y : Engine σ κ α} (hx : Bears I X B x) (hy : Bears I X B y) :
    Bears I X B (if p then x else y) := by
  split
  · exact hx
  · exact hy

variable {xs : List β}

theorem forM {fs : β → Engine σ κ PUnit}
    (h : ∀ b, Bears I X B (fs b)) : Bears I X B (xs.forM fs) := by
  induction xs with
  | nil => exact pure
  | cons b xs ih => exact bind (h b) fun _ => ih

theorem filterM {fs : β → Engine σ κ Bool} (h : ∀ b, Bears I X B (fs b)) :
    Bears I X B (xs.filterM fs) := by
  have hloop (ys acc : List β) : Bears I X B (ys.filterAuxM fs acc) := by
    induction ys generalizing acc with
    | nil => exact pure
    | cons b ys ih => exact bind (h b) fun _ => ih _
  exact bind (hloop xs []) fun _ => pure

theorem filterMapM {fs : β → Engine σ κ (Option α)} (h : ∀ b, Bears I X B (fs b)) :
    Bears I X B (xs.filterMapM fs) := by
  induction xs with
  | nil => exact pure
  | cons b xs ih =>
    rw [List.filterMapM_cons]
    refine bind (h b) fun a => ?_
    cases a with
    | none => exact ih
    | some a => exact bind ih fun _ => pure

/-- What failed with an error of another kind may go on. -/
theorem attempt (hx : Bears I X B x) : Triple I (attempt x)
    (fun o w => I w ∧ ∀ e, o = .error e → ¬ B e) (Ends I X B) := by
  intro w hw
  have hxw := hx w hw
  rw [Engine.attempt]
  cases h : x w with
  | ok a v =>
    rw [h] at hxw
    exact ⟨hxw, fun _ he => by cases he⟩
  | error e v =>
    rw [h] at hxw
    cases e with
    | fault e => exact ⟨hxw.1, fun e' he => Except.error.inj he ▸ hxw.2⟩
    | exhausted => exact hxw

end Bears

namespace Bearing

variable (hb : Bearing I X B)
include hb

theorem spares {e : MachineError} (he : ¬ e.Overlaps) : ¬ B e := fun h => he (hb.faults e h)

theorem fail {e : MachineError} (he : ¬ e.Overlaps) : Bears I X B (fail e : Engine σ κ α) :=
  .fail (hb.spares he)

theorem ofGraph {a : Except GraphError α} : Bears I X B (ofGraph a) := by
  cases a with
  | ok a => exact .pure
  | error e => exact hb.fail id

theorem modify {g : World σ κ → World σ κ} (h : ∀ w : World σ κ, w.Onward (g w)) :
    Bears I X B (modify g : Engine σ κ Unit) := fun w hw => hb.lasts w _ hw (h w)

/-- Changes of a machine that its flags have no part in. -/
theorem update {g : Machine κ → Machine κ}
    (h : ∀ m, (g m).running = m.running ∧ (g m).paused = m.paused ∧
      (g m).phase = m.phase ∧ ((g m).firing = m.firing ∨ (g m).firing = none)) :
    Bears I X B (update g) :=
  hb.modify fun w => .of_machine (h w.machine).1 (h w.machine).2.1 (h w.machine).2.2.1
    (h w.machine).2.2.2

theorem notify {n : Notice} (hn : ¬ n.Phasing) : Bears I X B (notify n : Engine σ κ Unit) :=
  hb.modify fun w => .notify w hn

end Bearing

end Engine

/-- A behavior does what its name or its callback does, if it has any. -/
theorem Engine.Triple.of_invoke {P Q : World σ κ → Prop} {E : Stop → World σ κ → Prop}
    {r : Responder σ κ} (hnone : ∀ w, P w → Q w) (hgraph : ∀ e w, P w → E (.fault (.graph e)) w)
    (hcall : ∀ name element args, Triple P (r.call name element args) (fun _ => Q) E)
    (hcallback : ∀ key element args, Triple P (r.callback key element args) (fun _ => Q) E)
    (a : Action) (s : Subject) (args : List Value) :
    Triple P (Engine.invoke r a s args) (fun _ => Q) E := by
  intro w hw
  rw [Engine.invoke, machine_bind]
  cases w.machine.graph.behaviorOf a s with
  | error e => exact hgraph e w hw
  | ok found =>
    obtain ⟨element, behavior⟩ := found
    simp only [Engine.ofGraph, pure_bind]
    cases behavior with
    | absent => exact hnone w hw
    | named name =>
      refine Triple.bind (Q := fun _ => P) (x := get) (fun _ hv => hv) (fun v => ?_) w hw
      split
      · exact hcall name element args
      · exact fun v hv => hnone v hv
    | callback body => exact hcallback body element args w hw
    | test accepts => exact hnone w hw

/-- Whatever answers when a behavior runs bears the condition. -/
structure Responder.Bears (r : Responder σ κ) (I X : World σ κ → Prop)
    (B : MachineError → Prop) : Prop where
  call : ∀ name element args, Engine.Bears I X B (r.call name element args)
  callback : ∀ key element args, Engine.Bears I X B (r.callback key element args)

theorem Responder.Keeps.bears {r : Responder σ κ} {I : World σ κ → Prop} (h : r.Keeps I) :
    r.Bears I I fun _ => False where
  call _ _ _ := Engine.bears_iff_keeps.mpr (h.call _ _ _)
  callback _ _ _ := Engine.bears_iff_keeps.mpr (h.callback _ _ _)

namespace Engine

variable {I X : World σ κ → Prop} {B : MachineError → Prop} {r : Responder σ κ} (hb : Bearing I X B)
include hb

/-! ## Asking guards and queueing -/

theorem bears_candidates : Bears I X B (candidates : Engine σ κ (List TransitionId)) := by
  refine .bind .machine fun m => ?_
  cases m.active with
  | none => exact hb.fail id
  | some s => exact hb.ofGraph

theorem bears_queueTransition (t : TransitionId) (args : List Value) :
    Bears I X B (queueTransition t args : Engine σ κ Unit) := by
  refine .bind .machine fun m => .check (hb.spares id) ?_
  have hrest : Bears I X B (do
      if m.active.isNone then fail .notStarted
      let _ ← ofGraph (m.graph.transition t)
      if m.atEnd then fail (.cannotTransition (m.graph.pathOfTransition t) .atEnd)
      if (← candidates).contains t then
        update fun m => { m with pending := some ⟨t, args⟩ }
        notify (.transitionQueued t)
      else fail (.cannotTransition (m.graph.pathOfTransition t) .notLeaving) :
          Engine σ κ Unit) := by
    refine .check (hb.spares id) (.bind hb.ofGraph fun _ => .check (hb.spares id) ?_)
    refine .bind (bears_candidates hb) fun ts => .ite ?_ (hb.fail id)
    exact .bind (hb.update fun _ => ⟨rfl, rfl, rfl, .inl rfl⟩) fun _ => hb.notify id
  cases m.pending with
  | some p => exact .bind (hb.fail id) fun _ => hrest
  | none => exact hrest

theorem bears_queueOnly (missing : Machine κ → MachineError)
    (hmissing : ∀ m, ¬ (missing m).Overlaps) (ts : List TransitionId) (args : List Value) :
    Bears I X B (queueOnly missing ts args : Engine σ κ TransitionId) := by
  match ts with
  | [] => exact .bind .machine fun m => hb.fail (hmissing m)
  | [t] => exact .bind (bears_queueTransition hb t args) fun _ => .pure
  | _ :: _ :: _ => exact .bind .machine fun m => hb.fail id

theorem bears_invoke (hr : r.Bears I X B) (a : Action) (s : Subject) (args : List Value) :
    Bears I X B (invoke r a s args) :=
  .of_invoke (fun _ => id) (fun _ _ hw => ⟨hw, hb.spares id⟩) hr.call hr.callback a s args

theorem bears_guard (hr : r.Bears I X B) (t : TransitionId) (args : List Value) :
    Bears I X B (guard r t args) :=
  .bind (bears_invoke hb hr _ _ _) fun _ => .bind (hb.notify id) fun _ => .pure

section
variable (hguard : ∀ t args, Bears I X B (guard r t args))
include hguard

theorem bears_transitionsMatching (e : Event) : Bears I X B (transitionsMatching r e) := by
  refine .bind .machine fun m => .bind (bears_candidates hb) fun ts => .filterMapM fun t =>
    .bind hb.ofGraph fun tr => ?_
  cases tr.matchingTrigger e with
  | none => exact .pure
  | some trigger => exact .bind (hguard t e.args) fun passed => .ite .pure .pure

theorem bears_validTransitions (args : List Value) : Bears I X B (validTransitions r args) :=
  .bind (bears_candidates hb) fun _ => .filterM fun t => hguard t args

theorem bears_transitionsTo (s : StateId) (args : List Value) :
    Bears I X B (transitionsTo r s args) :=
  .bind .machine fun _ => .bind (bears_candidates hb) fun _ => .filterM fun t =>
    .bind hb.ofGraph fun _ => .ite (hguard t args) .pure

theorem bears_selectOne (e : Event) : Bears I X B (selectOne r e) := by
  refine .bind (bears_transitionsMatching hb hguard e) fun selected => ?_
  match selected with
  | [] => exact hb.fail id
  | [one] => exact .pure
  | _ :: _ :: _ => exact .bind .machine fun m => hb.fail id

theorem bears_selectAndQueue (e : Event) (wrap : TransitionId → DispatchOutcome) :
    Bears I X B (selectAndQueue r e wrap) := by
  refine .bind (bears_transitionsMatching hb hguard e) fun selected => ?_
  match selected with
  | [] => exact .pure
  | [(t, label)] =>
    exact .bind (hb.update fun _ => ⟨rfl, rfl, rfl, .inl rfl⟩) fun _ =>
      .bind (bears_queueTransition hb t e.args) fun _ => .pure
  | _ :: _ :: _ => exact .pure

theorem bears_transitionNamed (name : String) (args : List Value) :
    Bears I X B (transitionNamed r name args) := by
  refine .bind .machine fun m => .bind (bears_candidates hb) fun ts => ?_
  have hrest (ts : List TransitionId) : Bears I X B (do
      queueOnly (fun _ => .cannotTransition name .guardRejected) (← passing r args ts) args) :=
    .bind (.filterM fun t => hguard t args) fun _ => bears_queueOnly hb _ (fun _ => id) _ args
  exact .ite (.bind .machine fun m => .bind (hb.fail id) fun _ => hrest _) (hrest _)

theorem bears_transitionById (t : TransitionId) (args : List Value) :
    Bears I X B (transitionById r t args) := by
  refine .bind .machine fun m => .bind hb.ofGraph fun tr => .bind (bears_candidates hb) fun ts => ?_
  refine .check (hb.spares id)
    (.bind (hguard t args) fun passed => .ite ?_ (.bind .machine fun m => hb.fail id))
  exact .bind (bears_queueTransition hb t args) fun _ => .pure

theorem bears_transitionToNext (args : List Value) : Bears I X B (transitionToNext r args) :=
  .bind (bears_validTransitions hb hguard args) fun ts => bears_queueOnly hb _ (fun _ => id) ts args

/-- What is tried and fails with an error of another kind does so once more. -/
theorem bears_tryTransitionToNext (args : List Value) :
    Bears I X B (tryTransitionToNext r args) := by
  refine Triple.bind (bears_transitionToNext hb hguard args).attempt fun o => ?_
  split
  · exact fun _ hw => hw.1
  · exact fun _ hw => hw.1
  · exact fun _ hw => hw.1
  · exact fun _ hw => ⟨hw.1, hw.2 _ rfl⟩

theorem bears_transitionIfValid (args : List Value) : Bears I X B (transitionIfValid r args) := by
  refine .bind (bears_validTransitions hb hguard args) fun ts => ?_
  split
  · exact .bind (bears_queueTransition hb _ args) fun _ => .pure
  · exact .pure

end

/-! ## Requests -/

theorem bears_recordHistory (previous : Option StateId) (t : Option TransitionId) (new : StateId) :
    Bears I X B (recordHistory previous t new : Engine σ κ Unit) := by
  refine hb.modify fun w => ?_
  split
  · exact .logs w _
  · exact .logs w w.logs

theorem bears_isolate : Bears I X B (isolate : Engine σ κ Unit) := by
  refine .bind .machine fun m => .check (hb.spares id) (.bind hb.ofGraph fun ⟨graph, c⟩ => ?_)
  refine .bind hb.ofGraph fun active => .bind hb.ofGraph fun pending =>
    .bind (hb.modify fun w => .logs w _) fun _ => ?_
  exact hb.update fun _ => ⟨rfl, rfl, rfl, .inl rfl⟩

theorem bears_edit (e : Edit κ) : Bears I X B (edit e : Engine σ κ e.Answer) := by
  refine .bind .machine fun m => ?_
  cases e.apply.run m.graph with
  | ok a g => exact .bind (hb.update fun _ => ⟨rfl, rfl, rfl, .inl rfl⟩) fun _ => .pure
  | error err g => exact .bind (hb.update fun _ => ⟨rfl, rfl, rfl, .inl rfl⟩) fun _ => hb.fail id

theorem bears_restore (s : Snapshot) :
    Bears I X B (restore s : Engine σ κ (Except SnapshotError Unit)) := by
  intro w hw
  rw [restore, machine_bind]
  cases h : s.restoreInto w.machine with
  | error e => exact hw
  | ok m =>
    obtain ⟨active, pending, rfl, -⟩ := Snapshot.restoreInto_ok h
    exact hb.lasts w _ hw (.of_machine rfl rfl rfl (.inl rfl))

/-- What asks a run to stop or to go on does so only if one is under way. -/
theorem bears_setPaused (paused : Bool) {n : Notice} (hn : ¬ n.Phasing) {o : Operation}
    (ho : ¬ (MachineError.unexpectedRecursion o).Overlaps) : Bears I X B (do
      if (← machine).running then
        update ({ · with paused })
        notify n
      else fail (.unexpectedRecursion o) : Engine σ κ Unit) := by
  intro w hw
  rw [machine_bind]
  cases hrunning : w.machine.running with
  | true => exact hb.lasts _ _ (hb.lasts _ _ hw (.setPaused hrunning paused)) (.notify _ hn)
  | false => exact ⟨hw, hb.spares ho⟩

/-- A request bears the condition if it does where it runs the machine or moves it. -/
theorem bears_carryOut (hr : r.Bears I X B) {hook : κ → Engine σ κ Unit} (n : Nat) {q : Request κ}
    (hruns : q.Runs → Bears I X B (carryOut r hook n q))
    (hstart : ∀ args, q = .start args → Bears I X B (start r args))
    (hgoto : ∀ s args, q = .goto s args → Bears I X B (goto r s args)) :
    Bears I X B (carryOut r hook n q) := by
  have hguard := bears_guard hb hr
  cases q with
  | start args => exact hstart args rfl
  | goto s args => exact hgoto s args rfl
  | queue t args => exact bears_queueTransition hb t args
  | run mode => exact hruns trivial
  | runWith mode body => exact hruns trivial
  | pause => exact bears_setPaused hb true id id
  | resume => exact bears_setPaused hb false id id
  | post es => exact hb.update fun _ => ⟨rfl, rfl, rfl, .inl rfl⟩
  | runEvents => exact hruns trivial
  | dispatch e => exact hruns trivial
  | matching e => exact bears_transitionsMatching hb hguard e
  | valid args => exact bears_validTransitions hb hguard args
  | hasValid args => exact .bind (bears_validTransitions hb hguard args) fun _ => .pure
  | transitionsTo s args => exact bears_transitionsTo hb hguard s args
  | canTransitionTo s args => exact .bind (bears_transitionsTo hb hguard s args) fun _ => .pure
  | transitionNamed name args => exact bears_transitionNamed hb hguard name args
  | transitionById t args => exact bears_transitionById hb hguard t args
  | transitionTo s args =>
    exact .bind (bears_transitionsTo hb hguard s args) fun ts =>
      bears_queueOnly hb _ (fun _ => id) ts args
  | transitionToNext args => exact bears_transitionToNext hb hguard args
  | tryTransitionToNext args => exact bears_tryTransitionToNext hb hguard args
  | transitionIfValid args => exact bears_transitionIfValid hb hguard args
  | isolate => exact bears_isolate hb
  | setOptions o => exact hb.update fun _ => ⟨rfl, rfl, rfl, .inl rfl⟩
  | clearHistory => exact hb.modify fun w => .logs w _
  | edit e => exact bears_edit hb e
  | restore s => exact bears_restore hb s
  | consult name s args => exact .bind .machine fun m => .bind hb.ofGraph fun st => hr.call _ _ _

/-- While a run is under way a request for another resumes it, and an event is at most queued. -/
theorem bears_running (hrunning : ∀ w, I w → w.machine.running = true) (hr : r.Bears I X B)
    {hook : κ → Engine σ κ Unit} (n : Nat) {q : Request κ} (hq : q.Runs) :
    Bears I X B (carryOut r hook n q) := by
  have hreenter : Bears I X B (reenter : Engine σ κ RunOutcome) := by
    intro w hw
    rw [reenter, machine_bind]
    cases w.machine.paused with
    | true => exact hb.lasts _ _ (hb.lasts _ _ hw (.setPaused (hrunning w hw) false)) (.notify _ id)
    | false => exact hw
  intro w hw
  have hrefused := hreenter w hw
  cases q with
  | run mode => rwa [carryOut, run, asRun_running (hrunning w hw)]
  | runWith mode key => rwa [carryOut, run, asRun_running (hrunning w hw)]
  | runEvents => rwa [carryOut, runEvents_running (hrunning w hw)]
  | dispatch e =>
    rw [carryOut, dispatch_running (hrunning w hw)]
    exact bears_selectAndQueue hb (bears_guard hb hr) e .queued w hw
  | _ => exact hq.elim

end Engine

end Statechart
