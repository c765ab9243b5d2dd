import Statechart.Proofs.Machine.Books
import Statechart.Proofs.Machine.Requests
import Statechart.Proofs.Machine.Running

/-!
# Requests amid a move

While a machine moves, and while a run is under way, bodies may ask for all sorts of things, but
none of them moves the machine for good: a run asked for resumes the one under way, and a transition
fired amid another move runs into the phase that is under way and is rolled back. Only a machine at
rest is moved by a request.
-/

namespace Statechart

open Json

variable {σ κ α : Type}

/-- What moves read and change of a machine, with the logs and the number of transitions that are
known to have fired with no state active. Whether a run is under way is kept apart. -/
structure Stance where
  active : Option StateId
  phase : Phase
  history : HistoryLog
  /-- Whether moves are recorded. -/
  recorded : Bool
  logs : LogStore
  strays : Nat

namespace Notice

/-- The notice tells that a transition has fired with no state active. -/
def isStray : Notice → Bool
  | .transitionFired _ none _ => true
  | _ => false

theorem Incidental.not_stray {n : Notice} (hn : n.Incidental) : n.isStray = false := by
  cases n <;> first | rfl | exact hn.elim

end Notice

namespace Phase

/-- States are being left or entered, or the activity of one is run. -/
def Moving (p : Phase) : Prop := p.exit = true ∨ p.entry = true ∨ p.doActivity = true

instance (p : Phase) : Decidable p.Moving := inferInstanceAs (Decidable (_ ∨ _ ∨ _))

end Phase

namespace Stance

/-- The stance once the machine has been put into a state, with the record of that. -/
def seeded (k : Stance) (x : HistoryRecord) : Stance :=
  { k with
    active := some x.new
    logs := if k.recorded then (k.logs.clear k.history).append k.history x
      else k.logs.clear k.history }

/-- The stance after a firing, with the record of it. -/
def fired (k : Stance) (x : HistoryRecord) : Stance :=
  { k with
    active := some x.new
    logs := if k.recorded then k.logs.append k.history x else k.logs
    strays := if k.active.isNone then k.strays + 1 else k.strays }

variable {k : Stance} {x : HistoryRecord}

theorem le_strays_fired : k.strays ≤ (k.fired x).strays := by
  show k.strays ≤ if k.active.isNone then k.strays + 1 else k.strays
  split <;> omega

theorem strays_fired_eq_iff : (k.fired x).strays = k.strays ↔ k.active ≠ none := by
  show (if k.active.isNone then k.strays + 1 else k.strays) = k.strays ↔ k.active ≠ none
  cases k.active <;> simp

end Stance

namespace World

variable {w : World σ κ} {b : Bool} {D : Stance → Prop} {k : Stance}

/-- How many transitions are known to have fired with no state active. -/
def strays (w : World σ κ) : Nat := w.notices.countP Notice.isStray

def stance (w : World σ κ) : Stance :=
  ⟨w.machine.active, w.machine.phase, w.machine.history,
    w.machine.options.recordHistory, w.logs, w.strays⟩

/-- Whether a run is under way is so, and the stance is as described. -/
def Stands (b : Bool) (D : Stance → Prop) (w : World σ κ) : Prop :=
  w.machine.running = b ∧ D w.stance

theorem stance_notify (w : World σ κ) (n : Notice) : (w.notify n).stance =
    { w.stance with strays := if n.isStray then w.stance.strays + 1 else w.stance.strays } := by
  have hstrays : (w.notify n).strays = if n.isStray then w.strays + 1 else w.strays := by
    rw [strays, notify, List.countP_append, List.countP_singleton, strays]
    split <;> rfl
  rw [stance, hstrays]
  rfl

theorem Stands.notify (h : w.Stands b D) {n : Notice}
    (hn : n.isStray = false) : (w.notify n).Stands b D := by
  refine ⟨h.1, ?_⟩
  rw [stance_notify, hn]
  exact h.2

theorem indifferent_stands : World.Indifferent (Stands (σ := σ) (κ := κ) b D) := fun _ _ h => h

end World

namespace Comparison

variable {b : Bool} {D : Stance → Prop}

theorem handles_stands : (within (World.Stands b D) : Comparison σ σ κ).Handles .same where
  like h := World.like_of_eq h.1
  guarded | _, rfl, h => ⟨by rw [h.1], h.2.notify rfl⟩
  starves := trivial
  running h := by rw [h.1]
  paused h := by rw [h.1]
  events h := by rw [h.1]
  setPaused _ h := ⟨by rw [h.1], h.2⟩
  setEvents _ h := ⟨by rw [h.1], h.2⟩
  stopped h := ⟨by rw [h.1], h.2.notify rfl⟩
  resumed h := ⟨by rw [h.1], h.2.notify rfl⟩
  dequeued _ h := ⟨by rw [h.1], h.2.notify rfl⟩
  setEvent _ h := ⟨by rw [h.1], h.2⟩
  setTrigger _ h := ⟨by rw [h.1], h.2⟩

theorem queues_stands : (within (World.Stands b D) : Comparison σ σ κ).Queues .same where
  toSelects := handles_stands.toSelects
  phase h := by rw [h.1]
  pending h := likePending_of_eq (by rw [h.1])
  setPending hp h := ⟨by rw [h.1, eq_of_likePending hp], h.2⟩
  queued | rfl, h => ⟨by rw [h.1], h.2.notify rfl⟩

end Comparison

namespace Engine

variable {r : Responder σ κ} {hook : κ → Engine σ κ Unit} {b : Bool} {D : Stance → Prop}
  {k : Stance} {E : Stop → World σ κ → Prop}

/-- What is known of each stance that is as described is known. -/
theorem Triple.of_stance {x : Engine σ κ α} {Q : α → World σ κ → Prop}
    (hx : ∀ k, D k → Triple (World.Stands b (· = k)) x Q E) : Triple (World.Stands b D) x Q E :=
  fun w hw => hx w.stance hw.2 w ⟨hw.1, rfl⟩

theorem stands_selectAndQueue (hr : r.Keeps (World.Stands b D)) (e : Event)
    (wrap : TransitionId → DispatchOutcome) : Keeps (World.Stands b D) (selectAndQueue r e wrap) :=
  keeps_iff_matches.mpr (matches_selectAndQueue Comparison.handles_stands.toSelects hr.matches
    (fun t => matches_queueTransition Comparison.queues_stands t e.args)
      (fun _ _ _ h => ⟨by rw [h.1], h.2⟩) wrap)

/-- Only requests that run the machine or put it elsewhere have a part in its stance. -/
theorem stands_carryOut (hr : r.Keeps (World.Stands b D)) (n : Nat) {q : Request κ}
    (hq : ¬ q.Replaces) (hruns : q.Runs → Keeps (World.Stands b D) (carryOut r hook n q)) :
    Keeps (World.Stands b D) (carryOut r hook n q) :=
  keeps_iff_matches.mpr (matches_carryOut_of_posts Comparison.handles_stands.toPosts hr.matches n
    (fun args _ t => matches_queueTransition Comparison.queues_stands t args)
    (fun h => keeps_iff_matches.mp (hruns h)) fun h => absurd h hq)

/-! ## While a run is under way -/

theorem running_carryOut (hr : r.Keeps (World.Stands true D)) (hook : κ → Engine σ κ Unit) (n : Nat)
    {q : Request κ} (hq : ¬ q.Replaces) : Keeps (World.Stands true D) (carryOut r hook n q) :=
  stands_carryOut hr n hq fun hruns =>
    keeps_iff_matches.mpr (matches_amid Comparison.handles_stands.toSteers
      (fun hw => hw.2.1) hr.matches
      (matches_queueTransition Comparison.queues_stands) (fun _ hw => ⟨by rw [hw.1], hw.2⟩) n hruns)

/-! ## While none is -/

section
variable (hfire : ∀ p, Keeps (World.Stands true D) (fireTransition r p))
include hfire

theorem idling_run {hook' : Option (Engine σ κ Unit)}
    (hhook : Keeps (World.Stands true D) (hook'.forM id)) (n : Nat) (mode : RunMode) :
    Keeps (World.Stands false D) (run r n mode hook') := by
  have hprocess : Keeps (World.Stands true D) (processTransitions r n mode hook') :=
    keeps_iff_matches.mpr (matches_processTransitions Comparison.queues_stands.takes
      (fun p _ => keeps_iff_matches.mp (hfire p)) (keeps_iff_matches.mp hhook)
        Comparison.handles_stands.toSteers n mode)
  have hended (w : World σ κ) (hw : w.Stands true D) :
      (w.mapMachine ({ · with running := false, paused := false })).Stands false D := ⟨rfl, hw.2⟩
  exact .asRun (fun _ hw => hw.1) (fun _ hw => ⟨rfl, hw.2⟩)
    (hprocess.mono_post (fun _ => hended) fun _ => hended)

variable (hrunning : r.Keeps (World.Stands true D))
include hrunning

theorem idling_runEvents (n : Nat) : Keeps (World.Stands false D) (runEvents r n) := by
  have hprocess : Keeps (World.Stands true D) (processEvents r n 0) :=
    keeps_iff_matches.mpr (matches_processEvents Comparison.queues_stands.takes
      (fun p _ => keeps_iff_matches.mp (hfire p)) Comparison.handles_stands hrunning.matches
      (matches_queueTransition Comparison.queues_stands) n 0)
  have hended (w : World σ κ) (hw : w.Stands true D) : (w.mapMachine
      ({ · with running := false, paused := false, event := none, trigger := none })).Stands
        false D := ⟨rfl, hw.2⟩
  exact .runEvents (fun _ hw => hw.1) (fun _ hw => ⟨rfl, hw.2⟩)
    (hprocess.mono_post (fun _ => hended) fun _ => hended)

/-- A machine that is not running keeps to a stance if a firing would. -/
theorem idling_carryOut (hhook : ∀ key, Keeps (World.Stands true D) (hook key))
    (hr : r.Keeps (World.Stands false D)) (n : Nat) {q : Request κ} (hq : ¬ q.Replaces) :
    Keeps (World.Stands false D) (carryOut r hook n q) := by
  refine stands_carryOut hr n hq fun hruns => ?_
  cases q with
  | run mode => exact idling_run hfire .pure n mode
  | runWith mode key =>
    have hbody : Keeps (World.Stands true D) ((some (hook key)).forM id) := hhook key
    exact idling_run hfire hbody n mode
  | runEvents => exact idling_runEvents hfire hrunning n
  | dispatch e =>
    have hnow : Keeps (World.Stands false D) (dispatchNow r n e) := by
      refine .bind (stands_selectAndQueue hr e .fired) fun outcome => ?_
      cases outcome with
      | fired t => exact .bind (idling_run hfire .pure n .single) fun _ => .pure
      | _ => exact .pure
    have hended (w : World σ κ) (hw : w.Stands false D) :
        (w.mapMachine ({ · with event := none, trigger := none })).Stands false D := hw
    intro w hw
    rw [carryOut, dispatch_idle hw.1]
    exact hnow.thenAlways hended _ hw
  | _ => exact hruns.elim

end

/-! ## Moves -/

/-- A phase begins only if it is not under way, and ends as it began. -/
theorem stands_phase {o : Operation} {x : Engine σ κ Unit}
    (hx : Keeps (World.Stands b (· = { k with phase := setPhaseFlag k.phase o true })) x) :
    Triple (World.Stands b (· = k)) (do beginPhase o; x; endPhase o)
      (fun _ w => phaseFlag k.phase o = false ∧ w.Stands b (· = k))
      fun _ w => w.Stands b (· = k) ∨
      w.Stands b (· = { k with phase := setPhaseFlag k.phase o true }) := by
  refine .phase (I := fun w => phaseFlag k.phase o = false ∧
    w.Stands b (· = { k with phase := setPhaseFlag k.phase o true })) (fun _ hw _ => .inl hw) ?_ ?_
  · rintro w ⟨hrunning, rfl⟩ ho
    exact ⟨ho, hrunning, rfl⟩
  · refine .of_and fun ho => hx.mono_post (fun _ v hv => ⟨ho, hv.1, ?_⟩) fun _ _ => .inr
    have hended :=
      congrArg (fun k' : Stance => { k' with phase := setPhaseFlag k'.phase o false }) hv.2
    dsimp only at hended
    rw [setPhaseFlag_cancel ho] at hended
    exact hended

/-- A notice that tells of no firing, and the behavior that it announces. -/
theorem stands_invoke (hr : r.Keeps (World.Stands b D)) {n : Notice} (hn : n.isStray = false)
    (a : Action) (s : Subject) (args : List Value) :
    Keeps (World.Stands b D) (do
      notify n
      let _ ← invoke r a s args) :=
  .bind (.notify fun _ hw => hw.notify hn) fun _ => .bind (keeps_invoke hr a s args) fun _ => .pure

section
variable (hr : ∀ active o, o = .exit ∨ o = .entry ∨ o = .doActivity →
  r.Keeps (World.Stands b (· = { k with active, phase := setPhaseFlag k.phase o true })))
include hr

/-- A move comes to its end only if none was under way, and changes nothing but the active state. -/
theorem stands_cascade (old : Option StateId) (target : StateId) (via : Option TransitionId)
    (args : List Value) :
    Triple (World.Stands b (· = k)) (cascade r old target via args)
      (fun s w => ¬ k.phase.Moving ∧ w.Stands b (· = { k with active := some s }))
      fun _ w => ∃ active phase, w.Stands b (· = { k with active, phase }) := by
  rw [cascade_eq]
  refine .bind (Q := fun _ => World.Stands b (· = k)) (fun _ hw => hw) fun m => ?_
  refine .bind (.ofGraph fun _ _ hw => ⟨k.active, k.phase, hw⟩) fun external => ?_
  generalize m.graph.resolveEntryTarget target = s
  have hleave : Triple (World.Stands b (· = k)) (leave r args (m.leaving external old s))
      (fun _ w => k.phase.exit = false ∧ w.Stands b (· = k))
      fun _ w => ∃ active phase, w.Stands b (· = { k with active, phase }) :=
    (stands_phase (o := .exit)
      (.forM fun s _ => stands_invoke (hr k.active .exit (.inl rfl)) rfl .exit
        (.state s) args)).mono_error
      fun _ _ hw => hw.elim (⟨k.active, _, ·⟩) (⟨k.active, _, ·⟩)
  have henter : Triple (World.Stands b (· = { k with active := some s }))
      (enterAll r args (m.entering external old s))
      (fun _ w => k.phase.entry = false ∧ w.Stands b (· = { k with active := some s }))
      fun _ w => ∃ active phase, w.Stands b (· = { k with active, phase }) :=
    (stands_phase (k := { k with active := some s }) (o := .entry)
      (.forM fun s' _ => stands_invoke (hr (some s) .entry (.inr (.inl rfl))) rfl .entry
        (.state s') args)).mono_error
      fun _ _ hw => hw.elim (⟨some s, _, ·⟩) (⟨some s, _, ·⟩)
  have hactivity : Triple (World.Stands b (· = { k with active := some s })) (do
        beginPhase .doActivity
        (do notify (.activityInvoked s); let _ ← invoke r .doActivity (.state s) args)
        endPhase .doActivity)
      (fun _ w => k.phase.doActivity = false ∧ w.Stands b (· = { k with active := some s }))
      fun _ w => ∃ active phase, w.Stands b (· = { k with active, phase }) :=
    (stands_phase (k := { k with active := some s }) (o := .doActivity)
      (stands_invoke (hr (some s) .doActivity (.inr (.inr rfl))) rfl .doActivity
        (.state s) args)).mono_error
      fun _ _ hw => hw.elim (⟨some s, _, ·⟩) (⟨some s, _, ·⟩)
  refine .bind hleave fun _ => .of_and fun hexit => ?_
  refine .bind (.update (I := World.Stands b (· = { k with active := some s })) ?_) fun _ => ?_
  · rintro w ⟨hrunning, rfl⟩
    exact ⟨hrunning, rfl⟩
  refine .bind henter fun _ => .of_and fun hentry => ?_
  have hsettle : Triple (World.Stands b (· = { k with active := some s })) (settle r args via s)
      (fun _ w => k.phase.doActivity = false ∧ w.Stands b (· = { k with active := some s }))
      fun _ w => ∃ active phase, w.Stands b (· = { k with active, phase }) := by
    rw [settle_eq]
    exact .bind (.update fun _ hw => hw) fun _ => hactivity
  refine .bind hsettle fun _ => .of_and fun hdo w hw => ⟨?_, hw⟩
  rw [Phase.Moving, hexit, hentry, hdo]
  decide

/-- A move that fails has changed nothing. -/
theorem stands_enter (target : StateId) (via : Option TransitionId) (args : List Value) :
    Triple (World.Stands b (· = k)) (enter r target via args)
      (fun s w => ¬ k.phase.Moving ∧ w.Stands b (· = { k with active := some s })) fun _ =>
        World.Stands b (· = k) := by
  intro w hw
  rw [enter, machine_bind]
  refine Triple.onFailure
    (.thenAlways ((stands_cascade hr w.machine.active target via args).mono_post ?_ ?_)) w hw
  · rintro s v ⟨hmoving, hrunning, hv⟩
    refine ⟨hmoving, hrunning, ?_⟩
    rw [← hw.2] at hv ⊢
    exact congrArg (fun k' : Stance => { k' with phase := w.machine.phase }) hv
  · rintro e v ⟨active, phase, hrunning, hv⟩
    have hback : ((v.mapMachine ({ · with phase := w.machine.phase })).mapMachine
        ({ · with active := w.machine.active })).Stands b (· = k) := by
      refine ⟨hrunning, ?_⟩
      rw [← hw.2] at hv ⊢
      exact congrArg (fun k' : Stance =>
        { k' with active := w.machine.active, phase := w.machine.phase }) hv
    exact hback.notify rfl

end

/-- A record is made of the move if any are. -/
theorem stands_recordHistory (previous : Option StateId) (t : Option TransitionId) (new : StateId) :
    Triple (World.Stands b (· = k)) (recordHistory previous t new : Engine σ κ Unit)
      (fun _ w => ∃ x : HistoryRecord,
      x.previous = previous ∧ x.transition = t ∧ x.new = new ∧ w.Stands b
        (· = { k with logs := if k.recorded then k.logs.append k.history x else k.logs })) E := by
  rintro w ⟨hrunning, rfl⟩
  refine ⟨recordOf w previous t new, rfl, rfl, rfl, ?_⟩
  show World.Stands b _ (if w.machine.options.recordHistory = true then _ else _)
  by_cases hoption : w.machine.options.recordHistory = true
  · rw [if_pos hoption]
    refine ⟨hrunning, ?_⟩
    rw [World.stance, World.stance, if_pos hoption]
    rfl
  · rw [if_neg hoption]
    refine ⟨hrunning, ?_⟩
    rw [World.stance, if_neg hoption]

/-! ## Firing -/

section
variable (hr : ∀ D, r.Keeps (World.Stands true D))
include hr

theorem stands_fire (t : TransitionId) (target : StateId) (args : List Value) :
    Triple (World.Stands true (· = k)) (fire r t target k.active args)
      (fun _ w => ¬ k.phase.Moving ∧ ∃ x : HistoryRecord, x.previous = k.active ∧
        x.transition = some t ∧
        w.Stands true (· = k.fired x))
      fun _ w => w.Stands true (· = k) ∨
      w.Stands true (· = { k with phase := { k.phase with effect := true } }) := by
  have hparts : fire r t target k.active args = (do
      (do
        beginPhase .effect
        (do
          notify (.effectInvoked t)
          let _ ← invoke r .effect (.transition t) args)
        endPhase .effect)
      let new ← enter r target (some t) args
      recordHistory k.active (some t) new
      notify (.transitionFired t k.active new)) := by
    simp only [fire, bind_assoc, pure_bind]
  rw [hparts]
  refine .bind (stands_phase (o := .effect) (stands_invoke (hr _) rfl _ _ args)) fun _ =>
    .of_and fun _ => ?_
  have henter := stands_enter (k := k) (fun _ _ _ => hr _) target (some t) args
  refine .bind (henter.mono_error fun _ _ => .inl) fun new => .of_and fun hmoving => ?_
  refine .bind (stands_recordHistory k.active (some t) new) fun _ => .notify ?_
  rintro w ⟨x, hprevious, htransition, rfl, hrunning, hw⟩
  refine ⟨hmoving, x, hprevious, htransition, hrunning, ?_⟩
  have hnotified := World.stance_notify w (.transitionFired t k.active x.new)
  rw [hnotified, hw, Stance.fired]
  cases k.active <;> rfl

/-- A transition fires only if no other move is under way, and is recorded if moves are. A firing
that fails has changed nothing. -/
theorem stands_fireTransition (heffect : k.phase.effect = false) (p : Pending) :
    Triple (World.Stands true (· = k)) (fireTransition r p)
      (fun _ w => ¬ k.phase.Moving ∧ ∃ x : HistoryRecord, x.previous = k.active ∧ x.transition =
        some p.transition ∧
        w.Stands true (· = k.fired x))
      fun _ => World.Stands true (· = k) := by
  rintro w ⟨hrunning, hk⟩
  rw [fireTransition, machine_bind]
  cases hfiring : w.machine.firing with
  | some t => exact ⟨hrunning, hk⟩
  | none =>
    cases htr : w.machine.graph.transition p.transition with
    | error e => exact ⟨hrunning, hk⟩
    | ok tr =>
      simp only [Option.isSome_none, ofGraph, pure_bind]
      have hactive : w.machine.active = k.active := congrArg Stance.active hk
      have hended {v : World σ κ} {k' : Stance} (hv : v.stance = k')
          (hk' : { k'.phase with effect := false } = k.phase) :
          (v.mapMachine fun m =>
            { m with firing := none, phase := { m.phase with effect := false } }).stance =
            { k' with phase := k.phase } := by
        rw [← hk', ← hv]
        rfl
      have hclear : { k.phase with effect := false } = k.phase := by rw [← heffect]
      rw [hactive]
      refine Triple.bind (Q := fun _ => World.Stands true (· = k)) (.update fun _ hv => hv)
        (fun _ => .thenAlways ((stands_fire hr p.transition tr.target p.args).mono_post ?_ ?_)) w
          ⟨hrunning, hk⟩
      · rintro _ v ⟨hmoving, x, hprevious, htransition, hv⟩
        exact ⟨hmoving, x, hprevious, htransition, hv.1, hended hv.2 hclear⟩
      · rintro e v (hv | hv)
        · exact ⟨hv.1, hended hv.2 hclear⟩
        · exact ⟨hv.1, (hended hv.2 hclear).trans rfl⟩

end

/-! ## Beginning anew -/

section
variable (hr : ∀ k : Stance, k.phase.Moving → k.phase.effect = false →
  r.Keeps (World.Stands false (· = k)))
  (hidle : k.phase = .idle)
include hr hidle

theorem stands_seed (s : StateId) (args : List Value) :
    Triple (World.Stands false (· = k)) (seed r s args)
      (fun _ w => ∃ x : HistoryRecord, x.previous = none ∧ x.transition = none ∧
        w.Stands false (· = k.seeded x))
      fun _ => World.Stands false (· = k) := by
  have hamid (active : Option StateId) (o : Operation) (ho : o = .exit ∨ o = .entry ∨
      o = .doActivity) :
      r.Keeps (World.Stands false
        (· = { k with active, phase := setPhaseFlag k.phase o true })) := by
    have hphase : (setPhaseFlag k.phase o true).Moving ∧
        (setPhaseFlag k.phase o true).effect = false := by
      rw [hidle]
      rcases ho with rfl | rfl | rfl
      · exact ⟨.inl rfl, rfl⟩
      · exact ⟨.inr (.inl rfl), rfl⟩
      · exact ⟨.inr (.inr rfl), rfl⟩
    exact hr { k with active, phase := setPhaseFlag k.phase o true } hphase.1 hphase.2
  refine .bind (stands_enter hamid s none args) fun new => .of_and fun _ => ?_
  refine .bind (.modify (I := World.Stands false
    (· = { k with active := some new, logs := k.logs.clear k.history })) ?_) fun _ => ?_
  · rintro w ⟨hrunning, hw⟩
    exact ⟨hrunning, congrArg (fun k' : Stance => { k' with logs := k'.logs.clear k'.history }) hw⟩
  · refine .bind (stands_recordHistory none none new) fun _ w hw => ?_
    obtain ⟨x, hprevious, htransition, rfl, hw⟩ := hw
    exact ⟨x, hprevious, htransition, hw⟩

theorem stands_goto (s : StateId) (args : List Value) :
    Triple (World.Stands false (· = k)) (goto r s args)
      (fun _ w => ∃ x : HistoryRecord, x.previous = none ∧ x.transition = none ∧
        w.Stands false (· = k.seeded x))
      fun _ => World.Stands false (· = k) := by
  refine .bind (Q := fun _ => World.Stands false (· = k)) (fun _ hw => hw) fun m => ?_
  refine .bind (.ofGraph fun _ _ hw => hw) fun st => ?_
  split
  · exact stands_seed hr hidle s args
  · exact fun _ hw => hw

theorem stands_start (args : List Value) :
    Triple (World.Stands false (· = k)) (start r args)
      (fun _ w => ∃ x : HistoryRecord, x.previous = none ∧ x.transition = none ∧
        w.Stands false (· = k.seeded x))
      fun _ _ => True := by
  refine .bind (Q := fun _ => World.Stands false (· = k)) (fun _ hw => hw) fun m => ?_
  refine .bind (.ofGraph fun _ _ _ => trivial) fun x => ?_
  cases x.start with
  | none => exact fun _ _ => trivial
  | some s =>
    refine .bind (.update (I := World.Stands false (· = { k with active := none })) ?_) fun _ => ?_
    · rintro w ⟨hrunning, hw⟩
      exact ⟨hrunning, congrArg (fun k' : Stance => { k' with active := none }) hw⟩
    · refine .bind ((stands_seed (k := { k with active := none }) hr hidle s args).mono_error
        fun _ _ _ => trivial) fun new => .bind (.notify ?_) fun _ _ hw => hw
      rintro w ⟨x, hprevious, htransition, hw⟩
      exact ⟨x, hprevious, htransition, hw.notify rfl⟩

end

end Engine

namespace Host

variable {h : Host σ κ} (hbodies : h.Makes fun q => ¬ q.Replaces) {D : Stance → Prop}
  {q : Request κ}
include hbodies

/-- While a run is under way no request has a part in the stance. -/
theorem keeps_running (D : Stance → Prop) (n : Nat) (hq : ¬ q.Replaces) :
    Engine.Keeps (World.Stands true D) (h.perform n q) :=
  keeps_perform (C := fun _ _ => True) World.indifferent_stands hbodies (fun _ => trivial)
    (fun _ hook n _ _ hr _ hq => Engine.running_carryOut hr hook n hq) n hq

/-- While none is, a request changes the stance only by what it fires. -/
theorem keeps_idling (heffect : ∀ k, D k → k.phase.effect = false)
    (hfired : ∀ k x t, D k → ¬ k.phase.Moving → x.previous = k.active →
      x.transition = some t → D (k.fired x))
    (n : Nat) (hq : ¬ q.Replaces) : Engine.Keeps (World.Stands false D) (h.perform n q) := by
  have hfire (r : Responder σ κ) (hr : ∀ D, r.Keeps (World.Stands true D)) (p : Pending) :
      Engine.Keeps (World.Stands true D) (Engine.fireTransition r p) := by
    refine .of_stance fun k hk => (Engine.stands_fireTransition hr (heffect k hk) p).mono_post ?_ ?_
    · rintro _ w ⟨hmoving, x, hprevious, htransition, hrunning, hw⟩
      exact ⟨hrunning, hw ▸ hfired k x _ hk hmoving hprevious htransition⟩
    · rintro _ w ⟨hrunning, rfl⟩
      exact ⟨hrunning, hk⟩
  let C (r : Responder σ κ) (hook : κ → Engine σ κ Unit) : Prop := ∀ D,
    r.Keeps (World.Stands true D) ∧ ∀ key, Engine.Keeps (World.Stands true D) (hook key)
  have hknown (n : Nat) : C (h.responder (h.perform n)) (h.hook n) := fun D =>
    ⟨keeps_responder World.indifferent_stands hbodies fun q => keeps_running hbodies D n,
      keeps_hook World.indifferent_stands hbodies n fun q => keeps_running hbodies D n⟩
  refine keeps_perform (C := C) World.indifferent_stands hbodies hknown
    (fun r hook n q hC hr _ hq => ?_) n hq
  exact Engine.idling_carryOut (hfire r fun D => (hC D).1) (hC D).1 (hC D).2 hr n hq

/-- Amid a move no request has a part in the stance. -/
theorem keeps_moving (k : Stance) (hmoving : k.phase.Moving) (heffect : k.phase.effect = false)
    (n : Nat) (hq : ¬ q.Replaces) : Engine.Keeps (World.Stands false (· = k)) (h.perform n q) := by
  refine keeps_idling hbodies ?_ ?_ n hq
  · rintro _ rfl
    exact heffect
  · rintro _ x t rfl hmoves
    exact absurd hmoving hmoves

end Host

end Statechart
