import Statechart.Proofs.Machine.Requests

/-!
# A machine that runs

While a run is under way every request is refused, left to the run or carried out without firing. So
between the beginning of a firing and its end the notices tell of no other one, whatever the bodies
ask for.
-/

namespace Statechart

open Json

variable {σ κ : Type}

/-- What is known of the slot. Displaced is what the machine has moved from under. -/
inductive SlotMark where
  | empty
  | waiting
  | displaced
  deriving DecidableEq

/-- A firing that notices tell of. -/
structure Firing where
  transition : TransitionId
  /-- The state that was active when the firing began. -/
  source : Option StateId
  /-- Whether what is fired was displaced by then. -/
  displaced : Bool
  deriving DecidableEq

/-- What some notices tell. -/
structure Track where
  slot : SlotMark
  /-- Whether what the last firing took from the slot was displaced. -/
  begun : Bool := false
  firings : List Firing := []

/-- What notices are read with: where to begin, whether the slot was occupied there, and whether
bodies may fill it unnoticed, by a snapshot. -/
structure Watch where
  since : Nat
  occupied : Bool
  restores : Bool

namespace Watch

def start (v : Watch) : Track := { slot := if v.occupied then .waiting else .empty }

/-- What becomes of the slot as the machine moves. -/
def move (v : Watch) (s : SlotMark) : SlotMark :=
  if s = .empty ∧ v.restores = false then .empty else .displaced

def step (v : Watch) (k : Track) : Notice → Track
  | .transitionQueued _ => { k with slot := .waiting }
  | .stateEntered _ | .activityInvoked _ | .rolledBack _ => { k with slot := v.move k.slot }
  | .effectInvoked _ => { k with slot := .empty, begun := k.slot = .displaced }
  | .transitionFired t source _ => { k with firings := k.firings ++ [⟨t, source, k.begun⟩] }
  | _ => k

variable {v : Watch} {k : Track} {n : Notice}

theorem step_incidental (hn : n.Incidental) : v.step k n = k := by
  cases n <;> first | rfl | exact hn.elim

theorem step_moving (hn : n.Moving) : v.step k n = { k with slot := v.move k.slot } := by
  cases n <;> first | rfl | exact hn.elim

theorem move_eq_empty {s : SlotMark} (h : v.move s = .empty) : s = .empty ∧ v.restores = false := by
  rw [move] at h
  split at h
  · assumption
  · cases h

theorem move_ne_displaced {s : SlotMark} (h : v.move s ≠ .displaced) :
    s = .empty ∧ v.restores = false := by
  rw [move] at h
  split at h
  · assumption
  · exact absurd rfl h

end Watch

namespace World

/-- What the notices of a watch tell. -/
def told (v : Watch) (w : World σ κ) : Track := (w.notices.drop v.since).foldl v.step v.start

theorem told_notify {v : Watch} {w : World σ κ} (hv : v.since ≤ w.notices.length) (n : Notice) :
    (w.notify n).told v = v.step (w.told v) n := by
  rw [told, notify, List.drop_append_of_le_length hv, List.foldl_append]
  rfl

/-- A run is under way, and the notices tell of certain firings. -/
structure Quiet (v : Watch) (begun : Bool) (firings : List Firing) (w : World σ κ) : Prop where
  running : w.machine.running = true
  length : v.since ≤ w.notices.length
  begun : (w.told v).begun = begun
  firings : (w.told v).firings = firings

variable {v : Watch} {begun : Bool} {firings : List Firing} {w : World σ κ}

theorem Quiet.notify (h : w.Quiet v begun firings) {n : Notice}
    (hn : (v.step (w.told v) n).begun = (w.told v).begun ∧
      (v.step (w.told v) n).firings = (w.told v).firings) : (w.notify n).Quiet v begun firings where
  running := h.running
  length := by
    rw [World.notify, List.length_append]
    exact Nat.le_add_right_of_le h.length
  begun := by rw [told_notify h.length, hn.1, h.begun]
  firings := by rw [told_notify h.length, hn.2, h.firings]

theorem placeless_quiet : Engine.Placeless (Quiet (σ := σ) (κ := κ) v begun firings) where
  machine hm h := ⟨hm.running.trans h.running, h.length, h.begun, h.firings⟩
  logs _ h := ⟨h.running, h.length, h.begun, h.firings⟩
  env _ h := ⟨h.running, h.length, h.begun, h.firings⟩
  now _ h := ⟨h.running, h.length, h.begun, h.firings⟩
  notify hn h := h.notify (by rw [Watch.step_incidental hn]; exact ⟨rfl, rfl⟩)
  active _ h := ⟨h.running, h.length, h.begun, h.firings⟩
  move hn h := h.notify (by rw [Watch.step_moving hn]; exact ⟨rfl, rfl⟩)

end World

namespace Engine

variable {r : Responder σ κ} {w : World σ κ} {v : Watch} {begun : Bool} {firings : List Firing}

/-! ## Queueing -/

/-- Queueing fails and does nothing, or else the slot was empty and the transition leaves the active
state of a machine that is not at its end. -/
theorem queueTransition_cases (t : TransitionId) (args : List Value) (w : World σ κ) :
    (∃ e, queueTransition t args w = .error e w) ∨
    ∃ s ts, w.machine.pending = none ∧ w.machine.active = some s ∧ w.machine.atEnd = false ∧
      w.machine.candidatesFrom s = .ok ts ∧ t ∈ ts ∧ queueTransition t args w = .ok ()
        ((w.mapMachine fun m => { m with pending := some ⟨t, args⟩ }).notify
          (.transitionQueued t)) := by
  rw [queueTransition, machine_bind]
  by_cases hphase : (w.machine.phase.entry || w.machine.phase.exit || w.machine.phase.effect) = true
  · rw [if_pos hphase]
    exact .inl ⟨_, rfl⟩
  rw [if_neg hphase]
  cases hpending : w.machine.pending with
  | some p => exact .inl ⟨_, rfl⟩
  | none =>
  cases hactive : w.machine.active with
  | none => exact .inl ⟨_, rfl⟩
  | some s =>
  dsimp only
  cases ht : w.machine.graph.transition t with
  | error e => exact .inl ⟨_, rfl⟩
  | ok tr =>
  cases hend : w.machine.atEnd with
  | true => exact .inl ⟨_, rfl⟩
  | false =>
  show (∃ e, (candidates >>= fun ts => if ts.contains t = true then _ else _) w = .error e w) ∨
    ∃ s' ts, _ ∧ _ ∧ _ ∧ _ ∧ _ ∧
    (candidates >>= fun ts => if ts.contains t = true then _ else _) w = _
  have hcandidates : candidates w = ofGraph (w.machine.candidatesFrom s) w := by
    rw [candidates, machine_bind, hactive]
  cases hts : w.machine.candidatesFrom s with
  | error e =>
    rw [hts] at hcandidates
    exact .inl ⟨_, bind_of_error hcandidates⟩
  | ok ts =>
    rw [hts] at hcandidates
    by_cases hmem : ts.contains t = true
    · refine .inr ⟨s, ts, rfl, rfl, rfl, hts, List.contains_iff_mem.mp hmem, ?_⟩
      refine (bind_of_ok hcandidates).trans ?_
      rw [if_pos hmem]
      rfl
    · refine .inl ⟨.fault (.cannotTransition (w.machine.graph.pathOfTransition t) .notLeaving), ?_⟩
      refine (bind_of_ok hcandidates).trans ?_
      rw [if_neg hmem]
      rfl

/-- What is queued waits in the slot of a machine that is not at its end. -/
theorem queued_queueTransition {D : Bool → Prop} (t : TransitionId) (args : List Value) :
    Triple (fun w => D w.machine.running) (queueTransition t args : Engine σ κ Unit)
      (fun _ w => D w.machine.running ∧ w.machine.atEnd = false ∧
        w.machine.pending = some ⟨t, args⟩)
      fun _ _ => True := by
  intro w hw
  rcases queueTransition_cases t args w with ⟨e, he⟩ | ⟨s, ts, -, -, hend, -, -, hok⟩
  · rw [he]
    trivial
  · rw [hok]
    exact ⟨hw, hend, rfl⟩

/-- What comes of an event whose transition is only queued. -/
theorem selectAndQueue_cases {w' : World σ κ} {e : Event} {o : DispatchOutcome}
    {wrap : TransitionId → DispatchOutcome} (h : selectAndQueue r e wrap w = .ok o w') :
    o = .unhandled ∨ (∃ ts, o = .ambiguous ts) ∨ ∃ t, o = wrap t ∧ w'.machine.pending =
      some ⟨t, e.args⟩ := by
  obtain ⟨ts, v, -, hrest⟩ := exists_of_bind_ok h
  match ts with
  | [] =>
    cases hrest
    exact .inl rfl
  | [(t, label)] =>
    obtain ⟨_, u, hqueue, hpure⟩ := exists_of_bind_ok (x := queueTransition t e.args) hrest
    rcases queueTransition_cases t e.args (v.mapMachine ({ · with trigger := some label })) with
      ⟨err, herr⟩ | ⟨s, ts, -, -, -, -, -, hok⟩
    · cases herr.symm.trans hqueue
    · cases hok.symm.trans hqueue
      cases hpure
      exact .inr (.inr ⟨t, rfl, rfl⟩)
  | _ :: _ :: _ =>
    cases hrest
    exact .inr (.inl ⟨_, rfl⟩)

/-! ## Firing what is selected -/

/-- What waits in the slot is fired, and nothing else. -/
theorem processTransitions_single (hend : w.machine.atEnd = false) {p : Pending}
    (hp : w.machine.pending = some p) (n : Nat) : processTransitions r n .single none w =
      (do
        fireTransition r p
        pure (1, StopReason.singleStep)) (w.mapMachine ({ · with pending := none })) := by
  have htake : takePending w = .ok (some p) (w.mapMachine ({ · with pending := none })) := by
    rw [takePending, machine_bind, hp]
    rfl
  rw [processTransitions, machine_bind, hend]
  exact bind_of_ok htake

/-- The work of dispatching an event once it has selected a transition. -/
def fireSelected (r : Responder σ κ) (n : Nat) (e : Event) (t : TransitionId) (label : String) :
    Engine σ κ DispatchOutcome := do
  update fun m => { m with trigger := some label }
  queueTransition t e.args
  let _ ← run r n .single none
  pure (.fired t)

/-- The work of a run once an event of its queue has selected a transition. -/
def handleSelected (r : Responder σ κ) (n : Nat) (e : Event) (t : TransitionId) (label : String) :
    Engine σ κ Nat := do
  update fun m => { m with trigger := some label }
  queueTransition t e.args
  let (fired, _) ← processTransitions r n .single none
  setCurrent none none
  pure fired

/-- What becomes of an event that is dispatched, by what it selects. -/
theorem dispatchNow_eq (r : Responder σ κ) (n : Nat) (e : Event) : dispatchNow r n e = (do
    match ← transitionsMatching r e with
    | [] => pure .unhandled
    | [(t, label)] => fireSelected r n e t label
    | many => pure (.ambiguous (many.map (·.1)))) := by
  rw [dispatchNow, selectAndQueue, bind_assoc]
  congr 1
  funext ts
  match ts with
  | [] => rfl
  | [(t, label)] => simp only [fireSelected, bind_assoc, pure_bind]
  | _ :: _ :: _ => rfl

/-- The work of a run on an event, before and after it selects a transition. -/
theorem handleEvent_eq (n : Nat) (e : Event) : handleEvent r n e w = (do
      let (t, label) ← selectOne r e
      handleSelected r n e t label)
    ((w.notify (.eventDequeued e.name)).mapMachine ({ · with event := some e })) := rfl

/-! ## A queue of events -/

theorem processEvents_nil (hpaused : w.machine.paused = false) (hevents : w.machine.events = [])
    (n fired : Nat) : processEvents r (n + 1) fired w = .ok (fired, .queueEmpty) w := by
  have htake : takeEvent w = .ok none w := by
    rw [takeEvent, machine_bind, hevents]
    rfl
  rw [processEvents, machine_bind, hpaused]
  exact bind_of_ok htake

theorem processEvents_cons {e : Event} {rest : List Event} (hpaused : w.machine.paused = false)
    (hevents : w.machine.events = e :: rest) (n fired : Nat) : processEvents r (n + 1) fired w =
      (handleEvent r (n + 1) e >>= fun more => processEvents r n (fired + more))
        (w.mapMachine ({ · with events := rest })) := by
  have htake : takeEvent w = .ok (some e) (w.mapMachine ({ · with events := rest })) := by
    rw [takeEvent, machine_bind, hevents]
    rfl
  rw [processEvents, machine_bind, hpaused]
  exact bind_of_ok htake

/-! ## While no run is under way -/

theorem asRun_idle {work : Engine σ κ (Nat × StopReason)} (h : w.machine.running = false) :
    asRun work w =
      (work.thenAlways (·.mapMachine ({ · with running := false, paused := false })) >>= fun o =>
        pure (RunOutcome.completed o.1 o.2))
      (w.mapMachine ({ · with running := true, paused := false })) := by
  rw [asRun, machine_bind, h]
  rfl

theorem runEvents_idle {n : Nat} (h : w.machine.running = false) :
    runEvents r n w =
      ((processEvents r n 0).thenAlways (·.mapMachine
          ({ · with running := false, paused := false, event := none, trigger := none })) >>=
        fun o => pure (RunOutcome.completed o.1 o.2))
      (w.mapMachine ({ · with running := true, paused := false })) := by
  rw [runEvents, machine_bind, h]
  rfl

section
variable {P I : World σ κ → Prop} {Q : RunOutcome → World σ κ → Prop} {E : Stop → World σ κ → Prop}
  (hidle : ∀ w, P w → w.machine.running = false)
  (hbegun : ∀ w, P w → I (w.mapMachine ({ · with running := true, paused := false })))
include hidle hbegun

/-- Work as a run of its own does what it does with the flags of a run set. -/
theorem Triple.asRun {work : Engine σ κ (Nat × StopReason)}
    (hwork : Triple I work
      (fun o w => Q (.completed o.1 o.2)
        (w.mapMachine ({ · with running := false, paused := false })))
      fun e w => E e (w.mapMachine ({ · with running := false, paused := false }))) :
    Triple P (asRun work) Q E := by
  intro w hw
  rw [asRun_idle (hidle w hw)]
  exact Triple.bind (Q := fun o => Q (.completed o.1 o.2)) (.thenAlways hwork)
    (fun _ _ hv => hv) _ (hbegun w hw)

theorem Triple.runEvents {n : Nat}
    (hwork : Triple I (processEvents r n 0)
      (fun o w => Q (.completed o.1 o.2) (w.mapMachine
        ({ · with running := false, paused := false, event := none, trigger := none })))
      fun e w => E e (w.mapMachine
        ({ · with running := false, paused := false, event := none, trigger := none }))) :
    Triple P (runEvents r n) Q E := by
  intro w hw
  rw [runEvents_idle (hidle w hw)]
  exact Triple.bind (Q := fun o => Q (.completed o.1 o.2)) (.thenAlways hwork)
    (fun _ _ hv => hv) _ (hbegun w hw)

end

theorem dispatch_idle {n : Nat} {e : Event} (h : w.machine.running = false) : dispatch r n e w =
    (dispatchNow r n e).thenAlways (·.mapMachine ({ · with event := none, trigger := none }))
      (w.mapMachine ({ · with event := some e })) := by
  rw [dispatch, machine_bind, h]
  rfl

/-! ## While a run is under way -/

theorem asRun_running {work : Engine σ κ (Nat × StopReason)} (h : w.machine.running = true) :
    asRun work w = reenter w := by
  rw [asRun, machine_bind, if_pos h]

/-- A run that is left to the one under way ends the pause of that one, and runs no body. -/
theorem reenter_eq (w : World σ κ) :
    ∃ w', reenter w = .ok .alreadyRunning w' ∧ w'.machine.paused = false ∧
    w'.machine.running = w.machine.running ∧ w'.env = w.env := by
  rw [reenter, machine_bind]
  cases hpaused : w.machine.paused with
  | true => exact ⟨_, rfl, rfl, rfl, rfl⟩
  | false => exact ⟨_, rfl, hpaused, rfl, rfl⟩

theorem runEvents_running {n : Nat} (h : w.machine.running = true) :
    runEvents r n w = reenter w := by
  rw [runEvents, machine_bind, if_pos h]

/-- What is left to a run under way does what resuming that run does. -/
theorem Triple.of_reenter {P : World σ κ → Prop} {Q : RunOutcome → World σ κ → Prop}
    {E : Stop → World σ κ → Prop} {x : Engine σ κ RunOutcome}
    (hx : ∀ w, w.machine.running = true → x w = reenter w) (hreenter : Triple P reenter Q E)
    (hidle : Triple (fun w => P w ∧ w.machine.running = false) x Q E) : Triple P x Q E := by
  intro w hw
  cases hrunning : w.machine.running with
  | true =>
    rw [hx w hrunning]
    exact hreenter w hw
  | false => exact hidle w ⟨hw, hrunning⟩

theorem dispatch_running {n : Nat} {e : Event} (h : w.machine.running = true) :
    dispatch r n e w = selectAndQueue r e .queued w := by
  rw [dispatch, machine_bind, if_pos h]

/-- While a run is under way nothing else runs: a run that is asked for resumes it, and an event
that is dispatched only queues what it selects. -/
theorem matches_amid {τ : Type} {c : Comparison σ τ κ} {r' : Responder τ κ} (hc : c.Steers .same)
    (hrunning : ∀ {w w'}, c.related w w' → w.machine.running = true) (hr : r.Matches c r')
    (hqueue : ∀ t args, Matches c (queueTransition t args)
      (queueTransition t args : Engine τ κ Unit))
    (hlabel : ∀ {w w'} label, c.related w w' →
      c.related (w.mapMachine ({ · with trigger := some label }))
      (w'.mapMachine ({ · with trigger := some label })))
    {hook : κ → Engine σ κ Unit} {hook' : κ → Engine τ κ Unit} (n : Nat) {q : Request κ}
    (hq : q.Runs) : Matches c (carryOut r hook n q) (carryOut r' hook' n q) := by
  intro w w' hw
  have hw' : w'.machine.running = true := (hc.running hw).trans (hrunning hw)
  have hreenter := matches_reenter hc w w' hw
  cases q with
  | run mode =>
    rw [carryOut, carryOut, run, run, asRun_running (hrunning hw), asRun_running hw']
    exact hreenter
  | runWith mode key =>
    rw [carryOut, carryOut, run, run, asRun_running (hrunning hw), asRun_running hw']
    exact hreenter
  | runEvents =>
    rw [carryOut, carryOut, runEvents_running (hrunning hw), runEvents_running hw']
    exact hreenter
  | dispatch e =>
    rw [carryOut, carryOut, dispatch_running (hrunning hw), dispatch_running hw']
    exact matches_selectAndQueue hc.toSelects hr (fun t => hqueue t e.args)
      (fun label _ _ => hlabel label) .queued w w' hw
  | _ => exact hq.elim

theorem isolate_running (h : w.machine.running = true) :
    isolate w = .error (.fault (.unexpectedRecursion .isolate)) w := by
  rw [isolate, machine_bind, if_pos h]
  rfl

/-- A snapshot is not restored while a run is under way. -/
theorem restore_running {s : Snapshot} (h : w.machine.running = true) :
    ∃ e, restore s w = .ok (.error e) w := by
  have hrefused : ∃ e, s.restoreInto w.machine = .error e := by
    rw [Snapshot.restoreInto]
    cases s.checkVersion with
    | error e => exact ⟨e, rfl⟩
    | ok u =>
      refine ⟨.validationFailed .running, ?_⟩
      show (if _ then _ else _) = _
      rw [if_pos h]
      rfl
  obtain ⟨e, he⟩ := hrefused
  refine ⟨e, ?_⟩
  rw [restore, machine_bind, he]
  rfl

theorem keeps_quiet_queueTransition (t : TransitionId) (args : List Value) :
    Keeps (World.Quiet v begun firings) (queueTransition t args : Engine σ κ Unit) := by
  intro w hw
  rcases queueTransition_cases t args w with ⟨e, he⟩ | ⟨s, ts, -, -, -, -, -, hok⟩
  · rw [he]
    exact hw
  · rw [hok]
    have hset : (w.mapMachine fun m => { m with pending := some ⟨t, args⟩ }).Quiet
        v begun firings :=
      ⟨hw.running, hw.length, hw.begun, hw.firings⟩
    exact hset.notify ⟨rfl, rfl⟩

/-- Whatever is asked of a machine that runs, no firing begins. -/
theorem keeps_quiet_carryOut (hr : r.Keeps (World.Quiet v begun firings))
    (hook : κ → Engine σ κ Unit) (n : Nat) (q : Request κ) :
    Keeps (World.Quiet v begun firings) (carryOut r hook n q) := by
  have hI : Placeless (World.Quiet (σ := σ) (κ := κ) v begun firings) := World.placeless_quiet
  refine keeps_carryOut hI.toLax hr keeps_quiet_queueTransition hook n fun hmoves => ?_
  have hamid (hq : q.Runs) : Keeps (World.Quiet v begun firings) (carryOut r hook n q) :=
    keeps_iff_matches.mpr (matches_amid (Comparison.posts_within hI.toLax).toSteers
      (fun hw => hw.2.running) hr.matches
      (fun t args => keeps_iff_matches.mp (keeps_quiet_queueTransition t args))
      (fun _ hw => ⟨by rw [hw.1], hI.machine ⟨rfl, rfl, rfl, rfl, rfl⟩ hw.2⟩) n hq)
  cases q with
  | start args => exact keeps_start hI hr args
  | goto s args => exact keeps_goto hI hr s args
  | run mode => exact hamid trivial
  | runWith mode body => exact hamid trivial
  | runEvents => exact hamid trivial
  | dispatch e => exact hamid trivial
  | isolate =>
    intro w hw
    rw [carryOut, isolate_running hw.running]
    exact hw
  | edit e =>
    refine .bind .machine fun m => ?_
    have hgraph (g : Graph κ) :
        Keeps (World.Quiet (σ := σ) v begun firings) (update ({ · with graph := g })) :=
      .update fun w hw => ⟨hw.running, hw.length, hw.begun, hw.firings⟩
    cases e.apply.run m.graph with
    | ok a g => exact .bind (hgraph g) fun _ => .pure
    | error err g => exact .bind (hgraph g) fun _ => .fail
  | restore s =>
    intro w hw
    obtain ⟨e, he⟩ := restore_running (s := s) hw.running
    rw [carryOut, he]
    exact hw
  | _ => exact hmoves.elim

end Engine

/-- Whatever is asked of a machine that runs and by whatever bodies, no firing begins. -/
theorem Host.keeps_quiet (h : Host σ κ) (v : Watch) (begun : Bool) (firings : List Firing) (n : Nat)
    (q : Request κ) : Engine.Keeps (World.Quiet v begun firings) (h.perform n q) := by
  refine keeps_perform (C := fun _ _ => True)
    (fun w env hw => World.placeless_quiet.env env hw) h.makes_any
    (fun _ => trivial) (fun r hook n q _ hr _ _ => ?_) n trivial
  exact Engine.keeps_quiet_carryOut hr hook n q

end Statechart
