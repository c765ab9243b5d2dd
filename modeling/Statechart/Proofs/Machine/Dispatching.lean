import Statechart.Proofs.Machine.Lockstep
import Statechart.Proofs.Machine.Readiness

/-!
# Events one by one

An event run does with the events of its queue what dispatching them one by one does. The two keep
different books: a run is under way during the one all along, during the other only while a
transition is fired, and its events wait in the queue. Bodies that make no requests and have no eye
for the books see no difference.
-/

namespace Statechart

open Json

variable {σ κ : Type}

/-! ## What the books have no part in -/

/-- The record but for its time. -/
def HistoryRecord.undated (r : HistoryRecord) : HistoryRecord := { r with time := default }

namespace LogStore

/-- The records but for their times. -/
def undated (st : LogStore) : LogStore := ⟨st.logs.map fun rs => rs.map (·.undated)⟩

theorem undated_update (st : LogStore) (n : Nat) {f g : List HistoryRecord → List HistoryRecord}
    (h : ∀ rs, (f rs).map (·.undated) = g (rs.map (·.undated))) :
    (st.update n f).undated = st.undated.update n g := by
  rw [undated, undated, update, update]
  congr 1
  refine Array.ext_getElem? fun i => ?_
  rw [Array.getElem?_map, Array.getElem?_modify, Array.getElem?_modify, Array.getElem?_map]
  split
  · cases st.logs[i]? with
    | none => rfl
    | some rs => exact congrArg some (h rs)
  · rfl

theorem undated_append (st : LogStore) (l : HistoryLog) (r : HistoryRecord) :
    (st.append l r).undated = st.undated.append l r.undated := by
  have hsnoc (rs : List HistoryRecord) :
      (rs ++ [r]).map (·.undated) = rs.map (·.undated) ++ [r.undated] := List.map_append
  have hupdate (st : LogStore) (n : Nat) :
      (st.update n (· ++ [r])).undated = st.undated.update n (· ++ [r.undated]) :=
        undated_update st n hsnoc
  rw [append, append, hupdate]
  cases l.parent with
  | none => rfl
  | some u => exact congrArg (update · l.own (· ++ [r.undated])) (hupdate st u)

theorem undated_clear (st : LogStore) (l : HistoryLog) :
    (st.clear l).undated = st.undated.clear l :=
  undated_update st l.own fun _ => rfl

theorem records_undated (st : LogStore) (l : HistoryLog) :
    st.undated.records l = (st.records l).map (·.undated) := by
  rw [records, records, recordsAt, recordsAt, undated, Array.getElem?_map]
  cases st.logs[l.own]? <;> rfl

end LogStore

namespace Machine

/-- The machine apart from the run under way and the events that wait. -/
def core (m : Machine κ) : Machine κ := { m with running := false, paused := false, events := [] }

/-- What the core of a machine determines. -/
theorem core_congr {α : Type} {m m' : Machine κ} (h : m'.core = m.core) (f : Machine κ → α)
    (hf : ∀ m, f m.core = f m) : f m' = f m :=
  (hf m').symm.trans ((congrArg f h).trans (hf m))

end Machine

/-- The views differ at most in the run under way, the events that wait and the times of records. -/
structure View.Beside (v v' : View σ κ) : Prop where
  core : v'.machine.core = v.machine.core
  logs : v'.logs.undated = v.logs.undated
  env : v'.env = v.env

namespace World

/-- A world in which events are dispatched, with a run under way or not, beside one in which a run
handles them, with others waiting. -/
structure Beside (running : Bool) (rest : List Event) (w w' : World σ κ) : Prop extends
    View.Beside w.view w'.view where
  running : w.machine.running = running
  paused : w'.machine.paused = false
  events : w'.machine.events = rest

/-- Machines that are beside each other. -/
def beside (running : Bool) (rest : List Event) : Comparison σ σ κ where
  related := Beside running rest
  starves := False

variable {running : Bool} {rest : List Event} {w w' : World σ κ}

theorem Beside.map (h : w.Beside running rest w') {f : Machine κ → Machine κ}
    (hf : ∀ m,
      (f m).core = f m.core ∧ (f m).running = m.running ∧ (f m).paused = m.paused ∧
        (f m).events = m.events) : (w.mapMachine f).Beside running rest (w'.mapMachine f) where
  core := ((hf w'.machine).1.trans (congrArg f h.core)).trans (hf w.machine).1.symm
  logs := h.logs
  env := h.env
  running := (hf w.machine).2.1.trans h.running
  paused := (hf w'.machine).2.2.1.trans h.paused
  events := (hf w'.machine).2.2.2.trans h.events

theorem Beside.notify (h : w.Beside running rest w') (n n' : Notice) :
    (w.notify n).Beside running rest (w'.notify n') :=
  ⟨⟨h.core, h.logs, h.env⟩, h.running, h.paused, h.events⟩

theorem Beside.record (h : w.Beside running rest w') (previous : Option StateId)
    (t : Option TransitionId) (new : StateId) :
    (beside running rest).Agree (Engine.recordHistory previous t new w)
      (Engine.recordHistory previous t new w') := by
  have hhistory : w'.machine.history = w.machine.history :=
    Machine.core_congr h.core (·.history) fun _ => rfl
  have hoptions : w'.machine.options = w.machine.options :=
    Machine.core_congr h.core (·.options) fun _ => rfl
  have hrecord : (Engine.recordOf w' previous t new).undated =
      (Engine.recordOf w previous t new).undated := by
    have hevent : w'.machine.event = w.machine.event :=
      Machine.core_congr h.core (·.event) fun _ => rfl
    have htrigger : w'.machine.trigger = w.machine.trigger :=
      Machine.core_congr h.core (·.trigger) fun _ => rfl
    simp only [Engine.recordOf, HistoryRecord.undated, hevent, htrigger, hoptions]
  refine .ok ?_
  show Beside running rest (if _ then _ else _) (if _ then _ else _)
  rw [hoptions, hhistory]
  split
  · refine ⟨⟨h.core, ?_, h.env⟩, h.running, h.paused, h.events⟩
    show (w'.logs.append _ _).undated = (w.logs.append _ _).undated
    rw [LogStore.undated_append, LogStore.undated_append, hrecord]
    exact congrArg (LogStore.append · w.machine.history _) h.logs
  · exact h

theorem Beside.clear (h : w.Beside running rest w') :
    (beside running rest).Agree (Engine.clearHistory w) (Engine.clearHistory w') := by
  have hhistory : w'.machine.history = w.machine.history :=
    Machine.core_congr h.core (·.history) fun _ => rfl
  refine .ok ⟨⟨h.core, ?_, h.env⟩, h.running, h.paused, h.events⟩
  show (w'.logs.clear _).undated = (w.logs.clear _).undated
  rw [LogStore.undated_clear, LogStore.undated_clear, hhistory]
  exact congrArg (LogStore.clear · w.machine.history) h.logs

theorem Beside.meets (h : w.Beside running rest w') : w.machine.Meets w'.machine where
  graph := Machine.core_congr h.core (·.graph) fun _ => rfl
  definition := Machine.core_congr h.core (·.definition) fun _ => rfl
  active := Machine.core_congr h.core (·.active) fun _ => rfl

theorem fires_beside : (beside (σ := σ) (κ := κ) running rest).Fires .same where
  like h := h.meets.like
  guarded _ _ h := h.notify _ _
  phase h := Machine.core_congr h.core (·.phase) fun _ => rfl
  setPhase _ h := h.map fun _ => ⟨rfl, rfl, rfl, rfl⟩
  setActive hs h := eq_of_optionRel hs ▸ h.map fun _ => ⟨rfl, rfl, rfl, rfl⟩
  setLast hvia h := eq_of_optionRel hvia ▸ h.map fun _ => ⟨rfl, rfl, rfl, rfl⟩
  exited _ h := h.notify _ _
  started _ h := h.notify _ _
  moving _ _ h := h.notify _ _
  seeded | rfl => Engine.Matches.relates fun _ _ h => h.record none none _
  clear := Engine.Matches.relates fun _ _ h => h.clear
  firing h := congrArg Option.isSome (Machine.core_congr h.core (·.firing) fun _ => rfl)
  setFiring ht h := eq_of_optionRel ht ▸ h.map fun _ => ⟨rfl, rfl, rfl, rfl⟩
  effect _ h := h.notify _ _
  fired _ _ _ h := h.notify _ _

theorem queues_beside : (beside (σ := σ) (κ := κ) running rest).Queues .same where
  toSelects := fires_beside.toSelects
  phase h := Machine.core_congr h.core (·.phase) fun _ => rfl
  pending h := likePending_of_eq (Machine.core_congr h.core (·.pending) fun _ => rfl)
  setPending hp h := eq_of_likePending hp ▸ h.map fun _ => ⟨rfl, rfl, rfl, rfl⟩
  queued _ h := h.notify _ _

/-- Work on both sides succeeds or fails, with worlds that are beside each other. -/
theorem beside_cases {α : Type} {o o' : EStateM.Result Stop (World σ κ) α}
    (h : (beside running rest).Agree o o') :
    (∃ a v v', o = .ok a v ∧ o' = .ok a v' ∧ v.Beside running rest v') ∨
    ∃ err v v', o = .error (.fault err) v ∧ o' = .error (.fault err) v' ∧
    v.Beside running rest v' := by
  cases h with
  | ok h => exact .inl ⟨_, _, _, rfl, rfl, h⟩
  | @error e v v' he h =>
    cases e with
    | fault err => exact .inr ⟨err, v, v', rfl, rfl, h⟩
    | exhausted => exact (he rfl).elim
  | cut hc => exact hc.elim

theorem shows_beside : (beside running rest).Shows (View.Beside (σ := σ) (κ := κ)) where
  env h := h.env
  setEnv _ h := ⟨⟨h.core, h.logs, rfl⟩, h.running, h.paused, h.events⟩
  view h := h.toBeside

end World

/-! ## One event -/

namespace Engine

variable {r r' : Responder σ κ} {w w' : World σ κ} {rest : List Event}

/-- What waits in the slot is fired in a run of its own as in one under way. -/
theorem beside_run (hr : ∀ running, r.Matches (World.beside running rest) r')
    (h : w.Beside false rest w') (hend : w.machine.atEnd = false) {p : Pending}
    (hp : w.machine.pending = some p) (n n' : Nat) :
    (∃ v v' o, run r n .single none w = .ok o v ∧
      processTransitions r' n' .single none w' = .ok (1, .singleStep) v' ∧ v.Beside false rest v') ∨
    ∃ err v v', run r n .single none w = .error (.fault err) v ∧
      processTransitions r' n' .single none w' = .error (.fault err) v' ∧
      v.Beside false rest v' := by
  have hmeets := h.meets
  have hpending : w'.machine.pending = some p :=
    (eq_of_likePending (World.queues_beside.pending h)).symm.trans hp
  -- What is fired, with the run under way on both sides.
  have hbegun : ((w.mapMachine ({ · with running := true, paused := false })).mapMachine
      ({ · with pending := none })).Beside true rest (w'.mapMachine ({ · with pending := none })) :=
    ⟨⟨congrArg ({ · with pending := none }) h.core, h.logs, h.env⟩, rfl, h.paused, h.events⟩
  have hfire := matches_fireTransition World.fires_beside (hr true) p
    (fun previous new _ _ h => h.record previous (some p.transition) new) _ _ hbegun
  have hended {v v' : World σ κ} (hv : v.Beside true rest v') :
      (v.mapMachine ({ · with running := false, paused := false })).Beside false rest v' :=
    ⟨⟨hv.core, hv.logs, hv.env⟩, rfl, hv.paused, hv.events⟩
  have hwork := processTransitions_single (r := r)
    (w := w.mapMachine ({ · with running := true, paused := false })) hend hp n
  rw [run, asRun_idle h.running, processTransitions_single (hmeets.atEnd.trans hend) hpending]
  rcases World.beside_cases hfire with ⟨_, v, v', ho, ho', hv⟩ | ⟨err, v, v', ho, ho', hv⟩
  · have hdone := hwork.trans (bind_of_ok ho)
    exact .inl ⟨_, v', _, bind_of_ok (by rw [thenAlways, hdone]; rfl), bind_of_ok ho', hended hv⟩
  · have hdone := hwork.trans (bind_of_error ho)
    exact .inr ⟨err, _, v', bind_of_error (by rw [thenAlways, hdone]), bind_of_error ho', hended hv⟩

/-- What comes of an event, dispatched or handled by a run. Either way it is the event at hand no
more. -/
inductive Heard (rest : List Event) (e : Event) :
    EStateM.Result Stop (World σ κ) DispatchOutcome → EStateM.Result Stop (World σ κ) Nat → Prop
  | fired (t : TransitionId) {v v' : World σ κ} (h : v.Beside false rest v') :
    Heard rest e (.ok (.fired t) v) (.ok 1 v')
  | unhandled {v v' : World σ κ}
    (h : v.Beside false rest (v'.mapMachine ({ · with event := none, trigger := none }))) :
    Heard rest e (.ok .unhandled v) (.error (.fault (.noTransitions e.name)) v')
  | ambiguous (ts : List TransitionId) {v v' : World σ κ}
    (h : v.Beside false rest (v'.mapMachine ({ · with event := none, trigger := none }))) :
    Heard rest e (.ok (.ambiguous ts) v)
      (.error (.fault (.tooManyTransitions e.name (v.machine.transitionPaths ts))) v')
  | failed (err : MachineError) {v v' : World σ κ}
    (h : v.Beside false rest (v'.mapMachine ({ · with event := none, trigger := none }))) :
    Heard rest e (.error (.fault err) v) (.error (.fault err) v')

/-- The world once the event is at hand no more. -/
theorem beside_cleared (h : w.Beside false rest w') :
    (w.mapMachine ({ · with event := none, trigger := none })).Beside false rest
      (w'.mapMachine ({ · with event := none, trigger := none })) :=
  h.map fun _ => ⟨rfl, rfl, rfl, rfl⟩

theorem heard_selected (hr : ∀ running, r.Matches (World.beside running rest) r')
    (h : w.Beside false rest w') (e : Event) (t : TransitionId) (label : String) (n n' : Nat) :
    Heard rest e
      ((fireSelected r n e t label).thenAlways
        (·.mapMachine ({ · with event := none, trigger := none })) w)
      (handleSelected r' n' e t label w') := by
  have hlabel : (w.mapMachine ({ · with trigger := some label })).Beside false rest
      (w'.mapMachine ({ · with trigger := some label })) := h.map fun _ => ⟨rfl, rfl, rfl, rfl⟩
  have hfire : fireSelected r n e t label w = (do
      queueTransition t e.args
      let _ ← run r n .single none
      pure (DispatchOutcome.fired t)) (w.mapMachine ({ · with trigger := some label })) := rfl
  have hhandle : handleSelected r' n' e t label w' = (do
      queueTransition t e.args
      let handled ← processTransitions r' n' .single none
      setCurrent none none
      pure handled.1) (w'.mapMachine ({ · with trigger := some label })) := rfl
  have hqueue := matches_queueTransition World.queues_beside t e.args _ _ hlabel
  have hcases := queueTransition_cases t e.args (w.mapMachine ({ · with trigger := some label }))
  rw [thenAlways, hfire, hhandle]
  rcases World.beside_cases hqueue with ⟨_, v, v', ho, ho', hv⟩ | ⟨err, v, v', ho, ho', hv⟩
  · obtain ⟨hend, p, hp⟩ : v.machine.atEnd = false ∧ ∃ p, v.machine.pending = some p := by
      rcases hcases with ⟨err, herr⟩ | ⟨s, ts, -, -, hend, -, -, hok⟩
      · rw [ho] at herr
        cases herr
      · rw [ho] at hok
        cases hok
        exact ⟨hend, _, rfl⟩
    rcases beside_run hr hv hend hp n n' with ⟨u, u', o, hrun, hprocess, hu⟩
      | ⟨err, u, u', hrun, hprocess, hu⟩
    · rw [bind_of_ok ho, bind_of_ok hrun, bind_of_ok ho', bind_of_ok hprocess]
      exact .fired t (beside_cleared hu)
    · rw [bind_of_ok ho, bind_of_error hrun, bind_of_ok ho', bind_of_error hprocess]
      exact .failed err (beside_cleared hu)
  · rw [bind_of_error ho, bind_of_error ho']
    exact .failed err (beside_cleared hv)

theorem heard_dispatch (hr : ∀ running, r.Matches (World.beside running rest) r')
    (h : w.Beside false rest w') (e : Event) (n n' : Nat) :
    Heard rest e (dispatch r n e w) (handleEvent r' n' e w') := by
  have hbegun : (w.mapMachine ({ · with event := some e })).Beside false rest
      ((w'.notify (.eventDequeued e.name)).mapMachine ({ · with event := some e })) :=
    ⟨⟨congrArg ({ · with event := some e }) h.core, h.logs, h.env⟩, h.running, h.paused, h.events⟩
  have hmatching := matches_transitionsMatching World.fires_beside.toSelects (hr false) e _ _ hbegun
  rw [dispatch_idle h.running, handleEvent_eq, dispatchNow_eq, thenAlways]
  rcases World.beside_cases hmatching with ⟨selected, v, v', ho, ho', hv⟩
    | ⟨err, v, v', ho, ho', hv⟩
  · rw [bind_of_ok ho]
    rcases selected with _ | ⟨⟨t, label⟩, _ | ⟨two, more⟩⟩
    · have hselect : selectOne r' e _ = _ := bind_of_ok ho'
      rw [bind_of_error hselect]
      exact .unhandled (beside_cleared hv)
    · have hselect : selectOne r' e _ = .ok (t, label) v' := bind_of_ok ho'
      rw [bind_of_ok hselect]
      exact heard_selected hr hv e t label n n'
    · have hselect : selectOne r' e _ = _ := bind_of_ok ho'
      have hpaths := hv.meets.transitionPaths
      rw [bind_of_error hselect]
      show Heard rest e _ (.error
        (.fault (.tooManyTransitions e.name (v'.machine.transitionPaths _))) v')
      rw [hpaths]
      exact .ambiguous _ (beside_cleared hv)
  · have hselect : selectOne r' e _ = _ := bind_of_error ho'
    rw [bind_of_error ho, bind_of_error hselect]
    exact .failed err (beside_cleared hv)

/-! ## A queue of events -/

/-- The outcome of work that ends with a change of the world and a change of its answer. -/
theorem attempt_thenAlways {α β : Type} {x : Engine σ κ α} {a : Except MachineError α}
    (h : attempt x w = .ok a w') (f : World σ κ → World σ κ) (g : α → β) :
    attempt (x.thenAlways f >>= fun b => pure (g b)) w = .ok (a.map g) (f w') := by
  rw [attempt] at h
  cases hx : x w with
  | ok b v =>
    rw [hx] at h
    cases h
    have hthen : x.thenAlways f w = .ok b (f w') := by rw [thenAlways, hx]
    exact attempt_of_ok (bind_of_ok hthen)
  | error e v =>
    rw [hx] at h
    cases e with
    | fault err =>
      cases h
      have hthen : x.thenAlways f w = .error (.fault err) (f w') := by rw [thenAlways, hx]
      exact attempt_of_error (bind_of_error hthen)
    | exhausted => cases h

end Engine

namespace Host

/-- Dispatches events one after the other, each at a time of its own, up to the first that fires no
transition: that event and what came of it, if there is one, and the events behind it. -/
def dispatchEach (h : Host σ κ) (n : Nat) : List (Instant × Event) →
    Engine σ κ (Option (Event × Except MachineError DispatchOutcome) × List Event)
  | [] => pure (none, [])
  | (now, e) :: es => do
    modify ({ · with now })
    match ← Engine.attempt (h.perform n (.dispatch e)) with
    | .ok (.fired _) => h.dispatchEach n es
    | o => pure (some (e, o), es.map (·.2))

end Host

/-- What an event run answers, by where dispatching its events stops and what came of the event
there. -/
inductive RunOutcome.Corresponds (fired : Nat) (m : Machine κ) :
    Option (Event × Except MachineError DispatchOutcome) → Except MachineError RunOutcome → Prop
  | completed : Corresponds fired m none (.ok (.completed fired .queueEmpty))
  | unhandled (e : Event) : Corresponds fired m (some (e, .ok .unhandled))
      (.error (.noTransitions e.name))
  | ambiguous (e : Event) (ts : List TransitionId) :
    Corresponds fired m (some (e, .ok (.ambiguous ts)))
    (.error (.tooManyTransitions e.name (m.transitionPaths ts)))
  | failed (e : Event) (err : MachineError) :
      Corresponds fired m (some (e, .error err)) (.error err)

variable {h : Host σ κ} {w w' : World σ κ}

theorem Host.processEvents_as_dispatched {r : Responder σ κ} {n : Nat}
    (hr : ∀ running rest, (h.responder (h.perform n)).Matches (World.beside running rest) r)
    (es : List (Instant × Event)) (hw : w.Beside false (es.map (·.2)) w') (fired k : Nat) :
    ∃ stop rest v answer v', h.dispatchEach (n + 1) es w = .ok (stop, rest) v ∧
      Engine.attempt (Engine.processEvents r (es.length + k + 1) fired) w' = .ok answer v' ∧
      RunOutcome.Corresponds (fired + es.length) v.machine stop
        (answer.map fun o => .completed o.1 o.2) ∧
      (v.mapMachine ({ · with event := none, trigger := none })).Beside false rest
        (v'.mapMachine ({ · with event := none, trigger := none })) := by
  induction es generalizing w w' fired with
  | nil =>
    have hprocess := Engine.processEvents_nil (r := r) hw.paused hw.events (0 + k) fired
    exact ⟨none, [], w, _, w', rfl, Engine.attempt_of_ok hprocess, .completed,
      Engine.beside_cleared hw⟩
  | cons timed es ih =>
    obtain ⟨now, e⟩ := timed
    have hlength : ((now, e) :: es).length + k = es.length + k + 1 := by
      rw [List.length_cons]
      omega
    have hprocess := Engine.processEvents_cons (r := r) hw.paused hw.events
      (es.length + k + 1) fired
    -- The event is at hand on both sides.
    have htaken : World.Beside false (es.map (·.2)) { w with now }
        (w'.mapMachine ({ · with events := es.map (·.2) })) :=
      ⟨⟨hw.core, hw.logs, hw.env⟩, hw.running, hw.paused, rfl⟩
    have hdispatch : h.perform (n + 1) (.dispatch e) { w with now } =
        Engine.dispatch (h.responder (h.perform n)) n e { w with now } := rfl
    have hheard := Engine.heard_dispatch (hr · _) htaken e n (es.length + k + 1 + 1)
    rw [hlength]
    generalize ho : Engine.dispatch _ n e { w with now } = o,
      ho' : Engine.handleEvent r _ e _ = o' at hheard
    cases hheard with
    | @fired t u u' hu =>
      obtain ⟨stop, rest, v, answer, v', heach, hrest, hanswer, hv⟩ := ih hu (fired + 1)
      refine ⟨stop, rest, v, answer, v', ?_, ?_, ?_, hv⟩
      · exact (Engine.bind_of_ok (Engine.attempt_of_ok (hdispatch.trans ho))).trans heach
      · rw [Engine.attempt, hprocess, Engine.bind_of_ok ho']
        exact hrest
      · rw [List.length_cons, Nat.add_comm es.length, ← Nat.add_assoc]
        exact hanswer
    | @unhandled v v' hv =>
      have hstop := Engine.attempt_of_error (hprocess.trans (Engine.bind_of_error ho'))
      have hcleared := Engine.beside_cleared hv
      exact ⟨_, _, v, _, v', Engine.bind_of_ok (Engine.attempt_of_ok (hdispatch.trans ho)),
        hstop, .unhandled e, hcleared⟩
    | @ambiguous ts v v' hv =>
      have hstop := Engine.attempt_of_error (hprocess.trans (Engine.bind_of_error ho'))
      have hcleared := Engine.beside_cleared hv
      exact ⟨_, _, v, _, v', Engine.bind_of_ok (Engine.attempt_of_ok (hdispatch.trans ho)), hstop,
        .ambiguous e ts, hcleared⟩
    | @failed err v v' hv =>
      have hstop := Engine.attempt_of_error (hprocess.trans (Engine.bind_of_error ho'))
      have hcleared := Engine.beside_cleared hv
      exact ⟨_, _, v, _, v',
        Engine.bind_of_ok (Engine.attempt_of_error (hdispatch.trans ho)), hstop,
        .failed e err, hcleared⟩

/-- With bodies that make no requests and have no eye for the run under way, the events that wait
and the times of records: posting events to an idle machine with none and running them leaves it
where dispatching them one by one does, up to the first that fires no transition. The events behind
that one are left in the queue, and the run answers what became of it. -/
theorem Host.runEvents_as_dispatched (hbodies : h.Blind View.Beside fun _ => False)
    (hidle : w.machine.running = false) (hempty : w.machine.events = [])
    (es : List (Instant × Event)) {n k : Nat} (hn : 0 < n) (hk : es.length + 1 < k) :
    ∃ stop rest v answer w', h.dispatchEach n es w = .ok (stop, rest) v ∧
      Engine.attempt (do
        h.perform k (.post (es.map (·.2)))
        h.perform k .runEvents) w = .ok answer w' ∧
      RunOutcome.Corresponds es.length v.machine stop answer ∧ w'.machine.events = rest ∧
      w'.machine.active = v.machine.active ∧ w'.machine.lastTransition = v.machine.lastTransition ∧
      w'.machine.pending = v.machine.pending ∧
      w'.records.map (·.undated) = v.records.map (·.undated) := by
  obtain ⟨n, rfl⟩ := Nat.exists_eq_add_of_lt hn
  obtain ⟨k, rfl⟩ := Nat.exists_eq_add_of_lt hk
  let r := h.responder (h.perform (es.length + 1 + k))
  let begun : World σ κ := w.mapMachine fun m =>
    { m with events := m.events ++ es.map (·.2), running := true, paused := false }
  let clear : World σ κ → World σ κ := (·.mapMachine
    ({ · with running := false, paused := false, event := none, trigger := none }))
  have hr (running : Bool) (rest : List Event) :
      (h.responder (h.perform (0 + n))).Matches (World.beside running rest) r :=
    Host.matches_responder World.shows_beside (fun q hq => hq.elim) hbodies
  have hbegun : w.Beside false (es.map (·.2)) begun := by
    refine ⟨⟨rfl, rfl, rfl⟩, hidle, rfl, ?_⟩
    show w.machine.events ++ es.map (·.2) = es.map (·.2)
    rw [hempty, List.nil_append]
  have hrun : (do
      h.perform (es.length + 1 + k + 1) (.post (es.map (·.2)))
      h.perform (es.length + 1 + k + 1) .runEvents : Engine σ κ RunOutcome) w =
      ((Engine.processEvents r (es.length + 1 + k) 0).thenAlways clear >>= fun o =>
        pure (RunOutcome.completed o.1 o.2)) begun := by
    show Engine.runEvents r (es.length + 1 + k) (w.mapMachine fun m =>
      { m with events := m.events ++ es.map (·.2) }) = _
    exact Engine.runEvents_idle hidle
  obtain ⟨stop, rest, v, answer, v', heach, hprocess, hanswer, hv⟩ :=
    Host.processEvents_as_dispatched hr es hbegun 0 k
  rw [Nat.zero_add] at hanswer
  rw [Nat.add_right_comm] at hprocess
  have hended := Engine.attempt_thenAlways hprocess clear fun o => RunOutcome.completed o.1 o.2
  refine ⟨stop, rest, v, _, clear v', heach, ?_, hanswer, hv.events, ?_, ?_, ?_, ?_⟩
  · rw [Engine.attempt, hrun]
    exact hended
  · exact Machine.core_congr hv.core (·.active) fun _ => rfl
  · exact Machine.core_congr hv.core (·.lastTransition) fun _ => rfl
  · exact Machine.core_congr hv.core (·.pending) fun _ => rfl
  · have hhistory : v'.machine.history = v.machine.history :=
      Machine.core_congr hv.core (·.history) fun _ => rfl
    have hlogs : v'.logs.undated = v.logs.undated := hv.logs
    show (v'.logs.records v'.machine.history).map _ = (v.logs.records v.machine.history).map _
    rw [hhistory, ← LogStore.records_undated, ← LogStore.records_undated, hlogs]

/-! ## A turnstile -/

def turnstileEdits : List (Edit Unit) :=
  [.addState ⟨0⟩ { name := "locked" }, .addState ⟨0⟩ { name := "unlocked" },
    .addTransition ⟨0⟩ { name := "pay", source := ⟨0⟩, target := ⟨1⟩, triggers := [.tag "coin"] },
    .addTransition ⟨0⟩ { name := "pass", source := ⟨1⟩, target := ⟨0⟩, triggers := [.tag "push"] },
    .setStart ⟨0⟩ (some ⟨0⟩)]

/-- A locked turnstile. -/
def turnstile : World Unit Unit :=
  Host.silent.next 3 (.start []) (.fresh ((Graph.new "turnstile").edited turnstileEdits))

/-- The second push finds the turnstile locked. -/
def pushes : List (Instant × Event) :=
  [(default, ⟨"coin", []⟩), (default, ⟨"push", []⟩), (default, ⟨"push", []⟩),
    (default, ⟨"coin", []⟩)]

theorem runEvents_turnstile :
    Host.silent.Blind (View.Beside (σ := Unit)) (fun _ => False) ∧
      turnstile.machine.running = false ∧
      turnstile.machine.events = [] ∧
      ∃ stop rest v answer w', Host.silent.dispatchEach 1 pushes turnstile = .ok (stop, rest) v ∧
        Engine.attempt (do
          Host.silent.perform 6 (.post (pushes.map (·.2)))
          Host.silent.perform 6 .runEvents) turnstile = .ok answer w' ∧
        RunOutcome.Corresponds pushes.length v.machine stop answer ∧ w'.machine.events = rest ∧
        w'.machine.active = v.machine.active ∧ w'.machine.lastTransition =
          v.machine.lastTransition ∧
        w'.machine.pending = v.machine.pending ∧
        w'.records.map (·.undated) = v.records.map (·.undated) := by
  have hbodies : Host.silent.Blind (View.Beside (σ := Unit)) fun _ => False := fun _ _ _ => .ret _
  have hidle : turnstile.machine.running = false := by decide +kernel
  have hempty : turnstile.machine.events = [] := by rfl
  exact ⟨hbodies, hidle, hempty,
    Host.runEvents_as_dispatched hbodies hidle hempty pushes (by decide) (by decide)⟩

end Statechart
