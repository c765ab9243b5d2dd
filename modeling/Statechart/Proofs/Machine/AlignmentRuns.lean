import Statechart.Proofs.Machine.Alignment

/-!
# Runs of machines that are alike

What two worlds have to agree on for runs, events and every other request to be answered alike in
the two, whatever the bodies ask for in turn: for requests that steer a run, for those that post
events, for the events that a run handles, and for those that run the machine. How a transition is
fired is left open at first, so that it may be known to go alike only for the transitions that come
to be queued.
-/

namespace Statechart

open Json

variable {σ τ κ α β : Type}

/-- Requests that may fire what waits in the slot. -/
def Request.Runs : Request κ → Prop
  | .run _ | .runWith .. | .runEvents | .dispatch _ => True
  | _ => False

/-- The request may put a transition into the slot with these arguments. -/
def Request.Puts (args : List Value) : Request κ → Prop
  | .queue _ given | .transitionNamed _ given | .transitionById _ given | .transitionTo _ given
  | .transitionToNext given | .tryTransitionToNext given | .transitionIfValid given => given = args
  | .restore s => ∃ p ∈ s.transitionQueue, p.args = args
  | _ => False

/-- Requests that ask the run under way to stop or to go on. -/
def Request.Steers : Request κ → Prop
  | .pause | .resume => True
  | _ => False

/-- Requests that put the machine elsewhere, or replace what it works on. -/
def Request.Replaces : Request κ → Prop
  | .start _ | .goto .. | .isolate | .setOptions _ | .clearHistory | .edit _ | .restore _ => True
  | _ => False

/-- The request replaces neither the graph nor, by a snapshot, the place of the machine. -/
def Request.Stays : Request κ → Prop
  | .edit _ | .isolate | .restore _ => False
  | _ => True

theorem Request.replaces_of_not_stays {q : Request κ} (h : ¬ q.Stays) : q.Replaces := by
  cases q with
  | edit | isolate | restore => exact trivial
  | _ => exact absurd trivial h

namespace Comparison

/-- For requests that steer a run under way, by a pause or a resume, with the same fuel. -/
structure Steers (c : Comparison σ τ κ) (k : Correspondence κ) : Prop extends Selects c k where
  starves : c.starves
  running : ∀ {w w'}, c.related w w' → w'.machine.running = w.machine.running
  paused : ∀ {w w'}, c.related w w' → w'.machine.paused = w.machine.paused
  setPaused : ∀ {w w'} b, c.related w w' →
    c.related (w.mapMachine ({ · with paused := b })) (w'.mapMachine ({ · with paused := b }))
  stopped : ∀ {w w'}, c.related w w' → c.related (w.notify .paused) (w'.notify .paused)
  resumed : ∀ {w w'}, c.related w w' → c.related (w.notify .resumed) (w'.notify .resumed)

/-- For events that are posted and taken from the queue. The same events wait. -/
structure Posts (c : Comparison σ τ κ) (k : Correspondence κ) : Prop extends Steers c k where
  events : ∀ {w w'}, c.related w w' → w'.machine.events = w.machine.events
  setEvents : ∀ {w w'} es, c.related w w' →
    c.related (w.mapMachine ({ · with events := es })) (w'.mapMachine ({ · with events := es }))
  dequeued : ∀ {w w'} e, c.related w w' →
    c.related (w.notify (.eventDequeued e)) (w'.notify (.eventDequeued e))

/-- For events that a run handles. Each is noted, and the label of the trigger that accepts it. -/
structure Handles (c : Comparison σ τ κ) (k : Correspondence κ) : Prop extends Posts c k where
  setEvent : ∀ {w w'} e, c.related w w' →
    c.related (w.mapMachine ({ · with event := e })) (w'.mapMachine ({ · with event := e }))
  setTrigger : ∀ {w w'} label, c.related w w' →
    c.related (w.mapMachine ({ · with trigger := label }))
      (w'.mapMachine ({ · with trigger := label }))

/-- For requests that run the machine, on the queue of events or on what waits in the slot. -/
structure Runs (c : Comparison σ τ κ) (k : Correspondence κ) : Prop extends Handles c k where
  setRunning : ∀ {w w'} b, c.related w w' →
    c.related (w.mapMachine ({ · with running := b })) (w'.mapMachine ({ · with running := b }))

variable {c : Comparison σ τ κ} {k : Correspondence κ}

theorem Handles.setCurrent (hc : c.Handles k) {w : World σ κ} {w' : World τ κ}
    (event : Option Event) (trigger : Option String) (hw : c.related w w') :
    c.related (w.mapMachine ({ · with event, trigger }))
      (w'.mapMachine ({ · with event, trigger })) :=
  hc.setTrigger trigger (hc.setEvent event hw)

theorem Runs.setFlags (hc : c.Runs k) {w : World σ κ} {w' : World τ κ} (running paused : Bool)
    (hw : c.related w w') :
    c.related (w.mapMachine ({ · with running, paused }))
      (w'.mapMachine ({ · with running, paused })) :=
  hc.setPaused paused (hc.setRunning running hw)

/-- Both slots are emptied, and what was in them stands for each other and is of the given kind. -/
def Takes (c : Comparison σ τ κ) (k : Correspondence κ) (good : Pending → Prop) : Prop :=
  ∀ {α : Type} {f : Option Pending → Engine σ κ α} {g : Option Pending → Engine τ κ α},
    Engine.Relates c Eq (f none) (g none) →
    (∀ p p', good p → p.Like k p' → Engine.Relates c Eq (f (some p)) (g (some p'))) →
    Engine.Relates c Eq (Engine.takePending >>= f) (Engine.takePending >>= g)

theorem Queues.takes (hc : c.Queues k) : c.Takes k fun _ => True := by
  intro α f g hnone hsome
  have hemptied : Engine.Relates c Eq
      (Engine.update ({ · with pending := none }) : Engine σ κ Unit)
      (Engine.update ({ · with pending := none }) : Engine τ κ Unit) :=
    .update fun _ _ => hc.setPending .none
  simp only [Engine.takePending, bind_assoc, pure_bind]
  refine .machine_bind (M := fun m m' => Option.Rel (Pending.Like k) m.pending m'.pending)
    hc.pending fun m m' hpending => hemptied.seq ?_
  generalize m.pending = o, m'.pending = o' at hpending ⊢
  cases hpending with
  | none => exact hnone
  | some hp => exact hsome _ _ trivial hp

/-- For all requests that have a like. -/
structure Serves (c : Comparison σ τ κ) (k : Correspondence κ) : Prop extends
    Fires c k, Queues c k, Runs c k where
  recorded : ∀ {previous previous' t t' new new'}, Option.Rel k.state previous previous' →
    k.transition t t' → k.state new new' → Engine.Relates c Eq
      (Engine.recordHistory previous (some t) new) (Engine.recordHistory previous' (some t') new')
  setOptions : ∀ {w w'} o, c.related w w' →
    c.related (w.mapMachine ({ · with options := o })) (w'.mapMachine ({ · with options := o }))

end Comparison

namespace Engine

variable {c : Comparison σ τ κ} {k : Correspondence κ} {r : Responder σ κ} {r' : Responder τ κ}

theorem relates_selectAndQueue (hc : c.Selects k) (hr : r.Relates c k r') {e : Event}
    (hqueue : ∀ t t', k.transition t t' →
      Relates c Eq (queueTransition t e.args) (queueTransition t' e.args : Engine τ κ Unit))
    (hlabel : ∀ label w w', c.related w w' →
      c.related (w.mapMachine ({ · with trigger := some label }))
        (w'.mapMachine ({ · with trigger := some label })))
    {wrap : TransitionId → DispatchOutcome}
    (hwrap : ∀ t t', k.transition t t' → (wrap t).Like k (wrap t')) :
    Relates c (DispatchOutcome.Like k) (selectAndQueue r e wrap) (selectAndQueue r' e wrap) := by
  refine .bind (relates_transitionsMatching hc hr e) fun selected selected' hs => ?_
  cases hs with
  | nil => exact .pure .unhandled
  | @cons a a' _ _ ha hs =>
    obtain ⟨t, label⟩ := a
    obtain ⟨t', label'⟩ := a'
    obtain ⟨ht, hlabels⟩ := ha
    obtain rfl : label' = label := hlabels
    cases hs with
    | nil =>
      have hnoted : Relates c Eq (update ({ · with trigger := some label' }))
          (update ({ · with trigger := some label' })) := .update (hlabel label')
      exact hnoted.seq ((hqueue t t' ht).seq (.pure (hwrap t t' ht)))
    | cons hb hs =>
      exact .pure (.ambiguous (.cons ht (.cons hb.1 (List.rel_map (fun _ _ h => h.1) hs))))

/-! ## Steering a run -/

/-- Requests that ask for the like are answered alike if they are where they steer a run, post
events, run the machine, put it elsewhere or replace what it works on. -/
theorem relates_carryOut_of_selects (hc : c.Selects k) (hr : r.Relates c k r')
    {hook : κ → Engine σ κ Unit} {hook' : κ → Engine τ κ Unit} (n : Nat) {q q' : Request κ}
    {R : q.Answer → q'.Answer → Prop} (hq : q.Like k q' R)
    (hqueue : ∀ args, q.Puts args → ∀ t t', k.transition t t' →
      Relates c Eq (queueTransition t args) (queueTransition t' args : Engine τ κ Unit))
    (hsteers : q.Steers → Relates c R (carryOut r hook n q) (carryOut r' hook' n q'))
    (hpost : ∀ es, q = .post es → Relates c Eq (post es) (post es : Engine τ κ Unit))
    (hruns : q.Runs → Relates c R (carryOut r hook n q) (carryOut r' hook' n q'))
    (hreplaces : q.Replaces → Relates c R (carryOut r hook n q) (carryOut r' hook' n q')) :
    Relates c R (carryOut r hook n q) (carryOut r' hook' n q') := by
  cases hq with
  | queue ht args => exact hqueue args rfl _ _ ht
  | run mode => exact hruns trivial
  | runWith mode body => exact hruns trivial
  | runEvents => exact hruns trivial
  | dispatch e => exact hruns trivial
  | pause => exact hsteers trivial
  | resume => exact hsteers trivial
  | post es => exact hpost es rfl
  | matching e => exact relates_transitionsMatching hc hr e
  | valid args => exact relates_validTransitions hc hr args
  | hasValid args => exact relates_hasValidTransition hc hr args
  | transitionsTo hs args => exact relates_transitionsTo hc hr hs args
  | canTransitionTo hs args => exact relates_canTransitionTo hc hr hs args
  | transitionNamed name args => exact relates_transitionNamed hc hr (hqueue args rfl) name
  | transitionById ht args => exact relates_transitionById hc hr (hqueue args rfl) ht
  | transitionTo hs args => exact relates_transitionTo hc hr (hqueue args rfl) hs
  | transitionToNext args => exact relates_transitionToNext hc hr (hqueue args rfl)
  | tryTransitionToNext args => exact relates_tryTransitionToNext hc hr (hqueue args rfl)
  | transitionIfValid args => exact relates_transitionIfValid hc hr (hqueue args rfl)
  | consult name hs args =>
    refine .read hc fun m m' hm => ?_
    exact .bind (.ofGraph (hm.state hs)) fun _ _ hst => hr.call _ _ hst.1
  | start args => exact hreplaces trivial
  | goto hs args => exact hreplaces trivial
  | setOptions o => exact hreplaces trivial
  | clearHistory => exact hreplaces trivial

section
variable (hc : c.Steers k)
include hc

theorem relates_reenter : Relates c Eq (reenter : Engine σ κ _) (reenter : Engine τ κ _) := by
  have hset : Relates c Eq (update ({ · with paused := false }) : Engine σ κ Unit)
      (update ({ · with paused := false }) : Engine τ κ Unit) :=
    .update fun _ _ => hc.setPaused false
  have htold : Relates c Eq (notify .resumed : Engine σ κ Unit)
      (notify .resumed : Engine τ κ Unit) :=
    .notify fun _ _ => hc.resumed
  refine .machine_bind (M := fun m m' => m'.paused = m.paused) hc.paused fun m m' hpaused => ?_
  rw [hpaused]
  exact .ite (hset.seq (htold.seq (.pure rfl))) (.pure rfl)

/-- What asks a run to stop or to go on. -/
theorem relates_setPaused (paused : Bool) {n : Notice}
    (hn : ∀ w w', c.related w w' → c.related (w.notify n) (w'.notify n)) (o : Operation) :
    Relates c Eq (do
      if (← machine).running then
        update ({ · with paused })
        notify n
      else fail (.unexpectedRecursion o) : Engine σ κ Unit) (do
      if (← machine).running then
        update ({ · with paused })
        notify n
      else fail (.unexpectedRecursion o) : Engine τ κ Unit) := by
  have hset : Relates c Eq (update ({ · with paused }) : Engine σ κ Unit)
      (update ({ · with paused }) : Engine τ κ Unit) :=
    .update fun _ _ => hc.setPaused paused
  refine .machine_bind (M := fun m m' => m'.running = m.running) hc.running fun m m' hrunning => ?_
  rw [hrunning]
  exact .ite (hset.seq (.notify hn)) .fail

/-- Requests that ask for the like are answered alike if they are where they post events, run the
machine, put it elsewhere or replace what it works on. -/
theorem relates_carryOut_of_steers (hr : r.Relates c k r') {hook : κ → Engine σ κ Unit}
    {hook' : κ → Engine τ κ Unit} (n : Nat) {q q' : Request κ} {R : q.Answer → q'.Answer → Prop}
    (hq : q.Like k q' R)
    (hqueue : ∀ args, q.Puts args → ∀ t t', k.transition t t' →
      Relates c Eq (queueTransition t args) (queueTransition t' args : Engine τ κ Unit))
    (hpost : ∀ es, q = .post es → Relates c Eq (post es) (post es : Engine τ κ Unit))
    (hruns : q.Runs → Relates c R (carryOut r hook n q) (carryOut r' hook' n q'))
    (hreplaces : q.Replaces → Relates c R (carryOut r hook n q) (carryOut r' hook' n q')) :
    Relates c R (carryOut r hook n q) (carryOut r' hook' n q') := by
  refine relates_carryOut_of_selects hc.toSelects hr n hq hqueue (fun hsteers => ?_) hpost hruns
    hreplaces
  cases hq with
  | pause => exact relates_setPaused hc true (fun _ _ => hc.stopped) .pause
  | resume => exact relates_setPaused hc false (fun _ _ => hc.resumed) .resume
  | _ => exact hsteers.elim

end

/-! ## The queue of events -/

section
variable (hc : c.Posts k)
include hc

theorem relates_takeEvent : Relates c Eq (takeEvent : Engine σ κ _) (takeEvent : Engine τ κ _) := by
  refine .machine_bind (M := fun m m' => m'.events = m.events) hc.events fun m m' hevents => ?_
  rw [hevents]
  cases m.events with
  | nil => exact .pure rfl
  | cons e rest =>
    have htaken : Relates c Eq (update ({ · with events := rest }) : Engine σ κ Unit)
        (update ({ · with events := rest }) : Engine τ κ Unit) :=
      .update fun _ _ => hc.setEvents rest
    exact htaken.seq (.pure rfl)

theorem relates_post (es : List Event) :
    Relates c Eq (post es : Engine σ κ _) (post es : Engine τ κ _) := by
  refine .update fun w w' hw => ?_
  have hset := hc.setEvents (w.machine.events ++ es) hw
  rw [World.mapMachine, World.mapMachine, hc.events hw]
  exact hset

end

variable {good : Pending → Prop} (htake : c.Takes k good)
  (hfire : ∀ p p', good p → p.Like k p' → Relates c Eq (fireTransition r p) (fireTransition r' p'))
include htake hfire

/-! ## Firing over and over -/

omit htake hfire in
theorem relates_unhooked : Relates c Eq ((none : Option (Engine σ κ Unit)).forM id)
    ((none : Option (Engine τ κ Unit)).forM id) := .pure rfl

section
variable {hook : Option (Engine σ κ Unit)} {hook' : Option (Engine τ κ Unit)}
  (hhook : Relates c Eq (hook.forM id) (hook'.forM id)) (hc : c.Steers k)
include hhook hc

theorem relates_fireQueued (mode : RunMode) (fuel fired : Nat) :
    Relates c Eq (fireQueued r mode hook fuel fired) (fireQueued r' mode hook' fuel fired) := by
  induction fuel generalizing fired with
  | zero => exact .exhausted hc.starves
  | succ fuel ih =>
    let M (m m' : Machine κ) : Prop := m.Like k m' ∧ m'.paused = m.paused
    have hM {w : World σ κ} {w' : World τ κ} (hw : c.related w w') : M w.machine w'.machine :=
      ⟨hc.like hw, hc.paused hw⟩
    refine .machine_bind hM fun m m' hshared => ?_
    obtain ⟨hm, hpaused⟩ := hshared
    rw [hpaused, hm.atEnd]
    refine .ite (.pure rfl) (.ite (.pure rfl) (hhook.seq ?_))
    refine htake (.pure rfl) fun p p' hgood hp => ?_
    exact (hfire p p' hgood hp).seq (.ite (.pure rfl) (ih (fired + 1)))

theorem relates_processTransitions (fuel : Nat) (mode : RunMode) :
    Relates c Eq (processTransitions r fuel mode hook)
      (processTransitions r' fuel mode hook') := by
  have hqueued := relates_fireQueued htake hfire hhook hc mode fuel
  refine .read hc.toSelects fun m m' hm => ?_
  rw [hm.atEnd]
  refine .ite (.pure rfl) (htake (hqueued 0) fun p p' hgood hp => ?_)
  exact (hfire p p' hgood hp).seq (.ite (.pure rfl) (hqueued 1))

end

/-! ## Events -/

section
variable (hc : c.Handles k) (hr : r.Relates c k r')
  (hqueue : ∀ args t t', k.transition t t' →
    Relates c Eq (queueTransition t args) (queueTransition t' args : Engine τ κ Unit))
include hc hr hqueue

theorem relates_handleEvent (fuel : Nat) (e : Event) :
    Relates c Eq (handleEvent r fuel e) (handleEvent r' fuel e) := by
  have htold : Relates c Eq (notify (.eventDequeued e.name) : Engine σ κ Unit)
      (notify (.eventDequeued e.name) : Engine τ κ Unit) :=
    .notify fun _ _ => hc.dequeued e.name
  have hnoted : Relates c Eq (update ({ · with event := some e }) : Engine σ κ Unit)
      (update ({ · with event := some e }) : Engine τ κ Unit) :=
    .update fun _ _ => hc.setEvent (some e)
  have hselect := relates_selectOne hc.toSelects hr e
  refine htold.seq (hnoted.seq (hselect.bind fun a a' ha => ?_))
  obtain ⟨ht, hlabel⟩ := ha
  obtain ⟨t, trigger⟩ := a
  obtain ⟨t', trigger'⟩ := a'
  obtain rfl : trigger' = trigger := hlabel
  have hlabelled : Relates c Eq (update ({ · with trigger := some trigger' }) : Engine σ κ Unit)
      (update ({ · with trigger := some trigger' }) : Engine τ κ Unit) :=
    .update fun _ _ => hc.setTrigger (some trigger')
  have hqueued := hqueue e.args t t' ht
  have hprocess :=
    relates_processTransitions htake hfire relates_unhooked hc.toSteers fuel .single
  have hcleared : Relates c Eq (setCurrent none none : Engine σ κ Unit)
      (setCurrent none none : Engine τ κ Unit) :=
    .update fun _ _ => hc.setCurrent none none
  refine hlabelled.seq (hqueued.seq (hprocess.bind ?_))
  rintro result _ rfl
  exact hcleared.seq (.pure rfl)

theorem relates_processEvents (fuel fired : Nat) :
    Relates c Eq (processEvents r fuel fired) (processEvents r' fuel fired) := by
  induction fuel generalizing fired with
  | zero => exact .exhausted hc.starves
  | succ fuel ih =>
    have hhandle := relates_handleEvent htake hfire hc hr hqueue (fuel + 1)
    refine .machine_bind (M := fun m m' => m'.paused = m.paused) hc.paused fun m m' hpaused => ?_
    rw [hpaused]
    refine .ite (.pure rfl) (.bind (relates_takeEvent hc.toPosts) ?_)
    rintro o _ rfl
    cases o with
    | none => exact .pure rfl
    | some e =>
      refine .bind (hhandle e) ?_
      rintro n _ rfl
      exact ih (fired + n)

end

/-! ## Runs -/

variable (hc : c.Runs k)
include hc

omit htake hfire in
/-- Work as a run of its own, unless a run is under way. -/
theorem relates_asRun {work : Engine σ κ (Nat × StopReason)}
    {work' : Engine τ κ (Nat × StopReason)} (hwork : Relates c Eq work work') :
    Relates c Eq (do
      if (← machine).running then reenter
      else
        update fun m => { m with running := true, paused := false }
        let (fired, stop) ← work
        pure (.completed fired stop) : Engine σ κ RunOutcome) (do
      if (← machine).running then reenter
      else
        update fun m => { m with running := true, paused := false }
        let (fired, stop) ← work'
        pure (.completed fired stop) : Engine τ κ RunOutcome) := by
  have hbegun : Relates c Eq
      (update ({ · with running := true, paused := false }) : Engine σ κ Unit)
      (update ({ · with running := true, paused := false }) : Engine τ κ Unit) :=
    .update fun _ _ => hc.setFlags true false
  refine .machine_bind (M := fun m m' => m'.running = m.running) hc.running fun m m' hrunning => ?_
  rw [hrunning]
  refine .ite (relates_reenter hc.toSteers) (hbegun.seq (hwork.bind ?_))
  rintro result _ rfl
  exact .pure rfl

theorem relates_run {hook : Option (Engine σ κ Unit)} {hook' : Option (Engine τ κ Unit)}
    (hhook : Relates c Eq (hook.forM id) (hook'.forM id)) (fuel : Nat) (mode : RunMode) :
    Relates c Eq (run r fuel mode hook) (run r' fuel mode hook') := by
  have hprocess := relates_processTransitions htake hfire hhook hc.toSteers fuel mode
  exact relates_asRun hc (hprocess.thenAlways fun w w' hw => hc.setFlags false false hw)

variable (hr : r.Relates c k r')
  (hqueue : ∀ args t t', k.transition t t' →
    Relates c Eq (queueTransition t args) (queueTransition t' args : Engine τ κ Unit))
include hr hqueue

theorem relates_runEvents (fuel : Nat) : Relates c Eq (runEvents r fuel) (runEvents r' fuel) := by
  have hprocess := relates_processEvents htake hfire hc.toHandles hr hqueue fuel 0
  refine relates_asRun hc (hprocess.thenAlways fun w w' hw => ?_)
  exact hc.setCurrent none none (hc.setFlags false false hw)

theorem relates_dispatch (fuel : Nat) (e : Event) :
    Relates c (DispatchOutcome.Like k) (dispatch r fuel e) (dispatch r' fuel e) := by
  have hselect {wrap : TransitionId → DispatchOutcome}
      (hwrap : ∀ t t', k.transition t t' → (wrap t).Like k (wrap t')) :=
    relates_selectAndQueue hc.toSelects hr (hqueue e.args)
      (fun label _ _ => hc.setTrigger (some label)) hwrap
  have hrun := relates_run htake hfire hc relates_unhooked fuel .single
  have hnow : Relates c (DispatchOutcome.Like k) (dispatchNow r fuel e)
      (dispatchNow r' fuel e) := by
    refine .bind (hselect fun _ _ ht => .fired ht) fun outcome outcome' ho => ?_
    cases ho with
    | fired ht => exact hrun.seq (.pure (.fired ht))
    | queued ht => exact .pure (.queued ht)
    | ambiguous hts => exact .pure (.ambiguous hts)
    | unhandled => exact .pure .unhandled
  have hnoted : Relates c Eq (update ({ · with event := some e }) : Engine σ κ Unit)
      (update ({ · with event := some e }) : Engine τ κ Unit) :=
    .update fun _ _ => hc.setEvent (some e)
  refine .machine_bind (M := fun m m' => m'.running = m.running) hc.running fun m m' hrunning => ?_
  rw [hrunning]
  refine .ite (hselect fun _ _ ht => .queued ht) (hnoted.seq ?_)
  exact hnow.thenAlways fun w w' hw => hc.setCurrent none none hw

/-! ## Requests -/

variable {hook : κ → Engine σ κ Unit} {hook' : κ → Engine τ κ Unit}
  (hhook : ∀ key, Relates c Eq (hook key) (hook' key))
include hhook

/-- Requests that ask for the like are answered alike if they are where they put the machine
elsewhere or replace what it works on. -/
theorem relates_carryOut_of_runs (n : Nat) {q q' : Request κ} {R : q.Answer → q'.Answer → Prop}
    (hq : q.Like k q' R)
    (hreplaces : q.Replaces → Relates c R (carryOut r hook n q) (carryOut r' hook' n q')) :
    Relates c R (carryOut r hook n q) (carryOut r' hook' n q') := by
  refine relates_carryOut_of_steers hc.toSteers hr n hq (fun args _ => hqueue args)
    (fun es _ => relates_post hc.toPosts es) (fun hruns => ?_) hreplaces
  cases hq with
  | run mode => exact relates_run htake hfire hc relates_unhooked n mode
  | runWith mode body =>
    have hbody : Relates c Eq ((some (hook body)).forM id) ((some (hook' body)).forM id) :=
      hhook body
    exact relates_run htake hfire hc hbody n mode
  | runEvents => exact relates_runEvents htake hfire hc hr hqueue n
  | dispatch e => exact relates_dispatch htake hfire hc hr hqueue n e
  | _ => exact hruns.elim

omit htake hfire hqueue hc in
theorem relates_carryOut_of_serves (hc : c.Serves k) (n : Nat) {q q' : Request κ}
    {R : q.Answer → q'.Answer → Prop} (hq : q.Like k q' R) :
    Relates c R (carryOut r hook n q) (carryOut r' hook' n q') := by
  have hfire (p p' : Pending) (_ : True) (hp : p.Like k p') :=
    relates_fireTransition hc.toFires hr hp
      fun hprevious hnew => hc.recorded hprevious hp.transition hnew
  have hqueue (args : List Value) (t t' : TransitionId) (ht : k.transition t t') :=
    relates_queueTransition hc.toQueues ht args
  refine relates_carryOut_of_runs hc.toQueues.takes hfire hc.toRuns hr hqueue hhook n hq
    fun hreplaces => ?_
  cases hq with
  | start args => exact relates_start hc.toEnters hr args
  | goto hs args => exact relates_goto hc.toEnters hr hs args
  | setOptions o => exact .update fun _ _ hw => hc.setOptions o hw
  | clearHistory => exact hc.clear
  | _ => exact hreplaces.elim

end Engine

/-! ## Bodies -/

section
variable {c : Comparison σ σ κ} {k : Correspondence κ} {h : Host σ κ}
  (hshows : c.Shows fun v v' => v'.env = v.env)
include hshows

theorem Program.Like.relates_runWith {perform perform' : (q : Request κ) → Engine σ κ q.Answer}
    (hperform : ∀ {q q'} {R : q.Answer → q'.Answer → Prop}, q.Like k q' R →
      Engine.Relates c R (perform q) (perform' q')) {p p' : Program σ κ α} (hp : p.Like k p') :
    Engine.Relates c Eq (p.runWith perform) (p'.runWith perform') := by
  induction hp with
  | ret a => exact .pure rfl
  | look _ ih => exact .get_bind fun w w' hw => ih _ _ (hshows.view hw)
  | write env _ ih => exact .bind (.modify fun _ _ hw => hshows.setEnv env hw) fun _ _ _ => ih
  | call hq _ ih => exact .bind (.attempt (hperform hq)) fun o o' ho => ih o o' ho

namespace Host

/-- Bodies that depend only on names, arguments and the environment answer alike for elements of the
same name. -/
theorem relates_runBody (hbodies : h.Nominal)
    {perform perform' : (q : Request κ) → Engine σ κ q.Answer}
    (hperform : ∀ {q q'} {R : q.Answer → q'.Answer → Prop}, q.Like k q' R →
      Engine.Relates c R (perform q) (perform' q'))
    (key : κ) {e e' : Option (Element κ)} (he : Option.Rel (fun x x' => x'.name = x.name) e e')
    (args : List Value) :
    Engine.Relates c Eq (h.runBody perform key e args) (h.runBody perform' key e' args) := by
  refine .bind ((hbodies k key args he).relates_runWith hshows hperform) ?_
  rintro answer _ rfl
  exact .ofExcept (.refl (fun _ => rfl) answer)

theorem relates_responder (hbodies : h.Nominal)
    (hnames : ∀ {x x'}, k.element x x' → x'.name = x.name)
    {perform perform' : (q : Request κ) → Engine σ κ q.Answer}
    (hperform : ∀ {q q'} {R : q.Answer → q'.Answer → Prop}, q.Like k q' R →
      Engine.Relates c R (perform q) (perform' q')) :
    (h.responder perform).Relates c k (h.responder perform') where
  respondsTo {w w'} hw name := by
    show (h.handlers w'.env).respondsTo name = (h.handlers w.env).respondsTo name
    rw [hshows.env hw]
  call name e e' args he := by
    refine .get_bind fun w w' hw => ?_
    rw [hshows.env hw]
    cases (h.handlers w.env).get? name with
    | none => exact .pure rfl
    | some key => exact relates_runBody hshows hbodies hperform key (.some (hnames he)) args
  callback key _ _ args he := relates_runBody hshows hbodies hperform key (.some (hnames he)) args

/-- Requests that ask for the like are answered alike, whatever such bodies ask for in turn. -/
theorem relates_perform (hc : c.Serves k) (hbodies : h.Nominal)
    (hnames : ∀ {x x'}, k.element x x' → x'.name = x.name) (n : Nat) {q q' : Request κ}
    {R : q.Answer → q'.Answer → Prop} (hq : q.Like k q' R) :
    Engine.Relates c R (h.perform n q) (h.perform n q') := by
  induction n generalizing q q' with
  | zero => exact .exhausted hc.starves
  | succ n ih =>
    have hhook (key : κ) : Engine.Relates c Eq (h.hook n key) (h.hook n key) :=
      .bind (relates_runBody hshows hbodies ih key .none []) fun _ _ _ => .pure rfl
    exact Engine.relates_carryOut_of_serves (relates_responder hshows hbodies hnames ih)
      hhook hc n hq

end Host

end

end Statechart
