import Statechart.Proofs.Machine.Correspondence

/-!
# Requests of machines that are alike

Which parts of two worlds have to correspond, and which changes have to keep them related, for
requests that ask for the like to be answered alike in the two worlds. What runs behaviors may
differ on the two sides as long as it does the like. Each group of requests asks only for what it
reads and changes: those that select among the transitions that leave the active state, those that
queue one, a start and a goto, and the firing of what is queued.
-/

namespace Statechart

open Json

variable {σ τ κ α β : Type}

namespace Comparison

/-! ## What has to correspond -/

/-- For requests that select: what an event matches, what may be taken, what leads to a state.
Guards are asked about candidates that stand for each other. -/
structure Selects (c : Comparison σ τ κ) (k : Correspondence κ) : Prop where
  like : ∀ {w w'}, c.related w w' → w.machine.Like k w'.machine
  guarded : ∀ {w w' t t'} passed, k.transition t t' → c.related w w' →
    c.related (w.notify (.guardEvaluated t passed)) (w'.notify (.guardEvaluated t' passed))

/-- For requests that queue a transition. The slots hold the like. -/
structure Queues (c : Comparison σ τ κ) (k : Correspondence κ) : Prop extends Selects c k where
  phase : ∀ {w w'}, c.related w w' → w'.machine.phase = w.machine.phase
  pending : ∀ {w w'}, c.related w w' →
    Option.Rel (Pending.Like k) w.machine.pending w'.machine.pending
  setPending : ∀ {w w' p p'}, Option.Rel (Pending.Like k) p p' → c.related w w' →
    c.related (w.mapMachine ({ · with pending := p })) (w'.mapMachine ({ · with pending := p' }))
  queued : ∀ {w w' t t'}, k.transition t t' → c.related w w' →
    c.related (w.notify (.transitionQueued t)) (w'.notify (.transitionQueued t'))

/-- For a start and a goto. Moves go through the same phases, and histories begin anew together. -/
structure Enters (c : Comparison σ τ κ) (k : Correspondence κ) : Prop extends Selects c k where
  phase : ∀ {w w'}, c.related w w' → w'.machine.phase = w.machine.phase
  setPhase : ∀ {w w'} p, c.related w w' →
    c.related (w.mapMachine ({ · with phase := p })) (w'.mapMachine ({ · with phase := p }))
  setActive : ∀ {w w' s s'}, Option.Rel k.state s s' → c.related w w' →
    c.related (w.mapMachine ({ · with active := s })) (w'.mapMachine ({ · with active := s' }))
  setLast : ∀ {w w' via via'}, Option.Rel k.transition via via' → c.related w w' →
    c.related (w.mapMachine ({ · with lastTransition := via, firing := none }))
      (w'.mapMachine ({ · with lastTransition := via', firing := none }))
  exited : ∀ {w w' s s'}, k.state s s' → c.related w w' →
    c.related (w.notify (.stateExited s)) (w'.notify (.stateExited s'))
  started : ∀ {w w' s s'}, k.state s s' → c.related w w' →
    c.related (w.notify (.started s)) (w'.notify (.started s'))
  moving : ∀ {w w' n n'}, n.Moving → n.Like k n' → c.related w w' →
    c.related (w.notify n) (w'.notify n')
  seeded : ∀ {new new'}, k.state new new' →
    Engine.Relates c Eq (Engine.recordHistory none none new) (Engine.recordHistory none none new')
  clear : Engine.Relates c Eq Engine.clearHistory Engine.clearHistory

/-- For the firing of a transition, but for its record. -/
structure Fires (c : Comparison σ τ κ) (k : Correspondence κ) : Prop extends Enters c k where
  firing : ∀ {w w'}, c.related w w' → w'.machine.firing.isSome = w.machine.firing.isSome
  setFiring : ∀ {w w' t t'}, Option.Rel k.transition t t' → c.related w w' →
    c.related (w.mapMachine ({ · with firing := t })) (w'.mapMachine ({ · with firing := t' }))
  effect : ∀ {w w' t t'}, k.transition t t' → c.related w w' →
    c.related (w.notify (.effectInvoked t)) (w'.notify (.effectInvoked t'))
  fired : ∀ {w w' t t' source source' target target'}, k.transition t t' →
    Option.Rel k.state source source' → k.state target target' → c.related w w' →
    c.related (w.notify (.transitionFired t source target))
      (w'.notify (.transitionFired t' source' target'))

end Comparison

namespace Engine

variable {c : Comparison σ τ κ} {k : Correspondence κ} {r : Responder σ κ} {r' : Responder τ κ}

/-! ## Asking guards -/

section
variable (hc : c.Selects k)
include hc

theorem Relates.read {R : α → β → Prop} {f : Machine κ → Engine σ κ α}
    {g : Machine κ → Engine τ κ β} (h : ∀ m m', m.Like k m' → Relates c R (f m) (g m')) :
    Relates c R (machine >>= f) (machine >>= g) :=
  .machine_bind hc.like h

theorem relates_candidates :
    Relates c (List.Forall₂ k.transition) (candidates : Engine σ κ _)
      (candidates : Engine τ κ _) := by
  refine .read hc fun m m' hm => ?_
  have hactive := hm.active
  generalize m.active = o, m'.active = o' at hactive ⊢
  cases hactive with
  | none => exact .fail
  | some hs => exact .ofGraph (hm.candidatesFrom hs)

variable (hr : r.Relates c k r')
include hr

theorem relates_invoke (a : Action) {x x' : Subject} (hx : x.Like k x') (args : List Value) :
    Relates c Eq (invoke r a x args) (invoke r' a x' args) := by
  refine .read hc fun m m' hm => ?_
  refine .bind (.ofGraph (hm.behaviorOf a hx)) fun b b' hb => ?_
  obtain ⟨he, hsame⟩ := hb
  obtain ⟨element, behavior⟩ := b
  obtain ⟨element', behavior'⟩ := b'
  obtain rfl : behavior' = behavior := hsame
  cases behavior' with
  | absent => exact .pure rfl
  | named name =>
    refine .get_bind fun w w' hw => ?_
    rw [hr.respondsTo hw]
    exact .ite (hr.call _ _ he) (.pure rfl)
  | callback body => exact hr.callback _ _ he
  | test accepts => exact .pure rfl

theorem relates_guard {t t' : TransitionId} (ht : k.transition t t') (args : List Value) :
    Relates c Eq (guard r t args) (guard r' t' args) := by
  refine .bind (relates_invoke hc hr .guard (.transition ht) args) ?_
  rintro answer _ rfl
  have htold : Relates c Eq (notify (.guardEvaluated t (answer.getD true)) : Engine σ κ Unit)
      (notify (.guardEvaluated t' (answer.getD true)) : Engine τ κ Unit) :=
    .notify fun _ _ => hc.guarded _ ht
  exact htold.seq (.pure rfl)

theorem relates_passing (args : List Value) {ts ts' : List TransitionId}
    (hts : List.Forall₂ k.transition ts ts') :
    Relates c (List.Forall₂ k.transition) (passing r args ts) (passing r' args ts') :=
  .filterM hts fun _ _ ht => relates_guard hc hr ht args

theorem relates_transitionsMatching (e : Event) :
    Relates c (List.Forall₂ k.Accepted) (transitionsMatching r e) (transitionsMatching r' e) := by
  refine .read hc fun m m' hm => ?_
  refine .bind (relates_candidates hc) fun ts ts' hts => ?_
  refine .filterMapM hts fun t t' ht => ?_
  refine .bind (.ofGraph (hm.transition ht)) fun tr tr' htr => ?_
  have htrigger : tr'.matchingTrigger e = tr.matchingTrigger e := by
    rw [Transition.matchingTrigger, Transition.matchingTrigger, htr.triggers]
  rw [htrigger]
  cases tr.matchingTrigger e with
  | none => exact .pure .none
  | some trigger =>
    refine .bind (relates_guard hc hr ht e.args) ?_
    rintro passed _ rfl
    exact .ite (.pure (.some ⟨ht, rfl⟩)) (.pure .none)

theorem relates_validTransitions (args : List Value) :
    Relates c (List.Forall₂ k.transition) (validTransitions r args) (validTransitions r' args) :=
  .bind (relates_candidates hc) fun _ _ hts => relates_passing hc hr args hts

theorem relates_hasValidTransition (args : List Value) :
    Relates c Eq (hasValidTransition r args) (hasValidTransition r' args) := by
  refine .bind (relates_validTransitions hc hr args) fun ts ts' hts => .pure ?_
  cases hts with
  | nil => rfl
  | cons _ _ => rfl

theorem relates_transitionsTo {s s' : StateId} (hs : k.state s s') (args : List Value) :
    Relates c (List.Forall₂ k.transition) (transitionsTo r s args) (transitionsTo r' s' args) := by
  refine .read hc fun m m' hm => ?_
  refine .bind (relates_candidates hc) fun ts ts' hts => ?_
  refine .filterM hts fun t t' ht => ?_
  refine .bind (.ofGraph (hm.transition ht)) fun tr tr' htr => ?_
  simp only [eq_iff_of_rel k.states_unique htr.target hs]
  exact .ite (relates_guard hc hr ht args) (.pure rfl)

theorem relates_canTransitionTo {s s' : StateId} (hs : k.state s s') (args : List Value) :
    Relates c Eq (canTransitionTo r s args) (canTransitionTo r' s' args) :=
  .bind (relates_transitionsTo hc hr hs args) fun _ _ hts => .pure (by rw [hts.length_eq])

theorem relates_selectOne (e : Event) :
    Relates c k.Accepted (selectOne r e) (selectOne r' e) := by
  refine .bind (relates_transitionsMatching hc hr e) fun selected selected' hs => ?_
  cases hs with
  | nil => exact .fail
  | cons ha hs =>
    cases hs with
    | nil => exact .pure ha
    | cons hb hs =>
      refine .read hc fun m m' hm => ?_
      have hpaths := List.Forall₂.cons ha.1 (.cons hb.1 (List.rel_map (fun _ _ h => h.1) hs))
      simp only [List.map_cons, hm.transitionPaths hpaths]
      exact .fail

/-! ## Queueing -/

variable {args : List Value}
  (hqueue : ∀ t t', k.transition t t' →
    Relates c Eq (queueTransition t args) (queueTransition t' args))
include hqueue

omit hr in
theorem relates_queueOnly {missing : Machine κ → MachineError}
    {missing' : Machine κ → MachineError} (hmissing : ∀ m m', m.Like k m' → missing' m' = missing m)
    {ts ts' : List TransitionId} (hts : List.Forall₂ k.transition ts ts') :
    Relates c k.transition (queueOnly missing ts args)
      (queueOnly missing' ts' args : Engine τ κ TransitionId) := by
  cases hts with
  | nil =>
    refine .read hc fun m m' hm => ?_
    rw [hmissing m m' hm]
    exact .fail
  | cons ht hts =>
    cases hts with
    | nil => exact (hqueue _ _ ht).seq (.pure ht)
    | cons hu hts =>
      refine .read hc fun m m' hm => ?_
      rw [hm.transitionPaths (.cons ht (.cons hu hts))]
      exact .fail

theorem relates_transitionNamed (name : String) :
    Relates c k.transition (transitionNamed r name args) (transitionNamed r' name args) := by
  refine .read hc fun m m' hm => ?_
  refine .bind (relates_candidates hc) fun ts ts' hts => ?_
  have hnamed : List.Forall₂ k.transition
      (ts.filter fun t => (m.graph.transition? t).any (·.name == name))
      (ts'.filter fun t => (m'.graph.transition? t).any (·.name == name)) :=
    List.rel_filter (fun t t' ht => by simp only [hm.isNamed ht]) hts
  dsimp only
  generalize ts.filter (fun t => (m.graph.transition? t).any (·.name == name)) = named,
    ts'.filter (fun t => (m'.graph.transition? t).any (·.name == name)) = named' at hnamed ⊢
  have hrejected (n n' : Machine κ) (_ : n.Like k n') :
      MachineError.cannotTransition name .guardRejected = .cannotTransition name .guardRejected :=
    rfl
  have hrest := Relates.bind (relates_passing hc hr args hnamed) fun _ _ hts =>
    relates_queueOnly hc hqueue hrejected hts
  cases hnamed with
  | nil =>
    refine .read hc fun n n' hn => ?_
    rw [hn.unknownFrom]
    exact (Relates.fail (R := Eq)).seq hrest
  | cons ht hts => exact hrest

theorem relates_transitionById {t t' : TransitionId} (ht : k.transition t t') :
    Relates c k.transition (transitionById r t args) (transitionById r' t' args) := by
  refine .read hc fun m m' hm => ?_
  refine .bind (.ofGraph (hm.transition ht)) fun tr tr' htr => ?_
  refine .bind (relates_candidates hc) fun ts ts' hts => ?_
  have hrest : Relates c k.transition (do
      if ← guard r t args then
        queueTransition t args
        pure t
      else
        fail (.cannotTransition ((← machine).graph.pathOfTransition t) .guardRejected)) (do
      if ← guard r' t' args then
        queueTransition t' args
        pure t'
      else
        fail (.cannotTransition ((← machine).graph.pathOfTransition t') .guardRejected)) := by
    refine .bind (relates_guard hc hr ht args) ?_
    rintro passed _ rfl
    refine .ite ((hqueue _ _ ht).seq (.pure ht)) ?_
    refine .read hc fun n n' hn => ?_
    rw [hn.pathOfTransition ht]
    exact .fail
  rw [contains_of_rel k.transitions_unique hts ht, hm.isActive htr.source, hm.pathOfTransition ht]
  exact .check hrest

theorem relates_transitionTo {s s' : StateId} (hs : k.state s s') :
    Relates c k.transition (transitionTo r s args) (transitionTo r' s' args) := by
  refine .bind (relates_transitionsTo hc hr hs args) fun ts ts' hts => ?_
  refine relates_queueOnly hc hqueue (fun m m' hm => ?_) hts
  rw [hm.pathOfState hs, hm.unknownFrom]

theorem relates_transitionToNext :
    Relates c k.transition (transitionToNext r args) (transitionToNext r' args) := by
  refine .bind (relates_validTransitions hc hr args) fun ts ts' hts => ?_
  exact relates_queueOnly hc hqueue (fun _ _ hm => hm.unknownFrom "next state") hts

theorem relates_tryTransitionToNext :
    Relates c (Option.Rel k.transition) (tryTransitionToNext r args)
      (tryTransitionToNext r' args) := by
  refine .bind (.attempt (relates_transitionToNext hc hr hqueue)) fun o o' ho => ?_
  cases ho with
  | ok ht => exact .pure (.some ht)
  | error e => cases e <;> first | exact .pure .none | exact .fail

theorem relates_transitionIfValid :
    Relates c (Option.Rel k.transition) (transitionIfValid r args) (transitionIfValid r' args) := by
  refine .bind (relates_validTransitions hc hr args) fun ts ts' hts => ?_
  cases hts with
  | nil => exact .pure .none
  | cons ht hts =>
    cases hts with
    | nil => exact (hqueue _ _ ht).seq (.pure (.some ht))
    | cons _ _ => exact .pure .none

end

theorem relates_queueTransition (hc : c.Queues k) {t t' : TransitionId} (ht : k.transition t t')
    (args : List Value) : Relates c Eq (queueTransition t args) (queueTransition t' args) := by
  let M (m m' : Machine κ) : Prop :=
    m.Like k m' ∧ m'.phase = m.phase ∧ Option.Rel (Pending.Like k) m.pending m'.pending
  have hM {w : World σ κ} {w' : World τ κ} (hw : c.related w w') : M w.machine w'.machine :=
    ⟨hc.like hw, hc.phase hw, hc.pending hw⟩
  refine .machine_bind hM fun m m' hshared => ?_
  obtain ⟨hm, hphase, hpending⟩ := hshared
  have hfilled : Relates c Eq (update fun m => { m with pending := some ⟨t, args⟩ })
      (update fun m => { m with pending := some ⟨t', args⟩ }) :=
    .update fun _ _ => hc.setPending (.some ⟨ht, rfl⟩)
  have htold : Relates c Eq (notify (.transitionQueued t)) (notify (.transitionQueued t')) :=
    .notify fun _ _ => hc.queued ht
  have hrest : Relates c Eq (do
      if m.active.isNone then fail .notStarted
      let _ ← ofGraph (m.graph.transition t)
      if m.atEnd then fail (.cannotTransition (m.graph.pathOfTransition t) .atEnd)
      if (← candidates).contains t then
        update fun m => { m with pending := some ⟨t, args⟩ }
        notify (.transitionQueued t)
      else fail (.cannotTransition (m.graph.pathOfTransition t) .notLeaving) : Engine σ κ Unit) (do
      if m'.active.isNone then fail .notStarted
      let _ ← ofGraph (m'.graph.transition t')
      if m'.atEnd then fail (.cannotTransition (m'.graph.pathOfTransition t') .atEnd)
      if (← candidates).contains t' then
        update fun m => { m with pending := some ⟨t', args⟩ }
        notify (.transitionQueued t')
      else fail (.cannotTransition (m'.graph.pathOfTransition t') .notLeaving) :
        Engine τ κ Unit) := by
    rw [isNone_of_rel hm.active, hm.atEnd, hm.pathOfTransition ht]
    refine .check ?_
    refine .seq (.ofGraph (hm.transition ht)) (.check ?_)
    refine .bind (relates_candidates hc.toSelects) fun ts ts' hts => ?_
    rw [contains_of_rel k.transitions_unique hts ht]
    exact .ite (hfilled.seq htold) .fail
  rw [hphase]
  refine .check ?_
  generalize m.pending = o, m'.pending = o' at hpending ⊢
  cases hpending with
  | some hp =>
    dsimp only
    rw [hm.pathOfTransition hp.transition]
    exact (Relates.fail (R := Eq)).seq hrest
  | none => exact hrest

/-! ## Moving -/

section
variable (hc : c.Enters k)
include hc

theorem relates_beginPhase (o : Operation) :
    Relates c Eq (beginPhase o) (beginPhase o : Engine τ κ Unit) := by
  refine .machine_bind (M := fun m m' => m'.phase = m.phase) hc.phase fun m m' hphase => ?_
  rw [hphase]
  refine .ite .fail (.update fun w w' hw => ?_)
  have hset := hc.setPhase (setPhaseFlag w.machine.phase o true) hw
  rw [World.mapMachine, World.mapMachine, hc.phase hw]
  exact hset

theorem relates_endPhase (o : Operation) :
    Relates c Eq (endPhase o) (endPhase o : Engine τ κ Unit) := by
  refine .update fun w w' hw => ?_
  have hset := hc.setPhase (setPhaseFlag w.machine.phase o false) hw
  rw [World.mapMachine, World.mapMachine, hc.phase hw]
  exact hset

variable (hr : r.Relates c k r')
include hr

/-- A notice that a behavior is about to run, and the behavior. -/
theorem relates_announced (n n' : Notice)
    (htold : ∀ w w', c.related w w' → c.related (w.notify n) (w'.notify n')) (a : Action)
    {x x' : Subject} (hx : x.Like k x') (args : List Value) :
    Relates c Eq (do notify n; let _ ← invoke r a x args)
      (do notify n'; let _ ← invoke r' a x' args) := by
  have hnotify : Relates c Eq (notify n : Engine σ κ Unit) (notify n' : Engine τ κ Unit) :=
    .notify htold
  have hinvoke := relates_invoke hc.toSelects hr a hx args
  exact hnotify.seq (hinvoke.seq (.pure rfl))

theorem relates_leave (args : List Value) {ss ss' : List StateId}
    (hss : List.Forall₂ k.state ss ss') : Relates c Eq (leave r args ss) (leave r' args ss') := by
  have hbegin := relates_beginPhase hc .exit
  have hstate (s s' : StateId) (hs : k.state s s') := relates_announced hc hr (.stateExited s)
    (.stateExited s') (fun _ _ => hc.exited hs) .exit (.state hs) args
  have hend := relates_endPhase hc .exit
  exact hbegin.seq (.seq (.forM hss hstate) hend)

theorem relates_enterAll (args : List Value) {ss ss' : List StateId}
    (hss : List.Forall₂ k.state ss ss') :
    Relates c Eq (enterAll r args ss) (enterAll r' args ss') := by
  have hbegin := relates_beginPhase hc .entry
  have hstate (s s' : StateId) (hs : k.state s s') := relates_announced hc hr (.stateEntered s)
    (.stateEntered s') (fun _ _ => hc.moving trivial (.stateEntered hs)) .entry (.state hs) args
  have hend := relates_endPhase hc .entry
  exact hbegin.seq (.seq (.forM hss hstate) hend)

theorem relates_settle (args : List Value) {via via' : Option TransitionId}
    (hvia : Option.Rel k.transition via via') {s s' : StateId} (hs : k.state s s') :
    Relates c Eq (settle r args via s) (settle r' args via' s') := by
  have hlast : Relates c Eq
      (update fun m => { m with lastTransition := via, firing := none } : Engine σ κ Unit)
      (update fun m => { m with lastTransition := via', firing := none } : Engine τ κ Unit) :=
    .update fun _ _ => hc.setLast hvia
  have hbegin := relates_beginPhase hc .doActivity
  have htold : Relates c Eq (notify (.activityInvoked s) : Engine σ κ Unit)
      (notify (.activityInvoked s') : Engine τ κ Unit) :=
    .notify fun _ _ => hc.moving trivial (.activityInvoked hs)
  have hactivity := relates_invoke hc.toSelects hr .doActivity (.state hs) args
  have hend := relates_endPhase hc .doActivity
  exact hlast.seq (hbegin.seq (htold.seq (hactivity.seq hend)))

theorem relates_cascade {old old' : Option StateId} (hold : Option.Rel k.state old old')
    {target target' : StateId} (htarget : k.state target target') {via via' : Option TransitionId}
    (hvia : Option.Rel k.transition via via') (args : List Value) :
    Relates c k.state (cascade r old target via args) (cascade r' old' target' via' args) := by
  rw [cascade_eq, cascade_eq]
  refine .read hc.toSelects fun m m' hm => ?_
  refine .bind (.ofGraph (hm.isExternal hvia)) ?_
  rintro external _ rfl
  have hstate := hm.resolveEntryTarget htarget
  have hleave := relates_leave hc hr args (hm.leaving external hold hstate)
  have hmoved : Relates c Eq
      (update fun n => { n with active := some (m.graph.resolveEntryTarget target) })
      (update fun n => { n with active := some (m'.graph.resolveEntryTarget target') }) :=
    .update fun _ _ => hc.setActive (.some hstate)
  have henter := relates_enterAll hc hr args (hm.entering external hold hstate)
  have hsettle := relates_settle hc hr args hvia hstate
  exact hleave.seq (hmoved.seq (henter.seq (hsettle.seq (.pure hstate))))

theorem relates_enter {target target' : StateId} (htarget : k.state target target')
    {via via' : Option TransitionId} (hvia : Option.Rel k.transition via via') (args : List Value) :
    Relates c k.state (enter r target via args) (enter r' target' via' args) := by
  let M (m m' : Machine κ) : Prop := Option.Rel k.state m.active m'.active ∧ m'.phase = m.phase
  have hM {w : World σ κ} {w' : World τ κ} (hw : c.related w w') : M w.machine w'.machine :=
    ⟨(hc.like hw).active, hc.phase hw⟩
  refine .machine_bind hM fun m m' hshared => ?_
  obtain ⟨hactive, hphase⟩ := hshared
  rw [hphase]
  have hcascade := relates_cascade hc hr hactive htarget hvia args
  refine (hcascade.thenAlways fun w w' hw => ?_).onFailure fun w w' hw => ?_
  · exact hc.setPhase _ hw
  · exact hc.moving trivial (.rolledBack hactive) (hc.setActive hactive hw)

theorem relates_seed {s s' : StateId} (hs : k.state s s') (args : List Value) :
    Relates c k.state (seed r s args) (seed r' s' args) := by
  refine .bind (relates_enter hc hr hs .none args) fun new new' hnew => ?_
  have hseeded := hc.seeded hnew
  exact hc.clear.seq (hseeded.seq (.pure hnew))

theorem relates_start (args : List Value) : Relates c k.state (start r args) (start r' args) := by
  refine .read hc.toSelects fun m m' hm => ?_
  refine .bind (.ofGraph hm.start) fun d d' hstart => ?_
  generalize d.start = o, d'.start = o' at hstart ⊢
  cases hstart with
  | none =>
    rw [hm.definitionLabel]
    exact .fail
  | some hs =>
    have hemptied : Relates c Eq (update fun m => { m with active := none } : Engine σ κ Unit)
        (update fun m => { m with active := none } : Engine τ κ Unit) :=
      .update fun _ _ => hc.setActive .none
    refine hemptied.seq (.bind (relates_seed hc hr hs args) fun new new' hnew => ?_)
    have htold : Relates c Eq (notify (.started new)) (notify (.started new')) :=
      .notify fun _ _ => hc.started hnew
    exact htold.seq (.pure hnew)

theorem relates_goto {s s' : StateId} (hs : k.state s s') (args : List Value) :
    Relates c k.state (goto r s args) (goto r' s' args) := by
  refine .read hc.toSelects fun m m' hm => ?_
  refine .bind (.ofGraph (hm.state hs)) fun st st' hst => ?_
  rw [hst.2, hm.pathOfState hs, hm.definitionLabel]
  exact .ite (relates_seed hc hr hs args) .fail

end

/-! ## Firing -/

section
variable (hc : c.Fires k) (hr : r.Relates c k r')
include hc hr

theorem relates_fire {t t' : TransitionId} (ht : k.transition t t') {target target' : StateId}
    (htarget : k.state target target') {previous previous' : Option StateId}
    (hprevious : Option.Rel k.state previous previous') (args : List Value)
    (hrecord : ∀ {new new'}, k.state new new' →
      Relates c Eq (recordHistory previous (some t) new) (recordHistory previous' (some t') new')) :
    Relates c Eq (fire r t target previous args) (fire r' t' target' previous' args) := by
  have hbegin := relates_beginPhase hc.toEnters .effect
  have htold : Relates c Eq (notify (.effectInvoked t) : Engine σ κ Unit)
      (notify (.effectInvoked t') : Engine τ κ Unit) :=
    .notify fun _ _ => hc.effect ht
  have heffect := relates_invoke hc.toSelects hr .effect (.transition ht) args
  have hend := relates_endPhase hc.toEnters .effect
  have henter := relates_enter hc.toEnters hr htarget (.some ht) args
  refine hbegin.seq (htold.seq (heffect.seq (hend.seq (henter.bind fun new new' hnew => ?_))))
  have hfired : Relates c Eq (notify (.transitionFired t previous new) : Engine σ κ Unit)
      (notify (.transitionFired t' previous' new') : Engine τ κ Unit) :=
    .notify fun _ _ => hc.fired ht hprevious hnew
  exact (hrecord hnew).seq hfired

theorem relates_fireTransition {p p' : Pending} (hp : p.Like k p')
    (hrecord : ∀ {previous previous' new new'}, Option.Rel k.state previous previous' →
      k.state new new' → Relates c Eq (recordHistory previous (some p.transition) new)
        (recordHistory previous' (some p'.transition) new')) :
    Relates c Eq (fireTransition r p) (fireTransition r' p') := by
  let M (m m' : Machine κ) : Prop := m.Like k m' ∧ m'.firing.isSome = m.firing.isSome
  have hM {w : World σ κ} {w' : World τ κ} (hw : c.related w w') : M w.machine w'.machine :=
    ⟨hc.like hw, hc.firing hw⟩
  refine .machine_bind hM fun m m' hshared => ?_
  obtain ⟨hm, hfiring⟩ := hshared
  rw [hfiring]
  refine .check (.bind (.ofGraph (hm.transition hp.transition)) fun tr tr' htr => ?_)
  have hbegun : Relates c Eq (update fun m => { m with firing := some p.transition })
      (update fun m => { m with firing := some p'.transition }) :=
    .update fun _ _ => hc.setFiring (.some hp.transition)
  have hfire := relates_fire hc hr hp.transition htr.target hm.active p.args
    fun hnew => hrecord hm.active hnew
  rw [hp.args]
  refine hbegun.seq (hfire.thenAlways fun w w' hw => ?_)
  have hset := hc.setPhase { w.machine.phase with effect := false } (hc.setFiring .none hw)
  rw [World.mapMachine, World.mapMachine, hc.phase hw]
  exact hset

end

end Engine
end Statechart
