import Statechart.Proofs.Machine.Underway

/-!
# The events of a run

An event of a run fires one transition, which it selects with nothing in the slot, or comes to
nothing. What bodies post in the meantime is behind it in the queue, and what they queue during the
firing waits in the slot by its end.
-/

namespace Statechart

open Json

variable {σ κ : Type}

namespace Notice

/-- The name of the event that has been taken up. -/
def dequeued? : Notice → Option String
  | .eventDequeued name => some name
  | _ => none

/-- The transition that has fired. -/
def fired? : Notice → Option TransitionId
  | .transitionFired t _ _ => some t
  | _ => none

variable {told : List Notice}

theorem dequeued?_of_quiet (h : ∀ n ∈ told, ¬ n.Milestone) : told.filterMap dequeued? = [] := by
  refine List.filterMap_eq_nil_iff.mpr fun n hn => ?_
  cases n <;> first | rfl | exact absurd trivial (h _ hn)

theorem fired?_of_quiet (h : ∀ n ∈ told, ¬ n.Milestone) : told.filterMap fired? = [] := by
  refine List.filterMap_eq_nil_iff.mpr fun n hn => ?_
  cases n <;> first | rfl | exact absurd trivial (h _ hn)

end Notice

namespace Machine

/-- Why no transition is queued while another waits in the slot. -/
def refusal (m : Machine κ) (p : Pending) : MachineError :=
  if m.phase.entry || m.phase.exit || m.phase.effect then .unexpectedRecursion .queueTransition
  else .transitionPending (m.graph.pathOfTransition p.transition)

end Machine

namespace World

/-- The world as an event is taken up. -/
def taking (w : World σ κ) (e : Event) : World σ κ :=
  (w.notify (.eventDequeued e.name)).mapMachine ({ · with event := some e })

/-- The world as a run begins. -/
def begun (w : World σ κ) : World σ κ := w.mapMachine ({ · with running := true, paused := false })

/-- The world once an event run has ended. -/
def ended (w : World σ κ) : World σ κ :=
  w.mapMachine ({ · with running := false, paused := false, event := none, trigger := none })

/-- A firing of the transition that begins in the first world has got to the second. -/
def Firing (t : TransitionId) (w w' : World (Diary σ κ) κ) : Prop :=
  ∃ v : World (Diary σ κ) κ, v.tally = (w.notify (.effectInvoked t)).tally ∧ v.Ensues w'

variable {u v w w' : World (Diary σ κ) κ} {t : TransitionId} {n : Notice}

theorem tally_notify (h : v.tally = w.tally) (n : Notice) :
    (v.notify n).tally = (w.notify n).tally := by
  simp only [tally, Prod.mk.injEq] at h ⊢
  exact ⟨h.1, h.2.1, h.2.2.1, h.2.2.2.1, congrArg (· ++ [n]) h.2.2.2.2⟩

theorem tally_running (h : v.tally = w.tally) : v.machine.running = w.machine.running :=
  congrArg (·.2.2.2.1) h

theorem Firing.congr (h : w.Firing t u) (hv : v.tally = u.tally) : w.Firing t v := by
  obtain ⟨b, hb, hensues⟩ := h
  exact ⟨b, hb, hensues.congr hv⟩

/-- A firing is told of, and then no other until it has ended. -/
theorem Firing.notices (h : v.Firing t w) :
    ∃ told, (∀ n ∈ told, ¬ n.Milestone) ∧ w.notices = v.notices ++ .effectInvoked t :: told := by
  obtain ⟨f, hf, hensues⟩ := h
  obtain ⟨told, htold⟩ := hensues.goes.told
  have hbegins : f.notices = v.notices ++ [.effectInvoked t] := congrArg (·.2.2.2.2) hf
  have hlater : w.notices = f.notices ++ told := htold.notices
  refine ⟨told, htold.quiet, ?_⟩
  rw [hlater, hbegins, List.append_assoc]
  rfl

theorem Firing.of_tally (h : v.Firing t u) (hv : v.tally = w.tally) : w.Firing t u := by
  obtain ⟨b, hb, hensues⟩ := h
  exact ⟨b, hb.trans (tally_notify hv _), hensues⟩

/-! ## What waits -/

/-- Since the notices the events of these names have been taken up and no firing has begun, and the
transition waits in the slot. -/
structure Waits (p : Pending) (names : List String) (since : List Notice)
    (w : World σ κ) : Prop where
  slot : w.machine.pending = some p
  told : ∃ told, w.notices = since ++ told ∧ told.filterMap Notice.dequeued? = names ∧ ∀ t,
    .effectInvoked t ∉ told

/-- The transition waits since it was queued. -/
def WaitsQueued (p : Pending) (w : World σ κ) : Prop :=
  ∃ earlier, w.Waits p [] (earlier ++ [.transitionQueued p.transition])

/-- What a call has left in the slot still waits there. -/
def Left (w : World (Diary σ κ) κ) : Prop :=
  ∀ c ∈ w.env.calls, ∀ p, c.after.machine.pending = some p → w.plain.Waits p [] c.after.notices

section
variable {u v w : World σ κ} {p : Pending} {names names' : List String} {since : List Notice}

theorem Waits.trans (h : v.Waits p names since) (h' : w.Waits p names' v.notices) :
    w.Waits p (names ++ names') since := by
  obtain ⟨told, hnotices, hdequeued, hbegun⟩ := h.told
  obtain ⟨told', hnotices', hdequeued', hbegun'⟩ := h'.told
  refine ⟨h'.slot, told ++ told', ?_, ?_,
    fun t ht => (List.mem_append.mp ht).elim (hbegun t) (hbegun' t)⟩
  · rw [hnotices', hnotices, List.append_assoc]
  · rw [List.filterMap_append, hdequeued, hdequeued']

theorem Waits.congr (h : v.Waits p names since) (hslot : w.machine.pending = v.machine.pending)
    (hnotices : w.notices = v.notices) : w.Waits p names since :=
  ⟨hslot.trans h.slot, by rw [hnotices]; exact h.told⟩

theorem waits_notify (h : w.machine.pending = some p) {n : Notice} (hn : ∀ t,
    n ≠ .effectInvoked t) :
    (w.notify n).Waits p n.dequeued?.toList w.notices := by
  refine ⟨h, [n], rfl, ?_, fun t ht => hn t (List.mem_singleton.mp ht).symm⟩
  rw [List.filterMap_cons, List.filterMap_nil]
  cases n.dequeued? <;> rfl

theorem waits_of_quiet (h : w.machine.pending = some p) {told : List Notice}
    (htold : w.notices = since ++ told) (hquiet : ∀ n ∈ told, ¬ n.Milestone) : w.Waits p [] since :=
  ⟨h, told, htold, Notice.dequeued?_of_quiet hquiet, fun _ ht => hquiet _ ht trivial⟩

theorem Goes.waits (h : v.Goes w) (hp : v.machine.pending = some p) : w.Waits p [] v.notices := by
  obtain ⟨told, htold⟩ := h.told
  exact waits_of_quiet (h.slot p hp) htold.notices htold.quiet

theorem Goes.empty (h : v.Goes w)
    (hempty : w.machine.pending = none) : v.machine.pending = none := by
  cases hp : v.machine.pending with
  | none => rfl
  | some p => cases hempty.symm.trans (h.slot p hp)

/-- What has come into the slot has been queued. -/
theorem Goes.waitsQueued (h : v.Goes w) (hempty : v.machine.pending = none)
    (hp : w.machine.pending = some p) : w.WaitsQueued p := by
  obtain ⟨told, htold⟩ := h.told
  have hqueued := (htold.queued p hp).resolve_left fun hp => by cases hempty.symm.trans hp
  obtain ⟨earlier, later, rfl⟩ := List.append_of_mem hqueued
  have hnotices : w.notices = v.notices ++ earlier ++
      [.transitionQueued p.transition] ++ later := by
    rw [htold.notices, List.append_assoc, List.append_assoc]
    rfl
  exact ⟨v.notices ++ earlier, waits_of_quiet hp hnotices fun n hn =>
    htold.quiet n (List.mem_append_right _ (List.mem_cons_of_mem _ hn))⟩

end

section
variable {u v w : World (Diary σ κ) κ} {p : Pending}

theorem Left.ensues (hleft : v.Left) (h : v.Ensues w) : w.Left := by
  obtain ⟨made, hcalls, -, hmade⟩ := h.calls
  intro c hc p hp
  rw [hcalls] at hc
  rcases List.mem_append.mp hc with hc | hc
  · have hwaits := hleft c hc p hp
    exact hwaits.trans (h.goes.waits hwaits.slot)
  · exact (hmade c hc).2.waits hp

/-- With nothing in the slot no call has left anything there. -/
theorem Left.nothing (hleft : v.Left) (hempty : v.machine.pending = none) :
    ∀ c ∈ v.env.calls, c.after.machine.pending = none := by
  intro c hc
  cases hp : c.after.machine.pending with
  | none => rfl
  | some p => cases hempty.symm.trans (hleft c hc p hp).slot

theorem Left.congr (hleft : v.Left) (hw : w.tally = v.tally) : w.Left := by
  simp only [tally, Prod.mk.injEq] at hw
  obtain ⟨hcalls, -, hslot, -, hnotices⟩ := hw
  exact fun c hc p hp => (hleft c (hcalls ▸ hc) p hp).congr hslot hnotices

theorem Left.notify (hleft : v.Left) {n : Notice} (hn : n.dequeued? = none)
    (hbegun : ∀ t, n ≠ .effectInvoked t) : (v.notify n).Left := by
  intro c hc p hp
  have hwaits := hleft c hc p hp
  have hnotified := hwaits.trans (waits_notify hwaits.slot hbegun)
  rwa [hn] at hnotified

theorem left_of_none (h : ∀ c ∈ w.env.calls, c.after.machine.pending = none) : w.Left :=
  fun c hc p hp => by
  cases (h c hc).symm.trans hp

end

/-! ## What has been taken up and has fired -/

/-- From the first world to the second, with a run under way, the events have been taken up and the
transitions have fired, in order, and the queue has gained what was posted. -/
structure Advances (taken : List Event) (fired : List TransitionId)
    (w w' : World (Diary σ κ) κ) : Prop where
  running : w'.machine.running = true
  told : ∃ told, w'.notices = w.notices ++ told ∧ told.filterMap Notice.dequeued? =
    taken.map Event.name ∧ told.filterMap Notice.fired? = fired
  account : ∃ made, w'.env.calls = w.env.calls ++ made ∧
    w.machine.events ++ posted made = taken ++ w'.machine.events

section
variable {u v w : World (Diary σ κ) κ} {taken taken' : List Event}
  {fired fired' : List TransitionId}

theorem Advances.trans (h : u.Advances taken fired v) (h' : v.Advances taken' fired' w) :
    u.Advances (taken ++ taken') (fired ++ fired') w := by
  obtain ⟨told, hnotices, hdequeued, hfired⟩ := h.told
  obtain ⟨told', hnotices', hdequeued', hfired'⟩ := h'.told
  obtain ⟨made, hcalls, hevents⟩ := h.account
  obtain ⟨made', hcalls', hevents'⟩ := h'.account
  refine ⟨h'.running, ⟨told ++ told', ?_, ?_, ?_⟩, made ++ made', ?_, ?_⟩
  · rw [hnotices', hnotices, List.append_assoc]
  · rw [List.filterMap_append, hdequeued, hdequeued', List.map_append]
  · rw [List.filterMap_append, hfired, hfired']
  · rw [hcalls', hcalls, List.append_assoc]
  · rw [posted_append, ← List.append_assoc, hevents, List.append_assoc, hevents', List.append_assoc]

theorem advances_refl (h : w.machine.running = true) : w.Advances [] [] w :=
  ⟨h, ⟨[], (List.append_nil _).symm, rfl, rfl⟩, [], (List.append_nil _).symm, List.append_nil _⟩

theorem advances_of_ensues (h : v.Ensues w) : v.Advances [] [] w := by
  obtain ⟨told, htold⟩ := h.goes.told
  obtain ⟨made, hcalls, hevents, -⟩ := h.calls
  exact ⟨h.running, ⟨told, htold.notices, Notice.dequeued?_of_quiet htold.quiet,
    Notice.fired?_of_quiet htold.quiet⟩, made, hcalls, hevents.symm⟩

theorem Advances.congr (h : u.Advances taken fired v)
    (hw : w.tally = v.tally) : u.Advances taken fired w := by
  simp only [tally, Prod.mk.injEq] at hw
  obtain ⟨hcalls, hevents, -, hrunning, hnotices⟩ := hw
  refine ⟨hrunning.trans h.running, ?_, ?_⟩
  · rw [hnotices]
    exact h.told
  · rw [hcalls, hevents]
    exact h.account

/-- Notices of other things change nothing. -/
theorem Advances.notify (h : u.Advances taken fired v) {n : Notice} (hdequeued : n.dequeued? = none)
    (hfired : n.fired? = none) : u.Advances taken fired (v.notify n) := by
  obtain ⟨told, hnotices, hnames, htransitions⟩ := h.told
  refine ⟨h.running, ⟨told ++ [n], ?_, ?_, ?_⟩, h.account⟩
  · rw [World.notify, hnotices, List.append_assoc]
  · rw [List.filterMap_append, hnames, List.filterMap_cons_none hdequeued,
      List.filterMap_nil, List.append_nil]
  · rw [List.filterMap_append, htransitions, List.filterMap_cons_none hfired,
      List.filterMap_nil, List.append_nil]

theorem Advances.fire (h : u.Advances taken fired v) (t : TransitionId) (previous : Option StateId)
    (new : StateId) :
    u.Advances taken (fired ++ [t]) (v.notify (.transitionFired t previous new)) := by
  obtain ⟨told, hnotices, hnames, htransitions⟩ := h.told
  refine ⟨h.running, ⟨told ++ [.transitionFired t previous new], ?_, ?_, ?_⟩, h.account⟩
  · rw [World.notify, hnotices, List.append_assoc]
  · rw [List.filterMap_append, hnames]
    exact List.append_nil _
  · rw [List.filterMap_append, htransitions]
    rfl

/-- Until a firing ends nothing has fired. -/
theorem Firing.advances {v w : World (Diary σ κ) κ} {t : TransitionId} (h : v.Firing t w)
    (hv : u.Advances taken fired v) : u.Advances taken fired w := by
  obtain ⟨f, hf, hensues⟩ := h
  have hbegun := (hv.notify (n := .effectInvoked t) rfl rfl).congr hf
  have hends := hbegun.trans (advances_of_ensues hensues)
  rwa [List.append_nil, List.append_nil] at hends

/-- From a world with nothing noted yet all calls noted are taken into account. -/
theorem Advances.account_opened {w : World σ κ} (h : w.opened.Advances taken fired v) :
    w.machine.events ++ posted v.env.calls = taken ++ v.machine.events := by
  obtain ⟨made, hcalls, haccount⟩ := h.account
  have hmade : v.env.calls = made := hcalls
  rw [hmade]
  exact haccount

theorem advances_taking (h : w.machine.running = true) {e : Event} {rest : List Event}
    (hevents : w.machine.events = e :: rest) :
    w.Advances [e] [] ((w.mapMachine ({ · with events := rest })).taking e) := by
  refine ⟨h, ⟨[.eventDequeued e.name], rfl, rfl, rfl⟩, [], (List.append_nil _).symm, ?_⟩
  rw [hevents]
  exact List.append_nil _

end

end World

namespace Engine

/-! ## One firing -/

section
variable {r : Responder (Diary σ κ) κ} (hr : ∀ v : World (Diary σ κ) κ, r.Keeps v.Ensues)
  {v w : World (Diary σ κ) κ}
include hr

theorem firing_fire (hw : w.machine.running = true) (t : TransitionId) (target : StateId)
    (previous : Option StateId) (args : List Value) :
    Triple (fun v => v.tally = w.tally) (fire r t target previous args)
      (fun _ w' => ∃ u new, w.Firing t u ∧ w'.tally =
        (u.notify (.transitionFired t previous new)).tally)
      fun _ w' => w'.tally = w.tally ∨ w.Firing t w' := by
  let B (v : World (Diary σ κ) κ) : Prop := v.tally = (w.notify (.effectInvoked t)).tally
  have hbegin : Triple (fun v => v.tally = w.tally) (beginPhase .effect : Engine (Diary σ κ) κ Unit)
      (fun _ v => v.tally = w.tally) fun _ v => v.tally = w.tally := by
    refine .bind (Q := fun _ v => v.tally = w.tally) (fun _ hv => hv) fun m => ?_
    split
    · exact fun _ hv => hv
    · exact .update fun _ hv => hv
  have hmiddle : Triple B (do
        let _ ← invoke r .effect (.transition t) args
        endPhase .effect
        let new ← enter r target (some t) args
        recordHistory previous (some t) new
        pure new) (fun _ u => w.Firing t u) fun _ u => w.Firing t u := by
    intro v hv
    have hmatches := (hr v).matches
    have hkeeps : Keeps v.Ensues (do
        let _ ← invoke r .effect (.transition t) args
        endPhase .effect
        let new ← enter r target (some t) args
        recordHistory previous (some t) new
        pure new) := by
      refine .bind (keeps_iff_matches.mpr
        (matches_invoke Comparison.enters_ensues.toSelects hmatches _ _ _)) fun _ => ?_
      refine .bind (.update fun _ hu => hu.congr rfl) fun _ => ?_
      refine .bind (keeps_iff_matches.mpr (matches_enter Comparison.enters_ensues hmatches _ _ _))
        fun new => ?_
      refine .bind (.modify fun u hu => ?_) fun _ => .pure
      split
      · exact hu.congr rfl
      · exact hu
    exact (hkeeps.mono_post (fun _ _ hu => ⟨v, hv, hu⟩) fun _ _ hu => ⟨v, hv, hu⟩) v
      (.refl ((World.tally_running hv).trans hw))
  have hparts : fire r t target previous args = (do
      beginPhase .effect
      notify (.effectInvoked t)
      let new ← (do
        let _ ← invoke r .effect (.transition t) args
        endPhase .effect
        let new ← enter r target (some t) args
        recordHistory previous (some t) new
        pure new)
      notify (.transitionFired t previous new)) := by
    simp only [fire, bind_assoc, pure_bind]
  rw [hparts]
  refine .bind (hbegin.mono_error fun _ _ => .inl) fun _ => ?_
  refine .bind (.notify (I := B) fun v hv => World.tally_notify hv _) fun _ => ?_
  refine .bind (hmiddle.mono_error fun _ _ => .inr) fun new => ?_
  exact .notify fun u hu => ⟨u, new, hu, rfl⟩

/-- A firing tells of its beginning and, if it succeeds, of its end. In between nothing but
calls. -/
theorem firing_fireTransition (hw : w.machine.running = true) (p : Pending) :
    Triple (· = w) (fireTransition r p)
      (fun _ w' => ∃ u previous new, w.Firing p.transition u ∧
        w'.tally = (u.notify (.transitionFired p.transition previous new)).tally)
      fun _ w' => w'.tally = w.tally ∨ w.Firing p.transition w' := by
  rintro w rfl
  rw [fireTransition, machine_bind]
  cases hfiring : w.machine.firing with
  | some t => exact .inl rfl
  | none =>
    cases htr : w.machine.graph.transition p.transition with
    | error e => exact .inl rfl
    | ok tr =>
      simp only [Option.isSome_none, ofGraph, pure_bind]
      refine Triple.bind (Q := fun _ v => v.tally = w.tally) (.update fun _ hv => hv)
        (fun _ => .thenAlways
        ((firing_fire hr hw p.transition tr.target w.machine.active p.args).mono_post ?_ ?_)) w rfl
      · rintro _ v ⟨u, new, hu, hv⟩
        exact ⟨u, _, new, hu, hv⟩
      · rintro e v (hv | hv)
        · exact .inl hv
        · exact .inr (hv.congr rfl)

end

/-! ## One event -/

theorem queueTransition_occupied {w : World σ κ} {p : Pending} (hp : w.machine.pending = some p)
    (t : TransitionId) (args : List Value) :
    queueTransition t args w = .error (.fault (w.machine.refusal p)) w := by
  rw [queueTransition, machine_bind, Machine.refusal, hp]
  by_cases hphase : (w.machine.phase.entry || w.machine.phase.exit || w.machine.phase.effect) = true
  · rw [if_pos hphase, if_pos hphase]
    rfl
  · rw [if_neg hphase, if_neg hphase]
    rfl

variable {r : Responder (Diary σ κ) κ} {e : Event} {t : TransitionId} {w w' : World (Diary σ κ) κ}

/-- The event that has been taken up in the first world has fired the transition that it selects by
the second. -/
def EventFires (r : Responder (Diary σ κ) κ) (e : Event) (t : TransitionId)
    (w w' : World (Diary σ κ) κ) : Prop :=
  ∃ label v u previous new, selectOne r e w = .ok (t, label) v ∧ w.Ensues v ∧
    v.machine.pending = none ∧
    (v.notify (.transitionQueued t)).Firing t u ∧ w'.tally =
      (u.notify (.transitionFired t previous new)).tally

/-- How the event that has been taken up in the first world comes to nothing: it selects no
transition, or the one that it selects cannot be queued, or its firing fails. -/
inductive EventFails (r : Responder (Diary σ κ) κ) (e : Event) (w : World (Diary σ κ) κ) :
    Stop → World (Diary σ κ) κ → Prop
  | unselected {err : Stop} {w' : World (Diary σ κ) κ} (hselect : selectOne r e w = .error err w')
    (hensues : w.Ensues w') : EventFails r e w err w'
  | refused {err : Stop} {v w' : World (Diary σ κ) κ} (hensues : w.Ensues v)
    (htally : w'.tally = v.tally)
    (herr : ∀ p, w'.machine.pending = some p → err = .fault (w'.machine.refusal p)) :
    EventFails r e w err w'
  | unfired {err : Stop} {t : TransitionId} {v w' : World (Diary σ κ) κ} (hensues : w.Ensues v)
    (hempty : v.machine.pending = none)
    (hfiring : w'.tally = (v.notify (.transitionQueued t)).tally ∨
      (v.notify (.transitionQueued t)).Firing t w') :
    EventFails r e w err w'

section
variable (hr : ∀ v : World (Diary σ κ) κ, r.Keeps v.Ensues)
include hr

/-- An event that is handled fires one transition, which it selects. -/
theorem fires_handleEvent (hw : w.machine.running = true) (n : Nat) (e : Event) :
    Triple (· = w) (handleEvent r n e) (fun m w' => m = 1 ∧ ∃ t, EventFires r e t (w.taking e) w')
      fun err w' => EventFails r e (w.taking e) err w' := by
  rintro w rfl
  have hselects : Keeps (w.taking e).Ensues (selectOne r e) := keeps_iff_matches.mpr
    (matches_selectOne Comparison.enters_ensues.toSelects (hr _).matches e)
  have hensues := hselects (w.taking e) (.refl hw)
  have hstep : handleEvent r n e w =
      (selectOne r e >>= fun s => handleSelected r n e s.1 s.2) (w.taking e) := handleEvent_eq n e
  rw [hstep]
  cases hselect : selectOne r e (w.taking e) with
  | error err v =>
    rw [hselect] at hensues
    rw [bind_of_error hselect]
    exact .unselected hselect hensues
  | ok s v =>
    rw [hselect] at hensues
    rw [bind_of_ok hselect]
    obtain ⟨t, label⟩ := s
    -- The label of the trigger has no part in what follows.
    let u : World (Diary σ κ) κ := v.mapMachine ({ · with trigger := some label })
    have hselected : handleSelected r n e t label v = (queueTransition t e.args >>= fun _ =>
        processTransitions r n .single none >>= fun o => setCurrent none none >>= fun _ =>
          pure o.1) u := rfl
    dsimp only
    rw [hselected]
    rcases queueTransition_cases t e.args u with ⟨err, herr⟩ | ⟨s, ts, hempty, -, hend, -, -, hok⟩
    · rw [bind_of_error herr]
      refine .refused hensues rfl fun p hp => ?_
      cases herr.symm.trans (queueTransition_occupied hp t e.args)
      rfl
    · rw [bind_of_ok hok]
      let queued : World (Diary σ κ) κ :=
        (u.mapMachine fun m => { m with pending := some ⟨t, e.args⟩ }).notify (.transitionQueued t)
      have hprocess := processTransitions_single (r := r) (w := queued) hend rfl n
      have htally : (queued.mapMachine ({ · with pending := none })).tally =
          (v.notify (.transitionQueued t)).tally := by
        have hslot : v.machine.pending = none := hempty
        simp only [World.tally, World.notify, World.mapMachine, queued, u, hslot]
      have hfire := firing_fireTransition hr (w := queued.mapMachine ({ · with pending := none }))
        hensues.running ⟨t, e.args⟩ _ rfl
      cases hfired : fireTransition r ⟨t, e.args⟩
          (queued.mapMachine ({ · with pending := none })) with
      | error err w' =>
        rw [hfired] at hfire
        rw [bind_of_error (hprocess.trans (bind_of_error hfired))]
        refine .unfired (t := t) hensues hempty ?_
        exact hfire.imp (fun h => h.trans htally) fun h => h.of_tally htally
      | ok _ w' =>
        rw [hfired] at hfire
        obtain ⟨b, previous, new, hb, hw'⟩ := hfire
        rw [bind_of_ok (hprocess.trans (bind_of_ok hfired))]
        exact ⟨rfl, t, label, v, b, previous, new, hselect, hensues, hempty,
          hb.of_tally htally, hw'⟩

end

theorem advances_firing {u v : World (Diary σ κ) κ} (hselected : w.Ensues v)
    (h : (v.notify (.transitionQueued t)).Firing t u) : w.Advances [] [] u :=
  h.advances ((World.advances_of_ensues hselected).notify rfl rfl)

theorem EventFires.advances (h : EventFires r e t w w') : w.Advances [] [t] w' := by
  obtain ⟨label, v, u, previous, new, -, hselected, -, hfiring, hw⟩ := h
  exact ((advances_firing hselected hfiring).fire t previous new).congr hw

theorem EventFails.advances {err : Stop} (h : EventFails r e w err w') : w.Advances [] [] w' := by
  cases h with
  | unselected _ hensues => exact World.advances_of_ensues hensues
  | refused hensues htally _ => exact (World.advances_of_ensues hensues).congr htally
  | unfired hensues _ hfiring =>
    rcases hfiring with htally | hfiring
    · exact ((World.advances_of_ensues hensues).notify rfl rfl).congr htally
    · exact advances_firing hensues hfiring

/-- What calls have left in the empty slot is nothing, and what they leave there during a firing
waits. -/
theorem left_firing {u v : World (Diary σ κ) κ} (hleft : v.Left) (hempty : v.machine.pending = none)
    (h : (v.notify (.transitionQueued t)).Firing t u) :
    u.Left ∧ ∀ p, u.machine.pending = some p → u.plain.WaitsQueued p := by
  obtain ⟨f, hf, hfiring⟩ := h
  have hslot : f.machine.pending = none := (congrArg (·.2.2.1) hf).trans hempty
  have hcalls : f.env.calls = v.env.calls := congrArg (·.1) hf
  have hnone : f.Left := World.left_of_none (hcalls ▸ hleft.nothing hempty)
  exact ⟨hnone.ensues hfiring, fun p hp => hfiring.goes.waitsQueued hslot hp⟩

/-- An event fires with nothing in the slot. What is there by the end has been queued during the
firing. -/
theorem EventFires.left (hleft : w.machine.pending = none → w.Left) (h : EventFires r e t w w') :
    w'.Left ∧ ∀ p, w'.machine.pending = some p → w'.plain.WaitsQueued p := by
  obtain ⟨label, v, u, previous, new, -, hselected, hempty, hfiring, hw⟩ := h
  have hslot : w.machine.pending = none := hselected.goes.empty hempty
  obtain ⟨hu, hqueued⟩ := left_firing ((hleft hslot).ensues hselected) hempty hfiring
  have hw' : w'.tally = (u.notify (.transitionFired t previous new)).tally := hw
  simp only [World.tally, Prod.mk.injEq] at hw
  obtain ⟨-, -, hpending, -, hnotices⟩ := hw
  have hended (t' : TransitionId) : Notice.transitionFired t previous new ≠ .effectInvoked t' :=
    Notice.noConfusion
  refine ⟨(hu.notify rfl hended).congr hw', fun p hp => ?_⟩
  obtain ⟨earlier, hwaits⟩ := hqueued p (hpending.symm.trans hp)
  have hnotified := hwaits.trans (World.waits_notify hwaits.slot hended)
  exact ⟨earlier, hnotified.congr hpending hnotices⟩

/-- The transition was in the slot as the event was taken up, and the event has come to nothing
because of it. -/
structure Obstructs (r : Responder (Diary σ κ) κ) (e : Event) (p : Pending)
    (w : World (Diary σ κ) κ) (err : Stop) (w' : World (Diary σ κ) κ) : Prop where
  slot : w.machine.pending = some p
  waits : w'.plain.Waits p [] w.notices
  calls : ∀ c ∈ w'.env.calls, c ∈ w.env.calls ∨
    ∀ p, c.after.machine.pending = some p → w'.plain.Waits p [] c.after.notices
  reason : err = .fault (w'.machine.refusal p) ∨ ∃ v, selectOne r e w = .error err v

/-- An event that comes to nothing does so because of what is in the slot, or leaves what calls have
left there. -/
theorem EventFails.left {err : Stop} (hleft : w.machine.pending = none → w.Left)
    (h : EventFails r e w err w') : w'.Left ∨ ∃ p, Obstructs r e p w err w' := by
  have hends {v : World (Diary σ κ) κ} (hensues : w.Ensues v) (htally : w'.tally = v.tally)
      (hreason : ∀ p, w'.machine.pending = some p →
        err = .fault (w'.machine.refusal p) ∨ ∃ v, selectOne r e w = .error err v) :
      w'.Left ∨ ∃ p, Obstructs r e p w err w' := by
    have hw' : w.Ensues w' := hensues.congr htally
    cases hp : w.machine.pending with
    | none => exact .inl ((hleft hp).ensues hw')
    | some p =>
      obtain ⟨made, hcalls, -, hmade⟩ := hw'.calls
      refine .inr ⟨p, hp, hw'.goes.waits hp, fun c hc => ?_, hreason p (hw'.goes.slot p hp)⟩
      rw [hcalls] at hc
      exact (List.mem_append.mp hc).imp_right fun hc p hp => (hmade c hc).2.waits hp
  cases h with
  | unselected hselect hensues => exact hends hensues rfl fun _ _ => .inr ⟨w', hselect⟩
  | refused hensues htally herr => exact hends hensues htally fun p hp => .inl (herr p hp)
  | unfired hensues hempty hfiring =>
    have hselected := (hleft (hensues.goes.empty hempty)).ensues hensues
    rcases hfiring with htally | hfiring
    · exact .inl ((hselected.notify (n := .transitionQueued _) rfl nofun).congr htally)
    · exact .inl (left_firing hselected hempty hfiring).1

end Engine

end Statechart
