import Statechart.Proofs.Machine.EventTurns
import Statechart.Proofs.Machine.Provenance

/-!
# Event runs, event by event

An event run takes one event at a time from the queue and fires the one transition that the event
selects. What a body queues while an event is handled is left in the slot: the run does not fire it,
and the next event fails because of it.
-/

namespace Statechart

variable {σ κ : Type}

/-! ## Accounts of a run -/

/-- The turn of an event in a run. -/
structure Turn (σ κ : Type) where
  event : Event
  fired : TransitionId
  /-- The world once the event has been taken up. -/
  taken : World σ κ
  /-- The world once it has been handled. -/
  left : World σ κ

/-- The event fires one transition, which it has selected, and no other event is taken up in its
turn. -/
structure Turn.Fires (h : Host σ κ) (n : Nat) (t : Turn σ κ) : Prop where
  selects : ∃ label v, Engine.selectOne (h.responder (h.perform n)) t.event t.taken =
    .ok (t.fired, label) v
  told : ∃ told, t.left.notices = t.taken.notices ++ told ∧ told.filterMap Notice.dequeued? = [] ∧
    told.filterMap Notice.fired? = [t.fired]

/-- The turns follow one another from the first world to the second, each with the event at the head
of the queue. -/
inductive Turns (w : World σ κ) : List (Turn σ κ) → World σ κ → Prop
  | none : Turns w [] w
  | next {ts : List (Turn σ κ)} {v : World σ κ} {t : Turn σ κ} {rest : List Event}
    (h : Turns w ts v)
    (hpaused : v.machine.paused = false) (hevents : v.machine.events = t.event :: rest)
    (htaken : t.taken = (v.mapMachine ({ · with events := rest })).taking t.event) :
    Turns w (ts ++ [t]) t.left

/-- How an event run may end from the first world, where these are the events to be accounted for:
after some turns, or with one more event that has been taken up and has fired nothing. -/
inductive Host.EventRun (h : Host σ κ) (n : Nat) (w : World σ κ) (es : List Event) :
    Except MachineError RunOutcome → World σ κ → Prop
  | completed {ts : List (Turn σ κ)} {v : World σ κ} {stop : StopReason}
    (turns : Turns w.begun ts v)
    (fires : ∀ t ∈ ts, t.Fires h n) (account : ts.map Turn.event ++ v.machine.events = es) :
    EventRun h n w es (.ok (.completed ts.length stop)) v.ended
  | failed {ts : List (Turn σ κ)} {v w' : World σ κ} {e : Event} {rest : List Event}
    {err : MachineError}
    (turns : Turns w.begun ts v) (fires : ∀ t ∈ ts, t.Fires h n)
      (taken : v.machine.events = e :: rest)
    (told : ∃ told, w'.notices = v.notices ++ .eventDequeued e.name :: told ∧
      told.filterMap Notice.dequeued? = [] ∧ told.filterMap Notice.fired? = [])
    (account : ts.map Turn.event ++ e :: w'.machine.events = es) : EventRun h n w es (.error err) w'

/-- What an event run has come to, with the turns that it has taken so far. -/
structure Amidst (h : Host σ κ) (n : Nat) (b : World σ κ) (ts : List (Turn σ κ))
    (w : World (Diary σ κ) κ) : Prop where
  turns : Turns b ts w.plain
  fires : ∀ t ∈ ts, t.Fires h n
  advances : b.opened.Advances (ts.map Turn.event) (ts.map Turn.fired) w
  left : w.Left
  slot : ∀ p, w.machine.pending = some p → ts = [] ∧ b.machine.pending = some p ∨
    w.plain.WaitsQueued p

/-- How an event run breaks off: an event comes to nothing. -/
structure Breaks (h : Host σ κ) (n : Nat) (b : World σ κ) (ts : List (Turn σ κ))
    (v : World (Diary σ κ) κ) (e : Event) (rest : List Event) (err : Stop)
    (w : World (Diary σ κ) κ) : Prop where
  amidst : Amidst h n b ts v
  events : v.machine.events = e :: rest
  fails : Engine.EventFails (h.diarist n) e
    ((v.mapMachine ({ · with events := rest })).taking e) err w

variable {h : Host σ κ} {n : Nat} {b : World σ κ} {ts : List (Turn σ κ)} {v w : World (Diary σ κ) κ}
  {e : Event} {t : TransitionId} {rest : List Event}

theorem Host.forgetting_selectOne (n : Nat) (e : Event) :
    Engine.Matches .forgetting (Engine.selectOne (h.diarist n) e)
    (Engine.selectOne (h.responder (h.perform n)) e) :=
  Engine.matches_selectOne Comparison.serves_forgetting.toSelects (forgetting_diarist n) e

/-- An event that is handled takes the next turn. -/
theorem Amidst.next (hv : Amidst h n b ts v) (hpaused : v.machine.paused = false)
    (hevents : v.machine.events = e :: rest)
    (hfires : Engine.EventFires (h.diarist n) e t
      ((v.mapMachine ({ · with events := rest })).taking e) w) :
    ∃ turn, Amidst h n b (ts ++ [turn]) w := by
  let taken : World (Diary σ κ) κ := (v.mapMachine ({ · with events := rest })).taking e
  let turn : Turn σ κ := ⟨e, t, taken.plain, w.plain⟩
  have hturn : turn.Fires h n := by
    obtain ⟨told, hnotices, hdequeued, hfired⟩ := hfires.advances.told
    obtain ⟨label, s, -, -, -, hselect, -⟩ := hfires
    have hselects := (Host.forgetting_selectOne n e).ok_of_forgetting hselect
    exact ⟨⟨label, s.plain, hselects⟩, told, hnotices, hdequeued, hfired⟩
  have htaken : taken.machine.pending = none → taken.Left :=
    fun hempty => World.left_of_none (hv.left.nothing hempty)
  obtain ⟨hleft, hslot⟩ := hfires.left htaken
  refine ⟨turn, .next hv.turns hpaused hevents rfl, fun t' ht' => ?_, ?_, hleft,
    fun p hp => .inr (hslot p hp)⟩
  · exact (List.mem_append.mp ht').elim (hv.fires t') fun ht' => List.mem_singleton.mp ht' ▸ hturn
  · have hadvances := (hv.advances.trans (World.advances_taking hv.advances.running hevents)).trans
      hfires.advances
    simpa only [turn, List.map_append, List.map_singleton, List.append_nil] using hadvances

theorem Breaks.advances {err : Stop} (h : Breaks h n b ts v e rest err w) :
    b.opened.Advances (ts.map Turn.event ++ [e]) (ts.map Turn.fired) w := by
  have htaken := World.advances_taking h.amidst.advances.running h.events
  have hadvances := (h.amidst.advances.trans htaken).trans h.fails.advances
  rwa [List.append_nil, List.append_nil, List.append_nil] at hadvances

/-- An event run takes turns until it is paused, the queue is empty or an event comes to nothing. -/
theorem amidst_processEvents (k : Nat) :
    Engine.Triple (Amidst h n b ts)
    (Engine.processEvents (h.diarist n) k ts.length)
    (fun o w => ∃ ts', Amidst h n b ts' w ∧ ts'.length = o.1 ∧
      (o.2 = .queueEmpty → w.machine.events = []))
    fun err w => err = .exhausted ∨ ∃ ts' v e rest, Breaks h n b ts' v e rest err w := by
  induction k generalizing ts with
  | zero => exact fun _ _ => .inl rfl
  | succ k ih =>
    intro v hv
    cases hpaused : v.machine.paused with
    | true =>
      rw [Engine.processEvents, Engine.machine_bind, hpaused]
      exact ⟨ts, hv, rfl, fun hempty => by cases hempty⟩
    | false =>
      cases hevents : v.machine.events with
      | nil =>
        rw [Engine.processEvents_nil hpaused hevents]
        exact ⟨ts, hv, rfl, fun _ => hevents⟩
      | cons e rest =>
        rw [Engine.processEvents_cons hpaused hevents]
        have hhandle := Engine.fires_handleEvent (fun u => Host.ensues_diarist (h := h) u n)
          (w := v.mapMachine ({ · with events := rest })) hv.advances.running (k + 1) e
        refine Engine.Triple.bind (hhandle.mono_error fun err w hfails => ?_) (fun m => ?_) _ rfl
        · exact .inr ⟨ts, v, e, rest, hv, hevents, hfails⟩
        · rintro w ⟨rfl, t, hfires⟩
          obtain ⟨turn, hw⟩ := hv.next hpaused hevents hfires
          have hrest := ih w hw
          rw [List.length_append] at hrest
          exact hrest

namespace Host

variable {w w' : World σ κ} {o : Except MachineError RunOutcome}

/-- How an event run ends that is not nested. -/
theorem amidst_runEvents (hidle : w.machine.running = false)
    (hrun : Engine.attempt (h.perform (n + 1) .runEvents) w = .ok o w') :
    (∃ ts v stop, Amidst h n w.begun ts v ∧ o = .ok (.completed ts.length stop) ∧
      w' = v.plain.ended ∧
      h.calls (n + 1) .runEvents w = v.env.calls ∧ (stop = .queueEmpty → v.machine.events = [])) ∨
    ∃ ts v e rest err u, Breaks h n w.begun ts v e rest (.fault err) u ∧ o = .error err ∧
    w' = u.plain.ended ∧
      h.calls (n + 1) .runEvents w = u.env.calls := by
  obtain ⟨v, hnoting, rfl, hcalls⟩ := noting_of_attempt hrun
  have hbegun : Amidst h n w.begun [] w.begun.opened := by
    refine ⟨.none, fun t ht => absurd ht List.not_mem_nil, World.advances_refl rfl,
      fun c hc => ?_, fun p hp => ?_⟩
    · exact absurd hc List.not_mem_nil
    · exact .inl ⟨rfl, hp⟩
  have hends := Engine.Triple.runEvents (r := h.diarist n) (P := (· = w.opened))
    (I := Amidst h n w.begun [])
    (Q := fun out w' => ∃ ts v stop, Amidst h n w.begun ts v ∧ out =
      .completed ts.length stop ∧ w' = v.ended ∧ (stop = .queueEmpty → v.machine.events = []))
    (E := fun err w' => err = .exhausted ∨ ∃ ts v e rest u,
      Breaks h n w.begun ts v e rest err u ∧ w' = u.ended)
    (fun _ hw => hw ▸ hidle) (fun _ hw => hw ▸ hbegun)
      ((amidst_processEvents n).mono_post ?_ ?_) w.opened rfl
  · have hnoting : Engine.attempt (Engine.runEvents (h.diarist n) n) w.opened = .ok o v := hnoting
    rcases Engine.of_attempt hnoting with ⟨out, rfl, hok⟩ | ⟨err, rfl, herror⟩
    · rw [hok] at hends
      obtain ⟨ts, u, stop, hu, rfl, rfl, hempty⟩ := hends
      exact .inl ⟨ts, u, stop, hu, rfl, rfl, hcalls, hempty⟩
    · rw [herror] at hends
      obtain ⟨ts, u, e, rest, u', hbreaks, rfl⟩ := hends.resolve_left nofun
      exact .inr ⟨ts, u, e, rest, err, u', hbreaks, rfl, rfl, hcalls⟩
  · rintro ⟨fired, stop⟩ u ⟨ts, hu, rfl, hempty⟩
    exact ⟨ts, u, stop, hu, rfl, rfl, hempty⟩
  · rintro err u (hcut | ⟨ts, u, e, rest, hbreaks⟩)
    · exact .inl hcut
    · exact .inr ⟨ts, u, e, rest, _, hbreaks, rfl⟩

/-- An event run that is not nested takes up the events at the head of the queue one after the
other. Each but possibly the last fires one transition, which it has selected, before the next is
taken up. Those taken up and those still queued are those queued before and those posted in the
meantime, in order. -/
theorem events_conserved (hidle : w.machine.running = false)
    (hrun : Engine.attempt (h.perform (n + 1) .runEvents) w = .ok o w') :
    h.EventRun n w (w.machine.events ++ posted (h.calls (n + 1) .runEvents w)) o w' := by
  rcases amidst_runEvents hidle hrun with ⟨ts, v, stop, hv, rfl, rfl, hcalls, -⟩ |
    ⟨ts, v, e, rest, err, u, hbreaks, rfl, rfl, hcalls⟩
  · rw [hcalls]
    exact .completed (v := v.plain) hv.turns hv.fires hv.advances.account_opened.symm
  · obtain ⟨told, hnotices, hdequeued, hfired⟩ := hbreaks.fails.advances.told
    have haccount := hbreaks.advances.account_opened.trans (List.append_assoc ..)
    have hu : u.notices = v.notices ++ [.eventDequeued e.name] ++ told := hnotices
    rw [hcalls]
    exact .failed (v := v.plain) hbreaks.amidst.turns hbreaks.amidst.fires hbreaks.events
      ⟨told, hu.trans (List.append_assoc ..), hdequeued, hfired⟩ haccount.symm

end Host

/-- The relay, started, with events in the queue. -/
def lined (es : List Event) : World Unit Unit :=
  (Host.silent.perform 2 (.post es)).after ((Host.silent.perform 2 (.start [])).after relay)

/-- The events of the relay are run, with an activity that makes a request. -/
def handled (q : Request Unit) (es : List Event) : World Unit Unit :=
  (Engine.attempt ((Host.asking q).perform 4 .runEvents)).after (lined es)

/-- The activity posts a second event. -/
theorem events_conserved_relay :
    Engine.attempt ((Host.asking (.post [⟨"go", []⟩])).perform 4 .runEvents)
      (lined [⟨"send", []⟩]) =
      .ok (.ok (.completed 2 .queueEmpty)) (handled (.post [⟨"go", []⟩]) [⟨"send", []⟩]) ∧
    (Host.asking (.post [⟨"go", []⟩])).EventRun 3 (lined [⟨"send", []⟩]) [⟨"send", []⟩, ⟨"go", []⟩]
      (.ok (.completed 2 .queueEmpty)) (handled (.post [⟨"go", []⟩]) [⟨"send", []⟩]) := by
  have hrun : Engine.attempt ((Host.asking (.post [⟨"go", []⟩])).perform 4 .runEvents)
      (lined [⟨"send", []⟩]) =
      .ok (.ok (.completed 2 .queueEmpty)) (handled (.post [⟨"go", []⟩]) [⟨"send", []⟩]) :=
    Engine.ok_of_answer? (by decide +kernel)
  have hposted : (lined [⟨"send", []⟩]).machine.events ++
      posted ((Host.asking (.post [⟨"go", []⟩])).calls 4 .runEvents (lined [⟨"send", []⟩])) =
        [⟨"send", []⟩, ⟨"go", []⟩] := rfl
  exact ⟨hrun, hposted ▸ Host.events_conserved rfl hrun⟩

namespace Host

variable {w w' : World σ κ} {o : Except MachineError RunOutcome}

/-- An event run that is nested runs no body. -/
theorem runEvents_nested (hrunning : w.machine.running = true)
    (hrun : Engine.attempt (h.perform (n + 1) .runEvents) w = .ok o w') :
    h.calls (n + 1) .runEvents w = [] ∧ o = .ok .alreadyRunning := by
  obtain ⟨v, hnoting, rfl, hcalls⟩ := noting_of_attempt hrun
  have hreenter : h.noting (n + 1) .runEvents w.opened = Engine.reenter w.opened :=
    Engine.runEvents_running hrunning
  obtain ⟨u, hu, -, -, henv⟩ := Engine.reenter_eq w.opened
  rw [Engine.attempt, hreenter, hu] at hnoting
  cases hnoting
  exact ⟨hcalls.trans (congrArg Diary.calls henv), rfl⟩

/-- What a body leaves in the slot in the course of an event run is not fired by it: it waits there
when the run has ended, and no firing has begun since. An event taken up meanwhile comes to nothing.
A run that ends as the queue is empty leaves in the slot nothing but what has been queued since the
last firing began or, with no event handled, what was there before. -/
theorem left_queued (hrun : Engine.attempt (h.perform (n + 1) .runEvents) w = .ok o w') :
    (∀ c ∈ h.calls (n + 1) .runEvents w, ∀ p, c.after.machine.pending = some p →
      w'.Waits p [] c.after.notices ∨ ∃ e err,
      w'.Waits p [e.name] c.after.notices ∧ o = .error err ∧
        (err = w'.machine.refusal p ∨ ∃ v v', v.machine.pending = some p ∧
          Engine.selectOne (h.responder (h.perform n)) e v = .error (.fault err) v')) ∧
    ∀ fired, o = .ok (.completed fired .queueEmpty) → w'.machine.events = [] ∧
      ∀ p, w'.machine.pending = some p → fired = 0 ∧ w.machine.pending = some p ∨
      w'.WaitsQueued p := by
  cases hrunning : w.machine.running with
  | true =>
    obtain ⟨hcalls, rfl⟩ := runEvents_nested hrunning hrun
    rw [hcalls]
    exact ⟨fun c hc => absurd hc List.not_mem_nil, nofun⟩
  | false =>
  rcases amidst_runEvents hrunning hrun with ⟨ts, v, stop, hv, rfl, rfl, hcalls, hempty⟩ |
    ⟨ts, v, e, rest, err, u, hbreaks, rfl, rfl, hcalls⟩
  · rw [hcalls]
    refine ⟨fun c hc p hp => .inl ((hv.left c hc p hp).congr rfl rfl), fun fired hfired => ?_⟩
    cases hfired
    refine ⟨hempty rfl, fun p hp => ?_⟩
    rcases hv.slot p hp with ⟨rfl, hbefore⟩ | ⟨earlier, hwaits⟩
    · exact .inl ⟨rfl, hbefore⟩
    · exact .inr ⟨earlier, hwaits.congr rfl rfl⟩
  · rw [hcalls]
    refine ⟨fun c hc p hp => ?_, nofun⟩
    have hv := hbreaks.amidst.left
    have htaken : v.machine.pending = none →
        ((v.mapMachine ({ · with events := rest })).taking e).Left :=
      fun hslot => World.left_of_none (hv.nothing hslot)
    rcases hbreaks.fails.left htaken with hleft | ⟨p', hobstructs⟩
    · exact .inl ((hleft c hc p hp).congr rfl rfl)
    · rcases hobstructs.calls c hc with hc | hwaits
      · have hwaits := hv c hc p hp
        obtain rfl : p' = p := Option.some.inj (hobstructs.slot.symm.trans hwaits.slot)
        have hsince :=
          (hwaits.trans (World.waits_notify (n := .eventDequeued e.name) hwaits.slot nofun)).trans
          hobstructs.waits
        refine .inr ⟨e, err, hsince.congr rfl rfl, rfl, ?_⟩
        refine hobstructs.reason.imp (fun h => ?_) fun ⟨v', hselect⟩ => ?_
        · cases h
          rfl
        · exact ⟨_, v'.plain, hobstructs.slot,
            (forgetting_selectOne n e).error_of_forgetting hselect⟩
      · exact .inl ((hwaits p hp).congr rfl rfl)

end Host

/-- The activity queues the transition to the end, which the second event would select. -/
theorem left_queued_relay :
    Engine.attempt ((Host.asking (.queue ⟨1⟩ [])).perform 4 .runEvents)
      (lined [⟨"send", []⟩, ⟨"go", []⟩]) =
      .ok (.error (.transitionPending "b->c"))
        (handled (.queue ⟨1⟩ []) [⟨"send", []⟩, ⟨"go", []⟩]) ∧
    ∀ c ∈ (Host.asking (.queue ⟨1⟩ [])).calls 4 .runEvents (lined [⟨"send", []⟩, ⟨"go", []⟩]), ∀ p,
      c.after.machine.pending = some p →
      (handled (.queue ⟨1⟩ []) [⟨"send", []⟩, ⟨"go", []⟩]).machine.pending = some p := by
  have hrun : Engine.attempt ((Host.asking (.queue ⟨1⟩ [])).perform 4 .runEvents)
      (lined [⟨"send", []⟩, ⟨"go", []⟩]) =
        .ok (.error (.transitionPending "b->c"))
          (handled (.queue ⟨1⟩ []) [⟨"send", []⟩, ⟨"go", []⟩]) :=
    Engine.ok_of_answer? (by decide +kernel)
  refine ⟨hrun, fun c hc p hp => ?_⟩
  rcases (Host.left_queued hrun).1 c hc p hp with hwaits | ⟨e, err, hwaits, -⟩
  · exact hwaits.slot
  · exact hwaits.slot

/-- The transition that the activity has queued is not fired, and the second event fails because of
it. With no second event the run ends as the queue is empty and the slot is not. -/
theorem queued_unfired_relay :
    (∃ c ∈ (Host.asking (.queue ⟨1⟩ [])).calls 4 .runEvents (lined [⟨"send", []⟩, ⟨"go", []⟩]),
      c.before.machine.phase.doActivity ∧ c.before.machine.event.isSome ∧
      c.after.machine.pending.isSome) ∧
    (Engine.attempt ((Host.asking (.queue ⟨1⟩ [])).perform 4 .runEvents)).answer?
      (lined [⟨"send", []⟩, ⟨"go", []⟩]) = some (.error (.transitionPending "b->c")) ∧
    .effectInvoked ⟨1⟩ ∉ (handled (.queue ⟨1⟩ []) [⟨"send", []⟩, ⟨"go", []⟩]).notices ∧
    (Engine.attempt ((Host.asking (.queue ⟨1⟩ [])).perform 4 .runEvents)).answer?
      (lined [⟨"send", []⟩]) =
      some (.ok (.completed 1 .queueEmpty)) ∧
    (handled (.queue ⟨1⟩ []) [⟨"send", []⟩]).machine.pending.isSome := by
  refine ⟨?_, ?_, ?_, ?_, ?_⟩ <;> decide +kernel

end Statechart
