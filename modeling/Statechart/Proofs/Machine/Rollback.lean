import Statechart.Proofs.Machine.Readiness

/-!
# A firing that fails

A firing may fail in its effect, at any exit or entry, or in the activity of the state reached. With
bodies that make no requests all that it did by then is undone, but for one thing: from the activity
on the transition is noted as the last one, and stays so.
-/

namespace Statechart

open Json

variable {σ κ α β : Type}

/-- Nothing is under way on the machine. -/
structure Machine.Idle (m : Machine κ) : Prop where
  running : m.running = false
  phase : m.phase = .idle
  firing : m.firing = none

/-- The notice tells that a transition has fired. -/
def Notice.isFiring : Notice → Bool
  | .transitionFired .. => true
  | _ => false

/-- The notice tells that an activity is run. -/
def Notice.isActivity : Notice → Bool
  | .activityInvoked _ => true
  | _ => false

/-- What answers has a part in nothing but the environment. -/
def Responder.Aloof (r : Responder σ κ) : Prop := ∀ I, World.Indifferent I → r.Keeps I

theorem Host.aloof_responder {h : Host σ κ} (hbodies : h.Makes fun _ => False)
    (perform : (q : Request κ) → Engine σ κ q.Answer) : (h.responder perform).Aloof :=
  fun _ hI => keeps_responder hI hbodies fun _ hq => hq.elim

namespace World

/-- Amid work that began in the first world: the machine by now, and whether an activity has been
run. No firing has been recorded or told of. -/
structure Amid (w₀ : World σ κ) (m : Machine κ) (activity : Bool) (w : World σ κ) : Prop where
  machine : w.machine = m
  logs : w.logs = w₀.logs
  notices : ∃ ns, w.notices = w₀.notices ++ ns ∧ ns.any Notice.isFiring = false ∧
    ns.any Notice.isActivity = activity

/-- The machine is back, but for the transition being noted if the activity has been run. -/
def Undoing (w₀ : World σ κ) (m : Machine κ) (t : TransitionId) (w : World σ κ) : Prop :=
  w₀.Amid m false w ∨ w₀.Amid { m with lastTransition := some t, firing := none } true w

variable {w₀ w : World σ κ} {m m' : Machine κ} {activity : Bool} {t : TransitionId}

theorem indifferent_amid : World.Indifferent (w₀.Amid m activity) :=
  fun _ _ hw => ⟨hw.machine, hw.logs, hw.notices⟩

theorem Amid.map {f : Machine κ → Machine κ} (h : w₀.Amid m activity w) (hf : f m = m') :
    w₀.Amid m' activity (w.mapMachine f) :=
  ⟨(congrArg f h.machine).trans hf, h.logs, h.notices⟩

theorem Amid.notify {n : Notice} (h : w₀.Amid m activity w) (hn : n.isFiring = false) :
    w₀.Amid m (activity || n.isActivity) (w.notify n) := by
  obtain ⟨ns, hns, hfired, hactivity⟩ := h.notices
  refine ⟨h.machine, h.logs, ns ++ [n], ?_, ?_, ?_⟩
  · rw [World.notify, hns, List.append_assoc]
  · rw [List.any_append, hfired, List.any_cons, hn]
    rfl
  · rw [List.any_append, hactivity, List.any_cons, List.any_nil, Bool.or_false]

theorem Amid.notify_other {n : Notice} (h : w₀.Amid m activity w) (hfiring : n.isFiring = false)
    (hactivity : n.isActivity = false) : w₀.Amid m activity (w.notify n) := by
  have hn := h.notify hfiring
  rwa [hactivity, Bool.or_false] at hn

theorem Undoing.map {f : Machine κ → Machine κ} (h : w₀.Undoing m t w) (hf : f m = m')
    (hnoted : f { m with lastTransition := some t, firing := none } =
      { m' with lastTransition := some t, firing := none }) :
    w₀.Undoing m' t (w.mapMachine f) :=
  h.imp (·.map hf) (·.map hnoted)

end World

namespace Engine

variable {w₀ : World σ κ} {m : Machine κ} {activity : Bool} {t : TransitionId} {r : Responder σ κ}
  {Q : α → World σ κ → Prop} {E : Stop → World σ κ → Prop}

/-! ## Steps of a move -/

theorem tracks_amid : Tracks fun m => World.Amid w₀ m activity where
  machine h := h.machine
  map _ h := h.map rfl

theorem amid_notify {n : Notice} (hn : n.isFiring = false) :
    Triple (w₀.Amid m activity) (notify n) (fun _ => w₀.Amid m (activity || n.isActivity)) E :=
  .notify fun _ hw => hw.notify hn

/-- A phase that leaves or enters states. -/
theorem amid_phase {o : Operation} (ho : phaseFlag m.phase o = false)
    {f : StateId → Engine σ κ Unit} (hf : ∀ m s, Keeps (w₀.Amid m activity) (f s))
    (ss : List StateId) :
    Triple (w₀.Amid m activity) (do beginPhase o; ss.forM f; endPhase o)
      (fun _ => w₀.Amid m activity)
      fun _ w => ∃ phase, w₀.Amid { m with phase } activity w := by
  refine .bind (tracks_amid.beginPhase ho) fun _ => .bind ?_ fun _ => tracks_amid.endPhase ho
  exact (Keeps.forM fun s _ => hf _ s).mono_error fun _ _ hw => ⟨_, hw⟩

theorem recordHistory_ok (previous : Option StateId) (t : TransitionId) (new : StateId)
    (w : World σ κ) : ∃ logs, recordHistory previous (some t) new w = .ok () { w with logs } := by
  by_cases hoption : w.machine.options.recordHistory = true
  · exact ⟨_, congrArg (EStateM.Result.ok ()) (if_pos hoption)⟩
  · exact ⟨_, congrArg (EStateM.Result.ok ()) (if_neg hoption)⟩

section
variable (hr : r.Aloof)
include hr

theorem amid_invoke (a : Action) (s : Subject) (args : List Value) :
    Keeps (w₀.Amid m activity) (invoke r a s args) :=
  keeps_invoke (hr _ World.indifferent_amid) a s args

theorem amid_leaveState (args : List Value) (s : StateId) :
    Keeps (w₀.Amid m activity) (leaveState r args s) :=
  .bind (.notify fun _ hw => hw.notify_other rfl rfl) fun _ =>
    .bind (amid_invoke hr _ _ _) fun _ => .pure

theorem amid_enterState (args : List Value) (s : StateId) :
    Keeps (w₀.Amid m activity) (enterState r args s) :=
  .bind (.notify fun _ hw => hw.notify_other rfl rfl) fun _ =>
    .bind (amid_invoke hr _ _ _) fun _ => .pure

theorem amid_settle (hphase : m.phase.doActivity = false) (args : List Value) (s : StateId) :
    Triple (w₀.Amid m false) (settle r args (some t) s)
      (fun _ => w₀.Amid { m with lastTransition := some t, firing := none } true)
      fun _ w => ∃ phase, w₀.Amid { m with lastTransition := some t, firing := none, phase }
        true w := by
  refine .bind tracks_amid.update fun _ =>
    .bind (tracks_amid.beginPhase (o := .doActivity) hphase) fun _ => ?_
  refine .bind (amid_notify (n := .activityInvoked s) rfl) fun _ => .bind ?_ fun _ =>
    tracks_amid.endPhase hphase
  exact (amid_invoke hr _ _ _).mono_error fun _ _ hw => ⟨_, hw⟩

/-! ## Moves -/

/-- A move fails before the transition is noted, or in the activity. -/
theorem amid_cascade (hphase : m.phase = .idle) (target : StateId) (args : List Value) :
    Triple (w₀.Amid m false) (cascade r m.active target (some t) args)
      (fun s => w₀.Amid { m with active := some s, lastTransition := some t, firing := none } true)
      fun _ w => ∃ phase active, w₀.Undoing { m with phase, active } t w := by
  have hflag := phaseFlag_of_idle hphase
  rw [cascade_eq]
  refine tracks_amid.machine_bind (.bind (.ofGraph fun e w hw => ⟨m.phase, m.active, .inl hw⟩)
    fun external => ?_)
  refine .bind ((amid_phase (hflag .exit) (fun _ => amid_leaveState hr args) _).mono_error ?_)
    fun _ => ?_
  · rintro _ w ⟨phase, hw⟩
    exact ⟨phase, m.active, .inl hw⟩
  refine .bind tracks_amid.update fun _ => ?_
  refine .bind ((amid_phase (m := { m with active := some _ }) (hflag .entry)
    (fun _ => amid_enterState hr args) _).mono_error ?_) fun _ => ?_
  · rintro _ w ⟨phase, hw⟩
    exact ⟨phase, _, .inl hw⟩
  refine .bind ((amid_settle (m := { m with active := some _ }) hr (hflag .doActivity)
    args _).mono_error ?_) fun _ _ hw => hw
  rintro _ w ⟨phase, hw⟩
  exact ⟨phase, _, .inr hw⟩

/-- Entering puts the active state and the phases back if it fails. -/
theorem amid_enter (hphase : m.phase = .idle) (target : StateId) (args : List Value) :
    Triple (w₀.Amid m false) (enter r target (some t) args)
      (fun s => w₀.Amid { m with active := some s, lastTransition := some t, firing := none } true)
      fun _ => w₀.Undoing m t := by
  refine tracks_amid.machine_bind (.onFailure (.thenAlways ?_))
  refine (amid_cascade hr hphase target args).mono_post (fun s w hw => hw.map rfl) ?_
  rintro _ w ⟨phase, active, hw⟩
  rcases hw with hw | hw
  · exact .inl (.notify_other (.map (.map hw rfl) rfl) rfl rfl)
  · exact .inr (.notify_other (.map (.map hw rfl) rfl) rfl rfl)

/-! ## Firing -/

/-- A firing that succeeds leaves the slot as it is. -/
theorem amid_fire (hphase : m.phase = .idle) (target : StateId) (args : List Value) :
    Triple (w₀.Amid m false) (fire r t target m.active args)
      (fun _ w => w.machine.pending = m.pending)
      fun _ w => ∃ effect, w₀.Undoing { m with phase := { m.phase with effect } } t w := by
  have hflag := phaseFlag_of_idle hphase .effect
  refine .bind (tracks_amid.beginPhase hflag) fun _ => ?_
  refine .bind (.notify fun w hw => hw.notify_other rfl rfl) fun _ => ?_
  refine .bind ((amid_invoke hr _ _ _).mono_error fun _ w hw => ⟨true, .inl hw⟩) fun _ => ?_
  refine .bind (tracks_amid.endPhase hflag) fun _ => ?_
  refine .bind ((amid_enter hr hphase target args).mono_error fun _ w hw =>
    ⟨m.phase.effect, hw⟩) fun s => ?_
  intro w hw
  obtain ⟨logs, hlogs⟩ := recordHistory_ok m.active t s w
  rw [bind_of_ok hlogs]
  exact congrArg (·.pending) hw.machine

/-- A firing that fails is undone. -/
theorem amid_fireTransition {p : Pending} (hphase : m.phase = .idle) (hfiring : m.firing = none) :
    Triple (w₀.Amid m false) (fireTransition r p) (fun _ w => w.machine.pending = m.pending)
      fun _ => w₀.Undoing m p.transition := by
  refine tracks_amid.machine_bind ?_
  rw [if_neg (by rw [hfiring]; exact Bool.false_ne_true)]
  refine .bind (.ofGraph fun e w hw => .inl hw) fun tr =>
    .bind tracks_amid.update fun _ => .thenAlways ?_
  refine (amid_fire (m := { m with firing := some p.transition }) hr hphase tr.target
    p.args).mono_error ?_
  rintro _ w ⟨effect, hw⟩
  have hphase' : { m.phase with effect := false } = m.phase := by
    rw [hphase]
    rfl
  refine hw.map ?_ ?_
  · show { m with firing := none, phase := { m.phase with effect := false } } = m
    rw [hphase', ← hfiring]
  · show { m with
      lastTransition := _, firing := none, phase := { m.phase with effect := false } } = _
    rw [hphase']

end

/-! ## Runs -/

/-- A run without a hook succeeds on an empty slot. -/
theorem fireQueued_empty {mode : RunMode} {fuel fired : Nat} {e : Stop} {w w' : World σ κ}
    (hpending : w.machine.pending = none) (h : fireQueued r mode none fuel fired w = .error e w') :
    e = .exhausted := by
  cases fuel with
  | zero =>
    cases h
    rfl
  | succ fuel =>
    rw [fireQueued, machine_bind] at h
    split at h
    · cases h
    split at h
    · cases h
    have htake : (takePending : Engine σ κ (Option Pending)) w =
        .ok none (w.mapMachine fun m => { m with pending := none }) := by
      rw [takePending, machine_bind, hpending]
      rfl
    rw [Option.forM, pure_bind, bind_of_ok htake] at h
    cases h

theorem amid_takePending : Triple (w₀.Amid m activity) takePending
    (fun p w => p = m.pending ∧ w₀.Amid { m with pending := none } activity w) E :=
  tracks_amid.machine_bind (.bind tracks_amid.update fun _ _ hw => ⟨rfl, hw⟩)

variable {p : Pending} (hr : r.Aloof)
include hr

theorem amid_processTransitions (hphase : m.phase = .idle) (hfiring : m.firing = none)
    (hpending : m.pending = some p) (fuel : Nat) (mode : RunMode) :
    Triple (w₀.Amid m false) (processTransitions r fuel mode none) (fun _ _ => True)
      fun e w => e = .exhausted ∨ w₀.Undoing { m with pending := none } p.transition w := by
  refine tracks_amid.machine_bind ?_
  split
  · exact fun _ _ => trivial
  refine .bind amid_takePending fun taken => ?_
  rintro w ⟨htaken, hw⟩
  rw [hpending] at htaken
  subst htaken
  have hfire : Triple (w₀.Amid { m with pending := none } false) (fireTransition r p)
      (fun _ w => w.machine.pending = none) fun _ =>
        w₀.Undoing { m with pending := none } p.transition :=
    amid_fireTransition hr hphase hfiring
  refine Triple.bind (hfire.mono_error fun _ _ => .inr) (fun _ w hempty => ?_) w hw
  split
  · trivial
  · rename_i e w' hstop
    split at hstop
    · cases hstop
    · exact .inl (fireQueued_empty hempty hstop)

/-- A run that fails does so in firing what waits. -/
theorem amid_run (hidle : m.Idle) (hpending : m.pending = some p) (fuel : Nat) (mode : RunMode) :
    Triple (w₀.Amid m false) (run r fuel mode none) (fun _ _ => True)
      fun e w => e = .exhausted ∨ w₀.Undoing { m with pending := none, paused := false }
        p.transition w := by
  refine tracks_amid.machine_bind ?_
  rw [if_neg (by rw [hidle.running]; exact Bool.false_ne_true)]
  have hstop (m : Machine κ) (h : m.running = false) :
      { m with running := false, paused := false } = { m with paused := false } := by rw [h]
  refine .bind tracks_amid.update fun _ => .bind (Q := fun _ _ => True) (.thenAlways ?_)
    fun _ _ _ => trivial
  refine (amid_processTransitions (m := { m with running := true, paused := false }) hr hidle.phase
    hidle.firing hpending fuel mode).mono_error fun e w hw => hw.imp_right fun hw => ?_
  let taken : Machine κ := { m with pending := none }
  exact hw.map (hstop taken hidle.running)
    (hstop { taken with lastTransition := some p.transition, firing := none } hidle.running)

end Engine

/-- But for the transition that the machine has noted, a firing that began in the first world has
been undone in the second: the machine is as it was, at rest and with its slot empty, and so is what
it has recorded. -/
structure World.Undone (w w' : World σ κ) : Prop where
  machine : w'.machine =
    { w.machine with pending := none, paused := false, lastTransition := w'.machine.lastTransition }
  idle : w'.machine.Idle
  logs : w'.logs = w.logs

theorem World.Undone.intro {w w' : World σ κ} {last : Option TransitionId} (hidle : w.machine.Idle)
    (hmachine : w'.machine =
      { w.machine with pending := none, paused := false, lastTransition := last })
    (hlogs : w'.logs = w.logs) : w.Undone w' where
  machine := by rw [hmachine]
  idle := by
    rw [hmachine]
    exact ⟨hidle.running, hidle.phase, hidle.firing⟩
  logs := hlogs

variable {h : Host σ κ} {w w' : World σ κ} {p : Pending} {n : Nat} {mode : RunMode}
  {e : MachineError}

/-- With bodies that make no requests, a run that fails leaves an idle machine with the firing
undone. The transition that it has noted is the one from before exactly if no activity has been run,
or if the transition that failed was the last one already. -/
theorem Host.run_failed (hbodies : h.Makes fun _ => False) (hidle : w.machine.Idle)
    (hpending : w.machine.pending = some p)
    (hrun : h.perform n (.run mode) w = .error (.fault e) w') :
    ∃ ns, w'.notices = w.notices ++ ns ∧ ns.any Notice.isFiring = false ∧ w.Undone w' ∧
      (w'.machine.lastTransition = w.machine.lastTransition ↔
        ns.any Notice.isActivity = false ∨ w.machine.lastTransition = some p.transition) := by
  cases n with
  | zero => cases hrun
  | succ n =>
    have hamid := Engine.amid_run (h.aloof_responder hbodies (h.perform n)) hidle hpending n mode w
      ⟨rfl, rfl, [], (List.append_nil _).symm, rfl, rfl⟩
    have hrun' : Engine.run (h.responder (h.perform n)) n mode none w = .error (.fault e) w' := hrun
    rw [hrun'] at hamid
    rcases hamid with hexhausted | hbefore | hafter
    · cases hexhausted
    · obtain ⟨ns, hns, hfiring, hactivity⟩ := hbefore.notices
      have hlast : w'.machine.lastTransition = w.machine.lastTransition := by rw [hbefore.machine]
      have hundone : w.Undone w' := .intro hidle hbefore.machine hbefore.logs
      exact ⟨ns, hns, hfiring, hundone, iff_of_true hlast (.inl hactivity)⟩
    · obtain ⟨ns, hns, hfiring, hactivity⟩ := hafter.notices
      have hlast : w'.machine.lastTransition = some p.transition := by rw [hafter.machine]
      have hundone : w.Undone w' :=
        .intro hidle (by rw [hafter.machine, ← hidle.firing]) hafter.logs
      refine ⟨ns, hns, hfiring, hundone, ?_⟩
      rw [hlast, hactivity]
      constructor
      · exact fun heq => .inr heq.symm
      · rintro (hnone | heq)
        · cases hnone
        · exact heq.symm

/-! ## An activity that fails -/

namespace Host

/-- What a request fails with, at most `k` requests deep. -/
def fault? (h : Host σ κ) (k : Nat) (q : Request κ) (w : World σ κ) : Option MachineError :=
  match h.perform k q w with
  | .error (.fault e) _ => some e
  | _ => none

theorem perform_of_fault {k : Nat} {q : Request κ} (he : h.fault? k q w = some e) :
    h.perform k q w = .error (.fault e) (h.next k q w) := by
  rw [fault?] at he
  rw [next]
  split at he
  · rename_i hp
    rw [hp, Option.some.inj he]
  · cases he

/-- Bodies that fail for want of space. -/
def full : Host Unit Unit where
  handlers _ := .empty
  body _ _ _ := .ret (.error (.behavior "work" "disk full"))

end Host

/-- Three states in a row, the second with an activity. -/
def fragileEdits : List (Edit Unit) :=
  [.addState ⟨0⟩ { name := "a" }, .addState ⟨0⟩ { name := "b", doActivity := .callback () },
    .addState ⟨0⟩ { name := "c" },
    .addTransition ⟨0⟩ { name := "a->b", source := ⟨0⟩, target := ⟨1⟩ },
    .addTransition ⟨0⟩ { name := "b->c", source := ⟨1⟩, target := ⟨2⟩ },
    .setStart ⟨0⟩ (some ⟨0⟩), .setFinal ⟨0⟩ (some ⟨2⟩)]

/-- A machine in a with a->b in its slot. -/
def fragile : World Unit Unit :=
  Host.full.next 3 (.queue ⟨0⟩ []) (Host.full.next 3 (.start [])
    (.fresh ((Graph.new "fragile").edited fragileEdits)))

def broken : World Unit Unit := Host.full.next 3 (.run .continuous) fragile

theorem idle_fragile : fragile.machine.Idle :=
  ⟨by decide +kernel, by decide +kernel, by decide +kernel⟩

theorem pending_fragile : fragile.machine.pending = some ⟨⟨0⟩, []⟩ := by rfl

theorem perform_fragile : Host.full.perform 3 (.run .continuous) fragile =
    .error (.fault (.behavior "work" "disk full")) broken :=
  Host.perform_of_fault (by decide +kernel)

theorem run_failed_fragile :
    Host.full.Makes (fun _ => False) ∧ fragile.machine.Idle ∧
      fragile.machine.pending = some ⟨⟨0⟩, []⟩ ∧ Host.full.perform 3 (.run .continuous) fragile =
        .error (.fault (.behavior "work" "disk full")) broken ∧
      ∃ ns, broken.notices = fragile.notices ++ ns ∧ ns.any Notice.isFiring = false ∧
        fragile.Undone broken ∧ (broken.machine.lastTransition = fragile.machine.lastTransition ↔
          ns.any Notice.isActivity = false ∨ fragile.machine.lastTransition = some ⟨0⟩) := by
  have hbodies : Host.full.Makes fun _ => False := fun _ _ _ => trivial
  exact ⟨hbodies, idle_fragile, pending_fragile, perform_fragile,
    Host.run_failed hbodies idle_fragile pending_fragile perform_fragile⟩

/-- The machine is back in a, yet notes a->b as its last transition. -/
theorem not_restored_fragile :
    Host.full.Makes (fun _ => False) ∧ fragile.machine.Idle ∧
      fragile.machine.pending = some ⟨⟨0⟩, []⟩ ∧ Host.full.perform 3 (.run .continuous) fragile =
        .error (.fault (.behavior "work" "disk full")) broken ∧
      fragile.machine.lastTransition = none ∧ broken.machine.lastTransition = some ⟨0⟩ :=
  ⟨fun _ _ _ => trivial, idle_fragile, pending_fragile, perform_fragile,
    by decide +kernel, by decide +kernel⟩

end Statechart
