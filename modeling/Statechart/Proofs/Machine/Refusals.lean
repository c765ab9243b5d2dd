import Statechart.Proofs.Machine.Arrivals
import Statechart.Proofs.Machine.Provenance
import Statechart.Proofs.Machine.Stances

/-!
# Refused moves

A start or a move that a body asks for amid another move fails, as the phases of a move do not nest.
It fails where it runs into the phase that is under way, and by then it may have left and entered
states. The active state is put back, but for a start, which forgets it before it begins.
-/

namespace Statechart

open Json

variable {σ κ α : Type}

/-- Whether a request is to be put into a state. -/
def Request.seeds : Request κ → Bool
  | .start _ | .goto .. => true
  | _ => false

/-- The state that a request to be put into a state asks for. -/
def Request.destination? (m : Machine κ) : Request κ → Option StateId
  | .start _ => (m.graph.definition? m.definition).bind (·.start)
  | .goto s _ => some s
  | _ => none

/-- The state that such a request sets out from: a start does so from none. -/
def Request.origin (m : Machine κ) : Request κ → Option StateId
  | .goto .. => m.active
  | _ => none

/-- The notice tells that a state has been left or entered. -/
def Notice.Crossing : Notice → Prop
  | .stateExited _ | .stateEntered _ => True
  | _ => False

/-- A move from `old` to `new` runs into the phase that is under way before it changes anything. -/
def Machine.Spares (m : Machine κ) (old : Option StateId) (new : StateId) : Prop :=
  m.phase.exit = true ∨ m.leaving true old new = [] ∧
    (m.phase.entry = true ∨ m.entering true old new = [] ∧ m.lastTransition =
      none ∧ m.firing = none)

instance (m : Machine κ) (old : Option StateId) (new : StateId) : Decidable (m.Spares old new) :=
  inferInstanceAs (Decidable (_ ∨ _ ∧ (_ ∨ _ ∧ _ ∧ _)))

namespace Call

/-- What has recurred, if the call has failed for that. -/
def recursion? : Call σ κ → Option Operation
  | ⟨_, _, .error (.unexpectedRecursion o), _⟩ => some o
  | _ => none

theorem recursion?_eq_some {c : Call σ κ} {o : Operation} (h : c.recursion? = some o) :
    c.outcome = .error (.unexpectedRecursion o) := by
  obtain ⟨q, before, outcome, after⟩ := c
  cases outcome with
  | ok a => cases h
  | error e =>
    cases e with
    | unexpectedRecursion o =>
      cases h
      rfl
    | _ => cases h

/-- The call asks to be put into a state amid a move, and is refused for that. -/
structure Refused (c : Call σ κ) : Prop where
  seeds : c.request.seeds = true
  moving : c.before.machine.phase.Moving
  refused : c.recursion?.isSome

/-- The call sets out from the active state, and the machine is spared. -/
def Spared (c : Call σ κ) : Prop :=
  c.before.machine.active = c.request.origin c.before.machine ∧
    ∃ s, c.request.destination? c.before.machine = some s ∧
      c.before.machine.Spares c.before.machine.active (c.before.machine.graph.resolveEntryTarget s)

/-- As far as anybody can tell the call has moved nothing. -/
structure Intact (c : Call σ κ) : Prop where
  active : c.after.machine.active = c.before.machine.active
  lastTransition : c.after.machine.lastTransition = c.before.machine.lastTransition
  firing : c.after.machine.firing = c.before.machine.firing
  told : ∃ told, c.after.notices = c.before.notices ++ told ∧ ∀ n ∈ told, ¬ n.Crossing

end Call

namespace World

/-- The notices begin so. -/
def Began (ns : List Notice) (w : World σ κ) : Prop := ns <+: w.notices

variable {ns : List Notice}

theorem heedless_began : Heedless (Began (σ := σ) (κ := κ) ns) where
  machine _ h := h
  logs _ h := h
  notify _ h := h.trans (List.prefix_append _ _)

theorem lax_began : Lax (Began (σ := σ) (κ := κ) ns) where
  machine _ h := h
  logs _ h := h
  env _ h := h
  now _ h := h
  notify _ h := heedless_began.notify _ h

end World

theorem Host.keeps_began (h : Host σ κ) (ns : List Notice) (n : Nat) (q : Request κ) :
    Engine.Keeps (World.Began ns) (h.perform n q) :=
  keeps_heedless World.heedless_began (fun hw => hw) (fun _ _ hw => hw) h n q

namespace Engine

variable {r : Responder σ κ} {w w' : World σ κ} {e : Stop} {o : Operation} {s : StateId}
  {args : List Value}

/-! ## Where a move is refused -/

theorem phase_refused {x : Engine σ κ Unit} (h : phaseFlag w.machine.phase o = true) :
    (do beginPhase o; x; endPhase o) w = .error (.fault (.unexpectedRecursion o)) w := by
  rw [beginPhase, bind_assoc, machine_bind, if_pos h]
  rfl

/-- A phase in which nothing happens. -/
theorem phase_empty (h : phaseFlag w.machine.phase o = false) :
    (do beginPhase o; pure (); endPhase o : Engine σ κ Unit) w = .ok () w := by
  rw [beginPhase, bind_assoc, machine_bind, if_neg (ne_true_of_eq_false h)]
  show EStateM.Result.ok () (w.mapMachine fun m =>
    { m with phase := setPhaseFlag (setPhaseFlag m.phase o true) o false }) = .ok () w
  rw [World.mapMachine, setPhaseFlag_cancel h]

/-- The work of a move by no transition, once it is known which states it leaves and enters. -/
def cross (r : Responder σ κ) (args : List Value) (left entered : List StateId) (new : StateId) :
    Engine σ κ StateId := do
  leave r args left
  update fun m => { m with active := some new }
  enterAll r args entered
  settle r args none new
  pure new

theorem cascade_eq_cross (old : Option StateId) (target : StateId) (args : List Value) :
    cascade r old target none args w =
      cross r args (w.machine.leaving true old (w.machine.graph.resolveEntryTarget target))
        (w.machine.entering true old (w.machine.graph.resolveEntryTarget target))
        (w.machine.graph.resolveEntryTarget target) w := by
  rw [cascade_eq, machine_bind]
  rfl

theorem cross_refused_exit (ls es : List StateId) (h : w.machine.phase.exit = true) :
    cross r args ls es s w = .error (.fault (.unexpectedRecursion .exit)) w :=
  bind_of_error (phase_refused h)

section
variable (hexit : w.machine.phase.exit = false)
include hexit

theorem cross_refused_entry (es : List StateId) (hentry : w.machine.phase.entry = true) :
    cross r args [] es s w =
      .error (.fault (.unexpectedRecursion .entry))
        (w.mapMachine ({ · with active := some s })) := by
  have hentered : enterAll r args es (w.mapMachine ({ · with active := some s })) =
      .error (.fault (.unexpectedRecursion .entry)) (w.mapMachine ({ · with active := some s })) :=
    phase_refused (o := .entry) hentry
  exact (bind_of_ok (phase_empty (o := .exit) hexit)).trans
    (bind_of_error (x := enterAll r args es) hentered)

theorem cross_refused_activity (hentry : w.machine.phase.entry = false)
    (hactivity : w.machine.phase.doActivity = true) :
    cross r args [] [] s w = .error (.fault (.unexpectedRecursion .doActivity))
      (w.mapMachine ({ · with active := some s, lastTransition := none, firing := none })) := by
  have hentered : enterAll r args [] (w.mapMachine ({ · with active := some s })) =
      .ok () (w.mapMachine ({ · with active := some s })) := phase_empty (o := .entry) hentry
  have hsettled : settle r args none s (w.mapMachine ({ · with active := some s })) =
      .error (.fault (.unexpectedRecursion .doActivity))
        (w.mapMachine ({ · with active := some s, lastTransition := none, firing := none })) := by
    rw [settle_eq]
    exact phase_refused (o := .doActivity) hactivity
  exact (bind_of_ok (phase_empty (o := .exit) hexit)).trans
    ((bind_of_ok hentered).trans (bind_of_error hsettled))

end

/-! ## What a move tells -/

section
variable (args) (hr : ∀ ns, r.Keeps (World.Began ns)) (ns : List Notice)
include hr

/-- The first state of a phase is told of. -/
theorem began_phase {n : StateId → Notice} {a : Action} (s : StateId) (ss : List StateId) :
    Triple (fun w => phaseFlag w.machine.phase o = false ∧ w.notices = ns) (do
        beginPhase o
        (s :: ss).forM fun s => do notify (n s); let _ ← invoke r a (.state s) args
        endPhase o : Engine σ κ Unit)
      (fun _ => World.Began (ns ++ [n s])) fun _ => World.Began (ns ++ [n s]) := by
  have hannounced (s' : StateId) : Keeps (World.Began (ns ++ [n s]))
      (do notify (n s'); let _ ← invoke r a (.state s') args : Engine σ κ Unit) :=
    .seq (.notify fun _ hw => World.heedless_began.notify _ hw)
      (.seq (keeps_invoke (hr _) a (.state s') args) .pure)
  refine .phase (I := fun w => w.notices = ns) (fun w hw ho => by cases hw.1.symm.trans ho)
    (fun w hw _ => hw.2) ?_
  refine .bind (Q := fun _ => World.Began (ns ++ [n s])) ?_ fun _ =>
    Keeps.forM fun s' _ => hannounced s'
  refine .bind (.notify fun w hw => ?_) fun _ =>
    .bind (keeps_invoke (hr _) a (.state s) args) fun _ _ hw => hw
  rw [← hw]
  exact List.prefix_rfl

theorem began_cross_left (s : StateId) (ls es : List StateId) (new : StateId) :
    Triple (fun w => w.machine.phase.exit = false ∧ w.notices = ns) (cross r args (s :: ls) es new)
      (fun _ => World.Began (ns ++ [.stateExited s])) fun _ =>
        World.Began (ns ++ [.stateExited s]) := by
  have hmove {n : Notice} {w : World σ κ} (_ : n.Moving)
      (hw : w.Began (ns ++ [.stateExited s])) : (w.notify n).Began (ns ++ [.stateExited s]) :=
    World.heedless_began.notify _ hw
  have henter := keeps_enterAll World.lax_began (hr (ns ++ [.stateExited s])) hmove args es
  have hsettle := keeps_settle World.lax_began (hr (ns ++ [.stateExited s])) hmove args none new
  have hmoved : Keeps (World.Began (ns ++ [.stateExited s]))
      (update fun m => { m with active := some new } : Engine σ κ Unit) := .update fun _ hw => hw
  refine .bind (began_phase (o := .exit) args hr ns s ls) fun _ => ?_
  exact hmoved.seq (henter.seq (hsettle.seq .pure))

theorem began_cross_entered (s : StateId) (es : List StateId) (new : StateId) :
    Triple (fun w => w.machine.phase.exit = false ∧ w.machine.phase.entry = false ∧ w.notices = ns)
      (cross r args [] (s :: es) new)
      (fun _ => World.Began (ns ++ [.stateEntered s])) fun _ =>
        World.Began (ns ++ [.stateEntered s]) := by
  rintro w ⟨hexit, hentry, hnotices⟩
  rw [show cross r args [] (s :: es) new w = _ from bind_of_ok (phase_empty (o := .exit) hexit)]
  refine Triple.bind (Q := fun _ w => w.machine.phase.entry = false ∧ w.notices = ns)
    (.update fun _ hw => hw) (fun _ => ?_) w ⟨hentry, hnotices⟩
  refine .bind (began_phase (o := .entry) args hr ns s es) fun _ => ?_
  exact .bind (keeps_settle World.lax_began (hr _)
    (fun _ hw => World.heedless_began.notify _ hw) args none new)
    fun _ _ hw => hw

end

/-! ## Refused moves -/

/-- A move that fails puts the machine back, whatever has been done by then. -/
theorem enter_of_error (h : enter r s none args w = .error e w') :
    ∃ v, cascade r w.machine.active s none args w = .error e v ∧
      w' = ((v.mapMachine ({ · with phase := w.machine.phase })).mapMachine
        ({ · with active := w.machine.active })).notify (.rolledBack w.machine.active) := by
  rw [enter, machine_bind, onFailure, thenAlways] at h
  cases hv : cascade r w.machine.active s none args w with
  | ok a v =>
    rw [hv] at h
    cases h
  | error e v =>
    rw [hv] at h
    cases h
    exact ⟨v, rfl, rfl⟩

/-- A move that fails amid another has moved nothing if the machine is spared. -/
theorem enter_of_spares (hmoving : w.machine.phase.Moving)
    (hspares : w.machine.Spares w.machine.active (w.machine.graph.resolveEntryTarget s))
    (h : enter r s none args w = .error e w') : w' = w.notify (.rolledBack w.machine.active) := by
  obtain ⟨v, hv, rfl⟩ := enter_of_error h
  rw [cascade_eq_cross] at hv
  cases hexit : w.machine.phase.exit with
  | true =>
    rw [cross_refused_exit _ _ hexit] at hv
    cases hv
    rfl
  | false =>
    obtain ⟨hleaving, hentered⟩ := hspares.resolve_left (ne_true_of_eq_false hexit)
    rw [hleaving] at hv
    cases hentry : w.machine.phase.entry with
    | true =>
      rw [cross_refused_entry hexit _ hentry] at hv
      cases hv
      rfl
    | false =>
      obtain ⟨hentering, hlast, hfiring⟩ := hentered.resolve_left (ne_true_of_eq_false hentry)
      have hactivity : w.machine.phase.doActivity = true :=
        (hmoving.resolve_left (ne_true_of_eq_false hexit)).resolve_left (ne_true_of_eq_false hentry)
      rw [hentering, cross_refused_activity hexit hentry hactivity] at hv
      cases hv
      exact congrArg₂ (fun t t' =>
        (w.mapMachine ({ · with lastTransition := t, firing := t' })).notify
        (.rolledBack w.machine.active)) hlast.symm hfiring.symm

/-- A move that fails amid another and has moved nothing as far as anybody can tell has spared the
machine. -/
theorem spares_of_enter (hr : ∀ ns, r.Keeps (World.Began ns)) (hmoving : w.machine.phase.Moving)
    (hlast : w'.machine.lastTransition = w.machine.lastTransition)
    (hfiring : w'.machine.firing = w.machine.firing) {told : List Notice}
    (htold : w'.notices = w.notices ++ told) (hcrossing : ∀ n ∈ told, ¬ n.Crossing)
    (h : enter r s none args w = .error e w') :
    w.machine.Spares w.machine.active (w.machine.graph.resolveEntryTarget s) := by
  obtain ⟨v, hv, rfl⟩ := enter_of_error h
  rw [cascade_eq_cross] at hv
  have huncrossed {n : Notice} (hn : n.Crossing) (hbegan : v.Began (w.notices ++ [n])) : False := by
    have hprefix : w.notices ++ [n] <+: w.notices ++ told :=
      htold ▸ hbegan.trans (List.prefix_append _ _)
    obtain ⟨rest, hrest⟩ := (List.prefix_append_right_inj w.notices).mp hprefix
    exact hcrossing n (hrest ▸ List.mem_cons_self) hn
  cases hexit : w.machine.phase.exit with
  | true => exact .inl hexit
  | false =>
    refine .inr ?_
    cases hleaving : w.machine.leaving true w.machine.active
        (w.machine.graph.resolveEntryTarget s) with
    | cons s' ls =>
      have hbegan := began_cross_left args hr w.notices s' ls
        (w.machine.entering true w.machine.active (w.machine.graph.resolveEntryTarget s))
        (w.machine.graph.resolveEntryTarget s) w ⟨hexit, rfl⟩
      rw [hleaving] at hv
      rw [hv] at hbegan
      exact (huncrossed (n := .stateExited s') trivial hbegan).elim
    | nil =>
      rw [hleaving] at hv
      refine ⟨rfl, ?_⟩
      cases hentry : w.machine.phase.entry with
      | true => exact .inl rfl
      | false =>
        refine .inr ?_
        cases hentering : w.machine.entering true w.machine.active
            (w.machine.graph.resolveEntryTarget s) with
        | cons s' es =>
          have hbegan := began_cross_entered args hr w.notices s' es
            (w.machine.graph.resolveEntryTarget s) w ⟨hexit, hentry, rfl⟩
          rw [hentering] at hv
          rw [hv] at hbegan
          exact (huncrossed (n := .stateEntered s') trivial hbegan).elim
        | nil =>
          have hactivity : w.machine.phase.doActivity = true :=
            (hmoving.resolve_left (ne_true_of_eq_false hexit)).resolve_left
              (ne_true_of_eq_false hentry)
          rw [hentering, cross_refused_activity hexit hentry hactivity] at hv
          cases hv
          exact ⟨rfl, hlast.symm, hfiring.symm⟩

/-- What comes after the move does not fail. -/
theorem seed_of_error (h : seed r s args w = .error e w') : enter r s none args w = .error e w' :=
  error_of_bind h fun _ _ _ hnever => by cases hnever

/-- A start that is refused is refused as a move out of no state. -/
theorem start_of_refused (h : start r args w = .error (.fault (.unexpectedRecursion o)) w') :
    ∃ s, Request.destination? w.machine (.start args : Request κ) = some s ∧
      enter r s none args (w.mapMachine ({ · with active := none })) =
        .error (.fault (.unexpectedRecursion o)) w' := by
  rw [start, machine_bind] at h
  cases hd : w.machine.graph.definition? w.machine.definition with
  | none =>
    rw [Graph.definition, hd] at h
    cases h
  | some d =>
    rw [Graph.definition, hd] at h
    cases hs : d.start with
    | none =>
      simp only [ofGraph, pure_bind, hs] at h
      cases h
    | some s =>
      simp only [ofGraph, pure_bind, hs] at h
      refine ⟨s, ?_, ?_⟩
      · rw [Request.destination?, hd]
        exact hs
      · refine seed_of_error (error_of_bind (f := fun s => do notify (.started s); pure s) h ?_)
        exact fun _ _ _ hnever => by cases hnever

theorem goto_of_refused (h : goto r s args w = .error (.fault (.unexpectedRecursion o)) w') :
    enter r s none args w = .error (.fault (.unexpectedRecursion o)) w' := by
  rw [goto, machine_bind] at h
  cases hs : w.machine.graph.state s with
  | error e =>
    rw [hs] at h
    cases h
  | ok st =>
    simp only [hs, ofGraph, pure_bind] at h
    split at h
    · exact seed_of_error h
    · cases h

end Engine

namespace Host

variable {h : Host σ κ} {n : Nat} {q : Request κ} {w : World σ κ} {c : Call σ κ}

/-- A refused call is a move that fails. -/
theorem enter_of_refused (hc : c ∈ h.calls n q w) (hrefused : c.Refused) :
    ∃ k s args e,
    c.request.destination? c.before.machine = some s ∧
    Engine.enter (h.responder (h.perform k)) s none args
      (c.before.mapMachine ({ · with active := c.request.origin c.before.machine })) =
        .error e c.after := by
  obtain ⟨k, hk⟩ := carryOut_of_mem_calls hc
  obtain ⟨o, ho⟩ := Option.isSome_iff_exists.mp hrefused.refused
  have herror : Engine.carryOut (h.responder (h.perform k)) (h.hook k) k c.request c.before =
      .error (.fault (.unexpectedRecursion o)) c.after := by
    rw [Call.recursion?_eq_some ho] at hk
    rcases Engine.of_attempt hk with ⟨a, ha, -⟩ | ⟨e, he, herror⟩
    · cases ha
    · cases he
      exact herror
  obtain ⟨q, before, outcome, after⟩ := c
  cases q with
  | start args =>
    obtain ⟨s, hs, hentered⟩ := Engine.start_of_refused herror
    exact ⟨k, s, args, _, hs, hentered⟩
  | goto s args => exact ⟨k, s, args, _, rfl, Engine.goto_of_refused herror⟩
  | _ => cases hrefused.seeds

theorem began_responder (h : Host σ κ) (n : Nat) (ns : List Notice) :
    (h.responder (h.perform n)).Keeps (World.Began ns) :=
  keeps_responder (fun _ _ hw => hw) h.makes_any fun q _ => h.keeps_began ns n q

/-- Of the calls that bodies make during an operation, one that asks to be put into a state amid a
move and is refused puts back the phases and the state that it set out from. It moves nothing if the
machine is spared, and only then. The operation ends in the state that it reports if it succeeds,
unless a start that has failed left no state active or the machine was put elsewhere while no run
was under way. -/
theorem refused_moves (h : Host σ κ) (n : Nat) (q : Request κ) (w : World σ κ) :
    (∀ c ∈ h.calls n q w, c.Refused →
      c.after.machine.phase = c.before.machine.phase ∧
      c.after.machine.active = c.request.origin c.before.machine ∧
      (c.Spared → c.after = c.before.notify (.rolledBack c.before.machine.active)) ∧
      (c.Intact → c.Spared)) ∧
    h.Arrives n w := by
  refine ⟨fun c hc hrefused => ?_, h.arrives n w⟩
  obtain ⟨k, s, args, e, hs, hentered⟩ := enter_of_refused hc hrefused
  obtain ⟨v, -, hafter⟩ := Engine.enter_of_error hentered
  have hactive : c.after.machine.active = c.request.origin c.before.machine := by
    rw [hafter]
    rfl
  -- A move that sets out from the active state sets out from the world as it is.
  have hentered' (horigin : c.before.machine.active = c.request.origin c.before.machine) :
      Engine.enter (h.responder (h.perform k)) s none args c.before = .error e c.after := by
    rw [← horigin] at hentered
    exact hentered
  refine ⟨?_, hactive, ?_, fun hintact => ?_⟩
  · rw [hafter]
    rfl
  · rintro ⟨horigin, s', hs', hspares⟩
    cases hs.symm.trans hs'
    exact Engine.enter_of_spares hrefused.moving hspares (hentered' horigin)
  · have horigin : c.before.machine.active = c.request.origin c.before.machine :=
      hintact.active.symm.trans hactive
    obtain ⟨told, htold, hcrossing⟩ := hintact.told
    exact ⟨horigin, s, hs,
      Engine.spares_of_enter (h.began_responder k) hrefused.moving hintact.lastTransition
      hintact.firing htold hcrossing (hentered' horigin)⟩

end Host

/-- The activity that a move comes to asks for the move again. -/
theorem refused_moves_relay :
    ((Host.asking (.goto ⟨1⟩ [])).calls 4 (.goto ⟨1⟩ []) relay).length = 1 ∧
    ∀ c ∈ (Host.asking (.goto ⟨1⟩ [])).calls 4 (.goto ⟨1⟩ []) relay,
      c.Refused ∧ c.after = c.before.notify (.rolledBack c.before.machine.active) := by
  have hrefused : ∀ c ∈ (Host.asking (.goto ⟨1⟩ [])).calls 4 (.goto ⟨1⟩ []) relay,
      c.request.seeds = true ∧ c.before.machine.phase.Moving ∧
      c.recursion?.isSome := by decide +kernel
  have hspared : ∀ c ∈ (Host.asking (.goto ⟨1⟩ [])).calls 4 (.goto ⟨1⟩ []) relay,
      c.before.machine.active = c.request.origin c.before.machine ∧ ∃ s,
      s ∈ c.request.destination? c.before.machine ∧
        c.before.machine.Spares c.before.machine.active
          (c.before.machine.graph.resolveEntryTarget s) := by
    decide +kernel
  refine ⟨by decide +kernel, fun c hc => ?_⟩
  obtain ⟨hseeds, hmoving, hrecursion⟩ := hrefused c hc
  have hc' : c.Refused := ⟨hseeds, hmoving, hrecursion⟩
  exact ⟨hc', ((Host.refused_moves _ 4 (.goto ⟨1⟩ []) relay).1 c hc hc').2.2.1 (hspared c hc)⟩

/-- The machine is put into the state in the middle, and its activity asks for a start, which is
refused. The state is reported, but none is active. -/
theorem refused_start_relay :
    (∃ c ∈ (Host.asking (.start [])).calls 4 (.goto ⟨1⟩ []) relay, c.Refused ∧ ¬ c.Intact) ∧
    (Engine.attempt ((Host.asking (.start [])).perform 4 (.goto ⟨1⟩ []))).answer? relay =
      some (.ok ⟨1⟩) ∧
    (((Host.asking (.start [])).perform 4 (.goto ⟨1⟩ [])).after relay).machine.active = none := by
  have hlost : ∃ c ∈ (Host.asking (.start [])).calls 4 (.goto ⟨1⟩ []) relay,
      (c.request.seeds = true ∧ c.before.machine.phase.Moving ∧ c.recursion?.isSome) ∧
      c.after.machine.active ≠ c.before.machine.active := by decide +kernel
  obtain ⟨c, hc, ⟨hseeds, hmoving, hrecursion⟩, hactive⟩ := hlost
  exact ⟨⟨c, hc, ⟨hseeds, hmoving, hrecursion⟩, fun hintact => hactive hintact.active⟩,
    by rfl, by decide +kernel⟩

end Statechart
