import Statechart.Proofs.Machine.Stations
import Statechart.Proofs.Machine.Trail

/-!
# Setbacks

A start, or a move into a state, may fail before anything is run, at any exit or entry, or in the
activity of the state reached. With bodies that make no requests it leaves the queues and the
history alone. A start that has begun to move leaves no state active, though, and either leaves no
transition noted as the last one if it is the activity that fails.
-/

namespace Statechart

open Json

variable {σ κ : Type}

/-- The state that a start enters, before its substates are looked at. -/
def Machine.start? (m : Machine κ) : Option StateId :=
  (m.graph.definition? m.definition).bind (·.start)

/-- The machine has been set back to the given one, but for its last transition if an activity has
been run. -/
def World.SetBack (w : World σ κ) (m : Machine κ) (w' : World σ κ) : Prop :=
  ∃ ns, w'.notices = w.notices ++ ns ∧ w'.logs = w.logs ∧
    w'.machine =
      { m with lastTransition := if ns.any Notice.isActivity then none else m.lastTransition }

theorem World.SetBack.refl {w : World σ κ} : w.SetBack w.machine w :=
  ⟨[], (List.append_nil _).symm, rfl, rfl⟩

/-- The activity comes last. -/
theorem Machine.any_isActivity {m : Machine κ} {external : Bool} {old : Option StateId}
    {new : StateId} {done rest : List Station} {st : Station}
    (hroute : m.stations external old new = done ++ st :: rest) :
    ((done ++ [st]).map Station.notice).any Notice.isActivity = st.notice.isActivity := by
  have hdone : ∀ x ∈ done, x.notice.isActivity = false := by
    intro x hx
    have hbefore : x ∈ (m.stations external old new).dropLast := by
      rw [hroute, List.dropLast_append_cons]
      exact List.mem_append_left _ hx
    rw [stations, ← List.append_assoc, List.dropLast_concat, List.mem_append, List.mem_map,
      List.mem_map] at hbefore
    obtain ⟨s, -, rfl⟩ | ⟨s, -, rfl⟩ := hbefore <;> rfl
  have hnone : (done.map Station.notice).any Notice.isActivity = false := by
    rw [List.any_map, List.any_eq_false]
    exact fun x hx => ne_true_of_eq_false (hdone x hx)
  rw [List.map_append, List.any_append, hnone, Bool.false_or, List.map_singleton,
    List.any_cons, List.any_nil, Bool.or_false]

namespace Engine

variable {r : Responder σ κ} {w : World σ κ} {m : Machine κ}

section
variable (hr : r.Aloof)
include hr

theorem setBack_enter (hphase : m.phase = .idle) (hfiring : m.firing = none) (s : StateId)
    (args : List Value) :
    Triple (· = w.reaching m [] w.env) (enter r s none args) (fun _ _ => True)
      fun _ => w.SetBack m := by
  let new := m.graph.resolveEntryTarget s
  have hexternal : isExternal m.graph none = .ok true := rfl
  have hfirst : m.stations true m.active new = [] ++ m.stations true m.active new := rfl
  refine (at_enter (w := w) hr hphase hexternal rfl hfirst).mono (fun v hv => ⟨w.env, .start, hv⟩)
    (fun _ _ _ => trivial) ?_
  rintro e _ ⟨u, ⟨done, st, rest, env, hroute, -, -, hst⟩, rfl⟩
  have hstranded := reaching_of_error hr hst
  have hnotices : (u.rolledBack m).notices =
      w.notices ++ ((done ++ [st]).map Station.notice ++ [Notice.rolledBack m.active]) := by
    rw [← List.append_assoc, ← notices_of_error hr hst]
    rfl
  have hactivity : ((done ++ [st]).map Station.notice ++ [Notice.rolledBack m.active]).any
      Notice.isActivity = st.notice.isActivity := by
    rw [List.any_append, Machine.any_isActivity hroute]
    exact Bool.or_false _
  refine ⟨_, hnotices, ?_, ?_⟩
  · rw [hstranded]
    rfl
  · rw [hstranded, hactivity]
    cases st with
    | activity new =>
      change ({ m with lastTransition := none, firing := none } : Machine κ) =
        { m with lastTransition := none }
      rw [← hfiring]
    | _ => rfl

/-- Once a state has been entered nothing fails. -/
theorem setBack_seed (hphase : m.phase = .idle) (hfiring : m.firing = none) (s : StateId)
    (args : List Value) :
    Triple (· = w.reaching m [] w.env) (seed r s args) (fun _ _ => True) fun _ => w.SetBack m :=
  .bind (setBack_enter hr hphase hfiring s args) fun _ _ _ => trivial

theorem setBack_goto (hidle : w.machine.Idle) (s : StateId) (args : List Value) :
    Triple (· = w) (goto r s args) (fun _ _ => True) fun _ => w.SetBack w.machine := by
  refine .bind (Q := fun _ v => v = w) (fun _ hv => hv) fun m => ?_
  refine .bind (.ofGraph fun _ _ hv => hv ▸ .refl) fun st => ?_
  split
  · refine (setBack_seed hr hidle.phase hidle.firing s args).mono_pre fun v hv => ?_
    rw [hv, World.reaching, List.map_nil, List.append_nil]
  · exact fun _ hv => hv ▸ .refl

theorem setBack_start (hidle : w.machine.Idle) (args : List Value) :
    Triple (· = w) (start r args) (fun _ _ => True)
      fun _ v => (w.machine.start? = none ∧ w.SetBack w.machine v) ∨
        w.machine.start? ≠ none ∧ w.SetBack { w.machine with active := none } v := by
  intro v hv
  rw [hv, start, machine_bind, Graph.definition, Machine.start?]
  cases w.machine.graph.definition? w.machine.definition with
  | none => exact Or.inl ⟨rfl, .refl⟩
  | some d =>
    simp only [ofGraph, pure_bind, Option.bind_some]
    cases d.start with
    | none => exact Or.inl ⟨rfl, .refl⟩
    | some s =>
      have hseed := setBack_seed (w := w) (m := { w.machine with active := none }) hr hidle.phase
        hidle.firing s args
      refine (Triple.seq (.update fun u hu => ?_)
        (hseed.bind fun _ _ _ => trivial)).mono_error ?_ w rfl
      · rw [hu, World.reaching, List.map_nil, List.append_nil]
        rfl
      · exact fun _ u hu => .inr ⟨Option.some_ne_none s, hu⟩

end

end Engine

/-- With bodies that make no requests, whatever a start or a move into a state fails with, the
queues, the history and all else are as before, but for the active state and the last transition.
The active state is as before unless it was the start, of a definition with a start state, on a
machine with a state active: then there is none. The last transition is as before unless an activity
was run and there was one: then there is none. -/
theorem Host.seed_failed {h : Host σ κ} {q : Request κ} {w w' : World σ κ} {n : Nat}
    {e : MachineError} (hbodies : h.Makes fun _ => False) (hidle : w.machine.Idle) (hq : q.Seeds)
    (hfailed : h.perform n q w = .error (.fault e) w') :
    ∃ ns, w'.notices = w.notices ++ ns ∧ w'.logs = w.logs ∧
      w'.machine =
        { w.machine with
          active := w'.machine.active, lastTransition := w'.machine.lastTransition } ∧
      (w'.machine.active = w.machine.active ↔
        w.machine.active = none ∨ (q.Starts → w.machine.start? = none)) ∧
      (w'.machine.lastTransition = w.machine.lastTransition ↔
        w.machine.lastTransition = none ∨ ns.any Notice.isActivity = false) ∧
      (w'.machine.active = w.machine.active → w'.machine.atStart = w.machine.atStart ∧
        w'.machine.atEnd = w.machine.atEnd ∧ ∀ s, w'.machine.isActive s =
          w.machine.isActive s) := by
  obtain ⟨active, ⟨ns, hns, hlogs, hmachine⟩, hactive⟩ : ∃ active,
      w.SetBack { w.machine with active } w' ∧
      (active = w.machine.active ↔ w.machine.active = none ∨
        (q.Starts → w.machine.start? = none)) := by
    cases n with
    | zero => cases hfailed
    | succ n =>
      have hr := h.aloof_responder hbodies (h.perform n)
      cases q with
      | start args =>
        have hstart := Engine.setBack_start hr hidle args w rfl
        have hfailed' : Engine.start (h.responder (h.perform n)) args w =
          .error (.fault e) w' := hfailed
        rw [hfailed'] at hstart
        obtain ⟨hnone, hback⟩ | ⟨hsome, hback⟩ := hstart
        · exact ⟨_, hback, iff_of_true rfl (.inr fun _ => hnone)⟩
        · refine ⟨none, hback, fun heq => .inl heq.symm, ?_⟩
          rintro (hnone | hnone)
          · exact hnone.symm
          · exact absurd (hnone trivial) hsome
      | goto s args =>
        have hgoto := Engine.setBack_goto hr hidle s args w rfl
        have hfailed' : Engine.goto (h.responder (h.perform n)) s args w =
          .error (.fault e) w' := hfailed
        rw [hfailed'] at hgoto
        exact ⟨_, hgoto, iff_of_true rfl (.inr False.elim)⟩
      | _ => exact hq.elim
  refine ⟨ns, hns, hlogs, by rw [hmachine], by rw [hmachine, ← hactive], ?_, fun heq => ?_⟩
  · rw [hmachine]
    cases ns.any Notice.isActivity with
    | false => exact iff_of_true rfl (.inr rfl)
    | true => exact ⟨fun heq => .inl heq.symm, fun ho => (ho.resolve_right nofun).symm⟩
  · rw [hmachine] at heq ⊢
    have heq : active = w.machine.active := heq
    rw [heq]
    exact ⟨rfl, rfl, fun _ => rfl⟩

/-! ## A start over that fails -/

/-- Three states, the first with an activity, and a way from the second to the third. -/
def restartEdits : List (Edit Unit) :=
  [.addState ⟨0⟩ { name := "a", doActivity := .callback () }, .addState ⟨0⟩ { name := "b" },
    .addState ⟨0⟩ { name := "c" },
    .addTransition ⟨0⟩ { name := "b->c", source := ⟨1⟩, target := ⟨2⟩ },
    .setStart ⟨0⟩ (some ⟨0⟩)]

/-- A machine that has been put into b and has gone to c. -/
def advanced : World Unit Unit :=
  Host.full.next 3 (.run .continuous)
    (Host.full.next 3 (.queue ⟨0⟩ []) (Host.full.next 3 (.goto ⟨1⟩ [])
    (.fresh ((Graph.new "restart").edited restartEdits))))

def mislaid : World Unit Unit := Host.full.next 3 (.start []) advanced

theorem idle_advanced : advanced.machine.Idle :=
  ⟨by decide +kernel, by decide +kernel, by decide +kernel⟩

theorem perform_advanced :
    Host.full.perform 3 (.start []) advanced =
      .error (.fault (.behavior "work" "disk full")) mislaid :=
  Host.perform_of_fault (by decide +kernel)

theorem seed_failed_advanced :
    Host.full.Makes (fun _ => False) ∧ advanced.machine.Idle ∧
      (Request.start [] : Request Unit).Seeds ∧
      Host.full.perform 3 (.start []) advanced =
        .error (.fault (.behavior "work" "disk full")) mislaid ∧
      ∃ ns, mislaid.notices = advanced.notices ++ ns ∧ mislaid.logs = advanced.logs ∧
        mislaid.machine = { advanced.machine with
          active := mislaid.machine.active, lastTransition := mislaid.machine.lastTransition } ∧
        (mislaid.machine.active = advanced.machine.active ↔ advanced.machine.active = none ∨
          ((Request.start [] : Request Unit).Starts → advanced.machine.start? = none)) ∧
        (mislaid.machine.lastTransition = advanced.machine.lastTransition ↔
          advanced.machine.lastTransition = none ∨ ns.any Notice.isActivity = false) ∧
        (mislaid.machine.active = advanced.machine.active → mislaid.machine.atStart =
          advanced.machine.atStart ∧
          mislaid.machine.atEnd = advanced.machine.atEnd ∧
          ∀ s, mislaid.machine.isActive s = advanced.machine.isActive s) := by
  have hbodies : Host.full.Makes fun _ => False := fun _ _ _ => trivial
  exact ⟨hbodies, idle_advanced, trivial, perform_advanced,
    Host.seed_failed hbodies idle_advanced trivial perform_advanced⟩

/-- The machine was in c and is in no state, and no longer knows what led it there. -/
theorem mislaid_advanced :
    Host.full.Makes (fun _ => False) ∧ advanced.machine.Idle ∧
      Host.full.perform 3 (.start []) advanced =
        .error (.fault (.behavior "work" "disk full")) mislaid ∧
      advanced.machine.active = some ⟨2⟩ ∧ mislaid.machine.active = none ∧
      advanced.machine.lastTransition = some ⟨0⟩ ∧ mislaid.machine.lastTransition = none ∧
      advanced.machine.isActive ⟨2⟩ = true ∧ mislaid.machine.isActive ⟨2⟩ = false :=
  ⟨fun _ _ _ => trivial, idle_advanced, perform_advanced,
    by decide +kernel, by decide +kernel, by decide +kernel,
    by decide +kernel, by decide +kernel, by decide +kernel⟩

end Statechart
