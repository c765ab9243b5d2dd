import Statechart.Proofs.Machine.Candidates
import Statechart.Proofs.Machine.Work

/-!
# The parts of a move

A move leaves some states, changes the active state, enters some states and settles in the state
reached. The parts are named here, so that facts about moves can be put together from facts about
the parts.
-/

namespace Statechart

open Json

variable {σ κ : Type}

/-- The notice tells neither of a move nor of the slot nor of a firing. -/
def Notice.Incidental : Notice → Prop
  | .started _ | .eventDequeued _ | .guardEvaluated .. | .stateExited _ | .paused | .resumed => True
  | _ => False

/-- The notice tells of a move. -/
def Notice.Moving : Notice → Prop
  | .stateEntered _ | .activityInvoked _ | .rolledBack _ => True
  | _ => False

namespace Machine

/-- The states that a move from `old` to `new` leaves, innermost first. -/
def leaving (m : Machine κ) (external : Bool) (old : Option StateId)
    (new : StateId) : List StateId :=
  if external && old != some new then
    ((old.map m.scopedAncestors).getD []).filter (!(m.scopedAncestors new).contains ·)
  else []

/-- The states that a move from `old` to `new` enters, outermost first. -/
def entering (m : Machine κ) (external : Bool) (old : Option StateId)
    (new : StateId) : List StateId :=
  if external && old != some new then
    (m.scopedAncestors new).reverse.filter (!((old.map m.scopedAncestors).getD []).contains ·)
  else []

theorem leaving_none (m : Machine κ) (external : Bool) (new : StateId) :
    m.leaving external none new = [] := by
  rw [leaving]
  split <;> rfl

end Machine

namespace Engine

/-- Leaves some states, one after the other. -/
def leave (r : Responder σ κ) (args : List Value) (ss : List StateId) : Engine σ κ Unit := do
  beginPhase .exit
  ss.forM (leaveState r args)
  endPhase .exit

/-- Enters some states, one after the other. -/
def enterAll (r : Responder σ κ) (args : List Value) (ss : List StateId) : Engine σ κ Unit := do
  beginPhase .entry
  ss.forM (enterState r args)
  endPhase .entry

/-- Notes the transition of a move and runs the activity of the state reached. -/
def settle (r : Responder σ κ) (args : List Value) (via : Option TransitionId) (s : StateId) :
    Engine σ κ Unit := do
  update fun m => { m with lastTransition := via, firing := none }
  beginPhase .doActivity
  notify (.activityInvoked s)
  let _ ← invoke r .doActivity (.state s) args
  endPhase .doActivity

theorem cascade_eq (r : Responder σ κ) (old : Option StateId) (target : StateId)
    (via : Option TransitionId) (args : List Value) :
    cascade r old target via args = (do
      let m ← machine
      let external ← ofGraph (isExternal m.graph via)
      let state := m.graph.resolveEntryTarget target
      leave r args (m.leaving external old state)
      update fun m => { m with active := some state }
      enterAll r args (m.entering external old state)
      settle r args via state
      pure state) := by
  simp only [cascade, leave, enterAll, settle, bind_assoc]
  congr 1
  funext m
  congr 1
  funext external
  by_cases hc : (external && old != some (m.graph.resolveEntryTarget target)) = true
  · simp only [Machine.leaving, Machine.entering, if_pos hc]
  · simp only [Machine.leaving, Machine.entering, if_neg hc]
    rfl

theorem settle_eq (r : Responder σ κ) (args : List Value)
    (via : Option TransitionId) (s : StateId) :
    settle r args via s = (do
      update fun m => { m with lastTransition := via, firing := none }
      (do
        beginPhase .doActivity
        (do notify (.activityInvoked s); let _ ← invoke r .doActivity (.state s) args)
        endPhase .doActivity)) := by
  simp only [settle, bind_assoc, pure_bind]

/-! ## Phases -/

theorem phaseFlag_of_idle {p : Phase} (h : p = .idle) (o : Operation) : phaseFlag p o = false := by
  rw [h]
  cases o <;> rfl

/-- A phase that begins and ends leaves the flags as they were. -/
theorem setPhaseFlag_cancel {p : Phase} {o : Operation} (ho : phaseFlag p o = false) :
    setPhaseFlag (setPhaseFlag p o true) o false = p := by
  cases p
  cases o <;> simp only [setPhaseFlag, phaseFlag] at ho ⊢ <;> rw [ho]

/-- Work in a phase, which begins only if it is not under way. -/
theorem Triple.phase {P I : World σ κ → Prop} {Q : Unit → World σ κ → Prop}
    {E : Stop → World σ κ → Prop} {o : Operation} {x : Engine σ κ Unit}
    (hrefused : ∀ w, P w → phaseFlag w.machine.phase o = true →
      E (.fault (.unexpectedRecursion o)) w)
    (hbegun : ∀ w, P w → phaseFlag w.machine.phase o = false →
      I (w.mapMachine fun m => { m with phase := setPhaseFlag m.phase o true }))
    (hx : Triple I x (fun u w =>
      Q u (w.mapMachine fun m => { m with phase := setPhaseFlag m.phase o false })) E) :
    Triple P (do beginPhase o; x; endPhase o) Q E := by
  intro w hw
  rw [beginPhase, bind_assoc, machine_bind]
  cases ho : phaseFlag w.machine.phase o with
  | true => exact hrefused w hw ho
  | false => exact Triple.bind hx (fun _ _ hv => hv) _ (hbegun w hw ho)

/-- The condition says what the machine is by now, and goes with it through any change. -/
structure Tracks (P : Machine κ → World σ κ → Prop) : Prop where
  machine : ∀ {m w}, P m w → w.machine = m
  map : ∀ {m w} (f : Machine κ → Machine κ), P m w → P (f m) (w.mapMachine f)

section
variable {α : Type} {P P' : Machine κ → World σ κ → Prop} {m : Machine κ} {o : Operation}
  {Q : α → World σ κ → Prop} {E : Stop → World σ κ → Prop} (hP : Tracks P)
include hP

theorem Tracks.machine_bind {f : Machine κ → Engine σ κ α} (h : Triple (P m) (f m) Q E) :
    Triple (P m) (Engine.machine >>= f) Q E := by
  intro w hw
  rw [Engine.machine_bind, hP.machine hw]
  exact h w hw

theorem Tracks.update {f : Machine κ → Machine κ} : Triple (P m) (update f) (fun _ => P (f m)) E :=
  .update fun _ hw => hP.map f hw

theorem Tracks.beginPhase (ho : phaseFlag m.phase o = false) :
    Triple (P m) (beginPhase o) (fun _ => P { m with phase := setPhaseFlag m.phase o true }) E := by
  refine hP.machine_bind ?_
  rw [if_neg (ho ▸ Bool.false_ne_true)]
  exact hP.update

theorem Tracks.endPhase (ho : phaseFlag m.phase o = false) :
    Triple (P { m with phase := setPhaseFlag m.phase o true }) (endPhase o) (fun _ => P m) E := by
  refine .update fun w hw => ?_
  have hmap := hP.map (fun m => { m with phase := setPhaseFlag m.phase o false }) hw
  dsimp only at hmap
  rwa [setPhaseFlag_cancel ho] at hmap

end

end Engine
end Statechart
