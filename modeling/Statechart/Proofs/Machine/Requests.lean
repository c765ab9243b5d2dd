import Statechart.Proofs.Machine.LockstepRuns

/-!
# What requests keep

Most of what a machine does is bookkeeping around a few steps: it asks guards, sets flags and
appends records. A condition that only the place of the machine, its slot and whether it runs have a
part in is kept by all of that, and by a request as soon as the steps that matter keep it: such a
request is in lockstep with itself.
-/

namespace Statechart

variable {σ κ : Type}

/-- The bookkeeping of a machine has no part in the condition. -/
structure World.Lax (I : World σ κ → Prop) : Prop where
  machine : ∀ {w m}, Machine.Alike w.machine m → I w → I { w with machine := m }
  logs : ∀ {w} logs, I w → I { w with logs }
  env : ∀ {w} env, I w → I { w with env }
  now : ∀ {w} now, I w → I { w with now }
  notify : ∀ {w n}, Notice.Incidental n → I w → I (w.notify n)

/-- Requests that may move the machine, fire a transition or replace what the machine works on. -/
def Request.Moves : Request κ → Prop
  | .start _ | .goto .. | .run _ | .runWith .. | .runEvents | .dispatch _ | .isolate | .edit _
  | .restore _ => True
  | _ => False

namespace Comparison

variable {I : World σ κ → Prop} (hlax : World.Lax I)
include hlax

theorem selects_within : (within I : Comparison σ σ κ).Selects .same where
  like h := World.like_of_eq h.1
  guarded | _, rfl, h => ⟨by rw [h.1], hlax.notify trivial h.2⟩

theorem posts_within : (within I : Comparison σ σ κ).Posts .same where
  toSelects := selects_within hlax
  starves := trivial
  running h := by rw [h.1]
  paused h := by rw [h.1]
  events h := by rw [h.1]
  setPaused _ h := ⟨by rw [h.1], hlax.machine ⟨rfl, rfl, rfl, rfl, rfl⟩ h.2⟩
  setEvents _ h := ⟨by rw [h.1], hlax.machine ⟨rfl, rfl, rfl, rfl, rfl⟩ h.2⟩
  stopped h := ⟨by rw [h.1], hlax.notify trivial h.2⟩
  resumed h := ⟨by rw [h.1], hlax.notify trivial h.2⟩
  dequeued _ h := ⟨by rw [h.1], hlax.notify trivial h.2⟩

theorem handles_within : (within I : Comparison σ σ κ).Handles .same where
  toPosts := posts_within hlax
  setEvent _ h := ⟨by rw [h.1], hlax.machine ⟨rfl, rfl, rfl, rfl, rfl⟩ h.2⟩
  setTrigger _ h := ⟨by rw [h.1], hlax.machine ⟨rfl, rfl, rfl, rfl, rfl⟩ h.2⟩

end Comparison

namespace Engine

open Json

variable {I : World σ κ → Prop} {r : Responder σ κ}

section
variable (hlax : World.Lax I)
include hlax

theorem keeps_update {f : Machine κ → Machine κ}
    (hf : ∀ m, Machine.Alike m (f m)) : Keeps I (update f) :=
  .update fun w hw => hlax.machine (hf w.machine) hw

theorem keeps_notify {n : Notice} (hn : n.Incidental) : Keeps I (notify n : Engine σ κ Unit) :=
  .notify fun _ hw => hlax.notify hn hw

theorem keeps_beginPhase (o : Operation) : Keeps I (beginPhase o : Engine σ κ Unit) := by
  refine .bind .machine fun m => ?_
  split
  · exact .fail
  · exact keeps_update hlax fun _ => ⟨rfl, rfl, rfl, rfl, rfl⟩

theorem keeps_endPhase (o : Operation) : Keeps I (endPhase o : Engine σ κ Unit) :=
  keeps_update hlax fun _ => ⟨rfl, rfl, rfl, rfl, rfl⟩

theorem keeps_setCurrent (event : Option Event) (trigger : Option String) :
    Keeps I (setCurrent event trigger : Engine σ κ Unit) :=
  keeps_update hlax fun _ => ⟨rfl, rfl, rfl, rfl, rfl⟩

theorem keeps_recordHistory (previous : Option StateId) (t : Option TransitionId) (new : StateId) :
    Keeps I (recordHistory previous t new : Engine σ κ Unit) := by
  refine .modify fun w hw => ?_
  split
  · exact hlax.logs _ hw
  · exact hw

theorem keeps_clearHistory : Keeps I (clearHistory : Engine σ κ Unit) :=
  .modify fun _ hw => hlax.logs _ hw

theorem keeps_reenter : Keeps I (reenter : Engine σ κ RunOutcome) :=
  keeps_iff_matches.mpr (matches_reenter (Comparison.posts_within hlax).toSteers)

theorem keeps_takeEvent : Keeps I (takeEvent : Engine σ κ (Option Event)) :=
  keeps_iff_matches.mpr (matches_takeEvent (Comparison.posts_within hlax))

/-! ## Asking behaviors -/

variable (hr : r.Keeps I)
include hr

omit hlax in
theorem keeps_invoke (a : Action) (s : Subject) (args : List Value) :
    Keeps I (invoke r a s args) := by
  refine .bind .machine fun m => .bind .ofGraph fun ⟨element, behavior⟩ => ?_
  cases behavior with
  | absent => exact .pure
  | named name =>
    refine .bind .get fun w => ?_
    split
    · exact hr.call _ _ _
    · exact .pure
  | callback body => exact hr.callback _ _ _
  | test accepts => exact .pure

theorem keeps_leaveState (args : List Value) (s : StateId) : Keeps I (leaveState r args s) :=
  .bind (keeps_notify hlax trivial) fun _ => .bind (keeps_invoke hr _ _ _) fun _ => .pure

theorem keeps_selectOne (e : Event) : Keeps I (selectOne r e) :=
  keeps_iff_matches.mpr (matches_selectOne (Comparison.selects_within hlax) hr.matches e)

/-! ## Queueing -/

variable (hqueue : ∀ t args, Keeps I (queueTransition t args : Engine σ κ Unit))
include hqueue

theorem keeps_selectAndQueue (e : Event) (wrap : TransitionId → DispatchOutcome) :
    Keeps I (selectAndQueue r e wrap) :=
  keeps_iff_matches.mpr (matches_selectAndQueue (Comparison.selects_within hlax) hr.matches
    (fun t => keeps_iff_matches.mp (hqueue t e.args))
    (fun _ _ _ h => ⟨by rw [h.1], hlax.machine ⟨rfl, rfl, rfl, rfl, rfl⟩ h.2⟩) wrap)

/-- A request keeps the condition if it does where it may move the machine or fire. -/
theorem keeps_carryOut (hook : κ → Engine σ κ Unit) (n : Nat) {q : Request κ}
    (hmoves : q.Moves → Keeps I (carryOut r hook n q)) : Keeps I (carryOut r hook n q) := by
  refine keeps_iff_matches.mpr
    (matches_carryOut_of_posts (Comparison.posts_within hlax) hr.matches n
    (fun args _ t => keeps_iff_matches.mp (hqueue t args)) (fun hruns => ?_) fun hreplaces => ?_)
  · cases q <;> first | exact hruns.elim | exact keeps_iff_matches.mp (hmoves trivial)
  · cases q with
    | setOptions o =>
      exact keeps_iff_matches.mp (keeps_update hlax fun _ => ⟨rfl, rfl, rfl, rfl, rfl⟩)
    | clearHistory => exact keeps_iff_matches.mp (keeps_clearHistory hlax)
    | _ => first | exact hreplaces.elim | exact keeps_iff_matches.mp (hmoves trivial)

end

/-! ## The parts of a move -/

section
variable (hlax : World.Lax I) (hr : r.Keeps I)
include hlax hr

theorem keeps_leave (args : List Value) (ss : List StateId) : Keeps I (leave r args ss) := by
  have hbegin : Keeps I (beginPhase .exit : Engine σ κ Unit) := keeps_beginPhase hlax .exit
  have hstates : Keeps I (ss.forM (leaveState r args)) :=
    .forM fun s _ => keeps_leaveState hlax hr args s
  exact hbegin.seq (hstates.seq (keeps_endPhase hlax .exit))

variable (hmove : ∀ {w n}, n.Moving → I w → I (w.notify n))
include hmove

omit hlax in
theorem keeps_enterState (args : List Value) (s : StateId) : Keeps I (do
    notify (.stateEntered s)
    let _ ← invoke r .entry (.state s) args) := by
  have htold : Keeps I (notify (.stateEntered s) : Engine σ κ Unit) :=
    .notify fun _ => hmove trivial
  exact htold.seq ((keeps_invoke hr .entry (.state s) args).seq .pure)

theorem keeps_enterAll (args : List Value) (ss : List StateId) : Keeps I (enterAll r args ss) := by
  have hbegin : Keeps I (beginPhase .entry : Engine σ κ Unit) := keeps_beginPhase hlax .entry
  have hstates : Keeps I (ss.forM fun s => do
      notify (.stateEntered s)
      let _ ← invoke r .entry (.state s) args) :=
    .forM fun s _ => keeps_enterState hr hmove args s
  exact hbegin.seq (hstates.seq (keeps_endPhase hlax .entry))

theorem keeps_settle (args : List Value) (via : Option TransitionId) (s : StateId) :
    Keeps I (settle r args via s) := by
  have hlast : Keeps I
      (update fun m => { m with lastTransition := via, firing := none } : Engine σ κ Unit) :=
    keeps_update hlax fun _ => ⟨rfl, rfl, rfl, rfl, rfl⟩
  have hbegin : Keeps I (beginPhase .doActivity : Engine σ κ Unit) :=
    keeps_beginPhase hlax .doActivity
  have htold : Keeps I (notify (.activityInvoked s) : Engine σ κ Unit) :=
    .notify fun _ => hmove trivial
  have hactivity := keeps_invoke hr .doActivity (.state s) args
  have hend : Keeps I (endPhase .doActivity : Engine σ κ Unit) := keeps_endPhase hlax .doActivity
  exact hlast.seq (hbegin.seq (htold.seq (hactivity.seq hend)))

end

/-! ## Conditions that moves have no part in -/

/-- Neither the bookkeeping of a machine nor its place has a part in the condition. -/
structure Placeless (I : World σ κ → Prop) : Prop extends World.Lax I where
  active : ∀ {w} s, I w → I (w.mapMachine ({ · with active := s }))
  move : ∀ {w n}, n.Moving → I w → I (w.notify n)

section
variable (hI : Placeless I)
include hI

theorem Placeless.enters : (Comparison.within I : Comparison σ σ κ).Enters .same where
  toSelects := Comparison.selects_within hI.toLax
  phase h := by rw [h.1]
  setPhase _ h := ⟨by rw [h.1], hI.machine ⟨rfl, rfl, rfl, rfl, rfl⟩ h.2⟩
  setActive hs h := ⟨by rw [h.1, eq_of_optionRel hs], hI.active _ h.2⟩
  setLast hvia h := ⟨by rw [h.1, eq_of_optionRel hvia], hI.machine ⟨rfl, rfl, rfl, rfl, rfl⟩ h.2⟩
  exited | rfl, h => ⟨by rw [h.1], hI.notify trivial h.2⟩
  started | rfl, h => ⟨by rw [h.1], hI.notify trivial h.2⟩
  moving hn hlike h := ⟨by rw [h.1, hlike.eq], hI.move hn h.2⟩
  seeded | rfl => (keeps_recordHistory hI.toLax none none _).relates
  clear := (keeps_clearHistory hI.toLax).relates

variable (hr : r.Keeps I)
include hr

theorem keeps_enter (target : StateId) (via : Option TransitionId) (args : List Value) :
    Keeps I (enter r target via args) :=
  keeps_iff_matches.mpr (matches_enter hI.enters hr.matches target via args)

theorem keeps_start (args : List Value) : Keeps I (start r args) :=
  keeps_iff_matches.mpr (matches_start hI.enters hr.matches args)

theorem keeps_goto (s : StateId) (args : List Value) : Keeps I (goto r s args) :=
  keeps_iff_matches.mpr (matches_goto hI.enters hr.matches s args)

end

end Engine
end Statechart
