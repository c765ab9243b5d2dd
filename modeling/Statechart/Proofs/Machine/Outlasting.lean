import Statechart.Proofs.Machine.Confinement
import Statechart.Proofs.Machine.Trail

/-!
# What outlasts the work of a machine

Little of what a machine does has to do with its log or its options, or tells that a transition has
fired. A condition that nothing else has a part in outlasts the rest: it is kept by a request as
soon as it is kept where a firing or a start is recorded, and by requests that are about the log or
the options.
-/

namespace Statechart

open Json

variable {σ κ : Type}

/-- Where a machine went from, by which transition, and where to. -/
abbrev Move := Option StateId × Option TransitionId × StateId

/-- The move of a transition that the notice tells to have fired. -/
def Notice.move? : Notice → Option Move
  | .transitionFired t source target => some (source, some t, target)
  | _ => none

/-- The request is about the log or the options of the machine, or begins its history anew. -/
def Request.Writes : Request κ → Prop
  | .start _ | .goto .. | .isolate | .setOptions _ | .clearHistory => True
  | _ => False

namespace World

variable {since : Nat} {s : StateId} {w : World σ κ}

theorem le_length_notify (hsince : since ≤ w.notices.length) (n : Notice) :
    since ≤ (w.notify n).notices.length := by
  rw [World.notify, List.length_append]
  exact Nat.le_add_right_of_le hsince

/-- The machine has told to be in the state. -/
def Reaches (since : Nat) (s : StateId) (w : World σ κ) : Prop :=
  ∃ n ∈ w.notices.drop since, n.reached? = some s

theorem Reaches.notify (h : w.Reaches since s) (n : Notice) : (w.notify n).Reaches since s := by
  obtain ⟨k, hk, hreached⟩ := h
  refine ⟨k, ?_, hreached⟩
  rw [World.notify, List.drop_append]
  exact List.mem_append_left _ hk

theorem reaches_notify {n : Notice} (hsince : since ≤ w.notices.length) (hn : n.reached? = some s) :
    (w.notify n).Reaches since s := by
  refine ⟨n, ?_, hn⟩
  rw [World.notify, List.drop_append_of_le_length hsince]
  exact List.mem_append_right _ List.mem_cons_self

end World

theorem Responder.Keeps.and {r : Responder σ κ} {I J : World σ κ → Prop} (hI : r.Keeps I)
    (hJ : r.Keeps J) : r.Keeps fun w => I w ∧ J w :=
  ⟨fun _ _ _ => .and (hI.call _ _ _) (hJ.call _ _ _),
    fun _ _ _ => .and (hI.callback _ _ _) (hJ.callback _ _ _)⟩

namespace Engine

variable {since : Nat} {s : StateId} {r : Responder σ κ} {I : World σ κ → Prop}

/-- Neither the parts of the machine other than its log and its options nor notices have a part in
the condition, unless they tell that a transition has fired. -/
structure Outlasts (I : World σ κ → Prop) : Prop where
  map : ∀ {w} (f : Machine κ → Machine κ), (f w.machine).history = w.machine.history →
    (f w.machine).options = w.machine.options → I w → I (w.mapMachine f)
  notify : ∀ {w n}, n.move? = none → I w → I (w.notify n)

theorem outlasts_reaches : Outlasts (World.Reaches (σ := σ) (κ := κ) since s) :=
  ⟨fun _ _ _ h => h, fun {_ n} _ h => h.notify n⟩

theorem Outlasts.and {J : World σ κ → Prop} (hI : Outlasts I) (hJ : Outlasts J) :
    Outlasts fun w => I w ∧ J w :=
  ⟨fun f hf hf' h => ⟨hI.map f hf hf' h.1, hJ.map f hf hf' h.2⟩,
    fun hn h => ⟨hI.notify hn h.1, hJ.notify hn h.2⟩⟩

section
variable (hI : Outlasts I)
include hI

theorem Outlasts.runs : (Comparison.within I).Runs .same where
  like h := World.like_of_eq h.1
  guarded | _, rfl, h => ⟨by rw [h.1], hI.notify rfl h.2⟩
  starves := trivial
  running h := by rw [h.1]
  paused h := by rw [h.1]
  setPaused _ h := ⟨by rw [h.1], hI.map _ rfl rfl h.2⟩
  stopped h := ⟨by rw [h.1], hI.notify rfl h.2⟩
  resumed h := ⟨by rw [h.1], hI.notify rfl h.2⟩
  events h := by rw [h.1]
  setEvents _ h := ⟨by rw [h.1], hI.map _ rfl rfl h.2⟩
  dequeued _ h := ⟨by rw [h.1], hI.notify rfl h.2⟩
  setEvent _ h := ⟨by rw [h.1], hI.map _ rfl rfl h.2⟩
  setTrigger _ h := ⟨by rw [h.1], hI.map _ rfl rfl h.2⟩
  setRunning _ h := ⟨by rw [h.1], hI.map _ rfl rfl h.2⟩

theorem Outlasts.takes : (Comparison.within I).Takes .same fun _ => True :=
  Comparison.takes_of (c := .within I) (fun h => ⟨by rw [h.1], fun _ _ => trivial⟩)
    fun h => ⟨by rw [h.1], hI.map _ rfl rfl h.2⟩

theorem Outlasts.queueTransition (t : TransitionId) (args : List Value) :
    Keeps I (queueTransition t args) := by
  intro w hw
  rcases queueTransition_cases t args w with ⟨e, he⟩ | ⟨s, ts, -, -, -, -, -, hok⟩
  · rw [he]
    exact hw
  · rw [hok]
    exact hI.notify rfl (hI.map _ rfl rfl hw)

/-! ## Moves -/

theorem Outlasts.beginPhase (o : Operation) : Keeps I (beginPhase o) := by
  refine .bind .machine fun m => ?_
  split
  · exact .fail
  · exact .update fun _ hw => hI.map _ rfl rfl hw

theorem Outlasts.endPhase (o : Operation) : Keeps I (endPhase o) :=
  .update fun _ hw => hI.map _ rfl rfl hw

variable (hr : r.Keeps I)
include hr

theorem Outlasts.announced {n : Notice} (hn : n.move? = none) (a : Action) (x : Subject)
    (args : List Value) : Keeps I (do Engine.notify n let _ ← invoke r a x args) := by
  have htold : Keeps I (Engine.notify n : Engine σ κ Unit) := .notify fun _ hw => hI.notify hn hw
  exact htold.seq ((keeps_invoke hr a x args).seq .pure)

theorem Outlasts.leave (args : List Value) (ss : List StateId) : Keeps I (leave r args ss) := by
  have hstates : Keeps I (ss.forM (leaveState r args)) :=
    .forM fun s _ => hI.announced hr rfl .exit (.state s) args
  exact (hI.beginPhase .exit).seq (hstates.seq (hI.endPhase .exit))

theorem Outlasts.enterAll (args : List Value) (ss : List StateId) :
    Keeps I (enterAll r args ss) := by
  have hstates : Keeps I (ss.forM fun s => do
      Engine.notify (.stateEntered s)
      let _ ← invoke r .entry (.state s) args) :=
    .forM fun s _ => hI.announced hr rfl .entry (.state s) args
  exact (hI.beginPhase .entry).seq (hstates.seq (hI.endPhase .entry))

end

section
variable (hI : Outlasts I) (hr : r.Keeps I) (hgrow : ∀ s, r.Keeps (World.Reaches since s))
  (hsince : ∀ w, I w → since ≤ w.notices.length)
include hI hr hgrow hsince

/-- The state that a move ends in has been told of, whatever its activity asks for. -/
theorem Outlasts.settle (args : List Value) (via : Option TransitionId) (s : StateId) :
    Triple I (settle r args via s) (fun _ w => I w ∧ w.Reaches since s) fun _ => I := by
  have hboth := hI.and (J := World.Reaches since s) outlasts_reaches
  have hlast : Keeps I
      (update fun m => { m with lastTransition := via, firing := none } : Engine σ κ Unit) :=
    .update fun _ hw => hI.map _ rfl rfl hw
  have htold : Triple I (Engine.notify (.activityInvoked s) : Engine σ κ Unit)
      (fun _ w => I w ∧ w.Reaches since s) fun _ => I :=
    .notify fun w hw => ⟨hI.notify rfl hw, World.reaches_notify (hsince w hw) rfl⟩
  have hactivity := keeps_invoke (hr.and (hgrow s)) .doActivity (.state s) args
  have hrest := hactivity.seq (hboth.endPhase .doActivity)
  exact Triple.seq hlast (Triple.seq (hI.beginPhase .doActivity)
    (htold.seq (hrest.mono_error fun _ _ h => h.1)))

theorem Outlasts.cascade (old : Option StateId) (target : StateId) (via : Option TransitionId)
    (args : List Value) :
    Triple I (cascade r old target via args) (fun s w => I w ∧ w.Reaches since s) fun _ => I := by
  rw [cascade_eq]
  refine .bind .machine fun m => .bind (Q := fun _ => I) ?_ fun external => ?_
  · exact (Keeps.ofGraph (I := I)).mono_pre fun _ hw => hw.1
  have hreached : Keeps I (update fun m' =>
      { m' with active := some (m.graph.resolveEntryTarget target) } : Engine σ κ Unit) :=
    .update fun _ hw => hI.map _ rfl rfl hw
  have hsettle := hI.settle hr hgrow hsince args via (m.graph.resolveEntryTarget target)
  refine Triple.seq (hI.leave hr args _) (Triple.seq hreached ?_)
  exact Triple.seq (hI.enterAll hr args _) (hsettle.bind fun _ _ hw => hw)

theorem Outlasts.enter (target : StateId) (via : Option TransitionId) (args : List Value) :
    Triple I (enter r target via args) (fun s w => I w ∧ w.Reaches since s) fun _ => I := by
  refine .bind (.machine (E := fun _ => I)) fun m => ?_
  refine .onFailure (.thenAlways
    (Triple.mono (hI.cascade hr hgrow hsince m.active target via args) ?_ ?_ ?_))
  · exact fun _ hw => hw.1
  · exact fun _ _ hw => ⟨hI.map _ rfl rfl hw.1, hw.2⟩
  · exact fun _ _ hw => hI.notify rfl (hI.map _ rfl rfl (hI.map _ rfl rfl hw))

/-! ## What is recorded -/

/-- A firing keeps the condition if that is so where it is recorded and told of. -/
theorem Outlasts.fireTransition
    (hrecord : ∀ previous t new, Triple (fun w => I w ∧ w.Reaches since new) (do
      recordHistory previous (some t) new
      Engine.notify (.transitionFired t previous new)) (fun _ => I) fun _ => I)
    (p : Pending) : Keeps I (fireTransition r p) := by
  have hfire (target : StateId) (previous : Option StateId) :
      Keeps I (fire r p.transition target previous p.args) := by
    have htold : Keeps I (Engine.notify (.effectInvoked p.transition) : Engine σ κ Unit) :=
      .notify fun _ hw => hI.notify rfl hw
    have heffect := keeps_invoke hr .effect (.transition p.transition) p.args
    refine .seq (hI.beginPhase .effect) (htold.seq (heffect.seq (.seq (hI.endPhase .effect) ?_)))
    exact Triple.bind (hI.enter hr hgrow hsince target (some p.transition) p.args) fun new =>
      hrecord previous p.transition new
  have hrest (m : Machine κ) : Keeps I (do
      let target := (← ofGraph (m.graph.transition p.transition)).target
      update fun m => { m with firing := some p.transition }
      (fire r p.transition target m.active p.args).thenAlways (·.mapMachine fun m =>
        { m with firing := none, phase := { m.phase with effect := false } })) := by
    refine .bind .ofGraph fun tr => ?_
    have hbegun : Keeps I
        (update fun m => { m with firing := some p.transition } : Engine σ κ Unit) :=
      .update fun _ hw => hI.map _ rfl rfl hw
    exact hbegun.seq (.thenAlways (hfire tr.target m.active) fun _ hw => hI.map _ rfl rfl hw)
  refine .bind .machine fun m => ?_
  split
  · exact .bind .fail fun _ => hrest m
  · exact hrest m

variable {Q : StateId → World σ κ → Prop} (hseed : ∀ s, Triple (fun w => I w ∧ w.Reaches since s)
  (do clearHistory; recordHistory none none s) (fun _ => Q s) fun _ => I)
include hseed

theorem Outlasts.seed (s : StateId) (args : List Value) :
    Triple I (seed r s args) Q fun _ => I := by
  refine .bind (hI.enter hr hgrow hsince s none args) fun entered => ?_
  have hbegun : Triple (fun w => I w ∧ w.Reaches since entered) (do
      clearHistory
      recordHistory none none entered
      pure entered) Q fun _ => I := by
    have hbound := Triple.bind (R := Q) (f := fun _ => pure entered) (hseed entered)
      fun _ _ hw => hw
    rwa [bind_assoc] at hbound
  exact hbegun

theorem Outlasts.goto (s : StateId) (args : List Value) :
    Triple I (goto r s args) Q fun _ => I := by
  refine .bind (Q := fun _ => I) Keeps.machine fun m =>
    .bind (Q := fun _ => I) Keeps.ofGraph fun st => ?_
  split
  · exact hI.seed hr hgrow hsince hseed s args
  · exact fun _ hw => hw

theorem Outlasts.start (hQ : ∀ s, Outlasts (Q s)) (args : List Value) :
    Triple I (start r args) Q fun _ => I := by
  refine .bind (Q := fun _ => I) Keeps.machine fun m =>
    .bind (Q := fun _ => I) Keeps.ofGraph fun d => ?_
  cases d.start with
  | none => exact fun _ hw => hw
  | some s =>
    refine .bind (.update fun _ hw => hI.map _ rfl rfl hw) fun _ => ?_
    refine .bind (hI.seed hr hgrow hsince hseed s args) fun entered => ?_
    exact .bind (.notify fun _ hw => (hQ entered).notify rfl hw) fun _ _ hw => hw

end

/-! ## Requests -/

/-- A request keeps the condition if firings do, and if it does where it is about the log or the
options. -/
theorem Outlasts.carryOut {hook : κ → Engine σ κ Unit} (hI : Outlasts I) (hr : r.Keeps I)
    (hfire : ∀ p, Keeps I (Engine.fireTransition r p)) (hhook : ∀ key, Keeps I (hook key)) (n : Nat)
    (q : Request κ) (hwrites : q.Writes → Keeps I (carryOut r hook n q)) :
    Keeps I (carryOut r hook n q) := by
  refine keeps_iff_matches.mpr
    (matches_carryOut_of_runs hI.takes (fun p _ => keeps_iff_matches.mp (hfire p)) hI.runs
    hr.matches (fun t args => keeps_iff_matches.mp (hI.queueTransition t args))
    (fun key => keeps_iff_matches.mp (hhook key)) n fun hreplaces => keeps_iff_matches.mp ?_)
  cases q with
  | edit e => exact keeps_of_leads fun w hw => ⟨_, leads_edit e w, hI.map _ rfl rfl hw⟩
  | restore s =>
    refine keeps_of_leads fun w hw => ?_
    rcases leads_restore s w with hsame | ⟨active, pending, -, hleads⟩
    · exact ⟨w, hsame, hw⟩
    · exact ⟨_, hleads, hI.map _ rfl rfl hw⟩
  | _ => first | exact hwrites trivial | exact hreplaces.elim

end Engine

end Statechart
