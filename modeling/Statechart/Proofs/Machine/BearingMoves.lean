import Statechart.Proofs.Machine.Bearing

/-!
# Moves and firings under conditions

A move goes through the phases one after the other, and puts the flags back however it ends. So a
condition that is borne in each of the phases is borne by the move. A firing is a move with an
effect before it, and a run is one firing after the other.
-/

namespace Statechart

open Json

variable {σ κ α : Type}

/-- The world as the effect of a transition is run. -/
def World.invoking (w : World σ κ) (t : TransitionId) : World σ κ :=
  (w.mapMachine fun m => { m with phase := Engine.setPhaseFlag m.phase .effect true }).notify
    (.effectInvoked t)

namespace Engine

/-- Conditions for each state of the phase flags, which hold from phase to phase. -/
structure Phased (I X : Phase → World σ κ → Prop) (B : MachineError → Prop) : Prop where
  bearing : ∀ k, Bearing (I k) (X k) B
  lastsCut : ∀ k, World.Lasting (X k)
  phase : ∀ {k w}, I k w → w.machine.phase = k
  setPhase : ∀ {k w} k', I k w → I k' (w.mapMachine ({ · with phase := k' }))
  setPhaseCut : ∀ {k w} k', X k w → X k' (w.mapMachine ({ · with phase := k' }))

/-- What a move announces and runs in each of its phases, which has not been under way before, bears
the condition there. -/
structure Crosses (r : Responder σ κ) (I X : Phase → World σ κ → Prop) (B : MachineError → Prop)
    (k : Phase) : Prop where
  exit : phaseFlag k .exit = false → ∀ args s,
    Bears (I (setPhaseFlag k .exit true)) (X (setPhaseFlag k .exit true)) B (leaveState r args s)
  entry : phaseFlag k .entry = false → ∀ args s,
    Bears (I (setPhaseFlag k .entry true)) (X (setPhaseFlag k .entry true)) B (enterState r args s)
  activity : phaseFlag k .doActivity = false → ∀ args s,
    Bears (I (setPhaseFlag k .doActivity true)) (X (setPhaseFlag k .doActivity true)) B (do
      notify (.activityInvoked s)
      let _ ← invoke r .doActivity (.state s) args)

variable {I X : Phase → World σ κ → Prop} {B : MachineError → Prop} {r : Responder σ κ} {k : Phase}
  {P Q J J' : World σ κ → Prop} {E : Stop → World σ κ → Prop}

/-- Work has ended without success, in whatever phases. -/
def Adrift (I X : Phase → World σ κ → Prop) (B : MachineError → Prop) (e : Stop)
    (w : World σ κ) : Prop :=
  ∃ k, Ends (I k) (X k) B e w

/-- Work in a phase has ended without success, before the phase began or amid it. -/
def Stuck (I X : Phase → World σ κ → Prop) (B : MachineError → Prop) (k : Phase) (o : Operation)
    (e : Stop) (w : World σ κ) : Prop :=
  Ends (I k) (X k) B e w ∨ Ends (I (setPhaseFlag k o true)) (X (setPhaseFlag k o true)) B e w

theorem Stuck.adrift {o : Operation} {e : Stop} {w : World σ κ}
    (h : Stuck I X B k o e w) : Adrift I X B e w :=
  h.elim (⟨_, ·⟩) (⟨_, ·⟩)

/-- What bears the conditions of all phases that a move goes through bears them as the move
announces it. -/
theorem crosses_of_bears (hI : Phased I X B)
    (htold : ∀ {k w n}, n.Staging → I k w → I k (w.notify n))
    (hr : ∀ k' : Phase, k'.effect = k.effect → r.Bears (I k') (X k') B) : Crosses r I X B k := by
  have hannounced (o : Operation) (ho : (setPhaseFlag k o true).effect = k.effect)
      (n : Notice) (hn : n.Staging) (a : Action) (s : Subject) (args : List Value) :
      Bears (I (setPhaseFlag k o true)) (X (setPhaseFlag k o true)) B (do
        notify n
        let _ ← invoke r a s args) := by
    have htelling : Bears (I (setPhaseFlag k o true)) (X (setPhaseFlag k o true)) B (notify n) :=
      .notify fun _ hw => htold hn hw
    have hinvoking := bears_invoke (hI.bearing _) (hr _ ho) a s args
    exact Triple.bind htelling fun _ => hinvoking.bind fun _ => .pure
  exact ⟨fun _ args s => hannounced .exit rfl (.stateExited s) trivial _ _ args,
    fun _ args s => hannounced .entry rfl (.stateEntered s) trivial _ _ args,
    fun _ args s => hannounced .doActivity rfl (.activityInvoked s) trivial _ _ args⟩

namespace Phased

variable (hI : Phased I X B)
include hI

/-- Flags that are put back are as they were. -/
theorem restore {e : Stop} {w : World σ κ} (hw : Adrift I X B e w) (k : Phase) :
    Ends (I k) (X k) B e (w.mapMachine ({ · with phase := k })) := by
  obtain ⟨k', hw⟩ := hw
  exact hw.map (hI.setPhase k) (hI.setPhaseCut k)

theorem begun {w : World σ κ} (hw : I k w) (o : Operation) : I (setPhaseFlag k o true)
    (w.mapMachine fun m => { m with phase := setPhaseFlag m.phase o true }) := by
  rw [World.mapMachine, hI.phase hw]
  exact hI.setPhase _ hw

theorem ended {w : World σ κ} {o : Operation} (hk : phaseFlag k o = false)
    (hw : I (setPhaseFlag k o true) w) :
    I k (w.mapMachine fun m => { m with phase := setPhaseFlag m.phase o false }) := by
  rw [World.mapMachine, hI.phase hw, setPhaseFlag_cancel hk]
  exact hI.setPhase k hw

theorem lasts {e : Stop} {w w' : World σ κ} (hw : Ends (I k) (X k) B e w) (h : w.Onward w') :
    Ends (I k) (X k) B e w' :=
  hw.map (fun hw => (hI.bearing k).lasts w w' hw h) fun hw => hI.lastsCut k w w' hw h

end Phased

section
variable (hI : Phased I X B)
include hI

theorem bears_phase {o : Operation} (ho : phaseFlag k o = true → ¬ B (.unexpectedRecursion o))
    {x : Engine σ κ Unit}
    (hx : phaseFlag k o = false →
      Bears (I (setPhaseFlag k o true)) (X (setPhaseFlag k o true)) B x) :
    Triple (I k) (do beginPhase o; x; endPhase o) (fun _ => I k) (Stuck I X B k o) := by
  refine .phase (I := fun w => phaseFlag k o = false ∧ I (setPhaseFlag k o true) w) ?_ ?_
    (.of_and fun hk => ?_)
  · exact fun w hw hflag => .inl ⟨hw, ho (hI.phase hw ▸ hflag)⟩
  · exact fun w hw hflag => ⟨hI.phase hw ▸ hflag, hI.begun hw o⟩
  · exact Triple.mono_post (hx hk) (fun _ w hw => hI.ended hk hw) fun e w => .inr

section
variable (hr : Crosses r I X B k)
include hr

theorem bears_leave (args : List Value) (ss : List StateId) :
    Triple (I k) (leave r args ss) (fun _ => I k) (Adrift I X B) :=
  (bears_phase hI (fun _ => (hI.bearing k).spares id) fun hk => .forM
    fun s => hr.exit hk args s).mono_error fun _ _ => Stuck.adrift

theorem bears_enterAll (args : List Value) (ss : List StateId) :
    Triple (I k) (enterAll r args ss) (fun _ => I k) (Adrift I X B) :=
  (bears_phase hI (fun _ => (hI.bearing k).spares id) fun hk => .forM
    fun s => hr.entry hk args s).mono_error fun _ _ => Stuck.adrift

theorem bears_settle (args : List Value) (via : Option TransitionId) (s : StateId) :
    Triple (I k) (settle r args via s) (fun _ => I k) (Adrift I X B) := by
  rw [settle_eq]
  have hnoted : Bears (I k) (X k) B
      (update fun m => { m with lastTransition := via, firing := none }) :=
    (hI.bearing k).update fun _ => ⟨rfl, rfl, rfl, .inr rfl⟩
  refine .bind (Triple.mono_error hnoted fun e w hw => ⟨k, hw⟩) fun _ => ?_
  exact (bears_phase hI (fun _ => (hI.bearing k).spares id)
    fun hk => hr.activity hk args s).mono_error fun _ _ => Stuck.adrift

theorem bears_cascade (old : Option StateId) (target : StateId) (via : Option TransitionId)
    (args : List Value) :
    Triple (I k) (cascade r old target via args) (fun _ => I k) (Adrift I X B) := by
  have hstep {β : Type} {x : Engine σ κ β} (hx : Bears (I k) (X k) B x) :
      Triple (I k) x (fun _ => I k) (Adrift I X B) :=
    Triple.mono_error hx fun e w hw => ⟨k, hw⟩
  rw [cascade_eq]
  refine .bind (hstep .machine) fun m => .bind (hstep (hI.bearing k).ofGraph) fun external => ?_
  have hreached : Bears (I k) (X k) B
      (update fun m' => { m' with active := some (m.graph.resolveEntryTarget target) }) :=
    (hI.bearing k).update fun _ => ⟨rfl, rfl, rfl, .inl rfl⟩
  have hsettle := bears_settle hI hr args via (m.graph.resolveEntryTarget target)
  refine .seq (bears_leave hI hr args _) (.seq (hstep hreached) ?_)
  exact .seq (bears_enterAll hI hr args _) (hsettle.seq (hstep .pure))

/-- However a move ends, the flags are as they were. -/
theorem bears_enter (target : StateId) (via : Option TransitionId) (args : List Value) :
    Bears (I k) (X k) B (enter r target via args) := by
  intro w hw
  rw [enter, machine_bind]
  refine Triple.onFailure
    (.thenAlways ((bears_cascade hI hr w.machine.active target via args).mono_post ?_ ?_)) w hw
  · exact fun _ v hv => hI.phase hw ▸ hI.setPhase k hv
  · intro e v hv
    rw [hI.phase hw]
    have hback := hI.lasts (hI.restore hv k) (.of_machine rfl rfl rfl (.inl rfl)
      (m := { v.machine with active := w.machine.active, phase := k }))
    exact hI.lasts hback (.notify _ id)

theorem bears_seed (s : StateId) (args : List Value) : Bears (I k) (X k) B (seed r s args) := by
  refine (bears_enter hI hr s none args).bind fun new => ?_
  have hcleared : Bears (I k) (X k) B clearHistory := (hI.bearing k).modify fun w => .logs w _
  exact hcleared.seq ((bears_recordHistory (hI.bearing k) none none new).seq .pure)

theorem bears_start (args : List Value) : Bears (I k) (X k) B (start r args) := by
  refine .bind .machine fun m => .bind (hI.bearing k).ofGraph fun d => ?_
  cases d.start with
  | none => exact (hI.bearing k).fail id
  | some s =>
    have hemptied : Bears (I k) (X k) B (update fun m => { m with active := none }) :=
      (hI.bearing k).update fun _ => ⟨rfl, rfl, rfl, .inl rfl⟩
    refine hemptied.seq ((bears_seed hI hr s args).bind fun new => ?_)
    have htold : Bears (I k) (X k) B (notify (.started new)) := (hI.bearing k).notify id
    exact htold.seq .pure

theorem bears_goto (s : StateId) (args : List Value) : Bears (I k) (X k) B (goto r s args) :=
  .bind .machine fun _ => .bind (hI.bearing k).ofGraph fun _ =>
    .ite (bears_seed hI hr s args) ((hI.bearing k).fail id)

/-! ## Firing -/

/-- A firing begins with the effect, and has ended once it is told so. -/
theorem Triple.fire (t : TransitionId) (target : StateId) (previous : Option StateId)
    (args : List Value) (hk : k.effect = false)
    (heffect : ∀ w, P w → w.machine.phase.effect = false)
    (hinvoke : Triple (fun v => ∃ w, P w ∧ v = w.invoking t) (invoke r .effect (.transition t) args)
      (fun _ => I (setPhaseFlag k .effect true))
      (Ends (I (setPhaseFlag k .effect true)) (X (setPhaseFlag k .effect true)) B))
    (hfired : ∀ new w, I k w → Q (w.notify (.transitionFired t previous new))) :
    Triple P (Engine.fire r t target previous args) (fun _ => Q) (Stuck I X B k .effect) := by
  have hparts : Engine.fire r t target previous args = (do
      (do
        beginPhase .effect
        (do
          Engine.notify (.effectInvoked t)
          let _ ← invoke r .effect (.transition t) args)
        endPhase .effect)
      let new ← enter r target (some t) args
      recordHistory previous (some t) new
      Engine.notify (.transitionFired t previous new)) := by
    simp only [Engine.fire, bind_assoc, pure_bind]
  have hstep {β : Type} {x : Engine σ κ β} (hx : Bears (I k) (X k) B x) :
      Triple (I k) x (fun _ => I k) (Stuck I X B k .effect) :=
    Triple.mono_error hx fun e w => .inl
  rw [hparts]
  refine .bind (Q := fun _ => I k) ?_ fun _ =>
    .bind (hstep (bears_enter hI hr target (some t) args)) fun new => ?_
  · refine .phase (I := fun v => ∃ w, P w ∧ v.notify (.effectInvoked t) = w.invoking t) ?_ ?_ ?_
    · exact fun w hw hflag => absurd ((heffect w hw).symm.trans hflag) Bool.false_ne_true
    · exact fun w hw _ => ⟨w, hw, rfl⟩
    · refine .bind (Q := fun _ v => ∃ w, P w ∧ v = w.invoking t)
        (.notify fun v hv => hv) fun _ => ?_
      exact Triple.mono_post (.bind hinvoke fun _ => Bears.pure) (fun _ w hw => hI.ended hk hw)
        fun e w => .inr
  · exact .bind (hstep (bears_recordHistory (hI.bearing k) _ _ _)) fun _ =>
      .notify fun w hw => hfired new w hw

end

end

/-- A machine that fires nothing fires what it is given. -/
theorem Triple.fireTransition {p : Pending} (hfiring : ∀ w, P w → w.machine.firing = none)
    (hgraph : ∀ e w, P w → E (.fault (.graph e)) w)
    (hfire : ∀ target previous, Triple
      (fun v => ∃ w, P w ∧ v = w.mapMachine ({ · with firing := some p.transition }))
      (Engine.fire r p.transition target previous p.args)
      (fun _ w => Q (w.mapMachine fun m =>
        { m with firing := none, phase := { m.phase with effect := false } }))
      fun e w => E e (w.mapMachine fun m =>
        { m with firing := none, phase := { m.phase with effect := false } })) :
    Triple P (Engine.fireTransition r p) (fun _ => Q) E := by
  intro w hw
  rw [Engine.fireTransition, machine_bind, hfiring w hw]
  cases htr : w.machine.graph.transition p.transition with
  | error e => exact hgraph e w hw
  | ok tr => exact Triple.thenAlways (hfire tr.target w.machine.active) _ ⟨w, hw, rfl⟩

/-! ## Runs -/

section
variable {X : World σ κ → Prop} (hb : Bearing J X B) (hends : ∀ e w, Ends J X B e w → E e w)
  (hfire : ∀ p, Triple J (Engine.fireTransition r p) (fun _ => J) E)
include hb

theorem Triple.takePending : Triple J Engine.takePending (fun _ => J) E := by
  refine .bind (Q := fun _ => J) (fun _ hw => hw) fun m =>
    .bind (Q := fun _ => J) ?_ fun _ _ hw => hw
  exact .update fun w hw => hb.lasts w _ hw (.of_machine rfl rfl rfl (.inl rfl))

include hends hfire

section
variable {hook : Option (Engine σ κ Unit)} (hhook : Triple J (hook.forM id) (fun _ => J) E)
include hhook

/-- What firing once goes from and comes to, firing over and over does. -/
theorem Triple.fireQueued (mode : RunMode) (fuel fired : Nat) :
    Triple J (Engine.fireQueued r mode hook fuel fired) (fun _ => J) E := by
  induction fuel generalizing fired with
  | zero => exact fun w hw => hends _ _ (hb.cut w hw)
  | succ fuel ih =>
    refine .bind (Q := fun _ => J) (fun _ hw => hw) fun m => ?_
    split
    · exact fun _ hw => hw
    split
    · exact fun _ hw => hw
    refine .bind hhook fun _ => .bind (.takePending hb) fun o => ?_
    cases o with
    | none => exact fun _ hw => hw
    | some p =>
      refine .bind (hfire p) fun _ => ?_
      split
      · exact fun _ hw => hw
      · exact ih (fired + 1)

theorem Triple.processTransitions (fuel : Nat) (mode : RunMode) :
    Triple J (Engine.processTransitions r fuel mode hook) (fun _ => J) E := by
  have hqueued := Triple.fireQueued hb hends hfire hhook mode fuel
  refine .bind (Q := fun _ => J) (fun _ hw => hw) fun m => ?_
  split
  · exact fun _ hw => hw
  refine .bind (.takePending hb) fun o => ?_
  cases o with
  | none => exact hqueued 0
  | some p =>
    refine .bind (hfire p) fun _ => ?_
    split
    · exact fun _ hw => hw
    · exact hqueued 1

end

variable (hguard : ∀ t args, Bears J X B (guard r t args))
include hguard

theorem Triple.handleEvent (fuel : Nat) (e : Event) :
    Triple J (Engine.handleEvent r fuel e) (fun _ => J) E := by
  have hstep {β : Type} {x : Engine σ κ β} (hx : Bears J X B x) : Triple J x (fun _ => J) E :=
    Triple.mono_error hx hends
  have hnone : Triple J ((none : Option (Engine σ κ Unit)).forM id) (fun _ => J) E := fun _ hw => hw
  refine .bind (hstep (hb.notify id)) fun _ =>
    .bind (hstep (hb.update fun _ => ⟨rfl, rfl, rfl, .inl rfl⟩)) fun _ => ?_
  refine .bind (hstep (bears_selectOne hb hguard e)) fun ⟨t, trigger⟩ => ?_
  refine .bind (hstep (hb.update fun _ => ⟨rfl, rfl, rfl, .inl rfl⟩)) fun _ => ?_
  refine .bind (hstep (bears_queueTransition hb t e.args)) fun _ => ?_
  refine .bind (.processTransitions hb hends hfire hnone fuel .single) fun _ => ?_
  exact .bind (hstep (hb.update fun _ => ⟨rfl, rfl, rfl, .inl rfl⟩)) fun _ => hstep .pure

theorem Triple.processEvents (fuel fired : Nat) :
    Triple J (Engine.processEvents r fuel fired) (fun _ => J) E := by
  have hstep {β : Type} {x : Engine σ κ β} (hx : Bears J X B x) : Triple J x (fun _ => J) E :=
    Triple.mono_error hx hends
  have htake : Bears J X B takeEvent := by
    refine .bind .machine fun m => ?_
    cases m.events with
    | nil => exact .pure
    | cons e rest => exact .bind (hb.update fun _ => ⟨rfl, rfl, rfl, .inl rfl⟩) fun _ => .pure
  induction fuel generalizing fired with
  | zero => exact fun w hw => hends _ _ (hb.cut w hw)
  | succ fuel ih =>
    refine .bind (Q := fun _ => J) (fun _ hw => hw) fun m => ?_
    split
    · exact fun _ hw => hw
    refine .bind (hstep htake) fun o => ?_
    cases o with
    | none => exact fun _ hw => hw
    | some e =>
      exact .bind (.handleEvent hb hends hfire hguard (fuel + 1) e) fun n => ih (fired + n)

end

/-! ## Requests for a run -/

/-- What is known of an idle machine and of the run that it begins: `P` is borne while no run is
under way and `J` while one is, and what stops without success ends with `E` within the run and with
`E'` outside. -/
structure Drives (P XP J XJ : World σ κ → Prop) (B : MachineError → Prop)
    (E E' : Stop → World σ κ → Prop) : Prop where
  outside : Bearing P XP B
  within : Bearing J XJ B
  idle : ∀ {w}, P w → w.machine.running = false
  begun : ∀ {w}, P w → J (w.mapMachine ({ · with running := true, paused := false }))
  ended : ∀ {w}, J w → P (w.mapMachine ({ · with running := false, paused := false }))
  stopped : ∀ {e w}, E e w → E' e (w.mapMachine ({ · with running := false, paused := false }))
  lasts : ∀ {e} {w w' : World σ κ}, E' e w → w.Onward w' → E' e w'
  endsWithin : ∀ e w, Ends J XJ B e w → E e w
  endsOutside : ∀ e w, Ends P XP B e w → E' e w

section
variable {XP XJ : World σ κ → Prop} {E' : Stop → World σ κ → Prop} {P J : World σ κ → Prop}
  (hd : Drives P XP J XJ B E E') (hfire : ∀ p, Triple J (Engine.fireTransition r p) (fun _ => J) E)
include hd hfire

theorem Drives.run {hook : Option (Engine σ κ Unit)}
    (hhook : Triple J (hook.forM id) (fun _ => J) E) (n : Nat) (mode : RunMode) :
    Triple P (run r n mode hook) (fun _ => P) E' :=
  .asRun (fun _ => hd.idle) (fun _ => hd.begun)
    ((Triple.processTransitions hd.within hd.endsWithin hfire hhook n mode).mono_post
      (fun _ _ => hd.ended) fun _ _ => hd.stopped)

theorem Drives.runEvents (hguard : ∀ t args, Bears J XJ B (guard r t args)) (n : Nat) :
    Triple P (runEvents r n) (fun _ => P) E' := by
  have hput (w : World σ κ) :
      World.Onward (w.mapMachine ({ · with running := false, paused := false }))
        (w.mapMachine
          ({ · with running := false, paused := false, event := none, trigger := none })) :=
    .of_machine rfl rfl rfl (.inl rfl)
  refine .runEvents (fun _ => hd.idle) (fun _ => hd.begun)
    ((Triple.processEvents hd.within hd.endsWithin hfire hguard n 0).mono_post (fun _ w hw => ?_)
      fun _ w hw => ?_)
  · exact hd.outside.lasts _ _ (hd.ended hw) (hput w)
  · exact hd.lasts (hd.stopped hw) (hput w)

theorem Drives.dispatch (hguard : ∀ t args, Bears P XP B (guard r t args)) (n : Nat) (e : Event) :
    Triple P (dispatch r n e) (fun _ => P) E' := by
  have hnone : Triple J ((none : Option (Engine σ κ Unit)).forM id) (fun _ => J) E := fun _ hw => hw
  have hnow : Triple P (dispatchNow r n e) (fun _ => P) E' := by
    refine .bind (Triple.mono_error (bears_selectAndQueue hd.outside hguard e .fired)
      hd.endsOutside) fun o => ?_
    cases o with
    | fired t => exact .bind (hd.run hfire hnone n .single) fun _ _ hw => hw
    | _ => exact fun _ hw => hw
  have hput (w : World σ κ) (event : Option Event) (trigger : Option String) :
      w.Onward (w.mapMachine ({ · with event, trigger })) := .of_machine rfl rfl rfl (.inl rfl)
  intro w hw
  rw [dispatch_idle (hd.idle hw)]
  refine Triple.thenAlways (hnow.mono_post (fun _ v hv => ?_) fun _ v hv => ?_) _ ?_
  · exact hd.outside.lasts _ _ hv (hput v none none)
  · exact hd.lasts hv (hput v none none)
  · exact hd.outside.lasts _ _ hw (hput w (some e) w.machine.trigger)

/-- A request for a run does to an idle machine what the run does. -/
theorem Drives.carryOut {hook : κ → Engine σ κ Unit}
    (hhook : ∀ key, Triple J (hook key) (fun _ => J) E)
    (hwithin : ∀ t args, Bears J XJ B (guard r t args))
    (houtside : ∀ t args, Bears P XP B (guard r t args)) (n : Nat) {q : Request κ} (hq : q.Runs) :
    Triple P (carryOut r hook n q) (fun _ => P) E' := by
  cases q with
  | run mode => exact hd.run hfire (fun _ hw => hw) n mode
  | runWith mode key =>
    have hkey : Triple J ((some (hook key)).forM id) (fun _ => J) E := hhook key
    exact hd.run hfire hkey n mode
  | runEvents => exact hd.runEvents hfire hwithin n
  | dispatch e => exact hd.dispatch hfire houtside n e
  | _ => exact hq.elim

end

/-! ## Requests -/

/-- A request comes to what moves bear if it runs the machine or moves it, and what guards bear goes
over into that. -/
theorem Triple.carryOut {hook : κ → Engine σ κ Unit} {n : Nat} {q : Request κ} (hI : Phased I X B)
    (hJ : Bearing J (X k) B) (himp : ∀ w, J w → I k w) (hr : r.Bears J (X k) B)
    (hcrosses : Crosses r I X B k)
    (hruns : q.Runs → Triple J (Engine.carryOut r hook n q) (fun _ => I k) (Ends (I k) (X k) B)) :
    Triple J (Engine.carryOut r hook n q) (fun _ => I k) (Ends (I k) (X k) B) := by
  by_cases hmoves : (∃ args, q = .start args) ∨ ∃ s args, q = .goto s args
  · rcases hmoves with ⟨args, rfl⟩ | ⟨s, args, rfl⟩
    · exact fun w hw => bears_start hI hcrosses args w (himp w hw)
    · exact fun w hw => bears_goto hI hcrosses s args w (himp w hw)
  by_cases hq : q.Runs
  · exact hruns hq
  refine (bears_carryOut hJ hr n (fun h => absurd h hq)
    (fun args h => absurd (.inl ⟨args, h⟩) hmoves)
    fun s args h => absurd (.inr ⟨s, args, h⟩) hmoves).mono_post (fun _ => himp) fun _ w hw => ?_
  exact hw.map (himp w) id

end Engine

end Statechart
