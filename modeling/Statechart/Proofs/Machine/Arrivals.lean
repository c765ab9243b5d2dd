import Statechart.Proofs.Machine.Calls
import Statechart.Proofs.Machine.Resting

/-!
# Where operations end

While states are entered and while an activity is run, every move that a body asks for comes to
nothing. So an operation that succeeds ends in the state that it reports, unless a body has taken
the active state away: by a start that fails, or by putting an idle machine elsewhere.
-/

namespace Statechart

open Json

variable {σ κ α : Type}

namespace Phase

/-- The phases of a move that are under way, firings apart. -/
def still (p : Phase) : Phase := { p with effect := false }

/-- States are being entered, or the activity of one is run. -/
def Settling (p : Phase) : Prop := p.entry = true ∨ p.doActivity = true

theorem still_setPhaseFlag {o : Operation} (ho : o ≠ .effect) (p : Phase) (b : Bool) :
    (Engine.setPhaseFlag p o b).still = Engine.setPhaseFlag p.still o b := by
  cases o <;> first | rfl | exact absurd rfl ho

theorem phaseFlag_still {o : Operation} (ho : o ≠ .effect) (p : Phase) :
    Engine.phaseFlag p.still o = Engine.phaseFlag p o := by
  cases o <;> first | rfl | exact absurd rfl ho

theorem Settling.setPhaseFlag {p : Phase} (h : p.Settling) (o : Operation) :
    (Engine.setPhaseFlag p o true).Settling := by
  cases o <;> first | exact h | exact .inl rfl | exact .inr rfl

end Phase

/-- The call may have taken the machine from where it was: it is a start that fails and leaves no
state active, or it puts a machine elsewhere that is not running. -/
def Call.Disturbs (c : Call σ κ) : Prop :=
  match c.request with
  | .start _ =>
    (∃ e, c.outcome = .error e) ∧ c.before.machine.active ≠ none ∧ c.after.machine.active = none
  | .isolate | .restore _ => c.before.machine.running = false
  | _ => False

namespace World

def Disturbed (w : World (Diary σ κ) κ) : Prop := ∃ c ∈ w.env.calls, c.Disturbs

/-- The machine is in the state, unless it has been disturbed. -/
def At (s : StateId) (w : World (Diary σ κ) κ) : Prop := w.machine.active = some s ∨ w.Disturbed

/-- Those phases of a move are under way, and the active state is as described unless the machine
has been disturbed. -/
def Abides (k : Phase) (D : Option StateId → Prop) (w : World (Diary σ κ) κ) : Prop :=
  w.machine.phase.still = k ∧ (D w.machine.active ∨ w.Disturbed)

/-- The last notice tells that the transition has fired, into the state where the machine is. -/
def Reported (t : TransitionId) (w : World (Diary σ κ) κ) : Prop :=
  ∃ previous s, w.notices.getLast? = some (.transitionFired t previous s) ∧ w.At s

variable {w : World (Diary σ κ) κ} {k : Phase} {D : Option StateId → Prop}

theorem Disturbed.log (h : w.Disturbed) (c : Call σ κ) : (w.log c).Disturbed := by
  obtain ⟨c', hc', hdisturbs⟩ := h
  exact ⟨c', List.mem_append_left _ hc', hdisturbs⟩

theorem Abides.log (h : w.Abides k D) (c : Call σ κ) : (w.log c).Abides k D :=
  ⟨h.1, h.2.imp_right fun hd => hd.log c⟩

end World

namespace Comparison

variable {k : Phase} {D : Option StateId → Prop}

theorem inward_abides : (upTo (World.Abides (σ := σ) (κ := κ) k D)).Inward where
  same h := h.1
  setEnv _ h := ⟨rfl, h.2⟩

theorem runs_abides : (upTo (World.Abides (σ := σ) (κ := κ) k D)).Runs .same where
  like h := World.like_of_eq h.1
  guarded | _, rfl, h => ⟨by rw [h.1], h.2⟩
  starves := trivial
  running h := by rw [h.1]
  paused h := by rw [h.1]
  setPaused _ h := ⟨by rw [h.1], h.2⟩
  stopped h := ⟨by rw [h.1], h.2⟩
  resumed h := ⟨by rw [h.1], h.2⟩
  events h := by rw [h.1]
  setEvents _ h := ⟨by rw [h.1], h.2⟩
  dequeued _ h := ⟨by rw [h.1], h.2⟩
  setEvent _ h := ⟨by rw [h.1], h.2⟩
  setTrigger _ h := ⟨by rw [h.1], h.2⟩
  setRunning _ h := ⟨by rw [h.1], h.2⟩

theorem queues_abides : (upTo (World.Abides (σ := σ) (κ := κ) k D)).Queues .same where
  toSelects := runs_abides.toSelects
  phase h := by rw [h.1]
  pending h := likePending_of_eq (by rw [h.1])
  setPending hp h := ⟨by rw [h.1, eq_of_likePending hp], h.2⟩
  queued | rfl, h => ⟨by rw [h.1], h.2⟩

end Comparison

namespace Engine

/-- No move under way lets bodies move the machine. -/
def Detains (r : Responder (Diary σ κ) κ) : Prop :=
  ∀ k D, k.Settling → r.Matches (.upTo (World.Abides k D)) r

variable {r : Responder (Diary σ κ) κ} {k : Phase} {D : Option StateId → Prop}

/-! ## Amid another move -/

/-- A phase begins only if it is not under way. -/
theorem abides_phase {o : Operation} (ho : o ≠ .effect) {x : Engine (Diary σ κ) κ Unit}
    (hx : Triple (World.Abides (setPhaseFlag k o true) D) x
      (fun _ => World.Abides (setPhaseFlag k o true) D)
      (unlessCut (World.Abides (setPhaseFlag k o true) D))) :
    Triple (World.Abides k D) (do beginPhase o; x; endPhase o)
      (fun _ w => phaseFlag k o = false ∧ w.Abides k D) (unlessCut fun w => ∃ k, w.Abides k D) := by
  have hflag {w : World (Diary σ κ) κ} (hw : w.Abides k D) : phaseFlag w.machine.phase o =
      phaseFlag k o := by
    rw [← Phase.phaseFlag_still ho, hw.1]
  refine .phase (I := fun w => phaseFlag k o = false ∧ w.Abides (setPhaseFlag k o true) D) ?_ ?_ ?_
  · exact fun w hw _ => .inr ⟨k, hw⟩
  · exact fun w hw hnot =>
      ⟨hflag hw ▸ hnot, (Phase.still_setPhaseFlag ho _ _).trans (by rw [hw.1]), hw.2⟩
  · refine .of_and fun hk => hx.mono_post (fun _ v hv => ⟨hk, ?_, hv.2⟩) fun _ _ h =>
      h.imp_right fun hv => ⟨_, hv⟩
    have hphase := (Phase.still_setPhaseFlag ho v.machine.phase false).trans (by rw [hv.1])
    rwa [setPhaseFlag_cancel hk] at hphase

section
variable (hr : Detains r) (hk : k.Settling)
include hr hk

theorem abides_invoke (a : Action) (s : Subject) (args : List Value) :
    Triple (World.Abides k D) (invoke r a s args) (fun _ => World.Abides k D)
      (unlessCut (World.Abides k D)) :=
  matches_upTo_iff.mp (matches_invoke Comparison.runs_abides.toSelects (hr k D hk) a s args)

/-- A notice and the behavior that it announces. -/
theorem abides_announced (n : Notice) (a : Action) (s : Subject) (args : List Value) :
    Triple (World.Abides k D) (do notify n; let _ ← invoke r a s args) (fun _ => World.Abides k D)
      (unlessCut (World.Abides k D)) :=
  .bind (.notify fun _ hw => hw) fun _ => .bind (abides_invoke hr hk a s args) fun _ _ hw => hw

/-- Another move never comes to its end. -/
theorem abides_cascade {P : Prop} (old : Option StateId) (target : StateId)
    (via : Option TransitionId) (args : List Value) :
    Triple (World.Abides k fun _ => P) (cascade r old target via args) (fun _ _ => False)
      (unlessCut fun w => ∃ k, w.Abides k fun _ => P) := by
  rw [cascade_eq]
  refine .bind (Q := fun _ => World.Abides k fun _ => P) (fun _ hw => hw) fun m => ?_
  refine .bind (.ofGraph fun _ _ hw => .inr ⟨k, hw⟩) fun external => ?_
  have hphase (o : Operation) (ho : o ≠ .effect) (n : StateId → Notice) (a : Action)
      (ss : List StateId) :
      Triple (World.Abides k fun _ => P) (do
          beginPhase o
          ss.forM fun s => do notify (n s); let _ ← invoke r a (.state s) args
          endPhase o)
        (fun _ w => phaseFlag k o = false ∧ w.Abides k fun _ => P)
        (unlessCut fun w => ∃ k, w.Abides k fun _ => P) := by
    refine abides_phase ho (matches_upTo_iff.mp (.forM fun s _ => matches_upTo_iff.mpr ?_))
    exact abides_announced hr (hk.setPhaseFlag o) (n s) a (.state s) args
  refine .bind (hphase .exit nofun .stateExited .exit _) fun _ => .of_and fun _ => ?_
  refine .bind (.update (I := World.Abides k fun _ => P) fun _ hw => hw) fun _ => ?_
  refine .bind (hphase .entry nofun .stateEntered .entry _) fun _ => .of_and fun hentry => ?_
  have hsettle : Triple (World.Abides k fun _ => P)
      (settle r args via (m.graph.resolveEntryTarget target))
      (fun _ w => phaseFlag k .doActivity = false ∧ w.Abides k fun _ => P)
      (unlessCut fun w => ∃ k, w.Abides k fun _ => P) := by
    rw [settle_eq]
    refine .bind (.update (I := World.Abides k fun _ => P) fun _ hw => hw) fun _ => ?_
    exact abides_phase (o := .doActivity) nofun
      (abides_announced hr (hk.setPhaseFlag .doActivity) _ _ _ args)
  refine .bind hsettle fun _ => .of_and fun hactivity => ?_
  rcases hk with hk | hk
  · cases hk.symm.trans hentry
  · cases hk.symm.trans hactivity

theorem abides_enter (target : StateId) (via : Option TransitionId) (args : List Value) :
    Triple (World.Abides k D) (enter r target via args) (fun _ _ => False)
      (unlessCut (World.Abides k D)) := by
  intro w hw
  rw [enter, machine_bind]
  -- The active state that is put back is as described, or else the machine has been disturbed
  -- already.
  obtain ⟨P, hP, hback⟩ : ∃ P : Prop, (w.Abides k fun _ => P) ∧ (P → D w.machine.active) := by
    rcases hw.2 with hactive | hdisturbed
    · exact ⟨True, ⟨hw.1, .inl trivial⟩, fun _ => hactive⟩
    · exact ⟨False, ⟨hw.1, .inr hdisturbed⟩, False.elim⟩
  refine Triple.onFailure
    (.thenAlways ((abides_cascade hr hk w.machine.active target via args).mono_post ?_ ?_)) w hP
  · exact fun _ _ => False.elim
  · exact fun _ v hv => hv.imp_right fun ⟨_, _, hv⟩ => ⟨hw.1, hv.imp_left hback⟩

theorem abides_fire (t : TransitionId) (target : StateId) (previous : Option StateId)
    (args : List Value) :
    Triple (World.Abides k D) (fire r t target previous args) (fun _ _ => False)
      (unlessCut (World.Abides k D)) := by
  refine .bind (Q := fun _ => World.Abides k D) ?_ fun _ => ?_
  · refine .bind (Q := fun _ => World.Abides k D) (fun _ hw => hw) fun m => ?_
    split
    · exact fun _ hw => .inr hw
    · exact .update fun _ hw => hw
  refine .bind (.notify (I := World.Abides k D) fun _ hw => hw) fun _ => ?_
  refine .bind (abides_invoke hr hk _ _ args) fun _ => ?_
  refine .bind (.update (I := World.Abides k D) fun _ hw => hw) fun _ => ?_
  exact .bind (abides_enter hr hk target (some t) args) fun _ _ hw => hw.elim

theorem abides_fireTransition (p : Pending) :
    Triple (World.Abides k D) (fireTransition r p) (fun _ => World.Abides k D)
      (unlessCut (World.Abides k D)) := by
  refine .bind (Q := fun _ => World.Abides k D) (fun _ hw => hw) fun m => ?_
  split
  · exact fun _ hw => .inr hw
  refine .bind (.ofGraph fun _ _ hw => .inr hw) fun tr => ?_
  refine .bind (.update (I := World.Abides k D) fun _ hw => hw) fun _ => .thenAlways ?_
  exact (abides_fire hr hk _ _ _ _).mono_post (fun _ _ => False.elim) fun _ _ h => h

theorem abides_seed (s : StateId) (args : List Value) :
    Triple (World.Abides k D) (seed r s args) (fun _ _ => False) (unlessCut (World.Abides k D)) :=
  .bind (abides_enter hr hk s none args) fun _ _ hw => hw.elim

theorem abides_goto (s : StateId) (args : List Value) :
    Triple (World.Abides k D) (goto r s args) (fun _ _ => False)
      (unlessCut (World.Abides k D)) := by
  refine .bind (Q := fun _ => World.Abides k D) (fun _ hw => hw) fun m => ?_
  refine .bind (.ofGraph fun _ _ hw => .inr hw) fun st => ?_
  split
  · exact abides_seed hr hk s args
  · exact fun _ hw => .inr hw

/-- A start fails at once or leaves no state active. -/
theorem abides_start {F : Option StateId → Prop} (hD : ∀ s, D s → F none) (args : List Value) :
    Triple (World.Abides k D) (start r args) (fun _ _ => False)
      (unlessCut fun w => w.Abides k D ∨ w.Abides k F) := by
  refine .bind (Q := fun _ => World.Abides k D) (fun _ hw => hw) fun m => ?_
  refine .bind (.ofGraph fun _ _ hw => .inr (.inl hw)) fun d => ?_
  cases d.start with
  | none => exact fun _ hw => .inr (.inl hw)
  | some s =>
    have hemptied : Triple (World.Abides k D)
        (update fun m => { m with active := none } : Engine (Diary σ κ) κ Unit)
        (fun _ => World.Abides k F) (unlessCut fun w => w.Abides k D ∨ w.Abides k F) :=
      .update fun _ hw => ⟨hw.1, hw.2.imp_left (hD _)⟩
    have hseed : Triple (World.Abides k F) (seed r s args) (fun _ _ => False)
        (unlessCut fun w => w.Abides k D ∨ w.Abides k F) :=
      (abides_seed hr hk s args).mono_error fun _ _ h => h.imp_right .inr
    exact hemptied.seq (hseed.bind fun _ _ hw => hw.elim)

/-- No request moves the machine but a start that fails and what puts it elsewhere. -/
theorem abides_carryOut {hook : κ → Engine (Diary σ κ) κ Unit}
    (hhook : ∀ key, Matches (.upTo (World.Abides k D)) (hook key) (hook key)) (n : Nat)
    {q : Request κ} (hstart : ∀ args, q ≠ .start args) (hisolate : q ≠ .isolate)
    (hrestore : ∀ s, q ≠ .restore s) :
    Matches (.upTo (World.Abides k D)) (carryOut r hook n q) (carryOut r hook n q) := by
  refine matches_carryOut_of_runs Comparison.queues_abides.takes
    (fun p _ => matches_upTo_iff.mpr (abides_fireTransition hr hk p))
      Comparison.runs_abides (hr k D hk)
    (matches_queueTransition Comparison.queues_abides) hhook n fun hreplaces => ?_
  have hkeeps {x : Engine (Diary σ κ) κ q.Answer} (hx : Keeps (World.Abides k D) x) :
      Matches (.upTo (World.Abides k D)) x x := matches_upTo_iff.mpr (hx.mono_error fun _ _ => .inr)
  cases q with
  | start args => exact absurd rfl (hstart args)
  | goto s args =>
    exact matches_upTo_iff.mpr ((abides_goto hr hk s args).mono_post (fun _ _ => False.elim)
      fun _ _ h => h)
  | isolate => exact absurd rfl hisolate
  | setOptions o => exact hkeeps (.update fun _ hw => hw)
  | clearHistory => exact hkeeps (.modify fun _ hw => hw)
  | edit e => exact hkeeps (keeps_of_leads fun w hw => ⟨_, leads_edit e w, hw⟩)
  | restore s => exact absurd rfl (hrestore s)
  | _ => exact hreplaces.elim

/-- A start that fails is noted as what took the active state away if it did. -/
theorem abides_started {args : List Value} {w v : World (Diary σ κ) κ}
    {o : Except MachineError StateId} (hw : w.Abides k D)
    (hstart : attempt (start r args) w = .ok o v) :
    (v.log ⟨.start args, w.plain, o, v.plain⟩).Abides k D := by
  obtain ⟨e, rfl, herror⟩ : ∃ e, o = .error e ∧ start r args w = .error (.fault e) v := by
    rcases of_attempt hstart with ⟨a, -, hok⟩ | herror
    · have hnever := abides_start (F := fun _ => True) hr hk (fun _ _ => trivial) args w hw
      rw [hok] at hnever
      exact hnever.elim
    · exact herror
  rcases hw.2 with hactive | hdisturbed
  · have hends := abides_start (D := D) (F := (· = none)) hr hk (fun _ _ => rfl) args w hw
    rw [herror] at hends
    rcases hends.resolve_left nofun with hv | ⟨hphase, hnone | hdisturbed⟩
    · exact hv.log _
    · refine ⟨hphase, ?_⟩
      cases hbefore : w.machine.active with
      | none => exact .inl (hnone ▸ hbefore ▸ hactive)
      | some s =>
        refine .inr ⟨_, List.mem_append_right _ (List.mem_singleton_self _), ⟨e, rfl⟩, ?_, hnone⟩
        exact fun hnot => by cases hbefore.symm.trans hnot
    · exact ⟨hphase, .inr (hdisturbed.log _)⟩
  · have hends := abides_start (D := fun _ => False) (F := fun _ => False) hr hk
      (fun _ => id) args w ⟨hw.1, .inr hdisturbed⟩
    rw [herror] at hends
    rcases hends.resolve_left nofun with hv | hv
    · exact ⟨hv.1, .inr ((hv.2.resolve_left id).log _)⟩
    · exact ⟨hv.1, .inr ((hv.2.resolve_left id).log _)⟩

end

/-- What puts an idle machine elsewhere is noted. -/
theorem abides_replaced {hook : κ → Engine (Diary σ κ) κ Unit} {n : Nat} {q : Request κ}
    {w v : World (Diary σ κ) κ} {o : Except MachineError q.Answer} (hw : w.Abides k D)
    (hq : q = .isolate ∨ ∃ s, q = .restore s) (hended : attempt (carryOut r hook n q) w = .ok o v) :
    (v.log ⟨q, w.plain, o, v.plain⟩).Abides k D := by
  have hleads : (carryOut r hook n q).Leads w v := .of_attempt hended
  have hsame : v = w ∨ v.machine.phase = w.machine.phase ∧ w.machine.running = false := by
    cases hrunning : w.machine.running with
    | true =>
      refine .inl ?_
      rcases hq with rfl | ⟨s, rfl⟩
      · exact hleads.unique (.inr ⟨_, isolate_running hrunning⟩)
      · obtain ⟨e, he⟩ := restore_running (s := s) hrunning
        exact hleads.unique (.inl ⟨_, he⟩)
    | false =>
      rcases hq with rfl | ⟨s, rfl⟩
      · rcases leads_isolate w with hsame | ⟨g, c, active, pending, -, -, hisolated⟩
        · exact .inl (hleads.unique hsame)
        · exact .inr ⟨by rw [hleads.unique hisolated]; rfl, rfl⟩
      · rcases leads_restore s w with hsame | ⟨active, pending, -, hrestored⟩
        · exact .inl (hleads.unique hsame)
        · exact .inr ⟨by rw [hleads.unique hrestored]; rfl, rfl⟩
  rcases hsame with rfl | ⟨hphase, hrunning⟩
  · exact hw.log _
  · refine ⟨(congrArg Phase.still hphase).trans hw.1,
      .inr ⟨_, List.mem_append_right _ (List.mem_singleton_self _), ?_⟩⟩
    rcases hq with rfl | ⟨s, rfl⟩
    · exact hrunning
    · exact hrunning

/-- A request that is noted abides if it does with the note in place. -/
theorem abides_noted {q : Request κ} {x : Engine (Diary σ κ) κ q.Answer}
    (hx : ∀ w, w.Abides k D → ∀ o v,
      attempt x w = .ok o v → (v.log ⟨q, w.plain, o, v.plain⟩).Abides k D) :
    Matches (.upTo (World.Abides k D)) (noted q x) (noted q x) := by
  refine matches_upTo_iff.mpr fun w hw => ?_
  rcases noted_cases x w with ⟨o, v, hended, hnoted⟩ | ⟨v, -, hnoted⟩
  · rw [hnoted]
    cases o with
    | ok a => exact hx w hw _ _ hended
    | error e => exact .inr (hx w hw _ _ hended)
  · rw [hnoted]
    exact .inl rfl

/-! ## Where work ends -/

section
variable (hr : Detains r) {s : StateId}
include hr

omit hr in
/-- States are entered and the activity is run where the machine is. -/
theorem arrives_phase {o : Operation} (ho : o = .entry ∨ o = .doActivity)
    {x : Engine (Diary σ κ) κ Unit}
    (hx : ∀ k, k.Settling →
      Triple (World.Abides k (· = some s)) x (fun _ => World.Abides k (· = some s))
      (unlessCut (World.Abides k (· = some s)))) :
    Triple (World.At s) (do beginPhase o; x; endPhase o) (fun _ => World.At s) fun _ _ => True := by
  refine .phase (I := fun w => ∃ k, k.Settling ∧ w.Abides k (· = some s))
    (fun _ _ _ => trivial) ?_ ?_
  · intro w hw _
    refine ⟨(setPhaseFlag w.machine.phase o true).still, ?_, rfl, hw⟩
    rcases ho with rfl | rfl
    · exact .inl rfl
    · exact .inr rfl
  · rintro w ⟨k, hk, hw⟩
    exact ((hx k hk).mono_post (fun _ _ hv => hv.2) fun _ _ _ => trivial) w hw

theorem arrives_cascade (old : Option StateId) (target : StateId) (via : Option TransitionId)
    (args : List Value) :
    Triple (fun _ => True) (cascade r old target via args) World.At fun _ _ => True := by
  rw [cascade_eq]
  refine .bind .any fun m => .bind .any fun external => .bind .any fun _ => ?_
  generalize m.graph.resolveEntryTarget target = s
  refine .bind (.update (I := World.At s) fun _ _ => .inl rfl) fun _ => ?_
  refine .bind (Q := fun _ => World.At s) (arrives_phase (.inl rfl) fun k hk => ?_) fun _ => ?_
  · exact matches_upTo_iff.mp
      (.forM fun s' _ => matches_upTo_iff.mpr (abides_announced hr hk _ _ _ args))
  refine .bind (Q := fun _ => World.At s) ?_ fun _ _ hw => hw
  rw [settle_eq]
  refine .bind (.update (I := World.At s) fun _ hw => hw) fun _ => ?_
  exact arrives_phase (.inr rfl) fun k hk => abides_announced hr hk _ _ _ args

theorem arrives_enter (target : StateId) (via : Option TransitionId) (args : List Value) :
    Triple (fun _ => True) (enter r target via args) World.At fun _ _ => True := by
  refine .bind .any fun m => .onFailure (.thenAlways ?_)
  exact (arrives_cascade hr m.active target via args).mono_post (fun _ _ hw => hw)
    fun _ _ _ => trivial

omit hr in
theorem arrives_recordHistory (previous : Option StateId)
    (t : Option TransitionId) (new : StateId) :
    Keeps (World.At s) (recordHistory previous t new : Engine (Diary σ κ) κ Unit) := by
  refine .modify fun w hw => ?_
  split
  · exact hw
  · exact hw

theorem arrives_seed (target : StateId) (args : List Value) :
    Triple (fun _ => True) (seed r target args) World.At fun _ _ => True := by
  refine .bind (arrives_enter hr target none args) fun s => ?_
  refine .bind (.modify (I := World.At s) fun _ hw => hw) fun _ => ?_
  exact .bind ((arrives_recordHistory none none s).mono_error fun _ _ _ => trivial) fun _ _ hw => hw

theorem arrives_start (args : List Value) :
    Triple (fun _ => True) (start r args) World.At fun _ _ => True := by
  refine .bind .any fun m => .bind .any fun d => ?_
  cases d.start with
  | none => exact fun _ _ => trivial
  | some target =>
    refine .bind .any fun _ => .bind (arrives_seed hr target args) fun s => ?_
    exact .bind (.notify (I := World.At s) fun _ hw => hw) fun _ _ hw => hw

theorem arrives_goto (target : StateId) (args : List Value) :
    Triple (fun _ => True) (goto r target args) World.At fun _ _ => True := by
  refine .bind .any fun m => .bind .any fun st => ?_
  split
  · exact arrives_seed hr target args
  · exact fun _ _ => trivial

theorem arrives_fireTransition (p : Pending) :
    Triple (fun _ => True) (fireTransition r p) (fun _ => World.Reported p.transition)
      fun _ _ => True := by
  refine .bind .any fun m => ?_
  split
  · exact fun _ _ => trivial
  refine .bind .any fun tr => .bind .any fun _ => .thenAlways ?_
  refine .bind .any fun _ => .bind .any fun _ => .bind .any fun _ => .bind .any fun _ => ?_
  refine .bind (arrives_enter hr tr.target (some p.transition) p.args) fun s => ?_
  refine .bind ((arrives_recordHistory m.active (some p.transition) s).mono_error
    fun _ _ _ => trivial) fun _ => ?_
  exact .notify fun w hw => ⟨m.active, s, List.getLast?_concat, hw⟩

/-! ### Runs -/

/-- A run that has fired anything has last fired into the state where the machine is. -/
theorem arrives_fireQueued (mode : RunMode) (n fired : Nat) :
    Triple (fun w => 0 < fired → ∃ t, w.Reported t) (fireQueued r mode none n fired)
      (fun o w => 0 < o.1 → ∃ t, w.Reported t) fun _ _ => True := by
  induction n generalizing fired with
  | zero => exact fun _ _ => trivial
  | succ n ih =>
    refine .bind (Q := fun _ w => 0 < fired → ∃ t, w.Reported t) (fun _ hw => hw) fun m => ?_
    split
    · exact fun _ hw => hw
    split
    · exact fun _ hw => hw
    refine .bind (Q := fun _ w => 0 < fired → ∃ t, w.Reported t) (fun _ hw => hw) fun _ => ?_
    refine .bind (Q := fun _ w => 0 < fired → ∃ t, w.Reported t) (fun _ hw => hw) fun p => ?_
    cases p with
    | none => exact fun _ hw => hw
    | some p =>
      refine .bind ((arrives_fireTransition hr p).mono_pre fun _ _ => trivial) fun _ => ?_
      split
      · exact fun _ hw _ => ⟨p.transition, hw⟩
      · exact (ih (fired + 1)).mono_pre fun _ hw _ => ⟨p.transition, hw⟩

omit hr in
theorem arrives_reenter : Triple (fun _ => True) (reenter : Engine (Diary σ κ) κ RunOutcome)
    (fun o w => 0 < o.fired → ∃ t, w.Reported t) fun _ _ => True := by
  intro w _
  obtain ⟨v, hv, -⟩ := reenter_eq w
  rw [hv]
  exact fun hfired => absurd hfired (Nat.lt_irrefl 0)

theorem arrives_run (n : Nat) (mode : RunMode) :
    Triple (fun _ => True) (run r n mode none) (fun o w => 0 < o.fired → ∃ t, w.Reported t)
      fun _ _ => True := by
  have hprocess : Triple (fun _ => True) (processTransitions r n mode none)
      (fun o w => 0 < o.1 → ∃ t, w.Reported t) fun _ _ => True := by
    refine .bind .any fun m => ?_
    split
    · exact fun _ _ hfired => absurd hfired (Nat.lt_irrefl 0)
    refine .bind .any fun p => ?_
    cases p with
    | none =>
      exact (arrives_fireQueued hr mode n 0).mono_pre fun _ _ hfired =>
        absurd hfired (Nat.lt_irrefl 0)
    | some p =>
      refine .bind (arrives_fireTransition hr p) fun _ => ?_
      split
      · exact fun _ hw _ => ⟨p.transition, hw⟩
      · exact (arrives_fireQueued hr mode n 1).mono_pre fun _ hw _ => ⟨p.transition, hw⟩
  exact .of_reenter (fun _ => asRun_running) arrives_reenter
    (.asRun (fun _ h => h.2) (fun _ _ => trivial) hprocess)

/-- What waits in the slot is fired. -/
theorem arrives_single (p : Pending) (n : Nat) :
    Triple (fun w => w.machine.atEnd = false ∧ w.machine.pending = some p)
      (processTransitions r n .single none)
      (fun _ => World.Reported p.transition) fun _ _ => True := by
  rintro w ⟨hend, hpending⟩
  rw [processTransitions_single hend hpending]
  exact Triple.bind (arrives_fireTransition hr p) (fun _ _ hw => hw) _ trivial

/-- An event that is handled has fired the transition that it selects. -/
theorem arrives_handleEvent (n : Nat) (e : Event) :
    Triple (fun _ => True) (handleEvent r n e) (fun _ w => ∃ t, w.Reported t) fun _ _ => True := by
  refine .bind .any fun _ => .bind .any fun _ => .bind .any fun selected => .bind .any fun _ => ?_
  refine .bind (queued_queueTransition (D := fun _ => True) selected.1 e.args) fun _ => ?_
  refine .bind ((arrives_single hr ⟨selected.1, e.args⟩ n).mono_pre fun _ hw => hw.2) fun _ => ?_
  exact .bind (.update (I := World.Reported selected.1) fun _ hw => hw) fun _ _ hw =>
    ⟨selected.1, hw⟩

theorem arrives_processEvents (n fired : Nat) :
    Triple (fun w => 0 < fired → ∃ t, w.Reported t) (processEvents r n fired)
      (fun o w => 0 < o.1 → ∃ t, w.Reported t) fun _ _ => True := by
  induction n generalizing fired with
  | zero => exact fun _ _ => trivial
  | succ n ih =>
    refine .bind (Q := fun _ w => 0 < fired → ∃ t, w.Reported t) (fun _ hw => hw) fun m => ?_
    split
    · exact fun _ hw => hw
    refine .bind (Q := fun _ w => 0 < fired → ∃ t, w.Reported t) ?_ fun e => ?_
    · intro w hw
      rw [takeEvent, machine_bind]
      cases w.machine.events with
      | nil => exact hw
      | cons e rest => exact hw
    cases e with
    | none => exact fun _ hw => hw
    | some e =>
      refine .bind ((arrives_handleEvent hr (n + 1) e).mono_pre fun _ _ => trivial) fun more => ?_
      exact (ih (fired + more)).mono_pre fun _ hw _ => hw

theorem arrives_runEvents (n : Nat) :
    Triple (fun _ => True) (runEvents r n) (fun o w => 0 < o.fired → ∃ t, w.Reported t)
      fun _ _ => True := by
  have hnone (w : World (Diary σ κ) κ) (h : 0 < 0) : ∃ t, w.Reported t := absurd h (Nat.lt_irrefl 0)
  exact .of_reenter (fun _ => runEvents_running) arrives_reenter
    (.runEvents (fun _ h => h.2) (fun _ _ => hnone _) (arrives_processEvents hr n 0))

/-- An event that fires what it selects has fired it last. -/
theorem arrives_dispatch (hidle : ∀ event, r.Keeps (World.Idle event)) (n : Nat) (e : Event) :
    Triple (fun _ => True) (dispatch r n e) (fun o w => ∀ t, o = .fired t → w.Reported t)
      fun _ _ => True := by
  have hselect : Keeps (World.Idle (some e)) (transitionsMatching r e) :=
    keeps_iff_matches.mpr (matches_transitionsMatching Comparison.fires_notes.toSelects
      (hidle _).matches e)
  have hrun (p : Pending) : Triple
      (fun w => w.machine.running = false ∧ w.machine.atEnd = false ∧ w.machine.pending = some p)
      (run r n .single none) (fun _ => World.Reported p.transition) fun _ _ => True :=
    .asRun (fun _ hw => hw.1) (fun _ hw => hw.2) (arrives_single hr p n)
  have hnow : Triple (World.Idle (some e)) (dispatchNow r n e) (fun o w => ∀ t,
    o = .fired t → w.Reported t)
      fun _ _ => True := by
    rw [dispatchNow_eq]
    refine .bind (hselect.mono_error fun _ _ _ => trivial) fun ts => ?_
    match ts with
    | [] => exact fun _ _ => nofun
    | [(t, label)] =>
      refine .bind (.update (I := World.Idle (some e)) fun _ hw => hw) fun _ => ?_
      refine .bind ((queued_queueTransition (D := (· = false)) t e.args).mono_pre
        fun _ hw => hw.1) fun _ => ?_
      refine .bind (hrun ⟨t, e.args⟩) fun _ w hw t' ht => ?_
      cases ht
      exact hw
    | _ :: _ :: _ => exact fun _ _ => nofun
  intro w _
  cases hrunning : w.machine.running with
  | true =>
    rw [dispatch_running hrunning]
    cases hselected : selectAndQueue r e .queued w with
    | error err v => trivial
    | ok o v =>
      rcases selectAndQueue_cases hselected with rfl | ⟨ts, rfl⟩ | ⟨t, rfl, -⟩
      · exact nofun
      · exact nofun
      · exact nofun
  | false =>
    rw [dispatch_idle hrunning]
    exact Triple.thenAlways hnow _ ⟨hrunning, .inr rfl⟩

end

end Engine

namespace Host

variable {h : Host σ κ} {n : Nat} {k : Phase} {D : Option StateId → Prop}

/-- While states are entered and while an activity is run, what a body asks for leaves the active
state, or it is noted as what took it away. -/
theorem abides_calling (h : Host σ κ) (n : Nat) (hk : k.Settling) (q : Request κ) :
    Engine.Matches (.upTo (World.Abides k D)) (h.calling n q) (h.calling n q) := by
  induction n generalizing k D q with
  | zero => exact .cut trivial
  | succ n ih =>
    have hr : Engine.Detains (h.diarist n) :=
      fun _ _ hk => matches_diarist Comparison.inward_abides (ih hk)
    refine Engine.abides_noted fun w hw o v hended => ?_
    have hcarried : Engine.attempt (Engine.carryOut (h.diarist n) (h.callingHook n) n q) w =
      .ok o v := hended
    by_cases hstart : ∃ args, q = .start args
    · obtain ⟨args, rfl⟩ := hstart
      exact Engine.abides_started hr hk hw hcarried
    by_cases hreplaces : q = .isolate ∨ ∃ s, q = .restore s
    · exact Engine.abides_replaced hw hreplaces hcarried
    have hhook (key : κ) : Engine.Matches (.upTo (World.Abides k D)) (h.callingHook n key)
        (h.callingHook n key) :=
      matches_callingHook Comparison.inward_abides (ih hk) key
    have hkept := Engine.abides_carryOut hr hk hhook n (q := q) (fun args he => hstart ⟨args, he⟩)
      (fun he => hreplaces (.inl he)) (fun s he => hreplaces (.inr ⟨s, he⟩))
    have hleads : (Engine.carryOut (h.diarist n) (h.callingHook n) n q).Leads w v :=
      .of_attempt hcarried
    exact ((Engine.matches_upTo_iff.mp hkept).leads hw hleads).log _

theorem detains_diarist (h : Host σ κ) (n : Nat) : Engine.Detains (h.diarist n) :=
  fun _ _ hk => matches_diarist Comparison.inward_abides (abides_calling h n hk)

theorem keeps_idle_diarist (h : Host σ κ) (n : Nat) (event : Option Event) :
    (h.diarist n).Keeps (World.Idle event) :=
  (forgetting_diarist n).keeps_of_forgetting
    (keeps_responder (fun _ _ hw => hw) h.makes_any fun q _ => h.keeps_idle event n q)

/-! ## Operations that succeed -/

/-- The machine is in the state as the operation ends, unless a body has disturbed it. -/
def Reaches (h : Host σ κ) (n : Nat) (q : Request κ) (w w' : World σ κ) (s : StateId) : Prop :=
  w'.machine.active = some s ∨ ∃ c ∈ h.calls n q w, c.Disturbs

/-- The last notice of the operation tells that the transition has fired, into the state where the
machine is unless a body has disturbed it. -/
def ReachesBy (h : Host σ κ) (n : Nat) (q : Request κ) (w w' : World σ κ)
    (t : TransitionId) : Prop :=
  ∃ previous s, w'.notices.getLast? = some (.transitionFired t previous s) ∧ h.Reaches n q w w' s

/-- Operations that succeed end in the state that they report, by their answer or by the last
firing. A run with a hook need not, as its hook may put the machine elsewhere. -/
structure Arrives (h : Host σ κ) (n : Nat) (w : World σ κ) : Prop where
  start : ∀ args s w', h.perform n (.start args) w = .ok s w' → h.Reaches n (.start args) w w' s
  goto : ∀ target args s w', h.perform n (.goto target args) w = .ok s w' →
    h.Reaches n (.goto target args) w w' s
  run : ∀ mode o w', h.perform n (.run mode) w = .ok o w' → 0 < o.fired → ∃ t,
    h.ReachesBy n (.run mode) w w' t
  runEvents : ∀ o w', h.perform n .runEvents w = .ok o w' → 0 < o.fired → ∃ t,
    h.ReachesBy n .runEvents w w' t
  dispatch : ∀ e t w', h.perform n (.dispatch e) w = .ok (.fired t) w' →
    h.ReachesBy n (.dispatch e) w w' t

/-- What is known of the work that notes the calls is known of the operation. -/
theorem exists_noted {q : Request κ} {w w' : World σ κ} {a : q.Answer}
    {Q : q.Answer → World (Diary σ κ) κ → Prop}
    (hnoting : Engine.Triple (fun _ => True) (h.noting n q) Q fun _ _ => True)
    (hok : h.perform n q w = .ok a w') :
    ∃ v : World (Diary σ κ) κ, Q a v ∧ v.plain = w' ∧ h.calls n q w = v.env.calls := by
  obtain ⟨v, hv, hplain⟩ := (forgetting_noting n q).exists_of_forgetting (w := w.opened) hok
  have hended := hnoting w.opened trivial
  rw [hv] at hended
  exact ⟨v, hended, hplain, by rw [calls, Engine.after, hv]⟩

theorem arrives (h : Host σ κ) (n : Nat) (w : World σ κ) : h.Arrives n w := by
  cases n with
  | zero =>
    have hcut {q : Request κ} {a : q.Answer} {w' : World σ κ}
        (hok : h.perform 0 q w = .ok a w') : False := by
      cases hok
    exact ⟨fun _ _ _ hok => (hcut hok).elim, fun _ _ _ _ hok => (hcut hok).elim,
      fun _ _ _ hok => (hcut hok).elim,
      fun _ _ hok => (hcut hok).elim, fun _ _ _ hok => (hcut hok).elim⟩
  | succ n =>
    have hr : Engine.Detains (h.diarist n) := h.detains_diarist n
    have hreaches {q : Request κ} {w' : World σ κ} {v : World (Diary σ κ) κ}
        {s : StateId} (hv : v.At s)
        (hplain : v.plain = w') (hcalls : h.calls (n + 1) q w = v.env.calls) :
        h.Reaches (n + 1) q w w' s := by
      rw [Reaches, hcalls, ← hplain]
      exact hv
    refine ⟨?_, ?_, ?_, ?_, ?_⟩
    · intro args s w' hok
      obtain ⟨v, hv, hplain, hcalls⟩ := exists_noted (Engine.arrives_start hr args) hok
      exact hreaches hv hplain hcalls
    · intro target args s w' hok
      obtain ⟨v, hv, hplain, hcalls⟩ := exists_noted (Engine.arrives_goto hr target args) hok
      exact hreaches hv hplain hcalls
    · intro mode o w' hok hfired
      obtain ⟨v, hv, rfl, hcalls⟩ := exists_noted (Engine.arrives_run hr n mode) hok
      obtain ⟨t, previous, s, hlast, hat⟩ := hv hfired
      exact ⟨t, previous, s, hlast, hreaches hat rfl hcalls⟩
    · intro o w' hok hfired
      obtain ⟨v, hv, rfl, hcalls⟩ := exists_noted (Engine.arrives_runEvents hr n) hok
      obtain ⟨t, previous, s, hlast, hat⟩ := hv hfired
      exact ⟨t, previous, s, hlast, hreaches hat rfl hcalls⟩
    · intro e t w' hok
      obtain ⟨v, hv, rfl, hcalls⟩ :=
        exists_noted (Engine.arrives_dispatch hr (h.keeps_idle_diarist n) n e) hok
      obtain ⟨previous, s, hlast, hat⟩ := hv t rfl
      exact ⟨previous, s, hlast, hreaches hat rfl hcalls⟩

end Host

end Statechart
