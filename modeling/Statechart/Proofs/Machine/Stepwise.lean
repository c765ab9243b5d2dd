import Statechart.Proofs.Machine.Dispatching
import Statechart.Proofs.Machine.Pausing

/-!
# Runs step by step

A run that nothing pauses fires what is queued until nothing is, the machine is at its end or a
firing fails. Runs of one firing each, made one after the other, do the same. They may be made at
other times: that shows in nothing but the times of records, as long as bodies have no eye for
these.
-/

namespace Statechart

open Json

variable {σ τ κ : Type}

/-! ## Firing after firing -/

namespace World

/-- The world once a run has ended. -/
def stopped (w : World σ κ) : World σ κ :=
  w.mapMachine ({ · with running := false, paused := false })

/-- The world with the slot emptied. -/
def vacated (w : World σ κ) : World σ κ := w.mapMachine ({ · with pending := none })

theorem begun_stopped {w : World σ κ} (hrunning : w.machine.running = true)
    (hpaused : w.machine.paused = false) : w.stopped.begun = w := by
  have hmachine : { w.machine with running := true, paused := false } = w.machine := by
    rw [← hrunning, ← hpaused]
  exact congrArg (fun m => { w with machine := m }) hmachine

theorem vacated_of_none {w : World σ κ} (hp : w.machine.pending = none) : w.vacated = w := by
  have hmachine : { w.machine with pending := none } = w.machine := by rw [← hp]
  exact congrArg (fun m => { w with machine := m }) hmachine

end World

namespace Engine

variable {r : Responder σ κ} {n k fired : Nat} {u v w : World σ κ}
  {o : Except MachineError StopReason}

/-- A run with that much fuel that nothing pauses, from firing to firing: how many succeed, and how
it ends. -/
inductive Unrolls (r : Responder σ κ) (n : Nat) :
    World σ κ → Nat → Except MachineError StopReason → World σ κ → Prop
  | atEnd {u : World σ κ} (hend : u.machine.atEnd = true) : Unrolls r n u 0 (.ok .atEnd) u
  | empty {u : World σ κ} (hfuel : 0 < n) (hend : u.machine.atEnd = false)
      (hp : u.machine.pending = none) :
    Unrolls r n u 0 (.ok .queueEmpty) u
  | fails {u v : World σ κ} {p : Pending} {e : MachineError} (hend : u.machine.atEnd = false)
    (hp : u.machine.pending = some p) (hfire : fireTransition r p u.vacated = .error (.fault e) v) :
    Unrolls r n u 0 (.error e) v
  | fires {u v w : World σ κ} {p : Pending} {k : Nat} {o : Except MachineError StopReason}
    (hend : u.machine.atEnd = false) (hp : u.machine.pending = some p)
    (hfire : fireTransition r p u.vacated = .ok () v) (hrunning : v.machine.running = true)
    (hpaused : v.machine.paused = false) (hrest : Unrolls r n v k o w) : Unrolls r n u (k + 1) o w

theorem takePending_eq (u : World σ κ) : takePending u = .ok u.machine.pending u.vacated := rfl

theorem takePending_none (hp : u.machine.pending = none) : takePending u = .ok none u := by
  rw [takePending_eq, hp, World.vacated_of_none hp]

section
variable (hpaused : u.machine.paused = false) (hend : u.machine.atEnd = false)
include hpaused hend

theorem fireQueued_of_none (hp : u.machine.pending = none) (mode : RunMode) (fuel fired : Nat) :
    fireQueued r mode none (fuel + 1) fired u = .ok (fired, .queueEmpty) u := by
  rw [fireQueued, machine_bind, hpaused, hend, if_neg Bool.false_ne_true, if_neg Bool.false_ne_true]
  exact (bind_of_ok (x := none.forM id) rfl).trans (bind_of_ok (takePending_none hp))

theorem fireQueued_of_some {p : Pending} (hp : u.machine.pending = some p) (fuel fired : Nat) :
    fireQueued r .continuous none (fuel + 1) fired u =
      (fireTransition r p >>= fun _ => fireQueued r .continuous none fuel (fired + 1))
        u.vacated := by
  have htake : takePending u = .ok (some p) u.vacated := by rw [takePending_eq, hp]
  rw [fireQueued, machine_bind, hpaused, hend, if_neg Bool.false_ne_true, if_neg Bool.false_ne_true]
  exact (bind_of_ok (x := none.forM id) rfl).trans (bind_of_ok htake)

end

/-! ## One step after the other -/

/-- Takes steps, each at a time of its own, until one fires nothing or fails: the number of firings,
and what came of that last step if the times suffice for it. -/
def singly (step : Engine σ κ RunOutcome) :
    List Instant → Engine σ κ (Nat × Option (Except MachineError RunOutcome))
  | [] => pure (0, none)
  | now :: later => do
    modify ({ · with now })
    match ← attempt step with
    | .ok (.completed (fired + 1) _) => do
      let (more, last) ← singly step later
      pure (fired + 1 + more, last)
    | o => pure (0, some o)

section
variable {step : Engine σ κ RunOutcome} {now : Instant} {later : List Instant}
  {x : Except MachineError RunOutcome}

theorem singly_of_firing (now : Instant) {stop : StopReason}
    {last : Option (Except MachineError RunOutcome)}
    (h : attempt step { w with now } = .ok (.ok (.completed (fired + 1) stop)) v)
    (hrest : singly step later v = .ok (k, last) u) :
    singly step (now :: later) w = .ok (fired + 1 + k, last) u := by
  have hclock : (modify ({ · with now }) : Engine σ κ Unit) w = .ok () { w with now } := rfl
  exact (bind_of_ok hclock).trans ((bind_of_ok h).trans (bind_of_ok hrest))

theorem singly_of_last (h : attempt step { w with now } = .ok x v)
    (hx : ∀ fired stop, x ≠ .ok (.completed (fired + 1) stop)) :
    singly step (now :: later) w = .ok (0, some x) v := by
  have hclock : (modify ({ · with now }) : Engine σ κ Unit) w = .ok () { w with now } := rfl
  refine (bind_of_ok hclock).trans ((bind_of_ok h).trans ?_)
  cases x with
  | error e => rfl
  | ok o =>
    cases o with
    | alreadyRunning => rfl
    | completed fired stop =>
      cases fired with
      | zero => rfl
      | succ fired => exact absurd rfl (hx fired stop)

end

/-- How a run ends is how its work does. -/
theorem attempt_asRun {work : Engine σ κ (Nat × StopReason)}
    {o : Except MachineError (Nat × StopReason)} (hidle : w.machine.running = false)
    (h : attempt work w.begun = .ok o v) :
    attempt (asRun work) w = .ok (o.map fun o => .completed o.1 o.2) v.stopped := by
  rw [attempt, asRun_idle hidle]
  exact attempt_thenAlways h World.stopped fun o => RunOutcome.completed o.1 o.2

theorem exists_of_attempt_asRun {work : Engine σ κ (Nat × StopReason)}
    {out : Except MachineError RunOutcome} (hidle : w.machine.running = false)
    (h : attempt (asRun work) w = .ok out v) :
    ∃ o u, attempt work w.begun = .ok o u ∧ out = o.map (fun o => .completed o.1 o.2) ∧
      v = u.stopped := by
  cases hwork : work w.begun with
  | ok a u =>
    have hattempt := attempt_of_ok hwork
    cases (attempt_asRun hidle hattempt).symm.trans h
    exact ⟨_, u, hattempt, rfl, rfl⟩
  | error e u =>
    cases e with
    | fault e =>
      have hattempt := attempt_of_error hwork
      cases (attempt_asRun hidle hattempt).symm.trans h
      exact ⟨_, u, hattempt, rfl, rfl⟩
    | exhausted =>
      have hthen : work.thenAlways World.stopped w.begun =
        .error .exhausted u.stopped := by rw [thenAlways, hwork]
      have hrun : asRun work w = .error .exhausted u.stopped :=
        (asRun_idle hidle).trans (bind_of_error hthen)
      rw [attempt, hrun] at h
      cases h

theorem attempt_single_atEnd (hend : u.machine.atEnd = true) :
    attempt (processTransitions r n .single none) u = .ok (.ok (0, .atEnd)) u := by
  refine attempt_of_ok ?_
  rw [processTransitions, machine_bind, if_pos hend]
  rfl

theorem attempt_single_empty (hfuel : 0 < n) (hpaused : u.machine.paused = false)
    (hend : u.machine.atEnd = false) (hp : u.machine.pending = none) :
    attempt (processTransitions r n .single none) u = .ok (.ok (0, .queueEmpty)) u := by
  obtain ⟨n, rfl⟩ := Nat.exists_eq_succ_of_ne_zero (Nat.ne_of_gt hfuel)
  refine attempt_of_ok ?_
  rw [processTransitions, machine_bind, hend]
  exact (bind_of_ok (takePending_none hp)).trans (fireQueued_of_none hpaused hend hp .single n 0)

theorem attempt_single_fires {p : Pending} {a : Except MachineError Unit}
    (hend : u.machine.atEnd = false) (hp : u.machine.pending = some p)
    (hfire : attempt (fireTransition r p) u.vacated = .ok a v) :
    attempt (processTransitions r n .single none) u = .ok (a.map fun _ => (1, .singleStep)) v := by
  have hprocess : processTransitions r n .single none u =
      (fireTransition r p >>= fun _ => pure (1, StopReason.singleStep)) u.vacated :=
        processTransitions_single hend hp n
  rcases of_attempt hfire with ⟨_, rfl, hok⟩ | ⟨e, rfl, herror⟩
  · exact attempt_of_ok (hprocess.trans (bind_of_ok hok))
  · exact attempt_of_error (hprocess.trans (bind_of_error herror))

/-- Time stands still while a transition fires. -/
theorem now_fireTransition {now : Instant} (hr : r.Keeps fun w => w.now = now) (p : Pending) :
    Keeps (fun w => w.now = now) (fireTransition r p) := by
  have hserves : (Comparison.within fun w : World σ κ => w.now = now).ServesAll :=
    Comparison.serves_heedless ⟨fun _ h => h, fun _ h => h, fun _ h => h⟩ fun h => h
  refine keeps_iff_matches.mpr (matches_fireTransition hserves.toFires hr.matches p fun _ _ => ?_)
  exact (hserves.recorded (optionRel_refl _) rfl rfl).matches id

/-- Steps do what a run does that nothing pauses. -/
theorem Unrolls.singly (h : Unrolls r n u k o v) (hr : ∀ now, r.Keeps fun w => w.now = now)
    (hidle : w.machine.running = false) (hu : w.begun = u) (m : Nat) :
    Engine.singly (run r n .single none) (List.replicate (m + 1 + k) w.now) w =
      .ok (k, some (o.map (.completed 0))) v.stopped := by
  induction h generalizing w with
  | atEnd hend =>
    subst hu
    exact singly_of_last (attempt_asRun hidle (attempt_single_atEnd hend)) nofun
  | empty hfuel hend hp =>
    subst hu
    exact singly_of_last (attempt_asRun hidle (attempt_single_empty hfuel rfl hend hp)) nofun
  | fails hend hp hfire =>
    subst hu
    exact singly_of_last (attempt_asRun hidle
      (attempt_single_fires hend hp (attempt_of_error hfire))) nofun
  | @fires u v x p k o hend hp hfire hrunning hpaused hrest ih =>
    subst hu
    have hnow : v.stopped.now = w.now := by
      have hkept := now_fireTransition (hr w.now) p w.begun.vacated rfl
      rw [hfire] at hkept
      exact hkept
    have hlater := ih (w := v.stopped) rfl (World.begun_stopped hrunning hpaused)
    rw [hnow] at hlater
    have hstep := attempt_asRun hidle (attempt_single_fires (n := n) hend hp (attempt_of_ok hfire))
    have hsteps := singly_of_firing w.now hstep hlater
    rwa [Nat.add_comm (0 + 1) k] at hsteps

end Engine

/-! ## Without a pause -/

namespace Engine

variable {r : Responder (Diary σ κ) κ} {n k fired : Nat} {u v : World (Diary σ κ) κ} {p : Pending}
  {o : Except MachineError (Nat × StopReason)}

/-- With that many firings so far a run comes to an outcome, firing by firing. -/
def Follows (r : Responder (Diary σ κ) κ) (n fired : Nat) (u : World (Diary σ κ) κ)
    (o : Except MachineError (Nat × StopReason)) (v : World (Diary σ κ) κ) : Prop :=
  ∃ k, Unrolls r n u k (o.map (·.2)) v ∧ ∀ total stop, o = .ok (total, stop) → total = fired + k

section
variable (hheeds : r.Keeps World.Heeds)
include hheeds

theorem follows_fireTransition {rest : Engine (Diary σ κ) κ (Nat × StopReason)} (hu : u.Heeds)
    (hend : u.machine.atEnd = false) (hp : u.machine.pending = some p)
    (hrest : ∀ w, w.Heeds → attempt rest w = .ok o v → w.machine.paused = false ∧
      Follows r n (fired + 1) w o v)
    (h : attempt (fireTransition r p >>= fun _ => rest) u.vacated = .ok o v) :
    Follows r n fired u o v := by
  have hkept := heeds_fireTransition hheeds p u.vacated (hu.congr rfl)
  cases hfire : fireTransition r p u.vacated with
  | ok a w =>
    rw [hfire] at hkept
    rw [attempt, bind_of_ok hfire] at h
    obtain ⟨hpaused, k, hunrolls, htotal⟩ := hrest w hkept h
    refine ⟨k + 1, .fires hend hp hfire hkept.running hpaused hunrolls, fun total stop ho => ?_⟩
    rw [htotal total stop ho, Nat.add_assoc, Nat.add_comm 1]
  | error e w =>
    rw [attempt, bind_of_error hfire] at h
    cases e with
    | fault e =>
      cases h
      exact ⟨0, .fails hend hp hfire, fun total stop ho => by cases ho⟩
    | exhausted => cases h

theorem follows_fireQueued (fuel : Nat) (hfuel : fuel ≤ n) (hu : u.Heeds)
    (hcalls : ∀ c ∈ v.env.calls, c.request ≠ .pause)
    (h : attempt (fireQueued r .continuous none fuel fired) u = .ok o v) :
    u.machine.paused = false ∧ Follows r n fired u o v := by
  induction fuel generalizing fired u with
  | zero => cases h
  | succ fuel ih =>
    cases hpaused : u.machine.paused with
    | true =>
      -- The run ends here, and some call has paused it.
      rw [attempt, fireQueued, machine_bind, if_pos hpaused] at h
      cases h
      obtain ⟨c, post, hstands⟩ := hu.paused.mp hpaused
      exact absurd hstands.pauses (hcalls c hstands.mem)
    | false =>
    refine ⟨rfl, ?_⟩
    cases hend : u.machine.atEnd with
    | true =>
      rw [attempt, fireQueued, machine_bind, hpaused, if_neg Bool.false_ne_true, if_pos hend] at h
      cases h
      exact ⟨0, .atEnd hend, fun total stop ho => by cases ho; rfl⟩
    | false =>
    cases hp : u.machine.pending with
    | none =>
      rw [attempt, fireQueued_of_none hpaused hend hp] at h
      cases h
      exact ⟨0, .empty (Nat.lt_of_lt_of_le (Nat.succ_pos fuel) hfuel) hend hp,
        fun total stop ho => by cases ho; rfl⟩
    | some p =>
      rw [attempt, fireQueued_of_some hpaused hend hp] at h
      exact follows_fireTransition hheeds hu hend hp (fun w hw => ih (Nat.le_of_succ_le hfuel) hw) h

theorem follows_processTransitions (hu : u.Heeds) (hcalls : ∀ c ∈ v.env.calls, c.request ≠ .pause)
    (h : attempt (processTransitions r n .continuous none) u = .ok o v) : Follows r n 0 u o v := by
  rw [attempt, processTransitions, machine_bind] at h
  cases hend : u.machine.atEnd with
  | true =>
    rw [if_pos hend] at h
    cases h
    exact ⟨0, .atEnd hend, fun total stop ho => by cases ho; rfl⟩
  | false =>
  rw [hend, if_neg Bool.false_ne_true, bind_of_ok (takePending_eq u)] at h
  cases hp : u.machine.pending with
  | none =>
    rw [World.vacated_of_none hp, hp] at h
    exact (follows_fireQueued hheeds n (Nat.le_refl n) hu hcalls h).2
  | some p =>
    rw [hp] at h
    exact follows_fireTransition hheeds hu hend hp
      (fun w hw => follows_fireQueued hheeds n (Nat.le_refl n) hw hcalls) h

end

/-- The firings that succeed are told of. -/
theorem Unrolls.told (hr : ∀ v : World (Diary σ κ) κ, r.Keeps v.Ensues)
    {o : Except MachineError StopReason} (h : Unrolls r n u k o v) (hu : u.machine.running = true) :
    ∃ told, v.notices = u.notices ++ told ∧ (told.filterMap Notice.fired?).length = k := by
  have hfiring {u : World (Diary σ κ) κ} (hu : u.machine.running = true) (p : Pending) :=
    firing_fireTransition hr (w := u.vacated) hu p u.vacated rfl
  induction h with
  | atEnd => exact ⟨[], (List.append_nil _).symm, rfl⟩
  | empty => exact ⟨[], (List.append_nil _).symm, rfl⟩
  | @fails u v p e hend hp hfire =>
    have hfails := hfiring hu p
    rw [hfire] at hfails
    rcases hfails with htally | hbegun
    · exact ⟨[], (congrArg (·.2.2.2.2) htally).trans (List.append_nil _).symm, rfl⟩
    · obtain ⟨told, hquiet, hnotices⟩ := hbegun.notices
      refine ⟨_, hnotices, ?_⟩
      rw [List.filterMap_cons_none rfl, Notice.fired?_of_quiet hquiet]
      rfl
  | @fires u v w p k o hend hp hfire hrunning hpaused hrest ih =>
    have hfires := hfiring hu p
    rw [hfire] at hfires
    obtain ⟨x, previous, new, hbegun, htally⟩ := hfires
    obtain ⟨told, hquiet, hx⟩ := hbegun.notices
    have hv : v.notices = x.notices ++ [.transitionFired p.transition previous new] :=
      congrArg (·.2.2.2.2) htally
    obtain ⟨later, hlater, hcount⟩ := ih hrunning
    refine ⟨.effectInvoked p.transition :: told ++ .transitionFired p.transition previous new ::
      later, ?_, ?_⟩
    · rw [hlater, hv, hx, List.append_assoc, List.append_assoc]
      rfl
    · rw [List.filterMap_append, List.filterMap_cons_none rfl,
        Notice.fired?_of_quiet hquiet, List.nil_append]
      exact congrArg (· + 1) hcount

end Engine

/-! ## Other times -/

theorem HistoryRecord.undated_copied (r : HistoryRecord) (c : GraphCopy) :
    r.undated.copied c = (r.copied c).map (·.undated) := by
  show (c.state? r.new).map _ = _
  rw [copied, Option.map_map]
  rfl

theorem LogStore.undated_remap (st : LogStore) (l : HistoryLog) (c : GraphCopy) :
    (st.remap l (·.copied c)).undated = st.undated.remap l (·.copied c) := by
  refine undated_update st l.own fun rs => ?_
  rw [List.map_filterMap, List.filterMap_map]
  exact congrArg (List.filterMap · rs) (funext fun r => (r.undated_copied c).symm)

/-- What is seen but for times. -/
def View.undated (v : View σ κ) : View σ κ := { v with logs := v.logs.undated }

namespace World

/-- The world but for times. -/
def undated (w : World σ κ) : World σ κ := { w with logs := w.logs.undated, now := default }

theorem undated_setLogs (w : World σ κ) (logs : LogStore) :
    undated { w with logs } = { w.undated with logs := logs.undated } := rfl

section
variable {w w' : World σ κ}

theorem undated_mapMachine {f : Machine κ → Machine κ} (h : w'.undated = w.undated) :
    (w'.mapMachine f).undated = (w.mapMachine f).undated :=
  congrArg (fun v : World σ κ => v.mapMachine f) h

theorem undated_notify {n : Notice} (h : w'.undated = w.undated) :
    (w'.notify n).undated = (w.notify n).undated :=
  congrArg (fun v : World σ κ => v.notify n) h

end

end World

namespace Comparison

/-- Worlds at other times. -/
def undated : Comparison σ σ κ where
  related w w' := w'.undated = w.undated

/-- A change that has no eye for times. -/
theorem undated_modify {g : World σ κ → World σ κ} (g' : World σ κ → World σ κ)
    (hg : ∀ w, (g w).undated = g' w.undated) :
    Engine.Matches undated (modify g : Engine σ κ Unit) (modify g) :=
  .modify fun w w' h => by
    show (g w').undated = (g w).undated
    rw [hg, hg, show w'.undated = w.undated from h]

theorem undated_recordHistory (previous : Option StateId)
    (t : Option TransitionId) (new : StateId) :
    Engine.Matches undated (Engine.recordHistory previous t new : Engine σ κ Unit)
      (Engine.recordHistory previous t new) := by
  refine undated_modify (fun w => if w.machine.options.recordHistory then
    { w with logs := w.logs.append w.machine.history (Engine.recordOf w previous t new) }
      else w) fun w => ?_
  show _ = if w.machine.options.recordHistory then _ else _
  split
  · rw [World.undated_setLogs, LogStore.undated_append]
    rfl
  · rfl

theorem undated_clearHistory :
    Engine.Matches undated (Engine.clearHistory : Engine σ κ Unit) Engine.clearHistory :=
  undated_modify (fun w => { w with logs := w.logs.clear w.machine.history }) fun w => by
    rw [World.undated_setLogs, LogStore.undated_clear]
    rfl

theorem serves_undated : (undated : Comparison σ σ κ).ServesAll where
  like h := Machine.Meets.like ⟨congrArg (·.machine.graph) h, congrArg (·.machine.definition) h,
    congrArg (·.machine.active) h⟩
  guarded | _, rfl, h => World.undated_notify h
  phase h := congrArg (·.machine.phase) h
  setPhase _ h := World.undated_mapMachine h
  setActive hs h := eq_of_optionRel hs ▸ World.undated_mapMachine h
  setLast hvia h := eq_of_optionRel hvia ▸ World.undated_mapMachine h
  exited | rfl, h => World.undated_notify h
  started | rfl, h => World.undated_notify h
  moving _ hlike h := hlike.eq ▸ World.undated_notify h
  seeded | rfl => (undated_recordHistory none none _).relates
  clear := undated_clearHistory.relates
  firing h := congrArg (·.machine.firing.isSome) h
  setFiring ht h := eq_of_optionRel ht ▸ World.undated_mapMachine h
  effect | rfl, h => World.undated_notify h
  fired | rfl, hsource, rfl, h => eq_of_optionRel hsource ▸ World.undated_notify h
  pending h := likePending_of_eq (congrArg (·.machine.pending) h)
  setPending hp h := eq_of_likePending hp ▸ World.undated_mapMachine h
  queued | rfl, h => World.undated_notify h
  starves := trivial
  running h := congrArg (·.machine.running) h
  paused h := congrArg (·.machine.paused) h
  setPaused _ h := World.undated_mapMachine h
  stopped h := World.undated_notify h
  resumed h := World.undated_notify h
  events h := congrArg (·.machine.events) h
  setEvents _ h := World.undated_mapMachine h
  dequeued _ h := World.undated_notify h
  setEvent _ h := World.undated_mapMachine h
  setTrigger _ h := World.undated_mapMachine h
  setRunning _ h := World.undated_mapMachine h
  recorded := Engine.relates_record_of_forall undated_recordHistory
  setOptions _ h := World.undated_mapMachine h
  isolate := by
    refine .machine_bind (M := fun m m' => m' = m) (fun h => congrArg (·.machine) h)
      fun m m' hm => ?_
    rw [hm]
    refine .check (.bind .ofGraph fun ⟨graph, c⟩ => .bind .ofGraph fun active => .bind .ofGraph
      fun pending => ?_)
    refine .bind (undated_modify (fun w => { w with logs := w.logs.remap m.history (·.copied c) })
      fun w => ?_) fun _ => .update fun _ _ h => World.undated_mapMachine h
    rw [World.undated_setLogs, LogStore.undated_remap]
    rfl
  edit e := by
    refine .machine_bind (M := fun m m' => m' = m) (fun h => congrArg (·.machine) h)
      fun m m' hm => ?_
    rw [hm]
    cases e.apply.run m.graph with
    | ok a g => exact .bind (.update fun _ _ h => World.undated_mapMachine h) fun _ => .pure
    | error err g => exact .bind (.update fun _ _ h => World.undated_mapMachine h) fun _ => .fail
  restore s := by
    refine .machine_bind (M := fun m m' => m' = m) (fun h => congrArg (·.machine) h)
      fun m m' hm => ?_
    rw [hm]
    cases s.restoreInto m with
    | ok m => exact .bind (.update fun _ _ h => World.undated_mapMachine h) fun _ => .pure
    | error e => exact .pure

theorem shows_undated : (undated : Comparison σ σ κ).Shows fun v v' => v'.undated = v.undated where
  env h := congrArg (·.env) h
  setEnv env h := congrArg (fun w : World σ κ => ({ w with env } : World σ κ)) h
  view h := congrArg World.view h

end Comparison

namespace Engine

/-- Steps that match do so at times that do not tell the worlds apart. -/
theorem matches_singly {c : Comparison σ τ κ} {step : Engine σ κ RunOutcome}
    {step' : Engine τ κ RunOutcome} (hstep : Matches c step step') {times times' : List Instant}
    (htimes : List.Forall₂ (fun now now' => ∀ w w', c.related w w' →
      c.related { w with now } { w' with now := now' })
      times times') : Matches c (singly step times) (singly step' times') := by
  induction htimes with
  | nil => exact .pure
  | @cons now now' later later' hnow hlater ih =>
    rw [singly, singly]
    refine .bind (.modify hnow) fun _ => .bind (.attempt hstep) fun o => ?_
    cases o with
    | error e => exact .pure
    | ok o =>
      cases o with
      | alreadyRunning => exact .pure
      | completed fired stop =>
        cases fired with
        | zero => exact .pure
        | succ fired => exact .bind ih fun _ => .pure

end Engine

namespace Host

variable {h : Host σ κ} {n k : Nat} {w w' : World σ κ}
  {last : Option (Except MachineError RunOutcome)}

theorem keeps_now (now : Instant) : (h.responder (h.perform n)).Keeps fun w => w.now = now :=
  keeps_responder (fun _ _ hw => hw) h.makes_any fun q _ =>
    keeps_heedless ⟨fun _ hw => hw, fun _ hw => hw, fun _ hw => hw⟩ (fun hw => hw)
      (fun _ _ hw => hw) h n q

/-- Bodies that have no eye for times have steps do the same at all times. -/
theorem singly_undated (hbodies : h.Blind (fun v v' => v'.undated = v.undated) fun _ => True)
    {times times' : List Instant} (hlength : times.length = times'.length)
    (hsteps : Engine.singly (h.perform n (.run .single)) times w = .ok (k, last) w') :
    ∃ v, Engine.singly (h.perform n (.run .single)) times' w = .ok (k, last) v ∧
      v.undated = w'.undated := by
  have hmatches := Engine.matches_singly
    (matches_perform Comparison.serves_undated Comparison.shows_undated hbodies n (.run .single))
    (List.forall₂_iff_zip.mpr ⟨hlength, fun _ _ _ hw => hw⟩)
  have hagree := hmatches w w rfl
  rw [hsteps] at hagree
  generalize Engine.singly (h.perform n (.run .single)) times' w = o at hagree ⊢
  cases hagree with
  | ok hv => exact ⟨_, rfl, hv⟩

/-- A run from idle during which nothing pauses does what steps of one firing each do, taken until
one fires nothing or fails. They fire as often, tell the same, end with the same error if any, and
leave the world the same if they are taken at the same time. Taken at other times they do so but for
the times of records, if bodies have no eye for these. -/
theorem run_stepwise {o : Except MachineError RunOutcome} (hidle : w.machine.running = false)
    (hrun : Engine.attempt (h.perform (n + 1) (.run .continuous)) w = .ok o w')
    (hcalls : ∀ c ∈ h.calls (n + 1) (.run .continuous) w, c.request ≠ .pause) :
    ∃ k last, (∃ told, w'.notices = w.notices ++ told ∧ (told.filterMap Notice.fired?).length = k) ∧
      ((∃ stop, o = .ok (.completed k stop) ∧ last = .ok (.completed 0 stop)) ∨ ∃ e,
        o = .error e ∧ last = .error e) ∧
      (∀ m, k < m →
        Engine.singly (h.perform (n + 1) (.run .single)) (List.replicate m w.now) w =
          .ok (k, some last) w') ∧
      (h.Blind (fun v v' => v'.undated = v.undated) (fun _ => True) → ∀ times : List Instant,
        k < times.length →
        ∃ v, Engine.singly (h.perform (n + 1) (.run .single)) times w = .ok (k, some last) v ∧
          v.undated = w'.undated) := by
  obtain ⟨v, hnoting, rfl, hmade⟩ := noting_of_attempt hrun
  have hnoting : Engine.attempt
      (Engine.asRun (Engine.processTransitions (h.diarist n) n .continuous none)) w.opened =
      .ok o v := hnoting
  obtain ⟨out, u, hwork, rfl, rfl⟩ := Engine.exists_of_attempt_asRun (w := w.opened) hidle hnoting
  have hbegun : w.opened.begun.Heeds := (World.heeds_opened (w := w.begun) rfl rfl).congr rfl
  have hcalls : ∀ c ∈ u.env.calls, c.request ≠ .pause := fun c hc => hcalls c (hmade ▸ hc)
  obtain ⟨k, hunrolls, htotal⟩ :=
    Engine.follows_processTransitions (heeds_diarist n) hbegun hcalls hwork
  have hnow (now : Instant) : (h.diarist n).Keeps fun w => w.now = now :=
    (forgetting_diarist n).keeps_of_forgetting (keeps_now now)
  have hsteps (m : Nat) (hm : k < m) : Engine.singly (h.perform (n + 1) (.run .single))
      (List.replicate m w.now) w =
      .ok (k, some ((out.map (·.2)).map (.completed 0))) u.stopped.plain := by
    obtain ⟨later, rfl⟩ := Nat.exists_eq_add_of_lt hm
    have hdiary := hunrolls.singly (w := w.opened) hnow hidle rfl later
    have hforget := Engine.matches_singly (forgetting_noting (h := h) (n + 1) (.run .single))
      (List.forall₂_same.mpr fun now (_ : now ∈ List.replicate (later + 1 + k) w.now) _ _
        hw => by rw [hw]; rfl)
    have hsteps := hforget.ok_of_forgetting hdiary
    rwa [Nat.add_comm (later + 1) k] at hsteps
  refine ⟨k, (out.map (·.2)).map (.completed 0), ?_, ?_, hsteps, fun hbodies times htimes => ?_⟩
  · exact hunrolls.told (fun v => ensues_diarist v n) rfl
  · cases out with
    | ok o => exact .inl ⟨o.2, by rw [← Nat.zero_add k, ← htotal o.1 o.2 rfl]; rfl, rfl⟩
    | error e => exact .inr ⟨e, rfl, rfl⟩
  · exact singly_undated hbodies (List.length_replicate ..) (hsteps times.length htimes)

end Host

/-- The relay, started, with the first transition queued. -/
def poised : World Unit Unit :=
  (Host.silent.perform 2 (.queue ⟨0⟩ [])).after ((Host.silent.perform 2 (.start [])).after relay)

/-- The relay after a run, in which the activity queues the transition to the end. -/
def arrived : World Unit Unit :=
  (Engine.attempt ((Host.asking (.queue ⟨1⟩ [])).perform 4 (.run .continuous))).after poised

/-- Three steps do the same at any times, the last of which finds the machine at its end. -/
theorem run_stepwise_relay :
    poised.machine.running = false ∧
    Engine.attempt ((Host.asking (.queue ⟨1⟩ [])).perform 4 (.run .continuous)) poised =
      .ok (.ok (.completed 2 .atEnd)) arrived ∧
    (∀ c ∈ (Host.asking (.queue ⟨1⟩ [])).calls 4 (.run .continuous) poised, c.request ≠ .pause) ∧
    (Host.asking (.queue ⟨1⟩ [])).Blind (fun v v' => v'.undated = v.undated) (fun _ => True) ∧
    ∀ first second third : Instant, ∃ v,
      Engine.singly ((Host.asking (.queue ⟨1⟩ [])).perform 4 (.run .single)) [first,
        second, third] poised =
        .ok (2, some (.ok (.completed 0 .atEnd))) v ∧ v.undated = arrived.undated := by
  have hrun : Engine.attempt ((Host.asking (.queue ⟨1⟩ [])).perform 4 (.run .continuous)) poised =
      .ok (.ok (.completed 2 .atEnd)) arrived := Engine.ok_of_answer? (by decide +kernel)
  have hcalls : ∀ c ∈ (Host.asking (.queue ⟨1⟩ [])).calls 4 (.run .continuous) poised,
      c.request ≠ .pause := by
    intro c hc hpause
    have hmade : ((Host.asking (.queue ⟨1⟩ [])).calls 4 (.run .continuous) poised).map (·.request) =
        [.queue ⟨1⟩ []] := rfl
    have hmem := List.mem_map_of_mem (f := (·.request)) hc
    rw [hmade, List.mem_singleton, hpause] at hmem
    cases hmem
  have hbodies : (Host.asking (.queue ⟨1⟩ [])).Blind (fun v v' => v'.undated = v.undated)
      fun _ => True :=
    fun _ _ _ => .call trivial fun _ => .ret _
  refine ⟨rfl, hrun, hcalls, hbodies, fun first second third => ?_⟩
  obtain ⟨k, last, -, hends, -, hsteps⟩ := Host.run_stepwise rfl hrun hcalls
  rcases hends with ⟨stop, hcompleted, rfl⟩ | ⟨e, hfailed, -⟩
  · cases hcompleted
    exact hsteps hbodies [first, second, third] (Nat.lt_succ_self 2)
  · cases hfailed

end Statechart
