import Statechart.Proofs.Graph.Isomorphism
import Statechart.Proofs.Machine.Restoring
import Statechart.Proofs.Machine.Running

/-!
# The slot

A transition is queued only if it leaves the active state, but a move does not empty the slot. So
what waits there leaves the active state for sure only as long as the machine has not moved since it
was queued. The invariant says this with what the notices of an operation tell, and the theorem at
the end says that nothing else goes wrong.
-/

namespace Statechart

open Json

variable {σ κ : Type}

/-- The transition left the state that it was fired from. -/
def Firing.Leaves (f : Firing) (m : Machine κ) : Prop :=
  ∃ s, f.source = some s ∧ m.Leaves s f.transition

namespace World

variable {m : Machine κ} {v : Watch} {w : World σ κ}

/-- The machine works on what it did at the outset, an empty slot is empty, and the firings that the
notices tell of left their source unless what they fired was displaced. -/
structure Steady (m : Machine κ) (v : Watch) (w : World σ κ) : Prop where
  tied : m.graph.Tied
  graph : w.machine.graph = m.graph
  definition : w.machine.definition = m.definition
  length : v.since ≤ w.notices.length
  empty : v.restores = false → (w.told v).slot = .empty → w.machine.pending = none
  firings : ∀ f ∈ (w.told v).firings, f.displaced = false → f.Leaves m

/-- Besides, what waits in the slot is ready unless it is displaced. -/
structure Sound (m : Machine κ) (v : Watch) (w : World σ κ) : Prop extends Steady m v w where
  slot : (w.told v).slot ≠ .displaced → w.machine.Ready

/-- The same while a run is under way. -/
structure Driven (m : Machine κ) (v : Watch) (w : World σ κ) : Prop extends Sound m v w where
  running : w.machine.running = true

theorem Steady.notify (h : w.Steady m v) {n : Notice}
    (hempty : v.restores = false → (v.step (w.told v) n).slot = .empty → w.machine.pending = none)
    (hfirings : ∀ f ∈ (v.step (w.told v) n).firings, f.displaced = false → f.Leaves m) :
    (w.notify n).Steady m v where
  tied := h.tied
  graph := h.graph
  definition := h.definition
  length := by
    rw [World.notify, List.length_append]
    exact Nat.le_add_right_of_le h.length
  empty := by
    rw [told_notify h.length]
    exact hempty
  firings := by
    rw [told_notify h.length]
    exact hfirings

theorem placeless_steady : Engine.Placeless (Steady (σ := σ) m v) where
  machine hm h := ⟨h.tied, hm.graph.trans h.graph, hm.definition.trans h.definition, h.length,
    fun hr hslot => hm.pending.trans (h.empty hr hslot), h.firings⟩
  logs _ h := ⟨h.tied, h.graph, h.definition, h.length, h.empty, h.firings⟩
  env _ h := ⟨h.tied, h.graph, h.definition, h.length, h.empty, h.firings⟩
  now _ h := ⟨h.tied, h.graph, h.definition, h.length, h.empty, h.firings⟩
  notify hn h := by
    refine h.notify ?_ ?_ <;> rw [Watch.step_incidental hn]
    · exact h.empty
    · exact h.firings
  active _ h := ⟨h.tied, h.graph, h.definition, h.length, h.empty, h.firings⟩
  move hn h := by
    refine h.notify ?_ ?_ <;> rw [Watch.step_moving hn]
    · exact fun hr hslot => h.empty hr (Watch.move_eq_empty hslot).1
    · exact h.firings

theorem lax_sound : Lax (Sound (σ := σ) m v) where
  machine hm h := ⟨placeless_steady.machine hm h.toSteady, fun hslot => (h.slot hslot).congr hm⟩
  logs _ h := ⟨placeless_steady.logs _ h.toSteady, h.slot⟩
  env _ h := ⟨placeless_steady.env _ h.toSteady, h.slot⟩
  now _ h := ⟨placeless_steady.now _ h.toSteady, h.slot⟩
  notify hn h := by
    refine ⟨placeless_steady.notify hn h.toSteady, ?_⟩
    rw [told_notify h.length, Watch.step_incidental hn]
    exact h.slot

theorem lax_driven : Lax (Driven (σ := σ) m v) where
  machine hm h := ⟨lax_sound.machine hm h.toSound, hm.running.trans h.running⟩
  logs _ h := ⟨lax_sound.logs _ h.toSound, h.running⟩
  env _ h := ⟨lax_sound.env _ h.toSound, h.running⟩
  now _ h := ⟨lax_sound.now _ h.toSound, h.running⟩
  notify hn h := ⟨lax_sound.notify hn h.toSound, h.running⟩

/-- A run that has emptied the slot, with what the notices tell then. -/
structure Emptied (m : Machine κ) (v : Watch) (k : Track) (w : World σ κ) :
    Prop extends Driven m v w where
  pending : w.machine.pending = none
  told : w.told v = k

theorem lax_emptied {k : Track} : Lax (Emptied (σ := σ) m v k) where
  machine hm h := ⟨lax_driven.machine hm h.toDriven, hm.pending.trans h.pending, h.told⟩
  logs _ h := ⟨lax_driven.logs _ h.toDriven, h.pending, h.told⟩
  env _ h := ⟨lax_driven.env _ h.toDriven, h.pending, h.told⟩
  now _ h := ⟨lax_driven.now _ h.toDriven, h.pending, h.told⟩
  notify hn h := by
    refine ⟨lax_driven.notify hn h.toDriven, h.pending, ?_⟩
    rw [told_notify h.length, Watch.step_incidental hn, h.told]

/-- Unless what was taken from the slot is displaced, it leaves the state. -/
def Taken (m : Machine κ) (v : Watch) (t : TransitionId) (source : Option StateId)
    (w : World σ κ) : Prop :=
  w.Emptied m v (w.told v) ∧ ((w.told v).slot ≠ .displaced → ∃ s, source = some s ∧ m.Leaves s t)

/-- Whether a run is under way has no part in the invariant. -/
theorem Sound.setRunning (h : w.Sound m v) (running paused : Bool) :
    (w.mapMachine ({ · with running, paused })).Sound m v :=
  ⟨⟨h.tied, h.graph, h.definition, h.length, h.empty, h.firings⟩, fun hslot p hp => by
    obtain ⟨hend, s, hs, hleaves⟩ := h.slot hslot p hp
    exact ⟨hend, s, hs, hleaves.congr rfl rfl⟩⟩

/-- The slot is empty or displaced once the notice of a move is out. -/
theorem Steady.moved (h : w.Steady m v) {n : Notice} (hn : n.Moving) : (w.notify n).Sound m v := by
  refine ⟨placeless_steady.move hn h, ?_⟩
  rw [told_notify h.length, Watch.step_moving hn]
  intro hslot
  obtain ⟨hempty, hr⟩ := Watch.move_ne_displaced hslot
  exact Machine.ready_of_empty (h.empty hr hempty)

end World

namespace Engine

variable {α : Type} {m : Machine κ} {v : Watch} {r : Responder σ κ}

/-! ## Queueing and moving -/

theorem sound_queueTransition (t : TransitionId) (args : List Value) :
    Keeps (World.Sound (σ := σ) m v) (queueTransition t args) := by
  intro w hw
  rcases queueTransition_cases t args w with ⟨e, he⟩ | ⟨s, ts, -, hactive, hend, hts, hmem, hok⟩
  · rw [he]
    exact hw
  · rw [hok]
    have htied : w.machine.graph.Tied := hw.graph ▸ hw.tied
    let w' := w.mapMachine fun m => { m with pending := some ⟨t, args⟩ }
    have htold : (w'.notify (.transitionQueued t)).told v = { w.told v with slot := .waiting } :=
      World.told_notify (w := w') hw.length _
    refine ⟨⟨hw.tied, hw.graph, hw.definition, ?_, ?_, ?_⟩, fun _ p hp => ?_⟩
    · rw [World.notify, List.length_append]
      exact Nat.le_add_right_of_le hw.length
    · rw [htold]
      intro _ hempty
      cases hempty
    · rw [htold]
      exact hw.firings
    · obtain rfl := Option.some.inj hp
      exact ⟨hend, s, hactive, (Machine.leaves_of_mem htied hts hmem).congr rfl rfl⟩

/-- Once the notice of a move is out, anything that keeps the invariant may happen. -/
theorem sound_after_move {x : Engine σ κ α} {n : Notice} (hn : n.Moving)
    (hx : Keeps (World.Sound m v) x) :
    Triple (World.Steady m v) (notify n >>= fun _ => x) (fun _ => World.Sound m v)
      fun _ => World.Sound m v :=
  .bind (.notify fun _ hw => hw.moved hn) fun _ => hx

section
variable (hr : r.Keeps (World.Sound m v))
include hr

theorem steady_leave (args : List Value) (ss : List StateId) :
    Triple (fun w => World.Steady m v w ∧ (ss ≠ [] → World.Sound m v w)) (leave r args ss)
      (fun _ => World.Steady m v) fun _ => World.Steady m v := by
  cases ss with
  | nil =>
    have hkeeps : Keeps (World.Steady m v) (leave r args []) :=
      .bind (keeps_beginPhase World.placeless_steady.toLax .exit) fun _ =>
        .bind .pure fun _ => keeps_endPhase World.placeless_steady.toLax .exit
    exact hkeeps.mono_pre fun _ hw => hw.1
  | cons s ss =>
    exact (keeps_leave World.lax_sound hr args (s :: ss)).mono
      (fun _ hw => hw.2 (List.cons_ne_nil _ _)) (fun _ _ => World.Sound.toSteady)
      fun _ _ => World.Sound.toSteady

theorem steady_enterAll (args : List Value) (ss : List StateId) :
    Keeps (World.Steady m v) (enterAll r args ss) := by
  refine .bind (keeps_beginPhase World.placeless_steady.toLax .entry) fun _ =>
    .bind (.forM fun s _ => ?_) fun _ => keeps_endPhase World.placeless_steady.toLax .entry
  have hentered : Triple (World.Steady m v) (enterState r args s) (fun _ => World.Sound m v)
      fun _ => World.Sound m v :=
    sound_after_move (n := .stateEntered s) trivial
      (.bind (keeps_invoke hr .entry (.state s) args) fun _ => .pure)
  exact hentered.mono_post (fun _ _ => World.Sound.toSteady) fun _ _ => World.Sound.toSteady

theorem sound_settle (args : List Value) (via : Option TransitionId) (s : StateId) :
    Triple (World.Steady m v) (settle r args via s) (fun _ => World.Sound m v) fun _ =>
      World.Steady m v := by
  have hlax : World.Lax (World.Steady (σ := σ) m v) := World.placeless_steady.toLax
  have hlast : Keeps (World.Steady m v)
      (update fun m => { m with lastTransition := via, firing := none } : Engine σ κ Unit) :=
    keeps_update hlax fun _ => ⟨rfl, rfl, rfl, rfl, rfl⟩
  have hactivity : Keeps (World.Sound m v) (do
      let _ ← invoke r .doActivity (.state s) args
      endPhase .doActivity) :=
    .seq (keeps_invoke hr .doActivity (.state s) args) (keeps_endPhase World.lax_sound .doActivity)
  have hsettled := sound_after_move (n := .activityInvoked s) trivial hactivity
  exact Triple.seq hlast (Triple.seq (keeps_beginPhase hlax .doActivity)
    (hsettled.mono_error fun _ _ => World.Sound.toSteady))

/-- A move that leaves no state may begin with anything in the slot. -/
theorem sound_cascade (old : Option StateId) (target : StateId) (via : Option TransitionId)
    (args : List Value) :
    Triple (fun w => World.Steady m v w ∧ (old ≠ none → World.Sound m v w))
      (cascade r old target via args)
      (fun _ => World.Sound m v) fun _ => World.Steady m v := by
  rw [cascade_eq]
  refine .bind (.mono_post .machine (fun _ _ h => h.1) fun _ _ => id) fun m' => ?_
  refine .bind (.ofGraph fun _ _ hw => hw.1) fun external => ?_
  refine .bind (Triple.mono_pre (steady_leave hr args _)
    fun w hw => ⟨hw.1, fun hne => hw.2 ?_⟩) fun _ => ?_
  · rintro rfl
    exact hne (m'.leaving_none external _)
  · refine .bind (.update fun w hw => World.placeless_steady.active _ hw) fun _ => ?_
    refine .bind (steady_enterAll hr args _) fun _ => .bind (sound_settle hr args via _) fun _ => ?_
    exact fun _ hw => hw

theorem sound_enter (target : StateId) (via : Option TransitionId) (args : List Value) :
    Triple (fun w => World.Steady m v w ∧ (w.machine.active ≠ none → World.Sound m v w))
      (enter r target via args) (fun _ => World.Sound m v) fun _ => World.Sound m v := by
  refine .bind .machine fun m' => ?_
  refine .onFailure (.thenAlways ((sound_cascade hr m'.active target via args).mono ?_ ?_ ?_))
  · rintro w ⟨hw, rfl⟩
    exact hw
  · intro s w hw
    exact World.lax_sound.machine ⟨rfl, rfl, rfl, rfl, rfl⟩ hw
  · intro e w hw
    have hphase : World.Steady m v (w.mapMachine ({ · with phase := m'.phase })) :=
      World.placeless_steady.machine ⟨rfl, rfl, rfl, rfl, rfl⟩ hw
    exact (World.placeless_steady.active m'.active hphase).moved
      (n := .rolledBack m'.active) trivial

theorem sound_seed (s : StateId) (args : List Value) :
    Triple (fun w => World.Steady m v w ∧ (w.machine.active ≠ none → World.Sound m v w))
      (seed r s args)
      (fun _ => World.Sound m v) fun _ => World.Sound m v := by
  have hrecord (entered : StateId) : Keeps (World.Sound m v) (do
      modify fun w => { w with logs := w.logs.clear w.machine.history }
      recordHistory none none entered
      pure entered : Engine σ κ StateId) :=
    .bind (.modify fun _ hw => World.lax_sound.logs _ hw) fun _ =>
      .bind (keeps_recordHistory World.lax_sound _ _ _) fun _ => .pure
  exact .bind (sound_enter hr s none args) hrecord

theorem sound_start (args : List Value) : Keeps (World.Sound m v) (start r args) := by
  refine .bind .machine fun m' => .bind .ofGraph fun d => ?_
  cases d.start with
  | none => exact .fail
  | some s =>
    have hnotice (entered : StateId) : Keeps (World.Sound m v) (do
        notify (.started entered)
        pure entered : Engine σ κ StateId) :=
      .bind (keeps_notify World.lax_sound trivial) fun _ => .pure
    refine Triple.bind (.update fun w hw => ?_) fun _ => .bind (sound_seed hr s args) hnotice
    exact ⟨World.placeless_steady.active none hw.toSteady, fun hne => absurd rfl hne⟩

theorem sound_goto (s : StateId) (args : List Value) : Keeps (World.Sound m v) (goto r s args) := by
  refine .bind .machine fun m' => .bind .ofGraph fun st => ?_
  split
  · exact (sound_seed hr s args).mono_pre fun _ hw => ⟨hw.toSteady, fun _ => hw⟩
  · exact .fail

end

/-! ## Firing -/

section
variable (hr : r.Keeps (World.Sound m v))
  (hquiet : ∀ begun firings, r.Keeps (World.Quiet v begun firings))

omit hr hquiet in
/-- What keeps the invariant and begins no firing keeps a run under way. -/
theorem driven_of_sound {x : Engine σ κ α} (hx : Keeps (World.Sound m v) x)
    (hq : ∀ begun firings, Keeps (World.Quiet v begun firings) x) : Keeps (World.Driven m v) x := by
  intro w hw
  have hboth := hx.and (hq (w.told v).begun (w.told v).firings) w
    ⟨hw.toSound, hw.running, hw.length, rfl, rfl⟩
  cases h : x w with
  | ok a w' =>
    rw [h] at hboth
    exact ⟨hboth.1, hboth.2.running⟩
  | error e w' =>
    rw [h] at hboth
    exact ⟨hboth.1, hboth.2.running⟩

omit hr hquiet in
/-- What is taken from the slot leaves the active state unless it is displaced. -/
theorem driven_takePending : Triple (World.Driven (σ := σ) m v) takePending
    (fun o w => World.Driven m v w ∧ ∀ p, o = some p → w.Taken m v p.transition w.machine.active)
    fun _ => World.Driven m v := by
  intro w hw
  have hdriven : (w.mapMachine fun m => { m with pending := none }).Driven m v :=
    ⟨⟨⟨hw.tied, hw.graph, hw.definition, hw.length, fun _ _ => rfl, hw.firings⟩,
      fun _ => Machine.ready_of_empty rfl⟩, hw.running⟩
  refine ⟨hdriven, fun p hp => ⟨⟨hdriven, rfl, rfl⟩, fun hslot => ?_⟩⟩
  obtain ⟨-, s, hs, hleaves⟩ := hw.slot hslot p hp
  exact ⟨s, hs, hleaves.congr hw.graph.symm hw.definition.symm⟩

omit hr hquiet in
/-- As a firing begins, the slot is empty and what was fired from it is noted. -/
theorem emptied_effectInvoked {k : Track} {w : World σ κ} (hw : w.Emptied m v k)
    (t : TransitionId) :
    (w.notify (.effectInvoked t)).Sound m v ∧
      (w.notify (.effectInvoked t)).Quiet v (k.slot = .displaced) k.firings := by
  have htold : (w.notify (.effectInvoked t)).told v =
      { k with slot := .empty, begun := k.slot = .displaced } := by
    rw [World.told_notify hw.length, hw.told]
    rfl
  have hsteady : (w.notify (.effectInvoked t)).Steady m v :=
    hw.toSteady.notify (fun _ _ => hw.pending) hw.firings
  exact ⟨⟨hsteady, fun _ => Machine.ready_of_empty hw.pending⟩, hw.running, hsteady.length,
    by rw [htold], by rw [htold]⟩

omit hr hquiet in
/-- As a firing ends, it has left its source unless what was fired was displaced. -/
theorem driven_transitionFired {w : World σ κ} {displaced : Bool} {firings : List Firing}
    (hw : w.Sound m v) (hquiet : w.Quiet v displaced firings) {t : TransitionId}
    {source : Option StateId} (hleaves : displaced = false → ∃ s, source = some s ∧ m.Leaves s t)
    (new : StateId) : (w.notify (.transitionFired t source new)).Driven m v := by
  have hfired : ∀ f ∈ (v.step (w.told v) (.transitionFired t source new)).firings,
      f.displaced = false → f.Leaves m := by
    intro f hf hnot
    rcases List.mem_append.mp hf with hold | hnew
    · exact hw.firings f hold hnot
    · obtain rfl := List.mem_singleton.mp hnew
      exact hleaves (hquiet.begun ▸ hnot)
  refine ⟨⟨hw.toSteady.notify hw.empty hfired, fun hslot => hw.slot ?_⟩, hquiet.running⟩
  rw [World.told_notify hw.length] at hslot
  exact hslot

include hr hquiet

theorem driven_fire (t : TransitionId) (target : StateId) (previous : Option StateId)
    (args : List Value) :
    Triple (World.Taken m v t previous) (fire r t target previous args)
      (fun _ => World.Driven m v) fun _ => World.Driven m v := by
  rintro w ⟨hw, hleaves⟩
  -- What the notices tell as the firing begins, and what is known from then until it ends.
  generalize w.told v = k at hw hleaves
  let M (w : World σ κ) : Prop := w.Sound m v ∧ w.Quiet v (k.slot = .displaced) k.firings
  have hM {β : Type} {x : Engine σ κ β} (hx : Keeps M x) :
      Triple M x (fun _ => M) fun _ => World.Driven m v :=
    hx.mono_error fun _ _ h => ⟨h.1, h.2.running⟩
  have hinvoke : Keeps M (invoke r .effect (.transition t) args) :=
    .and (keeps_invoke hr _ _ _) (keeps_invoke (hquiet _ _) _ _ _)
  have hend : Keeps M (endPhase .effect : Engine σ κ Unit) :=
    .and (keeps_endPhase World.lax_sound _) (keeps_endPhase World.placeless_quiet.toLax _)
  have henter : Keeps M (enter r target (some t) args) := by
    refine .and ?_ (keeps_enter World.placeless_quiet (hquiet _ _) _ _ _)
    exact (sound_enter hr target (some t) args).mono_pre fun _ hw => ⟨hw.toSteady, fun _ => hw⟩
  have hrecord (new : StateId) : Keeps M (recordHistory previous (some t) new : Engine σ κ Unit) :=
    .and (keeps_recordHistory World.lax_sound _ _ _)
      (keeps_recordHistory World.placeless_quiet.toLax _ _ _)
  have hfire : Triple (World.Emptied m v k) (fire r t target previous args)
      (fun _ => World.Driven m v) fun _ => World.Driven m v := by
    have hbegin := Triple.mono_error
      (keeps_beginPhase (World.lax_emptied (σ := σ) (m := m) (v := v) (k := k)) .effect)
      fun _ _ => World.Emptied.toDriven
    have htold : Triple (World.Emptied m v k) (notify (.effectInvoked t) : Engine σ κ Unit)
        (fun _ => M) fun _ => World.Driven m v :=
      .notify fun w hw => emptied_effectInvoked hw t
    have hfired (new : StateId) :
        Triple M (notify (.transitionFired t previous new) : Engine σ κ Unit)
          (fun _ => World.Driven m v) fun _ => World.Driven m v :=
      .notify fun w hw =>
        driven_transitionFired hw.1 hw.2 (fun hnot => hleaves (of_decide_eq_false hnot)) new
    refine hbegin.seq (htold.seq ((hM hinvoke).seq ((hM hend).seq ?_)))
    exact (hM henter).bind fun new => (hM (hrecord new)).seq (hfired new)
  exact hfire w hw

theorem driven_fireTransition (p : Pending) :
    Triple (fun w => w.Taken m v p.transition w.machine.active) (fireTransition r p)
      (fun _ => World.Driven m v) fun _ => World.Driven m v := by
  refine .bind .machine fun m' => ?_
  split
  · exact fun w hw => hw.1.1.toDriven
  refine .bind (.ofGraph fun _ _ hw => hw.1.1.toDriven) fun tr => ?_
  refine .bind (.update (I := World.Taken m v p.transition m'.active) ?_) fun _ => ?_
  · rintro w ⟨⟨hw, hleaves⟩, rfl⟩
    exact ⟨World.lax_emptied.machine ⟨rfl, rfl, rfl, rfl, rfl⟩ hw, hleaves⟩
  · have hput {w : World σ κ} (hw : w.Driven m v) : (w.mapMachine fun m =>
        { m with firing := none, phase := { m.phase with effect := false } }).Driven m v :=
      World.lax_driven.machine ⟨rfl, rfl, rfl, rfl, rfl⟩ hw
    exact .thenAlways ((driven_fire hr hquiet p.transition tr.target m'.active p.args).mono_post
      (fun _ _ => hput) fun _ _ => hput)

/-! ## Runs -/

variable {hook : Option (Engine σ κ Unit)} (hhook : ∀ x ∈ hook, Keeps (World.Driven m v) x)
include hhook

theorem driven_fireQueued (mode : RunMode) (fuel fired : Nat) :
    Keeps (World.Driven m v) (fireQueued r mode hook fuel fired) := by
  induction fuel generalizing fired with
  | zero => exact .throw
  | succ fuel ih =>
    refine .bind .machine fun m' => ?_
    split
    · exact .pure
    split
    · exact .pure
    have hasked : Keeps (World.Driven m v) (hook.forM id) := by
      cases hook with
      | none => exact .pure
      | some x => exact hhook x rfl
    refine .bind hasked fun _ => Triple.bind driven_takePending fun o => ?_
    cases o with
    | none => exact fun w hw => hw.1
    | some p =>
      refine .bind ((driven_fireTransition hr hquiet p).mono_pre fun w hw => hw.2 p rfl) fun _ => ?_
      split
      · exact fun _ hw => hw
      · exact ih (fired + 1)

theorem driven_processTransitions (fuel : Nat) (mode : RunMode) :
    Keeps (World.Driven m v) (processTransitions r fuel mode hook) := by
  refine .bind .machine fun m' => ?_
  split
  · exact .pure
  refine Triple.bind driven_takePending fun o => ?_
  cases o with
  | none =>
    exact (driven_fireQueued hr hquiet hhook mode fuel 0).mono_pre fun _ hw => hw.1
  | some p =>
    refine .bind ((driven_fireTransition hr hquiet p).mono_pre fun w hw => hw.2 p rfl) fun _ => ?_
    split
    · exact fun _ hw => hw
    · exact driven_fireQueued hr hquiet hhook mode fuel 1

theorem sound_run (fuel : Nat) (mode : RunMode) :
    Keeps (World.Sound m v) (run r fuel mode hook) := by
  refine .bind .machine fun m' => ?_
  split
  · exact keeps_reenter World.lax_sound
  refine Triple.bind (.update (I := World.Driven m v)
    fun w hw => ⟨hw.setRunning true false, rfl⟩) fun _ => ?_
  have hrelease {w : World σ κ} (hw : w.Driven m v) :
      (w.mapMachine ({ · with running := false, paused := false })).Sound m v :=
    hw.setRunning false false
  have hwork := driven_processTransitions hr hquiet hhook fuel mode
  exact .bind (.thenAlways (hwork.mono_post (fun _ _ => hrelease) fun _ _ => hrelease))
    fun o => fun _ hw => hw

/-! ## Events -/

omit hhook

theorem driven_responder : r.Keeps (World.Driven m v) where
  call _ _ _ := driven_of_sound (hr.call _ _ _) fun _ _ => (hquiet _ _).call _ _ _
  callback _ _ _ := driven_of_sound (hr.callback _ _ _) fun _ _ => (hquiet _ _).callback _ _ _

theorem driven_handleEvent (fuel : Nat) (e : Event) :
    Keeps (World.Driven m v) (handleEvent r fuel e) := by
  have hupdate {f : Machine κ → Machine κ} (hf : ∀ m, Machine.Alike m (f m)) :
      Keeps (World.Driven (σ := σ) m v) (update f) := keeps_update World.lax_driven hf
  have hqueue (t : TransitionId) (args : List Value) :
      Keeps (World.Driven m v) (queueTransition t args : Engine σ κ Unit) :=
    driven_of_sound (sound_queueTransition t args) fun _ _ => keeps_quiet_queueTransition t args
  have hnone : ∀ x ∈ (none : Option (Engine σ κ Unit)), Keeps (World.Driven m v) x := by
    intro x hx
    cases hx
  refine .bind (keeps_notify World.lax_driven (n := .eventDequeued e.name) trivial) fun _ => ?_
  refine .bind (hupdate fun _ => ⟨rfl, rfl, rfl, rfl, rfl⟩) fun _ => ?_
  refine .bind (keeps_selectOne World.lax_driven (driven_responder hr hquiet) e) fun selected => ?_
  refine .bind (hupdate fun _ => ⟨rfl, rfl, rfl, rfl, rfl⟩) fun _ => .bind (hqueue _ _) fun _ => ?_
  exact .bind (driven_processTransitions hr hquiet hnone fuel .single) fun _ =>
    .bind (keeps_setCurrent World.lax_driven none none) fun _ => .pure

theorem driven_processEvents (fuel fired : Nat) :
    Keeps (World.Driven m v) (processEvents r fuel fired) := by
  induction fuel generalizing fired with
  | zero => exact .throw
  | succ fuel ih =>
    refine .bind .machine fun m' => ?_
    split
    · exact .pure
    refine .bind (keeps_takeEvent World.lax_driven) fun o => ?_
    cases o with
    | none => exact .pure
    | some e => exact .bind (driven_handleEvent hr hquiet (fuel + 1) e) fun n => ih (fired + n)

theorem sound_runEvents (fuel : Nat) : Keeps (World.Sound m v) (runEvents r fuel) := by
  refine .bind .machine fun m' => ?_
  split
  · exact keeps_reenter World.lax_sound
  refine Triple.bind (.update (I := World.Driven m v)
    fun w hw => ⟨hw.setRunning true false, rfl⟩) fun _ => ?_
  have hrelease {w : World σ κ} (hw : w.Driven m v) : (w.mapMachine
      ({ · with running := false, paused := false, event := none, trigger := none })).Sound m v :=
    World.lax_sound.machine (w := w.mapMachine ({ · with running := false, paused := false }))
      ⟨rfl, rfl, rfl, rfl, rfl⟩ (hw.setRunning false false)
  have hwork := driven_processEvents hr hquiet fuel 0
  exact .bind (.thenAlways (hwork.mono_post (fun _ _ => hrelease) fun _ _ => hrelease))
    fun o => fun _ hw => hw

theorem sound_dispatch (fuel : Nat) (e : Event) : Keeps (World.Sound m v) (dispatch r fuel e) := by
  have hselect := keeps_selectAndQueue World.lax_sound hr sound_queueTransition e
  have hnone : ∀ x ∈ (none : Option (Engine σ κ Unit)), Keeps (World.Driven m v) x := by
    intro x hx
    cases hx
  have hnow : Keeps (World.Sound m v) (dispatchNow r fuel e) := by
    refine .bind (hselect _) fun outcome => ?_
    split
    · exact .bind (sound_run hr hquiet hnone fuel .single) fun _ => .pure
    · exact .pure
  refine .bind .machine fun m' => ?_
  split
  · exact hselect _
  · exact .bind (keeps_update World.lax_sound fun _ => ⟨rfl, rfl, rfl, rfl, rfl⟩) fun _ =>
      .thenAlways hnow fun _ hw => World.lax_sound.machine ⟨rfl, rfl, rfl, rfl, rfl⟩ hw

end

theorem sound_restore {s : Snapshot} (hs : s.Settled m)
    (hv : v.restores = false → s.transitionQueue = []) :
    Keeps (World.Sound (σ := σ) m v) (restore s) := by
  intro w hw
  rw [restore, machine_bind]
  cases h : s.restoreInto w.machine with
  | error e => exact hw
  | ok m' =>
    have hready := (hs.congr hw.graph hw.definition).ready (hw.graph ▸ hw.tied) h
    obtain ⟨active, pending, rfl, -, -, -, hpending, -⟩ := Snapshot.restoreInto_ok h
    refine ⟨⟨hw.tied, hw.graph, hw.definition, hw.length, fun hr _ => ?_, hw.firings⟩,
      fun _ => hready⟩
    exact Snapshot.pending_eq_none (hv hr) hpending

end Engine

/-! ## Requests -/

/-- What bodies may ask for, given whether they may fill the slot by a snapshot. -/
def Request.Orderly (m : Machine κ) (restores : Bool) : Request κ → Prop
  | .edit _ | .isolate => False
  | .restore s => s.transitionQueue = [] ∨ restores = true ∧ s.Settled m
  | _ => True

variable {m : Machine κ} {v : Watch} {q : Request κ} {h : Host σ κ}

theorem Engine.sound_carryOut {r : Responder σ κ} {hook : κ → Engine σ κ Unit}
    (hr : r.Keeps (World.Sound m v)) (hhook : ∀ key, Engine.Keeps (World.Sound m v) (hook key))
    (hquiet : ∀ begun firings, r.Keeps (World.Quiet v begun firings) ∧
      ∀ key, Engine.Keeps (World.Quiet v begun firings) (hook key))
    (n : Nat) (hq : q.Orderly m v.restores) :
    Engine.Keeps (World.Sound m v) (Engine.carryOut r hook n q) := by
  have hr' (begun : Bool) (firings : List Firing) := (hquiet begun firings).1
  refine keeps_carryOut World.lax_sound hr sound_queueTransition hook n fun hmoves => ?_
  cases q with
  | start args => exact sound_start hr args
  | goto s args => exact sound_goto hr s args
  | run mode =>
    refine sound_run hr hr' (fun x hx => ?_) n mode
    cases hx
  | runWith mode body =>
    refine sound_run hr hr' (fun x hx => ?_) n mode
    obtain rfl := Option.some.inj hx
    exact driven_of_sound (hhook body) fun begun firings => (hquiet begun firings).2 body
  | runEvents => exact sound_runEvents hr hr' n
  | dispatch e => exact sound_dispatch hr hr' n e
  | restore s =>
    refine sound_restore ?_ fun hr => ?_
    · exact hq.elim .inl And.right
    · exact hq.resolve_right fun h => Bool.eq_false_iff.mp hr h.1
  | _ => first | exact hq.elim | exact hmoves.elim

theorem Host.keeps_sound (hbodies : h.Makes (Request.Orderly m v.restores)) (n : Nat)
    (hq : q.Orderly m v.restores) : Engine.Keeps (World.Sound m v) (h.perform n q) := by
  let C (r : Responder σ κ) (hook : κ → Engine σ κ Unit) : Prop := ∀ begun firings,
    r.Keeps (World.Quiet v begun firings) ∧ ∀ key,
    Engine.Keeps (World.Quiet v begun firings) (hook key)
  have henv (begun : Bool) (firings : List Firing) :
      World.Indifferent (World.Quiet (σ := σ) (κ := κ) v begun firings) :=
    fun w env hw => World.placeless_quiet.env env hw
  have hknown (n : Nat) : C (h.responder (h.perform n)) (h.hook n) := fun begun firings =>
    ⟨keeps_responder (henv begun firings) h.makes_any fun q _ => h.keeps_quiet v begun firings n q,
      keeps_hook (henv begun firings) h.makes_any n fun q _ => h.keeps_quiet v begun firings n q⟩
  exact keeps_perform (fun w env hw => World.lax_sound.env env hw) hbodies hknown
    (fun r hook n q hC hr hhook hq => Engine.sound_carryOut hr hhook hC n hq) n hq

end Statechart
