import Statechart.Proofs.Machine.Cutoff

/-!
# A machine at rest

Between operations no run is under way and no event is at hand, whatever the bodies ask for in turn.
While a run is under way a request neither ends it nor takes up an event, and a request of an idle
machine puts away the event at hand at most.
-/

namespace Statechart

open Json

variable {σ κ : Type}

/-- Whether a run is under way and which event is at hand are so. -/
def World.Notes (D : Bool → Option Event → Prop) (w : World σ κ) : Prop :=
  D w.machine.running w.machine.event

namespace World

/-- A run is under way, with the event at hand. -/
def Busy (event : Option Event) : World σ κ → Prop :=
  Notes fun running e => running = true ∧ e = event

/-- No run is under way, and at most the event is at hand. -/
def Idle (event : Option Event) : World σ κ → Prop :=
  Notes fun running e => running = false ∧ (e = none ∨ e = event)

end World

namespace Comparison

variable {D : Bool → Option Event → Prop}

theorem fires_notes : (within (World.Notes D) : Comparison σ σ κ).Fires .same where
  like h := World.like_of_eq h.1
  guarded | _, rfl, h => ⟨by rw [h.1], h.2⟩
  phase h := by rw [h.1]
  setPhase _ h := ⟨by rw [h.1], h.2⟩
  setActive hs h := ⟨by rw [h.1, eq_of_optionRel hs], h.2⟩
  setLast hvia h := ⟨by rw [h.1, eq_of_optionRel hvia], h.2⟩
  exited | rfl, h => ⟨by rw [h.1], h.2⟩
  started | rfl, h => ⟨by rw [h.1], h.2⟩
  moving _ hlike h := ⟨by rw [h.1, hlike.eq], h.2⟩
  seeded | rfl => Engine.Keeps.relates (.modify fun w hw => by split <;> exact hw)
  clear := Engine.Keeps.relates (.modify fun _ hw => hw)
  firing h := by rw [h.1]
  setFiring ht h := ⟨by rw [h.1, eq_of_optionRel ht], h.2⟩
  effect | rfl, h => ⟨by rw [h.1], h.2⟩
  fired | rfl, hsource, rfl, h => ⟨by rw [h.1, eq_of_optionRel hsource], h.2⟩

theorem queues_notes : (within (World.Notes D) : Comparison σ σ κ).Queues .same where
  toSelects := fires_notes.toSelects
  phase h := by rw [h.1]
  pending h := likePending_of_eq (by rw [h.1])
  setPending hp h := ⟨by rw [h.1, eq_of_likePending hp], h.2⟩
  queued | rfl, h => ⟨by rw [h.1], h.2⟩

theorem posts_notes : (within (World.Notes D) : Comparison σ σ κ).Posts .same where
  toSelects := fires_notes.toSelects
  starves := trivial
  running h := by rw [h.1]
  paused h := by rw [h.1]
  events h := by rw [h.1]
  setPaused _ h := ⟨by rw [h.1], h.2⟩
  setEvents _ h := ⟨by rw [h.1], h.2⟩
  stopped h := ⟨by rw [h.1], h.2⟩
  resumed h := ⟨by rw [h.1], h.2⟩
  dequeued _ h := ⟨by rw [h.1], h.2⟩

end Comparison

namespace Engine

variable {D : Bool → Option Event → Prop} {r : Responder σ κ} {hook : κ → Engine σ κ Unit}
  {event : Option Event}

theorem notes_recordHistory {previous : Option StateId} {t : Option TransitionId} {new : StateId} :
    Keeps (World.Notes D) (recordHistory previous t new : Engine σ κ Unit) :=
  .modify fun w hw => by split <;> exact hw

theorem notes_edit {e : Edit κ} : Keeps (World.Notes D) (edit e : Engine σ κ e.Answer) :=
  keeps_of_leads fun w hw => ⟨_, leads_edit e w, hw⟩

theorem notes_isolate : Keeps (World.Notes D) (isolate : Engine σ κ Unit) := by
  refine keeps_of_leads fun w hw => ?_
  rcases leads_isolate w with hsame | ⟨g, c, active, pending, -, -, hleads⟩
  · exact ⟨w, hsame, hw⟩
  · exact ⟨_, hleads, hw⟩

theorem notes_restore {s : Snapshot} :
    Keeps (World.Notes D) (restore s : Engine σ κ (Except SnapshotError Unit)) := by
  refine keeps_of_leads fun w hw => ?_
  rcases leads_restore s w with hsame | ⟨active, pending, -, hleads⟩
  · exact ⟨w, hsame, hw⟩
  · exact ⟨_, hleads, hw⟩

theorem notes_selectAndQueue (hr : r.Keeps (World.Notes D)) (e : Event)
    (wrap : TransitionId → DispatchOutcome) : Keeps (World.Notes D) (selectAndQueue r e wrap) :=
  keeps_iff_matches.mpr (matches_selectAndQueue Comparison.fires_notes.toSelects hr.matches
    (fun t => matches_queueTransition Comparison.queues_notes t e.args)
    (fun _ _ _ h => ⟨by rw [h.1], h.2⟩) wrap)

/-- Requests other than those that run the machine have no part in what is noted, and match
themselves if bodies do. -/
theorem matches_notes {r' : Responder σ κ} {hook' : κ → Engine σ κ Unit}
    (hr : r.Matches (.within (World.Notes D)) r') (n : Nat) {q : Request κ}
    (hruns : q.Runs → Matches (.within (World.Notes D)) (carryOut r hook n q)
      (carryOut r' hook' n q)) :
    Matches (.within (World.Notes D)) (carryOut r hook n q) (carryOut r' hook' n q) := by
  refine matches_carryOut_of_posts Comparison.posts_notes hr n
    (fun args _ t => matches_queueTransition Comparison.queues_notes t args) hruns
      fun hreplaces => ?_
  cases q with
  | start args => exact matches_start Comparison.fires_notes.toEnters hr args
  | goto s args => exact matches_goto Comparison.fires_notes.toEnters hr s args
  | isolate => exact keeps_iff_matches.mp notes_isolate
  | setOptions o => exact keeps_iff_matches.mp (.update fun _ hw => hw)
  | clearHistory => exact matches_clearHistory Comparison.fires_notes.toEnters
  | edit e => exact keeps_iff_matches.mp notes_edit
  | restore s => exact keeps_iff_matches.mp notes_restore
  | _ => exact hreplaces.elim

theorem notes_carryOut (hr : r.Keeps (World.Notes D)) (n : Nat) {q : Request κ}
    (hruns : q.Runs → Keeps (World.Notes D) (carryOut r hook n q)) :
    Keeps (World.Notes D) (carryOut r hook n q) :=
  keeps_iff_matches.mpr (matches_notes hr.matches n fun hq => keeps_iff_matches.mp (hruns hq))

/-! ## While a run is under way -/

theorem busy_carryOut (hr : r.Keeps (World.Busy event)) (hook : κ → Engine σ κ Unit) (n : Nat)
    (q : Request κ) : Keeps (World.Busy event) (carryOut r hook n q) :=
  notes_carryOut hr n fun hruns =>
    keeps_iff_matches.mpr (matches_amid Comparison.posts_notes.toSteers
      (fun hw => hw.2.1) hr.matches
      (matches_queueTransition Comparison.queues_notes) (fun _ hw => ⟨by rw [hw.1], hw.2⟩) n hruns)

/-! ## While none is -/

section
variable (hbusy : ∀ event, r.Keeps (World.Busy event) ∧ ∀ key, Keeps (World.Busy event) (hook key))
include hbusy

/-- The event that is at hand as a run begins is at hand when it ends. -/
theorem idle_run {hook' : Option (Engine σ κ Unit)}
    (hhook : ∀ event, Keeps (World.Busy event) (hook'.forM id)) (n : Nat) (mode : RunMode) :
    Keeps (World.Idle event) (run r n mode hook') := by
  intro w hw
  have hfire (p : Pending) (_ : True) :
      Matches (.within (World.Busy w.machine.event)) (fireTransition r p) (fireTransition r p) :=
    matches_fireTransition Comparison.fires_notes (hbusy _).1.matches p fun previous new =>
      keeps_iff_matches.mp notes_recordHistory
  have hprocess : Keeps (World.Busy w.machine.event) (processTransitions r n mode hook') :=
    keeps_iff_matches.mpr (matches_processTransitions Comparison.queues_notes.takes hfire
      (keeps_iff_matches.mp (hhook _)) Comparison.posts_notes.toSteers n mode)
  have hended {v : World σ κ} (hv : v.Busy w.machine.event) :
      (v.mapMachine ({ · with running := false, paused := false })).Idle event := ⟨rfl, hv.2 ▸ hw.2⟩
  exact Triple.asRun (P := (· = w)) (fun _ hv => hv ▸ hw.1) (fun _ hv => hv ▸ ⟨rfl, rfl⟩)
    (hprocess.mono_post (fun _ _ => hended) fun _ _ => hended) w rfl

variable (hr : ∀ event, r.Keeps (World.Idle event))
include hr

theorem idle_dispatch (n : Nat) (e : Event) : Keeps (World.Idle event) (dispatch r n e) := by
  have hnow : Keeps (World.Idle (some e)) (dispatchNow r n e) := by
    refine .bind (notes_selectAndQueue (hr _) e .fired) fun outcome => ?_
    cases outcome with
    | fired t => exact .bind (idle_run hbusy (fun _ => .pure) n .single) fun _ => .pure
    | _ => exact .pure
  have hended {v : World σ κ} (hv : v.Idle (some e)) :
      (v.mapMachine ({ · with event := none, trigger := none })).Idle event := ⟨hv.1, .inl rfl⟩
  intro w hw
  rw [dispatch_idle hw.1]
  exact Triple.thenAlways (hnow.mono_post (fun _ _ => hended) fun _ _ => hended) _ ⟨hw.1, .inr rfl⟩

omit hbusy hr in
/-- Whatever an event run does, nothing is noted by its end. -/
theorem idle_runEvents (n : Nat) : Keeps (World.Idle event) (runEvents r n) := by
  refine .runEvents (I := fun _ => True) (fun _ hw => hw.1) (fun _ _ => trivial)
    (Triple.any.mono_post ?_ ?_)
  · exact fun _ _ _ => ⟨rfl, .inl rfl⟩
  · exact fun _ _ _ => ⟨rfl, .inl rfl⟩

theorem idle_carryOut (n : Nat) (q : Request κ) :
    Keeps (World.Idle event) (carryOut r hook n q) := by
  refine notes_carryOut (hr event) n fun hruns => ?_
  cases q with
  | run mode => exact idle_run hbusy (fun _ => .pure) n mode
  | runWith mode key =>
    have hkey (event : Option Event) : Keeps (World.Busy event) ((some (hook key)).forM id) :=
      (hbusy event).2 key
    exact idle_run hbusy hkey n mode
  | runEvents => exact idle_runEvents n
  | dispatch e => exact idle_dispatch hbusy hr n e
  | _ => exact hruns.elim

end

end Engine

namespace Host

variable {h : Host σ κ}

theorem keeps_busy (h : Host σ κ) (event : Option Event) (n : Nat) (q : Request κ) :
    Engine.Keeps (World.Busy event) (h.perform n q) :=
  keeps_perform (C := fun _ _ => True) (fun _ _ hw => hw) h.makes_any (fun _ => trivial)
    (fun _ hook n q _ hr _ _ => Engine.busy_carryOut hr hook n q) n trivial

theorem keeps_idle (h : Host σ κ) (event : Option Event) (n : Nat) (q : Request κ) :
    Engine.Keeps (World.Idle event) (h.perform n q) := by
  -- Bodies run into an idle machine as well as into a busy one, and the event at hand is not the
  -- same throughout.
  induction n generalizing event q with
  | zero => exact .throw
  | succ n ih =>
    have hbusy (event : Option Event) : (h.responder (h.perform n)).Keeps (World.Busy event) ∧
        ∀ key, Engine.Keeps (World.Busy event) (h.hook n key) :=
      ⟨keeps_responder (fun _ _ hw => hw) h.makes_any fun q _ => h.keeps_busy event n q,
        keeps_hook (fun _ _ hw => hw) h.makes_any n fun q _ => h.keeps_busy event n q⟩
    have hidle (event : Option Event) : (h.responder (h.perform n)).Keeps (World.Idle event) :=
      keeps_responder (fun _ _ hw => hw) h.makes_any fun q _ => ih event q
    exact Engine.idle_carryOut hbusy hidle n q

/-- Whatever the bodies do, no run is under way after an operation and no event is at hand if that
was so before. -/
theorem Step.idle {q : Request κ} {w w' : World σ κ} (hs : h.Step q w w')
    (hw : w.Idle none) : w'.Idle none := by
  obtain ⟨n, env, now, hn⟩ := hs
  exact (h.keeps_idle none n q).leads (w := { w with env, now }) hw hn

end Host

end Statechart
