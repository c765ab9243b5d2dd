import Statechart.Proofs.Graph.Ownership
import Statechart.Proofs.Machine.LockstepRuns
import Statechart.Proofs.Machine.Readiness

/-!
# Runs that are cut off

A run can be followed as long as its behaviors keep to some rule, and cut off where one does not. As
far as it is followed it is the run itself.
-/

namespace Statechart

variable {σ κ α : Type} {I : World σ κ → Prop}

/-- A run beside itself in worlds with the condition. The first may be cut off. -/
def Comparison.upTo (I : World σ κ → Prop) : Comparison σ σ κ where
  related w w' := w' = w ∧ I w
  cuts := True

namespace Engine

variable {c : Comparison σ σ κ} {x y : Engine σ κ α} {w w' : World σ κ}

/-- Work cut off where it fails. -/
def orCut (x : Engine σ κ α) : Engine σ κ α := fun w =>
  match x w with
  | .ok a w => .ok a w
  | .error _ w => .error .exhausted w

/-- The work ends in the world, by success or failure. -/
def Leads (x : Engine σ κ α) (w w' : World σ κ) : Prop :=
  (∃ a, x w = .ok a w') ∨ ∃ e, x w = .error (.fault e) w'

/-- The work was cut off, in whatever world. -/
abbrev cutOff (e : Stop) (_ : World σ κ) : Prop := e = .exhausted

/-- The condition holds unless the work was cut off. -/
abbrev unlessCut (I : World σ κ → Prop) (e : Stop) (w : World σ κ) : Prop := e = .exhausted ∨ I w

/-- Work that keeps a condition fails only by being cut off once its failures are cut off. -/
theorem Triple.orCut (hx : Keeps I x) : Triple I (orCut x) (fun _ => I) cutOff := by
  intro w hw
  have hxw := hx w hw
  rw [Engine.orCut]
  cases h : x w with
  | ok a v =>
    rw [h] at hxw
    exact hxw
  | error e v => rfl

theorem Matches.cut (hc : c.cuts) : Matches c (throw .exhausted) y := fun _ _ _ => .cut hc

theorem Matches.orCut (hc : c.cuts) (hx : Matches c x y) : Matches c (orCut x) y := by
  intro w w' hw
  have hxw := hx w w' hw
  rw [Engine.orCut]
  generalize x w = o, y w' = o' at hxw ⊢
  cases hxw with
  | ok h => exact .ok h
  | error _ _ => exact .cut hc
  | cut _ => exact .cut hc

/-- To keep a condition unless cut off is to match oneself up to there. -/
theorem matches_upTo_iff :
    Matches (.upTo I) x x ↔ Triple I x (fun _ => I) (unlessCut I) := by
  constructor
  · intro hx w hw
    have hxw := hx w w ⟨rfl, hw⟩
    cases h : x w with
    | ok a v =>
      rw [h] at hxw
      cases hxw with
      | ok hv => exact hv.2
    | error e v =>
      rw [h] at hxw
      cases hxw with
      | error _ hv => exact .inr hv.2
      | cut _ => exact .inl rfl
  · rintro hx _ w ⟨rfl, hw⟩
    have hxw := hx w hw
    cases h : x w with
    | ok a v =>
      rw [h] at hxw
      exact .ok (c := .upTo I) ⟨rfl, hxw⟩
    | error e v =>
      rw [h] at hxw
      rcases hxw with rfl | hv
      · exact .cut (c := .upTo I) trivial
      · exact .error (c := .upTo I) (fun _ => trivial) ⟨rfl, hv⟩

/-- Work that is followed to its end ends where the work itself does. -/
theorem Matches.leads (h : Matches (.upTo I) x y) (hI : I w)
    (hx : x.Leads w w') : y.Leads w w' := by
  have hxy := h w w ⟨rfl, hI⟩
  rcases hx with ⟨a, hok⟩ | ⟨e, herror⟩
  · rw [hok] at hxy
    generalize ho : y w = o at hxy
    cases hxy with
    | ok hv => exact .inl ⟨a, ho.trans (congrArg _ hv.1)⟩
  · rw [herror] at hxy
    generalize ho : y w = o at hxy
    cases hxy with
    | error _ hv => exact .inr ⟨e, ho.trans (congrArg _ hv.1)⟩

/-- Work matches itself where nothing is asked of the world. -/
theorem matches_self : Matches (.upTo fun _ => True) x x := by
  refine matches_upTo_iff.mpr fun w _ => ?_
  cases x w with
  | ok a v => trivial
  | error e v => exact .inr trivial

/-! ## Where work ends -/

theorem Triple.leads {P Q : World σ κ → Prop} (h : Triple P x (fun _ => Q) (unlessCut Q)) (hw : P w)
    (hx : x.Leads w w') : Q w' := by
  have hxw := h w hw
  rcases hx with ⟨a, hok⟩ | ⟨e, herror⟩
  · rw [hok] at hxw
    exact hxw
  · rw [herror] at hxw
    exact hxw.resolve_left nofun

theorem Keeps.leads (h : Keeps I x) (hw : I w) (hx : x.Leads w w') : I w' :=
  Triple.leads (Triple.mono_error h fun _ _ => .inr) hw hx

theorem Leads.unique {v : World σ κ} (h : x.Leads w v) (h' : x.Leads w w') : v = w' := by
  rcases h with ⟨a, ha⟩ | ⟨e, he⟩ <;> rcases h' with ⟨a', ha'⟩ | ⟨e', he'⟩
  · cases ha.symm.trans ha'
    rfl
  · cases ha.symm.trans he'
  · cases he.symm.trans ha'
  · cases he.symm.trans he'
    rfl

theorem Leads.of_attempt {o : Except MachineError α}
    (h : attempt x w = .ok o w') : x.Leads w w' := by
  rcases Engine.of_attempt h with ⟨a, -, ha⟩ | ⟨e, -, he⟩
  · exact .inl ⟨a, ha⟩
  · exact .inr ⟨e, he⟩

theorem keeps_of_leads (h : ∀ w, I w → ∃ w', x.Leads w w' ∧ I w') : Keeps I x := by
  intro w hw
  obtain ⟨w', ⟨a, ha⟩ | ⟨e, he⟩, hw'⟩ := h w hw
  · rw [ha]
    exact hw'
  · rw [he]
    exact hw'

/-- The world in which work ends. -/
def after (x : Engine σ κ α) (w : World σ κ) : World σ κ :=
  match x w with
  | .ok _ w' => w'
  | .error _ w' => w'

theorem Keeps.after (h : Keeps I x) (hw : I w) : I (x.after w) := by
  have hxw := h w hw
  rw [Engine.after]
  cases hx : x w with
  | ok a w' =>
    rw [hx] at hxw
    exact hxw
  | error e w' =>
    rw [hx] at hxw
    exact hxw

theorem Leads.after_eq (h : x.Leads w w') : x.after w = w' := by
  rw [after]
  rcases h with ⟨a, ha⟩ | ⟨e, he⟩
  · rw [ha]
  · rw [he]

/-- What work gives if it succeeds. -/
def answer? (x : Engine σ κ α) (w : World σ κ) : Option α :=
  match x w with
  | .ok a _ => some a
  | .error _ _ => none

theorem ok_of_answer? {x : Engine σ κ α} {w : World σ κ} {a : α} (h : x.answer? w = some a) :
    x w = .ok a (x.after w) := by
  rw [answer?] at h
  rw [after]
  cases hx : x w with
  | ok b w' =>
    rw [hx] at h
    rw [Option.some.inj h]
  | error e w' =>
    rw [hx] at h
    cases h

theorem leads_after (h : (x.answer? w).isSome) : x.Leads w (x.after w) := by
  obtain ⟨a, ha⟩ := Option.isSome_iff_exists.mp h
  exact .inl ⟨a, ok_of_answer? ha⟩

/-! ### Requests that replace what the machine works on -/

theorem leads_edit (e : Edit κ) (w : World σ κ) :
    (edit e).Leads w (w.mapMachine ({ · with graph := e.after w.machine.graph })) := by
  have hleft : e.after w.machine.graph = Editor.left (e.apply.run w.machine.graph) := rfl
  rw [Leads, edit, machine_bind]
  cases h : e.apply.run w.machine.graph with
  | ok a g =>
    rw [h] at hleft
    exact .inl ⟨a, by rw [hleft]; rfl⟩
  | error err g =>
    rw [h] at hleft
    exact .inr ⟨.graph err, by rw [hleft]; rfl⟩

/-- A machine that gets a graph of its own keeps its records and what waits in its slot, by their
copies. -/
theorem leads_isolate (w : World σ κ) : isolate.Leads w w ∨
    ∃ g c active pending, w.machine.graph.copyDefinition w.machine.definition = .ok (g, c) ∧
      w.machine.copiedPending c = .ok pending ∧ isolate.Leads w
        ({ w with logs := w.logs.remap w.machine.history (·.copied c) }.mapMachine fun m =>
          { m with
            graph := g, active, pending
            definition := g.root
            lastTransition := w.machine.lastTransition.bind c.transition? }) := by
  simp only [Leads, isolate, machine_bind]
  cases hrunning : w.machine.running with
  | true => exact .inl (.inr ⟨_, rfl⟩)
  | false =>
  cases hcopy : w.machine.graph.copyDefinition w.machine.definition with
  | error e => exact .inl (.inr ⟨.graph e, rfl⟩)
  | ok gc =>
  obtain ⟨g, c⟩ := gc
  cases hactive : w.machine.copiedActive c with
  | error e =>
    refine .inl (.inr ⟨.graph e, ?_⟩)
    simp only [ofGraph, pure_bind, hactive]
    rfl
  | ok active =>
  cases hpending : w.machine.copiedPending c with
  | error e =>
    refine .inl (.inr ⟨.graph e, ?_⟩)
    simp only [ofGraph, pure_bind, hactive, hpending]
    rfl
  | ok pending =>
    refine .inr ⟨g, c, active, pending, rfl, hpending, .inl ⟨(), ?_⟩⟩
    simp only [ofGraph, pure_bind, hactive, hpending]
    rfl

/-- A machine that takes up a snapshot has its state, its slot and its queue of events from
there. -/
theorem leads_restore (s : Snapshot) (w : World σ κ) : (restore s).Leads w w ∨
    ∃ active pending, s.resolvePending w.machine = .ok pending ∧
      (restore s).Leads w (w.mapMachine ({ · with active, pending, events := s.eventQueue })) := by
  simp only [Leads, restore, machine_bind]
  cases h : s.restoreInto w.machine with
  | error e => exact .inl (.inl ⟨.error e, rfl⟩)
  | ok m =>
    obtain ⟨active, pending, rfl, -, -, -, hpending, -⟩ := Snapshot.restoreInto_ok h
    exact .inr ⟨active, pending, hpending, .inl ⟨.ok (), rfl⟩⟩

end Engine

theorem Comparison.serves_upTo : (Comparison.upTo fun _ => True : Comparison σ σ κ).ServesAll where
  like h := World.like_of_eq h.1
  guarded | _, rfl, h => ⟨by rw [h.1], trivial⟩
  phase h := by rw [h.1]
  setPhase _ h := ⟨by rw [h.1], trivial⟩
  setActive hs h := ⟨by rw [h.1, eq_of_optionRel hs], trivial⟩
  setLast hvia h := ⟨by rw [h.1, eq_of_optionRel hvia], trivial⟩
  exited | rfl, h => ⟨by rw [h.1], trivial⟩
  started | rfl, h => ⟨by rw [h.1], trivial⟩
  moving _ hlike h := ⟨by rw [h.1, hlike.eq], trivial⟩
  seeded | rfl => Engine.matches_self.relates
  clear := Engine.matches_self.relates
  firing h := by rw [h.1]
  setFiring ht h := ⟨by rw [h.1, eq_of_optionRel ht], trivial⟩
  effect | rfl, h => ⟨by rw [h.1], trivial⟩
  fired | rfl, hsource, rfl, h => ⟨by rw [h.1, eq_of_optionRel hsource], trivial⟩
  pending h := likePending_of_eq (by rw [h.1])
  setPending hp h := ⟨by rw [h.1, eq_of_likePending hp], trivial⟩
  queued | rfl, h => ⟨by rw [h.1], trivial⟩
  running h := by rw [h.1]
  paused h := by rw [h.1]
  events h := by rw [h.1]
  setPaused _ h := ⟨by rw [h.1], trivial⟩
  setEvents _ h := ⟨by rw [h.1], trivial⟩
  stopped h := ⟨by rw [h.1], trivial⟩
  resumed h := ⟨by rw [h.1], trivial⟩
  dequeued _ h := ⟨by rw [h.1], trivial⟩
  starves := trivial
  setRunning _ h := ⟨by rw [h.1], trivial⟩
  setEvent _ h := ⟨by rw [h.1], trivial⟩
  setTrigger _ h := ⟨by rw [h.1], trivial⟩
  recorded := Engine.relates_record_of_forall fun _ _ _ => Engine.matches_self
  setOptions _ h := ⟨by rw [h.1], trivial⟩
  isolate := Engine.matches_self
  edit _ := Engine.matches_self
  restore _ := Engine.matches_self

/-! ## Conditions on more than the machine -/

/-- Of the machine at most whether a run is under way has a part in the condition, and no notice
breaks it. -/
structure World.Heedless (I : World σ κ → Prop) : Prop where
  machine : ∀ {w m}, m.running = w.machine.running → I w → I { w with machine := m }
  logs : ∀ {w} logs, I w → I { w with logs }
  notify : ∀ {w} n, I w → I (w.notify n)

namespace Comparison

section
variable (hI : World.Heedless I)
include hI

theorem records_heedless (previous : Option StateId) (t : Option TransitionId) (new : StateId) :
    Engine.Matches (.within I) (Engine.recordHistory previous t new)
      (Engine.recordHistory previous t new) :=
  Engine.keeps_iff_matches.mp (.modify fun w hw => by
    split
    · exact hI.logs _ hw
    · exact hw)

theorem fires_heedless : (within I).Fires .same where
  like h := World.like_of_eq h.1
  guarded | _, rfl, h => ⟨by rw [h.1], hI.notify _ h.2⟩
  phase h := by rw [h.1]
  setPhase _ h := ⟨by rw [h.1], hI.machine rfl h.2⟩
  setActive hs h := ⟨by rw [h.1, eq_of_optionRel hs], hI.machine rfl h.2⟩
  setLast hvia h := ⟨by rw [h.1, eq_of_optionRel hvia], hI.machine rfl h.2⟩
  exited | rfl, h => ⟨by rw [h.1], hI.notify _ h.2⟩
  started | rfl, h => ⟨by rw [h.1], hI.notify _ h.2⟩
  moving _ hlike h := ⟨by rw [h.1, hlike.eq], hI.notify _ h.2⟩
  seeded | rfl => (records_heedless hI none none _).relates
  clear := Engine.Keeps.relates (.modify fun _ hw => hI.logs _ hw)
  firing h := by rw [h.1]
  setFiring ht h := ⟨by rw [h.1, eq_of_optionRel ht], hI.machine rfl h.2⟩
  effect | rfl, h => ⟨by rw [h.1], hI.notify _ h.2⟩
  fired | rfl, hsource, rfl, h => ⟨by rw [h.1, eq_of_optionRel hsource], hI.notify _ h.2⟩

theorem queues_heedless : (within I).Queues .same where
  toSelects := (fires_heedless hI).toSelects
  phase h := by rw [h.1]
  pending h := likePending_of_eq (by rw [h.1])
  setPending hp h := ⟨by rw [h.1, eq_of_likePending hp], hI.machine rfl h.2⟩
  queued | rfl, h => ⟨by rw [h.1], hI.notify _ h.2⟩

theorem handles_heedless : (within I).Handles .same where
  toSelects := (fires_heedless hI).toSelects
  starves := trivial
  running h := by rw [h.1]
  paused h := by rw [h.1]
  setPaused _ h := ⟨by rw [h.1], hI.machine rfl h.2⟩
  stopped h := ⟨by rw [h.1], hI.notify _ h.2⟩
  resumed h := ⟨by rw [h.1], hI.notify _ h.2⟩
  events h := by rw [h.1]
  setEvents _ h := ⟨by rw [h.1], hI.machine rfl h.2⟩
  dequeued _ h := ⟨by rw [h.1], hI.notify _ h.2⟩
  setEvent _ h := ⟨by rw [h.1], hI.machine rfl h.2⟩
  setTrigger _ h := ⟨by rw [h.1], hI.machine rfl h.2⟩

/-- What the machine has no part in is kept by whatever is asked of it. -/
theorem serves_heedless
    (hmachine : ∀ {w m}, I w → I { w with machine := m }) : (within I).ServesAll where
  __ := fires_heedless hI
  __ := queues_heedless hI
  __ := handles_heedless hI
  setRunning _ h := ⟨by rw [h.1], hmachine h.2⟩
  recorded := Engine.relates_record_of_forall (records_heedless hI)
  setOptions _ h := ⟨by rw [h.1], hmachine h.2⟩
  isolate := Engine.keeps_iff_matches.mp <| Engine.keeps_of_leads fun w hw => by
    rcases Engine.leads_isolate w with hsame | ⟨g, c, active, pending, -, -, hleads⟩
    · exact ⟨w, hsame, hw⟩
    · exact ⟨_, hleads, hmachine (hI.logs _ hw)⟩
  edit e := Engine.keeps_iff_matches.mp <| Engine.keeps_of_leads fun w hw =>
    ⟨_, Engine.leads_edit e w, hmachine hw⟩
  restore s := Engine.keeps_iff_matches.mp <| Engine.keeps_of_leads fun w hw => by
    rcases Engine.leads_restore s w with hsame | ⟨active, pending, -, hleads⟩
    · exact ⟨w, hsame, hw⟩
    · exact ⟨_, hleads, hmachine hw⟩

end

end Comparison

theorem Comparison.shows_upTo (hI : World.Indifferent I) :
    (Comparison.upTo I).Shows fun v v' => v' = v where
  env h := by rw [h.1]
  setEnv env h := ⟨by rw [h.1], hI _ env h.2⟩
  view h := by rw [h.1]

/-- Any bodies make the same of the same. -/
theorem Host.Makes.blind {h : Host σ κ} {A : Request κ → Prop} (hbodies : h.Makes A) :
    h.Blind (fun v v' => v' = v) A :=
  fun key element args => (hbodies key element args).alike fun _ _ hv => hv

theorem Host.blind_eq (h : Host σ κ) : h.Blind (fun v v' => v' = v) fun _ => True :=
  h.makes_any.blind

/-- What neither the machine nor the environment has a part in, and no notice breaks, is kept by
whatever is asked of the machine. -/
theorem Host.keeps_heedless (hI : World.Heedless I)
    (hmachine : ∀ {w m}, I w → I { w with machine := m }) (henv : World.Indifferent I)
    (h : Host σ κ) (n : Nat) (q : Request κ) : Engine.Keeps I (h.perform n q) :=
  keeps_perform (C := fun _ _ => True) henv h.makes_any (fun _ => trivial)
    (fun _ _ n q _ hr hhook _ => Engine.keeps_iff_matches.mpr
      (Engine.matches_carryOut_of_serves hr.matches
      (fun key => Engine.keeps_iff_matches.mp (hhook key))
        (Comparison.serves_heedless hI hmachine) n q)) n trivial

end Statechart
