import Statechart.Proofs.Machine.BearingMoves

/-!
# Flags of a machine at work

While a run is under way a request leaves it so, with the phases as they are and nothing newly
fired. While none is, a run that a request begins ends with it, a firing puts its flags away and a
move puts the phases back, whether it succeeds or fails. What else is then known of the world goes
with the flags.
-/

namespace Statechart

open Json

variable {σ κ α : Type}

namespace World

/-- The flags of the machine: whether a run is under way, at most which transition is being fired,
and the phases. Only a run is ever paused. -/
structure Geared (b : Bool) (t : Option TransitionId) (k : Phase) (w : World σ κ) : Prop where
  running : w.machine.running = b
  paused : b = false → w.machine.paused = false
  phase : w.machine.phase = k
  firing : w.machine.firing = none ∨ w.machine.firing = t

/-- The machine has no part in the condition, and neither has what goes on between firings. -/
structure Settled (L : World σ κ → Prop) : Prop where
  onward : ∀ {w w'}, L w → w.Onward w' → L w'
  map : ∀ {w} (f : Machine κ → Machine κ), L w → L (w.mapMachine f)

/-- The flags are so, and the world is. -/
def Under (b : Bool) (t : Option TransitionId) (L : World σ κ → Prop) (k : Phase)
    (w : World σ κ) : Prop :=
  w.Geared b t k ∧ L w

variable {b : Bool} {t : Option TransitionId} {k : Phase} {w w' : World σ κ}

theorem Geared.onward (h : w.Geared b t k) (hw : w.Onward w') : w'.Geared b t k where
  running := hw.running.trans h.running
  paused hb := by
    rcases hw.paused with hsame | hrunning
    · exact hsame.trans (h.paused hb)
    · exact absurd (hrunning.symm.trans (h.running.trans hb)) (Bool.false_ne_true ∘ Eq.symm)
  phase := hw.phase.trans h.phase
  firing := hw.firing.elim (fun hsame => hsame ▸ h.firing) .inl

theorem Geared.notify (h : w.Geared b t k) (n : Notice) : (w.notify n).Geared b t k :=
  ⟨h.running, h.paused, h.phase, h.firing⟩

theorem Geared.setPhase (h : w.Geared b t k) (k' : Phase) :
    (w.mapMachine ({ · with phase := k' })).Geared b t k' :=
  ⟨h.running, h.paused, rfl, h.firing⟩

/-- The flags are in the machine. -/
theorem Geared.congr {τ : Type} {v : World τ κ} (h : w.Geared b t k)
    (hv : v.machine = w.machine) : v.Geared b t k := by
  obtain ⟨hrunning, hpaused, hphase, hfiring⟩ := h
  rw [← hv] at hrunning hpaused hphase hfiring
  exact ⟨hrunning, hpaused, hphase, hfiring⟩

end World

namespace Engine

variable {r : Responder σ κ} {hook : κ → Engine σ κ Unit} {n : Nat} {q : Request κ} {b : Bool}
  {t : Option TransitionId} {k : Phase} {B : MachineError → Prop} {L F : World σ κ → Prop}

section
variable (hL : World.Settled L) (hF : World.Settled F) (himp : ∀ w, L w → F w)
  (hB : ∀ e, B e → e.Overlaps)
include hL hF himp hB

theorem phased_under (b : Bool) (t : Option TransitionId) :
    Phased (World.Under b t L) (World.Under b t F) B where
  bearing _ := ⟨fun _ _ hw h => ⟨hw.1.onward h, hL.onward hw.2 h⟩,
    fun _ hw => ⟨hw.1, himp _ hw.2⟩, hB⟩
  lastsCut _ _ _ hw h := ⟨hw.1.onward h, hF.onward hw.2 h⟩
  phase hw := hw.1.phase
  setPhase k hw := ⟨hw.1.setPhase k, hL.map _ hw.2⟩
  setPhaseCut k hw := ⟨hw.1.setPhase k, hF.map _ hw.2⟩

/-- What a run is known to begin and end with: `L` whenever a firing is over, and `F` if one
fails. -/
theorem drives_under (k : Phase) : Drives (World.Under false none L k) (World.Under false none F k)
    (World.Under true none L k) (World.Under true none F k) B
    (Ends (World.Under true none F k) (World.Under true none F k) B)
    (Ends (World.Under false none F k) (World.Under false none F k) B) := by
  have hput {w : World σ κ} (hw : World.Under true none F k w) :
      World.Under false none F k (w.mapMachine ({ · with running := false, paused := false })) :=
    ⟨⟨rfl, fun _ => rfl, hw.1.phase, hw.1.firing⟩, hF.map _ hw.2⟩
  have honward {w w' : World σ κ} (h : w.Onward w') (hw : World.Under false none F k w) :
      World.Under false none F k w' :=
    ⟨hw.1.onward h, hF.onward hw.2 h⟩
  exact
    { outside := (phased_under hL hF himp hB false none).bearing k
      within := (phased_under hL hF himp hB true none).bearing k
      idle := fun hw => hw.1.running
      begun := fun hw => ⟨⟨rfl, nofun, hw.1.phase, hw.1.firing⟩, hL.map _ hw.2⟩
      ended := fun hw => ⟨⟨rfl, fun _ => rfl, hw.1.phase, hw.1.firing⟩, hL.map _ hw.2⟩
      stopped := fun hw => hw.map hput hput
      lasts := fun hw h => hw.map (honward h) (honward h)
      endsWithin := fun _ w hw => hw.map (fun hw => ⟨hw.1, himp w hw.2⟩) id
      endsOutside := fun _ w hw => hw.map (fun hw => ⟨hw.1, himp w hw.2⟩) id }

end

/-! ## Firing -/

/-- From a world where all firings are over, what is known of the firing of a transition until it
ends: `M` as long as it is under way, `L` once it is told to have ended, and `F` if it fails. -/
structure Conducts (r : Responder σ κ) (L F M : World σ κ → Prop) (B : MachineError → Prop)
    (k : Phase) (p : Pending) (w : World σ κ) : Prop where
  settled : World.Settled M
  effect : Triple (· = (w.mapMachine ({ · with firing := some p.transition })).invoking
    p.transition) (invoke r .effect (.transition p.transition) p.args)
    (fun _ => World.Under true (some p.transition) M (setPhaseFlag k .effect true))
    (Ends (World.Under true (some p.transition) M (setPhaseFlag k .effect true))
      (World.Under true (some p.transition) M (setPhaseFlag k .effect true)) B)
  crosses : Crosses r (World.Under true (some p.transition) M)
    (World.Under true (some p.transition) M) B k
  fired : ∀ v source target, M v → L (v.notify (.transitionFired p.transition source target))
  lost : ∀ v, M v → F v

section
variable (hL : World.Settled L) (hF : World.Settled F) (himp : ∀ w, L w → F w)
  (hB : ∀ e, B e → e.Overlaps) (hk : k.effect = false)
include hL hF himp hB hk

/-- A firing puts its flags away however it ends. -/
theorem under_fireTransition {p : Pending}
    (hfire : ∀ w, World.Under true none L k w → ∃ M, Conducts r L F M B k p w) :
    Triple (World.Under true none L k) (fireTransition r p) (fun _ => World.Under true none L k)
      (Ends (World.Under true none F k) (World.Under true none F k) B) := by
  have hended {M : World σ κ → Prop} (hM : World.Settled M) {k' : Phase}
      (hk' : { k' with effect := false } = k)
      {w : World σ κ} (hw : World.Under true (some p.transition) M k' w) : World.Under true none M k
        (w.mapMachine fun m =>
          { m with firing := none, phase := { m.phase with effect := false } }) := by
    refine ⟨⟨hw.1.running, hw.1.paused, ?_, .inl rfl⟩, hM.map _ hw.2⟩
    rw [← hk', ← hw.1.phase]
    rfl
  have hclear : { k with effect := false } = k := by rw [← hk]
  refine Triple.fireTransition (fun w hw => hw.1.firing.elim id id)
    (fun e w hw => ⟨⟨hw.1, himp w hw.2⟩, fun he => hB _ he⟩) fun target previous => ?_
  rintro _ ⟨w, hw, rfl⟩
  obtain ⟨M, hM⟩ := hfire w hw
  have hphased := phased_under hM.settled hM.settled (fun _ => id) hB true (some p.transition)
  have hmoved := Triple.fire (Q := World.Under true (some p.transition) L k)
    (P := (· = w.mapMachine ({ · with firing := some p.transition }))) hphased hM.crosses
      p.transition target previous
    p.args hk (fun v hv => ?_) ?_ fun new v hv => ⟨hv.1.notify _, hM.fired v _ _ hv.2⟩
  · refine hmoved.mono_post (fun _ v => hended hL hclear) (fun e v hv => ?_) _ rfl
    have hput (k' : Phase) (hk' : { k' with effect := false } = k) {u : World σ κ}
        (hu : World.Under true (some p.transition) M k' u) : World.Under true none F k
          (u.mapMachine fun m =>
            { m with firing := none, phase := { m.phase with effect := false } }) :=
      ⟨(hended hM.settled hk' hu).1, hF.map _ (hM.lost u hu.2)⟩
    have hamid {u : World σ κ} := hput (setPhaseFlag k .effect true) hclear (u := u)
    exact hv.elim (·.map (hput k hclear) (hput k hclear)) (·.map hamid hamid)
  · rw [hv]
    exact hw.1.phase ▸ hk
  · rintro _ ⟨_, rfl, rfl⟩
    exact hM.effect _ rfl

/-! ## Requests -/

/-- A request for a run, asked for while none is under way. -/
theorem under_carryOut_of_runs
    (hfire : ∀ p w, World.Under true none L k w → ∃ M, Conducts r L F M B k p w)
    (hhook : ∀ key, Bears (World.Under true none L k) (World.Under true none F k) B (hook key))
    (hwithin : r.Bears (World.Under true none L k) (World.Under true none F k) B)
    (houtside : r.Bears (World.Under false none L k) (World.Under false none F k) B) (hq : q.Runs) :
    Triple (World.Under false none L k) (carryOut r hook n q) (fun _ => World.Under false none L k)
      (Ends (World.Under false none F k) (World.Under false none F k) B) := by
  have hdrives := drives_under hL hF himp hB k
  exact hdrives.carryOut (fun p => under_fireTransition hL hF himp hB hk (hfire p))
    (fun key => Triple.mono_error (hhook key) hdrives.endsWithin)
      (bears_guard hdrives.within hwithin)
    (bears_guard hdrives.outside houtside) n hq

end

end Engine

end Statechart
