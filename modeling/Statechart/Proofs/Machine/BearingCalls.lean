import Statechart.Proofs.Machine.BearingMoves
import Statechart.Proofs.Machine.Calls

/-!
# Calls under conditions

What requests bear, bodies that make them bear, as long as they come up with no error of the kind on
their own. Calls are noted as they end, and nothing noted or told before is ever lost.
-/

namespace Statechart

open Json

variable {σ κ α : Type} {B : MachineError → Prop}

/-- The outcome is no error of the kind. -/
def Spared (B : MachineError → Prop) (o : Except MachineError α) : Prop := ∀ e, o = .error e → ¬ B e

/-- The program ends with a result of the kind as long as no request that it makes ends with such an
error. -/
def Program.Honest (B : MachineError → Prop) (good : α → Prop) : Program σ κ α → Prop
  | .ret a => good a
  | .look next => ∀ v, (next v).Honest B good
  | .write _ next => next.Honest B good
  | .call _ next => ∀ o, Spared B o → (next o).Honest B good

/-- No body fails with an error of the kind but for one that a request has failed with. -/
def Host.Honest (h : Host σ κ) (B : MachineError → Prop) : Prop :=
  ∀ key element args, (h.body key element args).Honest B (Spared B)

/-- No error is of no kind. -/
theorem Host.honest_false (h : Host σ κ) : h.Honest fun _ => False := by
  have hprogram (p : Routine σ κ) : p.Honest (fun _ => False) (Spared fun _ => False) := by
    induction p with
    | ret a => exact fun _ _ => id
    | look next ih => exact ih
    | write env next ih => exact ih
    | call q next ih => exact fun o _ => ih o
  exact fun _ _ _ => hprogram _

namespace World

/-- Nothing told or noted in the first world is lost in the second. -/
structure Grown (u w : World (Diary σ κ) κ) : Prop where
  notices : u.notices <+: w.notices
  calls : u.env.calls <+: w.env.calls

variable {u w : World (Diary σ κ) κ}

theorem Grown.refl (u : World (Diary σ κ) κ) : u.Grown u := ⟨List.prefix_rfl, List.prefix_rfl⟩

theorem Grown.log (h : u.Grown w) (c : Call σ κ) : u.Grown (w.log c) :=
  ⟨h.notices, h.calls.trans (List.prefix_append _ _)⟩

theorem heedless_grown : Heedless u.Grown where
  machine _ h := ⟨h.notices, h.calls⟩
  logs _ h := ⟨h.notices, h.calls⟩
  notify _ h := ⟨h.notices.trans (List.prefix_append _ _), h.calls⟩

end World

namespace Host

variable {h : Host σ κ}

/-- Work on a request adds to what is told and noted. -/
theorem keeps_grown (u : World (Diary σ κ) κ) (n : Nat) (q : Request κ) :
    Engine.Keeps u.Grown (h.noting n q) := by
  induction n generalizing q with
  | zero => exact .throw
  | succ n ih =>
    have hcall (q : Request κ) : Engine.Keeps u.Grown (h.calling n q) := by
      refine Engine.keeps_noted (fun w hw o v hv => ?_) fun w hw v hv => ?_
      · have hkept := (ih q).attempt w hw
        rw [hv] at hkept
        exact hkept.log _
      · have hkept := ih q w hw
        rw [hv] at hkept
        exact hkept
    have hprivate : World.Private u.Grown := fun _ _ h => ⟨h.notices, h.calls⟩
    exact Engine.keeps_iff_matches.mpr
      (Engine.matches_carryOut_of_serves (keeps_diarist hprivate hcall).matches
      (fun key => Engine.keeps_iff_matches.mp (keeps_callingHook hprivate hcall key))
      (Comparison.serves_heedless World.heedless_grown fun h => ⟨h.notices, h.calls⟩) n q)

end Host

/-! ## Bodies -/

section
variable {I X : World (Diary σ κ) κ → Prop}

/-- A program that makes requests fails with nothing by itself. -/
theorem Program.bears_lift (hprivate : World.Private I)
    {call : (q : Request κ) → Engine (Diary σ κ) κ q.Answer}
    (hcall : ∀ q, Engine.Bears I X B (call q)) {good : α → Prop} {p : Program σ κ α}
    (hp : p.Honest B good) :
    Engine.Triple I (p.lift.runWith call) (fun a w => I w ∧ good a) (Engine.Ends I X B) := by
  induction p with
  | ret a => exact fun w hw => ⟨hw, hp⟩
  | look next ih => exact fun w hw => ih _ (hp _) w hw
  | write env next ih => exact fun w hw => ih hp _ (hprivate w env hw)
  | call q next ih =>
    refine .bind (hcall q).attempt fun o w hw => ?_
    exact ih o (hp o hw.2) w hw.1

variable {h : Host σ κ} {n : Nat} (hprivate : World.Private I) (hhonest : h.Honest B)
  (hcall : ∀ q, Engine.Bears I X B (h.calling n q))
include hprivate hhonest hcall

namespace Host

theorem bears_runBody (key : κ) (element : Option (Element κ)) (args : List Value) :
    Engine.Bears I X B (h.lift.runBody (h.calling n) key element args) := by
  refine Engine.Triple.bind (Program.bears_lift hprivate hcall (hhonest key element args))
    fun o w hw => ?_
  cases o with
  | ok a => exact hw.1
  | error e => exact ⟨hw.1, hw.2 e rfl⟩

theorem bears_diarist : (h.diarist n).Bears I X B where
  call name element args := by
    refine .bind (fun _ hw => hw) fun w => ?_
    cases (h.lift.handlers w.env).get? name with
    | none => exact .pure
    | some key => exact bears_runBody hprivate hhonest hcall key (some element) args
  callback key element args := bears_runBody hprivate hhonest hcall key (some element) args

theorem bears_callingHook (key : κ) : Engine.Bears I X B (h.callingHook n key) :=
  .bind (bears_runBody hprivate hhonest hcall key none []) fun _ => .pure

end Host

end

namespace Host

section
variable {I X : World (Diary σ κ) κ → Prop} {E : Stop → World (Diary σ κ) κ → Prop} {h : Host σ κ}
  {n : Nat} {q : Request κ}

/-- A call bears the condition if the work on it comes back to it once the note is in place. -/
theorem bears_calling (hwork : Engine.Triple I (h.noting n q) (fun _ => I) E)
    (hok : ∀ u a v, I u → u.Grown v → I v → I (v.log ⟨q, u.plain, .ok a, v.plain⟩))
    (hfault : ∀ u e v, I u → u.Grown v → E (.fault e) v →
      I (v.log ⟨q, u.plain, .error e, v.plain⟩) ∧ ¬ B e)
    (hcut : ∀ v, E .exhausted v → X v) : Engine.Bears I X B (h.calling n q) := by
  intro u hu
  have hended := hwork u hu
  have hgrown := keeps_grown (h := h) u n q u (.refl u)
  rw [calling, Engine.noted_eq, Engine.attempt]
  cases hw : h.noting n q u with
  | ok a v =>
    rw [hw] at hended hgrown
    exact hok u a v hu hgrown hended
  | error e v =>
    rw [hw] at hended hgrown
    cases e with
    | fault e => exact hfault u e v hu hgrown hended
    | exhausted => exact hcut v hended

end

/-- What is borne while a run is under way, by all that is then asked of a machine. -/
structure Accompanies (I : Phase → World (Diary σ κ) κ → Prop)
    (B : MachineError → Prop) : Prop where
  phased : Engine.Phased I I B
  secret : ∀ k, World.Private (I k)
  running : ∀ {k w}, I k w → w.machine.running = true
  told : ∀ {k w n}, n.Staging → I k w → I k (w.notify n)
  log : ∀ {k w} (c : Call σ κ), c.before.machine.running = true → Spared B c.outcome →
    I k w → I k (w.log c)

variable {I : Phase → World (Diary σ κ) κ → Prop} {h : Host σ κ} (hI : Accompanies I B)
  (hhonest : h.Honest B)
include hI hhonest

theorem bears_accompanied (n : Nat) (q : Request κ) (k : Phase) :
    Engine.Bears (I k) (I k) B (h.calling n q) := by
  induction n generalizing q k with
  | zero => exact fun u hu => hu
  | succ n ih =>
    have hr (k : Phase) : (h.diarist n).Bears (I k) (I k) B :=
      bears_diarist (hI.secret k) hhonest fun q => ih q k
    have hcrosses : Engine.Crosses (h.diarist n) I I B k :=
      Engine.crosses_of_bears hI.phased hI.told fun k' _ => hr k'
    have hwork : Engine.Bears (I k) (I k) B (h.noting (n + 1) q) :=
      Engine.Triple.carryOut hI.phased (hI.phased.bearing k) (fun _ => id) (hr k) hcrosses
        (Engine.bears_running (hI.phased.bearing k) (fun _ => hI.running) (hr k) n)
    refine bears_calling hwork (fun u a v hu _ hv => ?_)
      (fun u e v hu _ hv => ⟨?_, hv.2⟩) fun _ => id
    · exact hI.log _ (hI.running hu) nofun hv
    · exact hI.log _ (hI.running hu) (fun _ he => Except.error.inj he ▸ hv.2) hv.1

theorem accompanied_diarist (n : Nat) (k : Phase) : (h.diarist n).Bears (I k) (I k) B :=
  bears_diarist (hI.secret k) hhonest fun q => bears_accompanied hI hhonest n q k

theorem accompanied_callingHook (n : Nat) (key : κ) (k : Phase) :
    Engine.Bears (I k) (I k) B (h.callingHook n key) :=
  bears_callingHook (hI.secret k) hhonest (fun q => bears_accompanied hI hhonest n q k) key

end Host

end Statechart
