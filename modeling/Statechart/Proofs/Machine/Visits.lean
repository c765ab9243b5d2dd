import Statechart.Proofs.Machine.Projection
import Statechart.Proofs.Machine.Quiescence

/-!
# The phases that behaviors see

As the behavior of a phase is run, the flag of the phase is set. The other flags are as they were
when the request was made that the behavior is run for. With no phase under way as the request is
made, that is one flag at a time. A behavior that starts or moves the machine itself, or runs it
while no run is under way, makes its request amid a phase, and then other behaviors see two.
-/

namespace Statechart

open Json

variable {σ κ α : Type}

/-- The phase whose behavior is about to be run once that is told. -/
def Notice.phase? : Notice → Option Operation
  | .stateExited _ => some .exit
  | .stateEntered _ => some .entry
  | .effectInvoked _ => some .effect
  | .activityInvoked _ => some .doActivity
  | _ => none

/-- A body that is run: the world in which the request was made that it is run for, what the machine
has told since it last began or went on with its work, the element if the body is not a hook's, and
the world as it then is. -/
structure Visit (σ κ : Type) where
  asked : World σ κ
  told : List Notice
  element : Option (Element κ)
  world : World σ κ

namespace Visit

/-- The phase whose behavior is run. It is none for guards and hooks. -/
def phase? (v : Visit σ κ) : Option Operation := v.told.getLast?.bind Notice.phase?

/-- A behavior sees the flag of its phase besides those set as the request was made, and a guard or
hook only these. -/
def Fits (v : Visit σ κ) : Prop :=
  match v.phase? with
  | none => v.world.machine.phase = v.asked.machine.phase
  | some o => Engine.phaseFlag v.asked.machine.phase o = false ∧
    v.world.machine.phase = Engine.setPhaseFlag v.asked.machine.phase o true

end Visit

/-- What bodies keep, how much had been told as the machine last began or went on with its work, and
the bodies run. -/
structure Register (σ κ : Type) where
  env : σ
  mark : Nat
  visits : List (Visit σ κ)

namespace World

/-- The world with nothing registered yet. -/
def registering (w : World σ κ) : World (Register σ κ) κ :=
  { w with env := ⟨w.env, w.notices.length, []⟩ }

/-- The machine begins or goes on with its work. -/
def resumed (w : World (Register σ κ) κ) : World (Register σ κ) κ :=
  { w with env := { w.env with mark := w.notices.length } }

/-- What the machine has told since it began or went on with its work. -/
def news (w : World (Register σ κ) κ) : List Notice := w.notices.drop w.env.mark

/-- The body that is run now for a request that was made in the given world. -/
def visit (w : World (Register σ κ) κ) (asked : World σ κ)
    (element : Option (Element κ)) : Visit σ κ :=
  ⟨asked, w.news, element, w.mapEnv Register.env⟩

def register (w : World (Register σ κ) κ) (v : Visit σ κ) : World (Register σ κ) κ :=
  { w with env := { w.env with visits := w.env.visits ++ [v] } }

end World

/-- A body, which is registered as it is run. -/
def Engine.visiting (asked : World σ κ) (element : Option (Element κ))
    (x : Engine (Register σ κ) κ α) : Engine (Register σ κ) κ α :=
  thenAlways (do modify fun w => w.register (w.visit asked element); x) World.resumed

def Responder.visiting (r : Responder (Register σ κ) κ) (asked : World σ κ) :
    Responder (Register σ κ) κ where
  respondsTo := r.respondsTo
  call name element args := Engine.visiting asked (some element) (r.call name element args)
  callback key element args := Engine.visiting asked (some element) (r.callback key element args)

namespace Host

/-- The host, whose bodies have no part in what is registered. -/
def registered (h : Host σ κ) : Host (Register σ κ) κ :=
  h.inside Register.env fun env d => { d with env }

/-- Carries out a request and registers the bodies that are run. -/
def visiting (h : Host σ κ) : Nat → (q : Request κ) → Engine (Register σ κ) κ q.Answer
  | 0, _ => throw .exhausted
  | n + 1, q => do
    modify World.resumed
    let asked := (← get).mapEnv Register.env
    Engine.carryOut ((h.registered.responder (h.visiting n)).visiting asked)
      (fun key => Engine.visiting asked none do
        let _ ← h.registered.runBody (h.visiting n) key none []) n q

/-- The bodies that are run while a request at most `n` requests deep is carried out. -/
def visits (h : Host σ κ) (n : Nat) (q : Request κ) (w : World σ κ) : List (Visit σ κ) :=
  ((h.visiting n q).after w.registering).env.visits

end Host

/-! ## Forgetting the register -/

section
variable {x : Engine (Register σ κ) κ α} {y : Engine σ κ α}

theorem Engine.projecting_visiting (hx : Matches (.projecting Register.env) x y) (asked : World σ κ)
    (element : Option (Element κ)) :
    Matches (.projecting Register.env) (visiting asked element x) y := by
  intro w w' hw
  have hxw := hx (w.register (w.visit asked element)) w' hw
  show Comparison.Agree _ (visiting asked element x w) _
  have hrun : visiting asked element x w =
    thenAlways x World.resumed (w.register (w.visit asked element)) := rfl
  rw [hrun, thenAlways]
  generalize x _ = o, y w' = o' at hxw ⊢
  cases hxw with
  | ok h => exact .ok h
  | error he h => exact .error he h
  | cut hc => exact hc.elim

/-- The run with the register is the run itself. -/
theorem Host.projecting_visiting (h : Host σ κ) (n : Nat) (q : Request κ) :
    Engine.Matches (.projecting Register.env) (h.visiting n q) (h.perform n q) := by
  induction n generalizing q with
  | zero => exact .exhausted trivial
  | succ n ih =>
    have hbody (key : κ) : Engine.Matches (.projecting Register.env)
        (h.registered.runBody (h.visiting n) key none []) (h.runBody (h.perform n) key none []) :=
      h.projecting_runBody (fun _ _ => rfl) ih key none []
    have hr : (h.registered.responder (h.visiting n)).Matches (.projecting Register.env)
        (h.responder (h.perform n)) :=
      h.projecting_responder (fun _ _ => rfl) ih
    intro w w' hw
    have hvisiting :
        (((h.registered.responder (h.visiting n)).visiting (w.resumed.mapEnv Register.env))).Matches
        (.projecting Register.env) (h.responder (h.perform n)) :=
      ⟨hr.respondsTo, fun _ _ _ => Engine.projecting_visiting (hr.call _ _ _) _ _,
        fun _ _ _ => Engine.projecting_visiting (hr.callback _ _ _) _ _⟩
    exact Engine.matches_carryOut_of_serves hvisiting
      (fun key => Engine.projecting_visiting (.bind (hbody key) fun _ => .pure) _ _)
      (Comparison.serves_projecting Register.env) n q w.resumed w' hw

end

/-! ## What is registered -/

theorem Notice.phase?_of_not_phasing {n : Notice} (hn : ¬ n.Phasing) : n.phase? = none := by
  cases n with
  | stateExited s | stateEntered s | effectInvoked t | activityInvoked s => exact absurd trivial hn
  | _ => rfl

namespace World

variable {w w' : World (Register σ κ) κ} {asked : World σ κ} {element : Option (Element κ)}
  {told : List Notice}

/-- The phase whose behavior the machine has told to be next. -/
def announced (w : World (Register σ κ) κ) : Option Operation := w.news.getLast?.bind Notice.phase?

/-- All bodies that have been run have seen the flags that they should. -/
structure Sighted (w : World (Register σ κ) κ) : Prop where
  mark : w.env.mark ≤ w.notices.length
  fits : ∀ v ∈ w.env.visits, v.Fits

/-- So they have, and the next one is that of a guard or a hook, if any is run before more is
told. -/
structure Attentive (w : World (Register σ κ) κ) : Prop extends Sighted w where
  announced : w.announced = none

theorem Sighted.tell (h : w.Sighted) (hnotices : w'.notices = w.notices ++ told)
    (henv : w'.env = w.env) : w'.Sighted := by
  refine ⟨?_, henv ▸ h.fits⟩
  rw [henv, hnotices, List.length_append]
  exact Nat.le_add_right_of_le h.mark

theorem Sighted.news_append (h : w.Sighted) (hnotices : w'.notices = w.notices ++ told)
    (henv : w'.env = w.env) : w'.news = w.news ++ told := by
  rw [news, henv, hnotices, List.drop_append_of_le_length h.mark, news]

theorem Sighted.announced_notify (h : w.Sighted) (n : Notice) :
    (w.notify n).announced = n.phase? := by
  have hnews : (w.notify n).news = w.news ++ [n] := h.news_append rfl rfl
  rw [World.announced, hnews, List.getLast?_concat]
  rfl

theorem Sighted.notify (h : w.Sighted) (n : Notice) : (w.notify n).Sighted :=
  h.tell (show (w.notify n).notices = w.notices ++ [n] from rfl) rfl

theorem settled_sighted : Settled (Sighted (σ := σ) (κ := κ)) where
  onward h hw := by
    obtain ⟨told, hnotices, -⟩ := hw.notices
    exact h.tell hnotices hw.env
  map _ h := ⟨h.mark, h.fits⟩

theorem settled_attentive : Settled (Attentive (σ := σ) (κ := κ)) where
  onward {w w'} h hw := by
    refine ⟨settled_sighted.onward h.toSighted hw, ?_⟩
    obtain ⟨told, hnotices, htold⟩ := hw.notices
    rw [announced, h.news_append hnotices hw.env]
    cases told using List.reverseRecOn with
    | nil =>
      rw [List.append_nil]
      exact h.announced
    | append_singleton rest n =>
      rw [← List.append_assoc, List.getLast?_concat]
      exact Notice.phase?_of_not_phasing
        (htold n (List.mem_append_right _ (List.mem_singleton_self n)))
  map _ h := ⟨settled_sighted.map _ h.toSighted, h.announced⟩

theorem Sighted.resumed (h : w.Sighted) : w.resumed.Attentive := by
  refine ⟨⟨Nat.le_refl _, h.fits⟩, ?_⟩
  rw [World.announced, news, World.resumed, List.drop_length]
  rfl

theorem Sighted.register (h : w.Sighted) {v : Visit σ κ}
    (hv : v.Fits) : (w.register v).Sighted := by
  refine ⟨h.mark, fun v' hv' => ?_⟩
  rcases List.mem_append.mp hv' with hv' | hv'
  · exact h.fits v' hv'
  · exact List.mem_singleton.mp hv' ▸ hv

theorem fits_visit_of_none (hannounced : w.announced = none)
    (hphase : w.machine.phase = asked.machine.phase) : (w.visit asked element).Fits := by
  have hnone : (w.visit asked element).phase? = none := hannounced
  rw [Visit.Fits, hnone]
  exact hphase

theorem fits_visit_of_some {o : Operation} (hannounced : w.announced = some o)
    (hflag : Engine.phaseFlag asked.machine.phase o = false)
    (hphase : w.machine.phase = Engine.setPhaseFlag asked.machine.phase o true) :
    (w.visit asked element).Fits := by
  have hsome : (w.visit asked element).phase? = some o := hannounced
  rw [Visit.Fits, hsome]
  exact ⟨hflag, hphase⟩

end World

namespace Engine

theorem phaseFlag_idle (o : Operation) : phaseFlag .idle o = false := by
  cases o <;> rfl

/-- The flag of a phase tells nothing of the other flags. -/
theorem setPhaseFlag_inj {k k' : Phase} {o : Operation} (hk : phaseFlag k o = false)
    (hk' : phaseFlag k' o = false) : setPhaseFlag k o true = setPhaseFlag k' o true ↔ k = k' := by
  refine ⟨fun h => ?_, fun h => by rw [h]⟩
  rw [← setPhaseFlag_cancel hk, ← setPhaseFlag_cancel hk', h]

variable {r : Responder (Register σ κ) κ} {asked : World σ κ} {b : Bool} {t : Option TransitionId}
  {k : Phase} {P : World (Register σ κ) κ → Prop}

theorem phased_sighted (b : Bool) (t : Option TransitionId) :
    Phased (World.Under b t (World.Sighted (σ := σ) (κ := κ)))
    (World.Under b t World.Sighted) fun _ => False :=
  phased_under World.settled_sighted World.settled_sighted (fun _ => id) nofun b t

theorem phased_attentive (b : Bool) (t : Option TransitionId) :
    Phased (World.Under b t (World.Attentive (σ := σ) (κ := κ))) (World.Under b t World.Sighted)
      fun _ => False :=
  phased_under World.settled_attentive World.settled_sighted
    (fun _ => World.Attentive.toSighted) nofun b t

/-- Once a body has been run, the machine goes on with nothing told to be next. -/
theorem Triple.visiting {x : Engine (Register σ κ) κ α} {element : Option (Element κ)}
    (hx : Keeps (World.Under b t World.Sighted k) x)
    (hP : ∀ w, P w → World.Under b t World.Sighted k w ∧ (w.visit asked element).Fits) :
    Triple P (visiting asked element x) (fun _ => World.Under b t World.Attentive k)
      (Ends (World.Under b t World.Attentive k) (World.Under b t World.Sighted k)
        fun _ => False) := by
  have hback {w : World (Register σ κ) κ} (hw : World.Under b t World.Sighted k w) :
      World.Under b t World.Attentive k w.resumed := ⟨hw.1.congr rfl, hw.2.resumed⟩
  refine .thenAlways (.bind (Q := fun _ => World.Under b t World.Sighted k) ?_
    fun _ => Triple.mono_post hx ?_ ?_)
  · exact fun w hw => ⟨(hP w hw).1.1.congr rfl, (hP w hw).1.2.register (hP w hw).2⟩
  · exact fun _ w => hback
  · intro e w hw
    cases e with
    | fault e => exact ⟨hback hw, id⟩
    | exhausted => exact ⟨(hback hw).1, (hback hw).2.toSighted⟩

section
variable (hasked : asked.machine.phase = k)
include hasked

/-- Guards and hooks see the flags set as the request was made. -/
theorem bears_visiting {x : Engine (Register σ κ) κ α} {element : Option (Element κ)}
    (hx : Keeps (World.Under b t World.Sighted k) x) :
    Bears (World.Under b t World.Attentive k) (World.Under b t World.Sighted k) (fun _ => False)
      (visiting asked element x) :=
  .visiting hx fun _ hw => ⟨⟨hw.1, hw.2.toSighted⟩,
    World.fits_visit_of_none hw.2.announced (hw.1.phase.trans hasked.symm)⟩

theorem attentive_visiting (hr : r.Keeps (World.Under b t World.Sighted k)) :
    (r.visiting asked).Bears (World.Under b t World.Attentive k) (World.Under b t World.Sighted k)
      fun _ => False :=
  ⟨fun _ _ _ => bears_visiting hasked (hr.call _ _ _),
    fun _ _ _ => bears_visiting hasked (hr.callback _ _ _)⟩

/-- The behavior of a phase sees the flag of the phase besides those set as the request was made. -/
theorem Triple.invoke_visiting {o : Operation} (hk : phaseFlag k o = false)
    (hr : r.Keeps (World.Under b t World.Sighted (setPhaseFlag k o true))) (a : Action)
    (s : Subject) (args : List Value) :
    Triple (fun w => World.Under b t World.Sighted (setPhaseFlag k o true) w ∧ w.announced = some o)
      (invoke (r.visiting asked) a s args)
        (fun _ => World.Under b t World.Sighted (setPhaseFlag k o true))
      (Ends (World.Under b t World.Sighted (setPhaseFlag k o true))
        (World.Under b t World.Sighted (setPhaseFlag k o true)) fun _ => False) := by
  have hvisited {x : Engine (Register σ κ) κ (Option Bool)} {element : Option (Element κ)}
      (hx : Keeps (World.Under b t World.Sighted (setPhaseFlag k o true)) x) :
      Triple (fun w => World.Under b t World.Sighted (setPhaseFlag k o true) w ∧
        w.announced = some o)
        (Engine.visiting asked element x)
          (fun _ => World.Under b t World.Sighted (setPhaseFlag k o true))
        (Ends (World.Under b t World.Sighted (setPhaseFlag k o true))
          (World.Under b t World.Sighted (setPhaseFlag k o true)) fun _ => False) := by
    have hsighted {w : World (Register σ κ) κ}
        (hw : World.Under b t World.Attentive (setPhaseFlag k o true) w) :
        World.Under b t World.Sighted (setPhaseFlag k o true) w := ⟨hw.1, hw.2.toSighted⟩
    refine (Triple.visiting hx fun w hw => ⟨hw.1, ?_⟩).mono_post (fun _ _ => hsighted) fun _ _ hw =>
      hw.map hsighted id
    refine World.fits_visit_of_some hw.2 (hasked ▸ hk) ?_
    rw [hasked]
    exact hw.1.1.phase
  exact .of_invoke (fun _ hw => hw.1) (fun _ _ hw => ⟨hw.1, id⟩)
    (fun _ _ _ => hvisited (hr.call _ _ _)) (fun _ _ _ => hvisited (hr.callback _ _ _)) a s args

theorem crosses_visiting
    (hr : ∀ k' : Phase, k'.effect = k.effect → r.Keeps (World.Under b t World.Sighted k')) :
    Crosses (r.visiting asked) (World.Under b t World.Sighted) (World.Under b t World.Sighted)
      (fun _ => False) k := by
  have hannounced {o : Operation} {n : Notice} (hn : n.phase? = some o)
      (ho : (setPhaseFlag k o true).effect = k.effect)
      (hk : phaseFlag k o = false) (a : Action) (s : Subject) (args : List Value) :
      Bears (World.Under b t World.Sighted (setPhaseFlag k o true))
        (World.Under b t World.Sighted (setPhaseFlag k o true)) (fun _ => False) (do
          notify n
          let _ ← invoke (r.visiting asked) a s args) :=
    Triple.bind (.notify fun w hw => ⟨⟨hw.1.notify n, hw.2.notify n⟩,
      (hw.2.announced_notify n).trans hn⟩) fun _ =>
      .bind (Triple.invoke_visiting hasked hk (hr _ ho) a s args) fun _ => Bears.pure
  exact ⟨fun hk args s => hannounced (n := .stateExited s) rfl rfl hk _ _ args,
    fun hk args s => hannounced (n := .stateEntered s) rfl rfl hk _ _ args,
    fun hk args s => hannounced (n := .activityInvoked s) rfl rfl hk _ _ args⟩

theorem conducts_visiting (hr : ∀ t k, r.Keeps (World.Under true t World.Sighted k))
    (hk : k.effect = false) (p : Pending) (w : World (Register σ κ) κ)
    (hw : World.Under true none World.Attentive k w) :
    ∃ M, Conducts (r.visiting asked) World.Attentive World.Sighted M (fun _ => False) k p w := by
  refine ⟨World.Sighted, {
    settled := World.settled_sighted
    effect := ?_
    crosses := crosses_visiting hasked fun k' _ => hr _ k'
    fired := fun v _ _ hv => ⟨hv.notify _, hv.announced_notify _⟩
    lost := fun _ => id }⟩
  rintro _ rfl
  have hsighted := World.settled_sighted.map
    (fun m => { m with firing := some p.transition, phase := setPhaseFlag m.phase .effect true })
      hw.2.toSighted
  have hflag : phaseFlag k .effect = false := hk
  refine Triple.invoke_visiting hasked hflag (hr _ _) _ _ _ _
    ⟨⟨⟨hw.1.running, nofun, ?_, .inr rfl⟩, hsighted.notify _⟩,
      hsighted.announced_notify (.effectInvoked p.transition)⟩
  exact congrArg (setPhaseFlag · .effect true) hw.1.phase

end

end Engine

namespace Host

variable {h : Host σ κ} {n : Nat} {q : Request κ} {b : Bool} {t : Option TransitionId} {k : Phase}

theorem keeps_registered
    (hcall : ∀ q, Engine.Keeps (World.Under b t World.Sighted k) (h.visiting n q)) :
    (h.registered.responder (h.visiting n)).Keeps (World.Under b t World.Sighted k) :=
  keeps_inside_responder (fun _ _ hw => ⟨hw.1.congr rfl, hw.2.mark, hw.2.fits⟩)
    (fun q _ => hcall q) h.makes_any

theorem keeps_registered_hook
    (hcall : ∀ q, Engine.Keeps (World.Under b t World.Sighted k) (h.visiting n q)) (key : κ) :
    Engine.Keeps (World.Under b t World.Sighted k) (do
      let _ ← h.registered.runBody (h.visiting n) key none []) :=
  .bind (keeps_inside_runBody (fun _ _ hw => ⟨hw.1.congr rfl, hw.2.mark, hw.2.fits⟩)
    (fun q _ => hcall q) h.makes_any key none []) fun _ => .pure

/-- Work on a request begins with nothing told to be next. -/
theorem keeps_visiting_of_carryOut
    (hwork : ∀ asked : World σ κ, asked.machine.phase = k →
      Engine.Triple (World.Under b t World.Attentive k)
        (Engine.carryOut ((h.registered.responder (h.visiting n)).visiting asked)
          (fun key => Engine.visiting asked none do
            let _ ← h.registered.runBody (h.visiting n) key none []) n q)
        (fun _ => World.Under b t World.Sighted k)
        (Engine.Ends (World.Under b t World.Sighted k) (World.Under b t World.Sighted k)
          fun _ => False)) :
    Engine.Keeps (World.Under b t World.Sighted k) (h.visiting (n + 1) q) := by
  intro w hw
  exact (hwork (w.resumed.mapEnv Register.env) hw.1.phase).mono_error
    (fun _ _ => Engine.Ends.holds) w.resumed ⟨hw.1.congr rfl, hw.2.resumed⟩

theorem keeps_visiting (h : Host σ κ) (t : Option TransitionId) (n : Nat) (q : Request κ)
    (k : Phase) : Engine.Keeps (World.Under true t World.Sighted k) (h.visiting n q) := by
  induction n generalizing q k with
  | zero => exact .throw
  | succ n ih =>
    have hr (k : Phase) := keeps_registered (h := h) (t := t) fun q => ih q k
    refine keeps_visiting_of_carryOut fun asked hasked => ?_
    have hguard := Engine.attentive_visiting hasked (hr k)
    have hbearing := (Engine.phased_attentive (σ := σ) (κ := κ) true t).bearing k
    refine Engine.Triple.carryOut (Engine.phased_sighted true t) hbearing
      (fun _ hw => ⟨hw.1, hw.2.toSighted⟩) hguard
      (Engine.crosses_visiting hasked fun k' _ => hr k') fun hq => ?_
    refine (Engine.bears_running hbearing (fun _ hw => hw.1.running) hguard n hq).mono_post ?_ ?_
    · exact fun _ w hw => ⟨hw.1, hw.2.toSighted⟩
    · exact fun _ w hw => hw.map (fun hw => ⟨hw.1, hw.2.toSighted⟩) id

theorem keeps_visiting_idle (h : Host σ κ) (n : Nat) (q : Request κ) {k : Phase}
    (hk : k.effect = false) :
    Engine.Keeps (World.Under false none World.Sighted k) (h.visiting n q) := by
  induction n generalizing q k with
  | zero => exact .throw
  | succ n ih =>
    have hidle (k : Phase) (hk : k.effect = false) := keeps_registered (h := h) fun q => ih q hk
    have hbusy (t : Option TransitionId) (k : Phase) := keeps_registered (h := h) fun q =>
      h.keeps_visiting t n q k
    have hhook := keeps_registered_hook (h := h) fun q => h.keeps_visiting none n q k
    refine keeps_visiting_of_carryOut fun asked hasked => ?_
    have hguard := Engine.attentive_visiting hasked (hidle k hk)
    have hbearing := (Engine.phased_attentive (σ := σ) (κ := κ) false none).bearing k
    refine Engine.Triple.carryOut (Engine.phased_sighted false none) hbearing
      (fun _ hw => ⟨hw.1, hw.2.toSighted⟩) hguard
      (Engine.crosses_visiting hasked fun k' hk' => hidle k' (hk'.trans hk)) fun hq => ?_
    exact Engine.Triple.mono_post
      (Engine.under_carryOut_of_runs World.settled_attentive World.settled_sighted
      (fun _ => World.Attentive.toSighted) nofun hk (Engine.conducts_visiting hasked hbusy hk)
      (fun key => Engine.bears_visiting hasked (hhook key))
        (Engine.attentive_visiting hasked (hbusy none k)) hguard hq)
      (fun _ w hw => ⟨hw.1, hw.2.toSighted⟩) fun _ _ => id

/-- With nothing under way as an operation is asked for, every body that is run sees the flags that
it should. -/
theorem fits_of_quiescent {w : World σ κ} (hw : w.machine.Quiescent) (n : Nat) (q : Request κ) :
    ∀ v ∈ h.visits n q w, v.Fits := by
  have hsighted : World.Under false none World.Sighted .idle w.registering :=
    ⟨(Machine.quiescent_iff.mp hw).congr rfl, Nat.le_refl _, fun _ hv => absurd hv List.not_mem_nil⟩
  exact ((h.keeps_visiting_idle n q rfl).after hsighted).2.fits

/-- Whatever operations are asked of a machine since it was made, and whatever the bodies that they
run into ask for in turn: the behavior of a phase that is run sees the flag of its phase besides
those that were set as the request was made. So it sees that flag alone if and only if no phase was
under way then, as is so for the operations themselves. -/
theorem phase_of_steps {w : Nat → World σ κ} {q : Nat → Request κ} {n : Nat}
    (hmade : (w 0).machine.Made) (hsteps : ∀ i < n, h.Step (q i) (w i) (w (i + 1))) {i : Nat}
    (hi : i ≤ n) (k : Nat) (q' : Request κ) (env : σ) (now : Instant) :
    ∀ v ∈ h.visits k q' { w i with env, now },
      (v.phase? = none → v.world.machine.phase = v.asked.machine.phase) ∧
      ∀ o, v.phase? = some o →
        Engine.phaseFlag v.asked.machine.phase o = false ∧
        v.world.machine.phase = Engine.setPhaseFlag v.asked.machine.phase o true ∧
        (v.world.machine.phase = Engine.setPhaseFlag .idle o true ↔ v.asked.machine.phase = .idle) ∧
        (v.asked = { w i with env, now } → v.world.machine.phase =
          Engine.setPhaseFlag .idle o true) := by
  intro v hv
  have hquiescent := quiescent_of_steps hmade hsteps i hi
  have hfits := fits_of_quiescent (w := { w i with env, now }) hquiescent k q' v hv
  rw [Visit.Fits] at hfits
  refine ⟨fun hnone => ?_, fun o ho => ?_⟩
  · rw [hnone] at hfits
    exact hfits
  · rw [ho] at hfits
    have halone : v.world.machine.phase = Engine.setPhaseFlag .idle o true ↔
        v.asked.machine.phase = .idle := by
      rw [hfits.2]
      exact Engine.setPhaseFlag_inj hfits.1 (Engine.phaseFlag_idle o)
    refine ⟨hfits.1, hfits.2, halone, fun hasked => halone.mpr ?_⟩
    rw [hasked]
    exact hquiescent.phase

end Host

/-- As `relayEdits`, with a behavior as b is left. -/
def hastyEdits : List (Edit Unit) :=
  [.addState ⟨0⟩ { name := "a" },
    .addState ⟨0⟩ { name := "b", exit := .callback (), doActivity := .callback () },
    .addState ⟨0⟩ { name := "c" },
    .addTransition ⟨0⟩ { name := "a->b", source := ⟨0⟩, target := ⟨1⟩ },
    .addTransition ⟨0⟩ { name := "b->c", source := ⟨1⟩, target := ⟨2⟩ }, .setStart ⟨0⟩ (some ⟨0⟩),
    .setFinal ⟨0⟩ (some ⟨2⟩)]

def hasty : World Unit Unit := .fresh ((Graph.new "hasty").edited hastyEdits)

/-- The activity of b goes on to c at once, so b is left while its activity is under way. -/
theorem crowded_hasty :
    let h := Host.asking (.goto ⟨2⟩ [])
    (h.visits 4 (.goto ⟨1⟩ []) hasty).map (fun v => (v.phase?, v.world.machine.phase)) =
      [(some .doActivity, { doActivity := true }),
        (some .exit, { exit := true, doActivity := true })] ∧
    ¬ ∀ v ∈ h.visits 4 (.goto ⟨1⟩ []) hasty, ∀ o, v.phase? = some o →
      v.world.machine.phase = Engine.setPhaseFlag .idle o true := by
  intro h
  have hvisits : (h.visits 4 (.goto ⟨1⟩ []) hasty).map
      (fun v => (v.phase?, v.world.machine.phase)) =
      [(some .doActivity, { doActivity := true }),
        (some .exit, { exit := true, doActivity := true })] := by
    decide +kernel
  refine ⟨hvisits, fun halone => ?_⟩
  have hmem : (some Operation.exit, ({ exit := true, doActivity := true } : Phase)) ∈
      (h.visits 4 (.goto ⟨1⟩ []) hasty).map (fun v => (v.phase?, v.world.machine.phase)) := by
    rw [hvisits]
    exact List.mem_cons_of_mem _ List.mem_cons_self
  obtain ⟨v, hv, hseen⟩ := List.mem_map.mp hmem
  have hphase : v.world.machine.phase = { exit := true, doActivity := true } :=
    congrArg Prod.snd hseen
  have hexit := halone v hv .exit (congrArg Prod.fst hseen)
  rw [hphase] at hexit
  cases hexit

/-- The activity that the operation itself runs sees its own flag alone. -/
theorem phase_hasty :
    let h := Host.asking (.goto ⟨2⟩ [])
    let u := h.worlds 4 legs hasty 1
    hasty.machine.Made ∧ (∀ i < 1,
      h.Step (legs i) (h.worlds 4 legs hasty i) (h.worlds 4 legs hasty (i + 1))) ∧
    (h.visits 4 (.goto ⟨1⟩ []) u).map (fun v => (v.phase?, v.asked.machine.phase)) =
      [(some .doActivity, .idle), (some .exit, { doActivity := true })] ∧
    ∀ v ∈ h.visits 4 (.goto ⟨1⟩ []) u, ∀ o, v.phase? = some o →
      (v.world.machine.phase = Engine.setPhaseFlag .idle o true ↔
        v.asked.machine.phase = .idle) := by
  intro h u
  have hsteps : ∀ i < 1,
      h.Step (legs i) (h.worlds 4 legs hasty i) (h.worlds 4 legs hasty (i + 1)) := by
    have hall : ∀ i < 1, h.completes 4 (legs i) (h.worlds 4 legs hasty i) =
      true := by decide +kernel
    exact fun i hi => Host.step_next (hall i hi)
  have hmade : hasty.machine.Made := .bound default _ _ {} .empty
  have hphase := h.phase_of_steps hmade hsteps (Nat.le_refl 1) 4 (.goto ⟨1⟩ []) u.env u.now
  exact ⟨hmade, hsteps, by decide +kernel, fun v hv o ho => ((hphase v hv).2 o ho).2.2.1⟩

end Statechart
