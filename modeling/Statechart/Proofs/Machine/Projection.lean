import Statechart.Proofs.Machine.Cutoff

/-!
# More in the environment

A host may be run with more in the environment than its bodies keep there. They neither see it nor
change it, so what it is used to note about a run has no part in the run: once it is forgotten, the
run is the run of the host itself.
-/

namespace Statechart

open Json

variable {σ τ κ α : Type}

/-- The world with less in its environment. -/
def World.mapEnv (p : τ → σ) (w : World τ κ) : World σ κ := { w with env := p w.env }

/-- A world beside the same world with less in its environment. -/
def Comparison.projecting (p : τ → σ) : Comparison τ σ κ where
  related w w' := w' = w.mapEnv p

/-- The program, with a part of the environment to itself. -/
def Program.inside (p : τ → σ) (put : σ → τ → τ) : Program σ κ α → Program τ κ α
  | .ret a => .ret a
  | .look next => .look fun v => (next ⟨v.machine, v.logs, p v.env⟩).inside p put
  | .write env next => .look fun v => .write (put env v.env) (next.inside p put)
  | .call q next => .call q fun o => (next o).inside p put

/-- The host, with a part of the environment to itself. -/
def Host.inside (p : τ → σ) (put : σ → τ → τ) (h : Host σ κ) : Host τ κ where
  handlers d := h.handlers (p d)
  body key element args := (h.body key element args).inside p put

namespace Engine

variable {p : τ → σ}

section
variable {w v : World τ κ} {w' : World σ κ} {a : α} {e : Stop} {x : Engine τ κ α} {y : Engine σ κ α}

theorem Matches.ok_of_projecting (h : Matches (.projecting p) x y) (hx : x w = .ok a v) :
    y (w.mapEnv p) = .ok a (v.mapEnv p) := by
  have hxy := h w (w.mapEnv p) rfl
  rw [hx] at hxy
  generalize y (w.mapEnv p) = o at hxy ⊢
  cases hxy with
  | ok hv => exact congrArg _ hv

theorem Matches.error_of_projecting (h : Matches (.projecting p) x y) (hx : x w = .error e v) :
    y (w.mapEnv p) = .error e (v.mapEnv p) := by
  have hxy := h w (w.mapEnv p) rfl
  rw [hx] at hxy
  generalize y (w.mapEnv p) = o at hxy ⊢
  cases hxy with
  | error _ hv => exact congrArg _ hv
  | cut hc => exact hc.elim

theorem Matches.after_of_projecting (h : Matches (.projecting p) x y) :
    (x.after w).mapEnv p = y.after (w.mapEnv p) := by
  rw [after, after]
  cases hx : x w with
  | ok a v => rw [h.ok_of_projecting hx]
  | error e v => rw [h.error_of_projecting hx]

end

theorem projecting_recordHistory (previous : Option StateId) (t : Option TransitionId)
    (new : StateId) :
    Matches (.projecting p) (recordHistory previous t new : Engine τ κ _)
      (recordHistory previous t new : Engine σ κ _) := by
  refine .modify fun w w' hw => ?_
  rw [hw]
  show (if w.machine.options.recordHistory then _ else _) =
    World.mapEnv p (if w.machine.options.recordHistory then _ else _)
  split <;> rfl

theorem projecting_isolate :
    Matches (.projecting p) (isolate : Engine τ κ _) (isolate : Engine σ κ _) := by
  refine .machine_bind (M := fun m m' => m' = m) (fun hw => by rw [hw]; rfl) fun m m' hm => ?_
  rw [hm]
  refine .check (.bind .ofGraph fun ⟨graph, c⟩ => .bind .ofGraph fun active => .bind .ofGraph
    fun pending => ?_)
  exact .bind (.modify fun _ _ hw => by rw [hw]; rfl) fun _ => .update fun _ _ hw => by rw [hw]; rfl

theorem projecting_edit (e : Edit κ) :
    Matches (.projecting p) (edit e : Engine τ κ _) (edit e : Engine σ κ _) := by
  refine .machine_bind (M := fun m m' => m' = m) (fun hw => by rw [hw]; rfl) fun m m' hm => ?_
  rw [hm]
  cases e.apply.run m.graph with
  | ok a g => exact .bind (.update fun _ _ hw => by rw [hw]; rfl) fun _ => .pure
  | error err g => exact .bind (.update fun _ _ hw => by rw [hw]; rfl) fun _ => .fail

theorem projecting_restore (s : Snapshot) :
    Matches (.projecting p) (restore s : Engine τ κ _) (restore s : Engine σ κ _) := by
  refine .machine_bind (M := fun m m' => m' = m) (fun hw => by rw [hw]; rfl) fun m m' hm => ?_
  rw [hm]
  cases s.restoreInto m with
  | ok m => exact .bind (.update fun _ _ hw => by rw [hw]; rfl) fun _ => .pure
  | error e => exact .pure

end Engine

/-- Nothing that is asked of a machine depends on the environment. -/
theorem Comparison.serves_projecting (p : τ → σ) :
    (Comparison.projecting p : Comparison τ σ κ).ServesAll where
  like h := by rw [h]; exact Machine.Meets.like ⟨rfl, rfl, rfl⟩
  guarded | _, rfl, h => by rw [h]; rfl
  phase h := by rw [h]; rfl
  setPhase _ h := by rw [h]; rfl
  setActive hs h := by rw [h, eq_of_optionRel hs]; rfl
  setLast hvia h := by rw [h, eq_of_optionRel hvia]; rfl
  exited | rfl, h => by rw [h]; rfl
  started | rfl, h => by rw [h]; rfl
  moving _ hlike h := by rw [h, hlike.eq]; rfl
  seeded | rfl => (Engine.projecting_recordHistory none none _).relates
  clear := .modify fun _ _ h => by rw [h]; rfl
  firing h := by rw [h]; rfl
  setFiring ht h := by rw [h, eq_of_optionRel ht]; rfl
  effect | rfl, h => by rw [h]; rfl
  fired | rfl, hsource, rfl, h => by rw [h, eq_of_optionRel hsource]; rfl
  pending h := likePending_of_eq (by rw [h]; rfl)
  setPending hp h := by rw [h, eq_of_likePending hp]; rfl
  queued | rfl, h => by rw [h]; rfl
  starves := trivial
  running h := by rw [h]; rfl
  paused h := by rw [h]; rfl
  setPaused _ h := by rw [h]; rfl
  stopped h := by rw [h]; rfl
  resumed h := by rw [h]; rfl
  events h := by rw [h]; rfl
  setEvents _ h := by rw [h]; rfl
  dequeued _ h := by rw [h]; rfl
  setEvent _ h := by rw [h]; rfl
  setTrigger _ h := by rw [h]; rfl
  setRunning _ h := by rw [h]; rfl
  recorded := Engine.relates_record_of_forall Engine.projecting_recordHistory
  setOptions _ h := by rw [h]; rfl
  isolate := Engine.projecting_isolate
  edit := Engine.projecting_edit
  restore := Engine.projecting_restore

/-! ## Bodies -/

variable {p : τ → σ} {put : σ → τ → τ} {call : (q : Request κ) → Engine τ κ q.Answer}

section
variable {perform : (q : Request κ) → Engine σ κ q.Answer} (hput : ∀ env d, p (put env d) = env)
  (hcall : ∀ q, Engine.Matches (.projecting p) (call q) (perform q))
include hput hcall

theorem Program.projecting_inside (x : Program σ κ α) :
    Engine.Matches (.projecting p) ((x.inside p put).runWith call) (x.runWith perform) := by
  induction x with
  | ret a => exact .pure
  | look next ih =>
    refine .get_bind fun w w' hw => ?_
    rw [hw]
    exact ih _
  | write env next ih =>
    intro w w' hw
    rw [hw]
    refine ih _ _ ?_
    show World.mk w.machine w.logs w.notices env w.now =
      World.mk w.machine w.logs w.notices (p (put env w.env)) w.now
    rw [hput]
  | call q next ih => exact .bind (.attempt (hcall q)) fun o => ih o

theorem Host.projecting_runBody (h : Host σ κ) (key : κ) (element : Option (Element κ))
    (args : List Value) :
    Engine.Matches (.projecting p) ((h.inside p put).runBody call key element args)
      (h.runBody perform key element args) :=
  .bind (Program.projecting_inside hput hcall _) fun _ => .ofExcept

theorem Host.projecting_responder (h : Host σ κ) :
    ((h.inside p put).responder call).Matches (.projecting p) (h.responder perform) :=
  responder_matches (fun hw => by rw [hw]; rfl) (h.projecting_runBody hput hcall)

end

section
variable {I : World τ κ → Prop} {A : Request κ → Prop}
  (hI : ∀ w env, I w → I { w with env := put env w.env })
  (hcall : ∀ q, A q → Engine.Keeps I (call q))
include hI hcall

theorem Program.keeps_inside {x : Program σ κ α} (hx : x.Within A) :
    Engine.Keeps I ((x.inside p put).runWith call) := by
  induction x with
  | ret a => exact .pure
  | look next ih => exact .bind .get fun w => ih _ (hx _)
  | write env next ih => exact fun w hw => ih hx _ (hI w env hw)
  | call q next ih => exact .bind (.attempt (hcall q hx.1)) fun o => ih o (hx.2 o)

variable {h : Host σ κ} (hbodies : h.Makes A)
include hbodies

theorem Host.keeps_inside_runBody (key : κ) (element : Option (Element κ)) (args : List Value) :
    Engine.Keeps I ((h.inside p put).runBody call key element args) :=
  .bind (Program.keeps_inside hI hcall (hbodies key element args)) fun _ => .ofExcept

theorem Host.keeps_inside_responder : ((h.inside p put).responder call).Keeps I where
  call name element args := by
    refine .bind .get fun w => ?_
    cases ((h.inside p put).handlers w.env).get? name with
    | none => exact .pure
    | some key => exact keeps_inside_runBody hI hcall hbodies key (some element) args
  callback key element args := keeps_inside_runBody hI hcall hbodies key (some element) args

end

end Statechart
