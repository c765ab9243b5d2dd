import Statechart.Machine.Program

/-!
# Reasoning about work

What work does to a world is said with a condition before it and conditions after it, one for
success and one for failure. Most facts are about conditions that work keeps whatever its outcome.
The last section takes such a fact from single requests to bodies that make requests, however deep.
-/

namespace Statechart.Engine

variable {σ κ α β : Type} {P P' I : World σ κ → Prop} {Q Q' : α → World σ κ → Prop}
  {R : β → World σ κ → Prop} {E E' : Stop → World σ κ → Prop} {x : Engine σ κ α}
  {f : α → Engine σ κ β}

/-! ## Evaluation -/

section
variable {w w' : World σ κ} {a : α} {e : Stop}

theorem bind_of_ok (h : x w = .ok a w') : (x >>= f) w = f a w' := by
  simp only [Bind.bind, EStateM.bind, h]

theorem bind_of_error (h : x w = .error e w') : (x >>= f) w = .error e w' := by
  simp only [Bind.bind, EStateM.bind, h]

theorem exists_of_bind_ok {b : β} (h : (x >>= f) w = .ok b w') :
    ∃ a v, x w = .ok a v ∧ f a v = .ok b w' := by
  simp only [Bind.bind, EStateM.bind] at h
  cases hx : x w with
  | ok a v =>
    rw [hx] at h
    exact ⟨a, v, rfl, h⟩
  | error e v =>
    rw [hx] at h
    cases h

theorem error_of_bind (h : (x >>= f) w = .error e w') (hf : ∀ a v v', f a v ≠ .error e v') :
    x w = .error e w' := by
  simp only [Bind.bind, EStateM.bind] at h
  cases hx : x w with
  | ok a v =>
    rw [hx] at h
    exact absurd h (hf a v w')
  | error e v =>
    rw [hx] at h
    cases h
    rfl

theorem bind_congr_at {y : Engine σ κ α} (h : x w = y w') : (x >>= f) w = (y >>= f) w' := by
  simp only [Bind.bind, EStateM.bind, h]

theorem thenAlways_congr_at {y : Engine σ κ α} {g : World σ κ → World σ κ} (h : x w = y w') :
    x.thenAlways g w = y.thenAlways g w' := by
  rw [thenAlways, thenAlways, h]

theorem machine_bind (g : Machine κ → Engine σ κ β) : (machine >>= g) w = g w.machine w := rfl

/-- Work whose outcome is a value has succeeded or failed. -/
theorem of_attempt {o : Except MachineError α} (h : attempt x w = .ok o w') :
    (∃ a, o = .ok a ∧ x w = .ok a w') ∨ ∃ e, o = .error e ∧ x w = .error (.fault e) w' := by
  rw [attempt] at h
  cases hx : x w with
  | ok a v =>
    rw [hx] at h
    cases h
    exact .inl ⟨a, rfl, rfl⟩
  | error e v =>
    rw [hx] at h
    cases e with
    | fault e =>
      cases h
      exact .inr ⟨e, rfl, rfl⟩
    | exhausted => cases h

theorem attempt_of_ok {x : Engine σ κ α} {a : α} (h : x w = .ok a w') :
    attempt x w = .ok (.ok a) w' := by rw [attempt, h]

theorem attempt_of_error {x : Engine σ κ α} {e : MachineError} (h : x w = .error (.fault e) w') :
    attempt x w = .ok (.error e) w' := by rw [attempt, h]

end

/-! ## Conditions -/

/-- From a world with the first condition, work that succeeds ends with the second and work that
fails with the third. -/
def Triple (P : World σ κ → Prop) (x : Engine σ κ α) (Q : α → World σ κ → Prop)
    (E : Stop → World σ κ → Prop) : Prop :=
  ∀ w, P w → match x w with
    | .ok a w' => Q a w'
    | .error e w' => E e w'

/-- Work that succeeds or fails keeps the condition. -/
def Keeps (I : World σ κ → Prop) (x : Engine σ κ α) : Prop := Triple I x (fun _ => I) fun _ => I

namespace Triple

theorem mono (h : Triple P x Q E) (hP : ∀ w, P' w → P w) (hQ : ∀ a w, Q a w → Q' a w)
    (hE : ∀ e w, E e w → E' e w) : Triple P' x Q' E' := by
  intro w hw
  have hx := h w (hP w hw)
  cases hxw : x w with
  | ok a w' =>
    rw [hxw] at hx
    exact hQ a w' hx
  | error e w' =>
    rw [hxw] at hx
    exact hE e w' hx

theorem mono_pre (h : Triple P x Q E) (hP : ∀ w, P' w → P w) : Triple P' x Q E :=
  h.mono hP (fun _ _ => id) fun _ _ => id

theorem mono_post (h : Triple P x Q E) (hQ : ∀ a w, Q a w → Q' a w) (hE : ∀ e w, E e w → E' e w) :
    Triple P x Q' E' :=
  h.mono (fun _ => id) hQ hE

theorem mono_error (h : Triple P x Q E) (hE : ∀ e w, E e w → E' e w) : Triple P x Q E' :=
  h.mono_post (fun _ _ => id) hE

theorem bind (hx : Triple P x Q E) (hf : ∀ a, Triple (Q a) (f a) R E) : Triple P (x >>= f) R E := by
  intro w hw
  have hxw := hx w hw
  simp only [Bind.bind, EStateM.bind]
  cases h : x w with
  | ok a w' =>
    rw [h] at hxw
    exact hf a w' hxw
  | error e w' =>
    rw [h] at hxw
    exact hxw

/-- Work after which the rest goes on without a look at the answer. -/
theorem seq {Q : World σ κ → Prop} {rest : Engine σ κ β} (hx : Triple P x (fun _ => Q) E)
    (hrest : Triple Q rest R E) : Triple P (x >>= fun _ => rest) R E :=
  hx.bind fun _ => hrest

/-- Of any work nothing in particular is known. -/
theorem any : Triple P x (fun _ _ => True) fun _ _ => True := by
  intro w _
  cases x w with
  | ok a v => trivial
  | error e v => trivial

/-- What is known whatever the world need not be carried along. -/
theorem of_and {p : Prop} (h : p → Triple P x Q E) : Triple (fun w => p ∧ P w) x Q E :=
  fun w hw => h hw.1 w hw.2

theorem machine : Triple P machine (fun m w => P w ∧ m = w.machine) E := fun _ hw => ⟨hw, rfl⟩

theorem modify {f : World σ κ → World σ κ} (h : ∀ w, P w → I (f w)) :
    Triple P (modify f : Engine σ κ Unit) (fun _ => I) E := fun w hw => h w hw

theorem update {f : Machine κ → Machine κ} (h : ∀ w, P w → I (w.mapMachine f)) :
    Triple P (update f) (fun _ => I) E := fun w hw => h w hw

theorem notify {n : Notice} (h : ∀ w, P w → I (w.notify n)) : Triple P (notify n) (fun _ => I) E :=
  fun w hw => h w hw

theorem ofGraph {a : Except GraphError α} (h : ∀ e w, P w → E e w) :
    Triple P (ofGraph a) (fun _ => P) E := by
  cases a with
  | ok a => exact fun _ hw => hw
  | error e => exact fun w hw => h _ w hw

theorem thenAlways {g : World σ κ → World σ κ}
    (h : Triple P x (fun a w => Q a (g w)) fun e w => E e (g w)) :
    Triple P (thenAlways x g) Q E := by
  intro w hw
  have hx := h w hw
  rw [Engine.thenAlways]
  cases hxw : x w with
  | ok a w' =>
    rw [hxw] at hx
    exact hx
  | error e w' =>
    rw [hxw] at hx
    exact hx

theorem onFailure {g : World σ κ → World σ κ} (h : Triple P x Q fun e w => E e (g w)) :
    Triple P (onFailure x g) Q E := by
  intro w hw
  have hx := h w hw
  rw [Engine.onFailure]
  cases hxw : x w with
  | ok a w' =>
    rw [hxw] at hx
    exact hx
  | error e w' =>
    rw [hxw] at hx
    exact hx

end Triple

namespace Keeps

variable {xs : List β} {fs : β → Engine σ κ α}

theorem bind (hx : Keeps I x) (hf : ∀ a, Keeps I (f a)) : Keeps I (x >>= f) := Triple.bind hx hf

theorem seq {rest : Engine σ κ β} (hx : Keeps I x) (hrest : Keeps I rest) :
    Keeps I (x >>= fun _ => rest) := Triple.seq hx hrest

theorem pure {a : α} : Keeps I (Pure.pure a : Engine σ κ α) := fun _ hw => hw

theorem throw {e : Stop} : Keeps I (throw e : Engine σ κ α) := fun _ hw => hw

theorem fail {e : MachineError} : Keeps I (fail e : Engine σ κ α) := fun _ hw => hw

theorem get : Keeps I (get : Engine σ κ (World σ κ)) := fun _ hw => hw

theorem machine : Keeps I (Engine.machine : Engine σ κ (Machine κ)) := fun _ hw => hw

theorem modify {g : World σ κ → World σ κ} (h : ∀ w, I w → I (g w)) :
    Keeps I (modify g : Engine σ κ Unit) := Triple.modify h

theorem update {g : Machine κ → Machine κ}
    (h : ∀ w, I w → I (w.mapMachine g)) : Keeps I (update g) :=
  Triple.update h

theorem notify {n : Notice} (h : ∀ w, I w → I (w.notify n)) : Keeps I (notify n) := Triple.notify h

theorem ofGraph {a : Except GraphError α} : Keeps I (ofGraph a) := by
  cases a with
  | ok a => exact pure
  | error e => exact fail

theorem ofExcept {a : Except MachineError α} : Keeps I (ofExcept a) := by
  cases a with
  | ok a => exact pure
  | error e => exact fail

theorem attempt (hx : Keeps I x) : Keeps I (attempt x) := by
  intro w hw
  have hxw := hx w hw
  rw [Engine.attempt]
  cases h : x w with
  | ok a w' =>
    rw [h] at hxw
    exact hxw
  | error e w' =>
    rw [h] at hxw
    cases e <;> exact hxw

theorem and {J : World σ κ → Prop} (hI : Keeps I x) (hJ : Keeps J x) :
    Keeps (fun w => I w ∧ J w) x := by
  intro w hw
  have hIw := hI w hw.1
  have hJw := hJ w hw.2
  cases hx : x w with
  | ok a w' =>
    rw [hx] at hIw hJw
    exact ⟨hIw, hJw⟩
  | error e w' =>
    rw [hx] at hIw hJw
    exact ⟨hIw, hJw⟩

theorem thenAlways {g : World σ κ → World σ κ} (hx : Keeps I x) (hg : ∀ w, I w → I (g w)) :
    Keeps I (thenAlways x g) :=
  Triple.thenAlways (hx.mono_post (fun _ => hg) fun _ => hg)

theorem forM {fs : β → Engine σ κ PUnit} (h : ∀ b ∈ xs, Keeps I (fs b)) : Keeps I (xs.forM fs) := by
  induction xs with
  | nil => exact pure
  | cons b xs ih =>
    exact bind (h b List.mem_cons_self) fun _ => ih fun c hc => h c (List.mem_cons_of_mem _ hc)

end Keeps

end Statechart.Engine

/-! ## Bodies -/

namespace Statechart

variable {σ κ α : Type} {I : World σ κ → Prop} {A : Request κ → Prop} {r : Responder σ κ}
  {h : Host σ κ}

/-- Whatever answers when a behavior runs keeps the condition. -/
structure Responder.Keeps (r : Responder σ κ) (I : World σ κ → Prop) : Prop where
  call : ∀ name element args, Engine.Keeps I (r.call name element args)
  callback : ∀ key element args, Engine.Keeps I (r.callback key element args)

/-- Every request that the program may make is an allowed one. -/
def Program.Within (A : Request κ → Prop) : Program σ κ α → Prop
  | .ret _ => True
  | .look next => ∀ v, (next v).Within A
  | .write _ next => next.Within A
  | .call q next => A q ∧ ∀ o, (next o).Within A

theorem Program.within_true (p : Program σ κ α) : p.Within fun _ => True := by
  induction p with
  | ret a => trivial
  | look next ih => exact ih
  | write env next ih => exact ih
  | call q next ih => exact ⟨trivial, ih⟩

/-- Every body makes allowed requests only. -/
def Host.Makes (h : Host σ κ) (A : Request κ → Prop) : Prop :=
  ∀ key element args, (h.body key element args).Within A

theorem Host.makes_any (h : Host σ κ) : h.Makes fun _ => True :=
  fun key element args => (h.body key element args).within_true

/-- The environment of the behaviors has no part in the condition. -/
def World.Indifferent (I : World σ κ → Prop) : Prop :=
  ∀ (w : World σ κ) (env : σ), I w → I { w with env }

theorem Program.keeps_runWith (henv : World.Indifferent I)
    {perform : (q : Request κ) → Engine σ κ q.Answer}
    (hperform : ∀ q, A q → Engine.Keeps I (perform q)) {p : Program σ κ α} (hp : p.Within A) :
    Engine.Keeps I (p.runWith perform) := by
  induction p with
  | ret a => exact .pure
  | look next ih => exact .bind .get fun w => ih _ (hp _)
  | write env next ih => exact .bind (.modify fun w => henv w env) fun _ => ih hp
  | call q next ih => exact .bind (.attempt (hperform q hp.1)) fun o => ih o (hp.2 o)

namespace Host

/-- The bodies of hooks, with requests at most `n` deep. -/
def hook (h : Host σ κ) (n : Nat) (key : κ) : Engine σ κ Unit := do
  let _ ← h.runBody (h.perform n) key none []

section
variable {perform : (q : Request κ) → Engine σ κ q.Answer} (henv : World.Indifferent I)
  (hbodies : h.Makes A)
include henv hbodies

theorem keeps_runBody (hperform : ∀ q, A q → Engine.Keeps I (perform q)) (key : κ)
    (element : Option (Element κ)) (args : List Json.Value) :
    Engine.Keeps I (h.runBody perform key element args) :=
  .bind (Program.keeps_runWith henv hperform (hbodies key element args)) fun _ => .ofExcept

theorem keeps_responder (hperform : ∀ q, A q → Engine.Keeps I (perform q)) :
    (h.responder perform).Keeps I where
  call := by
    intro name element args
    refine .bind .get fun w => ?_
    cases (h.handlers w.env).get? name with
    | none => exact .pure
    | some key => exact keeps_runBody henv hbodies hperform key (some element) args
  callback key element args := keeps_runBody henv hbodies hperform key (some element) args

theorem keeps_hook (n : Nat) (hperform : ∀ q, A q → Engine.Keeps I (h.perform n q)) (key : κ) :
    Engine.Keeps I (h.hook n key) :=
  .bind (keeps_runBody henv hbodies hperform key none []) fun _ => .pure

/-- What allowed requests keep as long as the bodies that they run into keep it, they keep with the
bodies of a host. What is known of these bodies already may be used. -/
theorem keeps_perform {C : Responder σ κ → (κ → Engine σ κ Unit) → Prop}
    (hknown : ∀ n, C (h.responder (h.perform n)) (h.hook n))
    (hcarry : ∀ (r : Responder σ κ) (hook : κ → Engine σ κ Unit) (n : Nat)
      (q : Request κ), C r hook →
      r.Keeps I → (∀ key, Engine.Keeps I (hook key)) → A q →
        Engine.Keeps I (Engine.carryOut r hook n q))
    (n : Nat) {q : Request κ} (hq : A q) : Engine.Keeps I (h.perform n q) := by
  induction n generalizing q with
  | zero => exact .throw
  | succ n ih =>
    exact hcarry _ _ n q (hknown n) (keeps_responder henv hbodies fun q => ih)
      (keeps_hook henv hbodies n fun q => ih) hq

end

end Host
end Statechart
