import Statechart.Proofs.Machine.Projection

/-!
# The calls of behaviors

The requests that bodies make in the course of an operation, in the order in which they end, each
with the world before it and the world after it. They are noted beside what the behaviors keep,
where no body sees them: once the notes are forgotten, the operation that takes them is the
operation itself.
-/

namespace Statechart

open Json

variable {σ κ α : Type}

/-- A request made by a body, and what came of it. -/
structure Call (σ κ : Type) where
  request : Request κ
  before : World σ κ
  outcome : Except MachineError request.Answer
  after : World σ κ

/-- What behaviors keep, and the calls that they have made. -/
structure Diary (σ κ : Type) where
  env : σ
  calls : List (Call σ κ)

namespace World

/-- The world without the notes. -/
def plain (w : World (Diary σ κ) κ) : World σ κ := { w with env := w.env.env }

/-- The world with nothing noted yet. -/
def opened (w : World σ κ) : World (Diary σ κ) κ := { w with env := ⟨w.env, []⟩ }

def log (w : World (Diary σ κ) κ) (c : Call σ κ) : World (Diary σ κ) κ :=
  { w with env := { w.env with calls := w.env.calls ++ [c] } }

/-- The condition has no part in what the bodies themselves keep. -/
def Private (I : World (Diary σ κ) κ → Prop) : Prop := ∀ (w : World (Diary σ κ) κ) (env : σ),
  I w → I { w with env := { w.env with env } }

end World

/-- The program, with notes beside what it keeps. -/
def Program.lift : Program σ κ α → Program (Diary σ κ) κ α
  | .ret a => .ret a
  | .look next => .look fun v => (next ⟨v.machine, v.logs, v.env.env⟩).lift
  | .write env next => .look fun v => .write { v.env with env } next.lift
  | .call q next => .call q fun o => (next o).lift

def Host.lift (h : Host σ κ) : Host (Diary σ κ) κ where
  handlers d := h.handlers d.env
  body key element args := (h.body key element args).lift

/-- Work on a request, which is noted as it ends. -/
def Engine.noted (q : Request κ) (x : Engine (Diary σ κ) κ q.Answer) :
    Engine (Diary σ κ) κ q.Answer := do
  let w ← get
  let outcome ← attempt x
  modify fun v => v.log ⟨q, w.plain, outcome, v.plain⟩
  ofExcept outcome

namespace Host

/-- Carries out a request and notes the calls of the bodies. -/
def noting (h : Host σ κ) : Nat → (q : Request κ) → Engine (Diary σ κ) κ q.Answer
  | 0, _ => throw .exhausted
  | n + 1, q =>
    let calling (q : Request κ) := Engine.noted q (h.noting n q)
    Engine.carryOut (h.lift.responder calling)
      (fun key => do let _ ← h.lift.runBody calling key none []) n q

variable {h : Host σ κ}

/-- A request of a body. -/
def calling (h : Host σ κ) (n : Nat) (q : Request κ) : Engine (Diary σ κ) κ q.Answer :=
  Engine.noted q (h.noting n q)

def diarist (h : Host σ κ) (n : Nat) : Responder (Diary σ κ) κ := h.lift.responder (h.calling n)

def callingHook (h : Host σ κ) (n : Nat) (key : κ) : Engine (Diary σ κ) κ Unit := do
  let _ ← h.lift.runBody (h.calling n) key none []

/-- The calls that bodies make while a request at most `n` requests deep is carried out. -/
def calls (h : Host σ κ) (n : Nat) (q : Request κ) (w : World σ κ) : List (Call σ κ) :=
  ((h.noting n q).after w.opened).env.calls

end Host

/-! ## Forgetting the notes -/

/-- A world with notes beside the same world without. -/
def Comparison.forgetting : Comparison (Diary σ κ) σ κ where
  related w w' := w' = w.plain

namespace Engine

variable {w v : World (Diary σ κ) κ} {w' : World σ κ} {a : α} {e : Stop}
  {x : Engine (Diary σ κ) κ α} {y : Engine σ κ α}

theorem Matches.ok_of_forgetting (h : Matches .forgetting x y) (hx : x w = .ok a v) :
    y w.plain = .ok a v.plain :=
  Matches.ok_of_projecting (p := Diary.env) h hx

theorem Matches.error_of_forgetting (h : Matches .forgetting x y) (hx : x w = .error e v) :
    y w.plain = .error e v.plain :=
  Matches.error_of_projecting (p := Diary.env) h hx

/-- What succeeds without notes succeeds with them. -/
theorem Matches.exists_of_forgetting (h : Matches .forgetting x y) (hy : y w.plain = .ok a w') :
    ∃ v, x w = .ok a v ∧ v.plain = w' := by
  cases hx : x w with
  | ok b v =>
    cases (h.ok_of_forgetting hx).symm.trans hy
    exact ⟨v, rfl, rfl⟩
  | error e v => cases (h.error_of_forgetting hx).symm.trans hy

/-- What work keeps without notes it keeps with them. -/
theorem Matches.keeps_of_forgetting {I : World σ κ → Prop} (h : Matches .forgetting x y)
    (hy : Keeps I y) : Keeps (fun w => I w.plain) x := by
  intro w hw
  have hkept := hy w.plain hw
  cases hx : x w with
  | ok a v =>
    rw [h.ok_of_forgetting hx] at hkept
    exact hkept
  | error e v =>
    rw [h.error_of_forgetting hx] at hkept
    exact hkept

end Engine

theorem Responder.Matches.keeps_of_forgetting {r : Responder (Diary σ κ) κ} {r' : Responder σ κ}
    {I : World σ κ → Prop} (h : r.Matches .forgetting r') (hr : r'.Keeps I) :
    r.Keeps fun w => I w.plain where
  call _ _ _ := (h.call _ _ _).keeps_of_forgetting (hr.call _ _ _)
  callback _ _ _ := (h.callback _ _ _).keeps_of_forgetting (hr.callback _ _ _)

theorem Comparison.serves_forgetting :
    (Comparison.forgetting : Comparison (Diary σ κ) σ κ).ServesAll :=
  serves_projecting Diary.env

theorem Program.forgetting_lift {call : (q : Request κ) → Engine (Diary σ κ) κ q.Answer}
    {perform : (q : Request κ) → Engine σ κ q.Answer}
    (hcall : ∀ q, Engine.Matches .forgetting (call q) (perform q)) (p : Program σ κ α) :
    Engine.Matches .forgetting (p.lift.runWith call) (p.runWith perform) := by
  induction p with
  | ret a => exact .pure
  | look next ih =>
    refine .get_bind fun w w' hw => ?_
    rw [hw]
    exact ih _
  | write env next ih =>
    intro w w' hw
    rw [hw]
    exact ih _ _ rfl
  | call q next ih => exact .bind (.attempt (hcall q)) fun o => ih o

theorem Engine.noted_eq {q : Request κ} (x : Engine (Diary σ κ) κ q.Answer)
    (w : World (Diary σ κ) κ) : noted q x w = match attempt x w with
      | .ok o v => ofExcept o (v.log ⟨q, w.plain, o, v.plain⟩)
      | .error e v => .error e v := by
  show (attempt x >>= fun o => do modify fun v => v.log ⟨q, w.plain, o, v.plain⟩; ofExcept o) w = _
  cases h : attempt x w with
  | ok o v => exact bind_of_ok h
  | error e v => exact bind_of_error h

theorem Engine.forgetting_noted {q : Request κ} {x : Engine (Diary σ κ) κ q.Answer}
    {y : Engine σ κ q.Answer} (hx : Matches .forgetting x y) :
    Matches .forgetting (noted q x) y := by
  intro w w' hw
  have hxw := hx w w' hw
  rw [noted_eq, attempt]
  generalize x w = o, y w' = o' at hxw ⊢
  cases hxw with
  | ok h => exact .ok h
  | @error e _ _ he h =>
    cases e with
    | fault e => exact .error he h
    | exhausted => exact .error he h
  | cut hc => exact hc.elim

namespace Host

variable {h : Host σ κ} {q : Request κ} {w w' : World σ κ}

section
variable {n : Nat} (hcall : ∀ q, Engine.Matches .forgetting (h.calling n q) (h.perform n q))
include hcall

theorem forgetting_runBody (key : κ) (element : Option (Element κ)) (args : List Value) :
    Engine.Matches .forgetting (h.lift.runBody (h.calling n) key element args)
      (h.runBody (h.perform n) key element args) :=
  .bind (Program.forgetting_lift hcall _) fun _ => .ofExcept

theorem forgetting_diarist_of : (h.diarist n).Matches .forgetting (h.responder (h.perform n)) :=
  responder_matches (fun hw => by rw [hw]; rfl) (forgetting_runBody hcall)

theorem forgetting_callingHook_of (key : κ) :
    Engine.Matches .forgetting (h.callingHook n key) (h.hook n key) :=
  .bind (forgetting_runBody hcall key none []) fun _ => .pure

end

theorem forgetting_noting (n : Nat) (q : Request κ) :
    Engine.Matches .forgetting (h.noting n q) (h.perform n q) := by
  induction n generalizing q with
  | zero => exact .exhausted trivial
  | succ n ih =>
    have hcall (q : Request κ) : Engine.Matches .forgetting (h.calling n q) (h.perform n q) :=
      Engine.forgetting_noted (ih q)
    exact Engine.matches_carryOut_of_serves (forgetting_diarist_of hcall)
      (forgetting_callingHook_of hcall) Comparison.serves_forgetting n q

theorem forgetting_diarist (n : Nat) :
    (h.diarist n).Matches .forgetting (h.responder (h.perform n)) :=
  forgetting_diarist_of fun q => Engine.forgetting_noted (forgetting_noting n q)

end Host

/-! ## What calls keep -/

variable {I : World (Diary σ κ) κ → Prop} {J : List (Call σ κ) → Prop}
  {c : Comparison (Diary σ κ) (Diary σ κ) κ}

/-- Worlds are related to themselves only, and what the bodies themselves keep has no part in
that. -/
structure Comparison.Inward (c : Comparison (Diary σ κ) (Diary σ κ) κ) : Prop where
  same : ∀ {w w'}, c.related w w' → w' = w
  setEnv : ∀ {w} (env : σ), c.related w w →
    c.related { w with env := { w.env with env } } { w with env := { w.env with env } }

theorem Comparison.inward_within (hI : World.Private I) : (within I).Inward where
  same h := h.1
  setEnv env h := ⟨rfl, hI _ env h.2⟩

theorem Program.matches_lift (hc : c.Inward)
    {call : (q : Request κ) → Engine (Diary σ κ) κ q.Answer}
    (hcall : ∀ q, Engine.Matches c (call q) (call q)) (p : Program σ κ α) :
    Engine.Matches c (p.lift.runWith call) (p.lift.runWith call) := by
  induction p with
  | ret a => exact .pure
  | look next ih =>
    refine .get_bind fun w w' hw => ?_
    obtain rfl := hc.same hw
    exact ih _
  | write env next ih =>
    intro w w' hw
    obtain rfl := hc.same hw
    exact ih _ _ (hc.setEnv env hw)
  | call q next ih => exact .bind (.attempt (hcall q)) fun o => ih o

/-- A request that is noted ends with the note in place, unless it is cut off. -/
theorem Engine.noted_cases {q : Request κ} (x : Engine (Diary σ κ) κ q.Answer)
    (w : World (Diary σ κ) κ) :
    (∃ o v, attempt x w = .ok o v ∧ noted q x w = ofExcept o (v.log ⟨q, w.plain, o, v.plain⟩)) ∨
    ∃ v, x w = .error .exhausted v ∧ noted q x w = .error .exhausted v := by
  rw [noted_eq, attempt]
  cases x w with
  | ok a v => exact .inl ⟨.ok a, v, rfl, rfl⟩
  | error e v =>
    cases e with
    | fault e => exact .inl ⟨.error e, v, rfl, rfl⟩
    | exhausted => exact .inr ⟨v, rfl, rfl⟩

/-- A request that is noted keeps the condition if that is so with the note in place. -/
theorem Engine.keeps_noted {q : Request κ} {x : Engine (Diary σ κ) κ q.Answer}
    (hx : ∀ w, I w → ∀ o v, attempt x w = .ok o v → I (v.log ⟨q, w.plain, o, v.plain⟩))
    (hcut : ∀ w, I w → ∀ v, x w = .error .exhausted v → I v) : Keeps I (Engine.noted q x) := by
  intro w hw
  rcases noted_cases x w with ⟨o, v, hended, hnoted⟩ | ⟨v, hstopped, hnoted⟩
  · rw [hnoted]
    cases o with
    | ok a => exact hx w hw _ _ hended
    | error e => exact hx w hw _ _ hended
  · rw [hnoted]
    exact hcut w hw v hstopped

/-- What has been called so far, and whether a run is under way, are so. -/
def World.Tells (K : List (Call σ κ) → Bool → Prop) (w : World (Diary σ κ) κ) : Prop :=
  K w.env.calls w.machine.running

theorem World.heedless_tells {K : List (Call σ κ) → Bool → Prop} :
    World.Heedless (World.Tells K) where
  machine hrunning h := by
    rw [Tells, hrunning]
    exact h
  logs _ h := h
  notify _ h := h

namespace Host

variable {h : Host σ κ} {n : Nat} {q : Request κ} {w w' : World σ κ}
  {o : Except MachineError q.Answer} {c : Call σ κ}

section
variable {c : Comparison (Diary σ κ) (Diary σ κ) κ} (hc : c.Inward)
  (hcall : ∀ q, Engine.Matches c (h.calling n q) (h.calling n q))
include hc hcall

theorem matches_lift_runBody (key : κ) (element : Option (Element κ)) (args : List Value) :
    Engine.Matches c (h.lift.runBody (h.calling n) key element args)
      (h.lift.runBody (h.calling n) key element args) :=
  .bind (Program.matches_lift hc hcall _) fun _ => .ofExcept

theorem matches_diarist : (h.diarist n).Matches c (h.diarist n) :=
  responder_matches (fun hw => by rw [hc.same hw]) (matches_lift_runBody hc hcall)

theorem matches_callingHook (key : κ) :
    Engine.Matches c (h.callingHook n key) (h.callingHook n key) :=
  .bind (matches_lift_runBody hc hcall key none []) fun _ => .pure

end

section
variable (hI : World.Private I) (hcall : ∀ q, Engine.Keeps I (h.calling n q))
include hI hcall

theorem keeps_diarist : (h.diarist n).Keeps I := by
  have hmatches := matches_diarist (h := h) (Comparison.inward_within hI) fun q =>
    Engine.keeps_iff_matches.mp (hcall q)
  exact ⟨fun _ _ _ => Engine.keeps_iff_matches.mpr (hmatches.call _ _ _),
    fun _ _ _ => Engine.keeps_iff_matches.mpr (hmatches.callback _ _ _)⟩

theorem keeps_callingHook (key : κ) : Engine.Keeps I (h.callingHook n key) :=
  Engine.keeps_iff_matches.mpr
    (matches_callingHook (Comparison.inward_within hI)
      (fun q => Engine.keeps_iff_matches.mp (hcall q)) key)

end

/-! ## Calls are requests carried out -/

theorem calls_of_attempt {v : World (Diary σ κ) κ}
    (hv : Engine.attempt (h.noting n q) w.opened = .ok o v) : h.calls n q w = v.env.calls := by
  rcases Engine.of_attempt hv with ⟨a, -, ha⟩ | ⟨e, -, he⟩
  · rw [calls, Engine.after, ha]
  · rw [calls, Engine.after, he]

/-- An operation that comes to an end does so with its calls noted. -/
theorem noting_of_attempt (hperform : Engine.attempt (h.perform n q) w = .ok o w') :
    ∃ v, Engine.attempt (h.noting n q) w.opened = .ok o v ∧ v.plain = w' ∧
      h.calls n q w = v.env.calls := by
  have hforget := Engine.Matches.attempt (forgetting_noting (h := h) n q)
  obtain ⟨v, hv, hplain⟩ := hforget.exists_of_forgetting (w := w.opened) hperform
  exact ⟨v, hv, hplain, calls_of_attempt hv⟩

end Host

/-- The call is a request that was carried out, less than `n` requests deep. -/
def Call.Performed (h : Host σ κ) (n : Nat) (c : Call σ κ) : Prop :=
  ∃ k < n, Engine.attempt (h.perform k c.request) c.before = .ok c.outcome c.after

namespace Host

theorem keeps_performed {h : Host σ κ} {n N : Nat} (hn : n ≤ N) (q : Request κ) :
    Engine.Keeps (World.Tells fun calls _ => ∀ c ∈ calls, c.Performed h N) (h.noting n q) := by
  induction n generalizing q with
  | zero => exact .throw
  | succ n ih =>
    have hcall (q : Request κ) :
        Engine.Keeps (World.Tells fun calls _ => ∀ c ∈ calls, c.Performed h N) (h.calling n q) := by
      have hnoting := ih (Nat.le_of_succ_le hn) q
      refine Engine.keeps_noted (fun w hw o v hv c hc => ?_) fun w hw v hv => ?_
      · have hkept := hnoting.attempt w hw
        rw [hv] at hkept
        rcases List.mem_append.mp hc with hc | hc
        · exact hkept c hc
        · obtain rfl := List.mem_singleton.mp hc
          exact ⟨n, hn,
            (Engine.Matches.attempt (forgetting_noting (h := h) n q)).ok_of_forgetting hv⟩
      · have hkept := hnoting w hw
        rw [hv] at hkept
        exact hkept
    have hr := keeps_diarist (fun _ _ hw => hw) hcall
    refine Engine.keeps_iff_matches.mpr (Engine.matches_carryOut_of_serves hr.matches
      (fun key => ?_) ?_ n q)
    · exact Engine.keeps_iff_matches.mp (keeps_callingHook (fun _ _ hw => hw) hcall key)
    · exact Comparison.serves_heedless World.heedless_tells fun hw => hw

/-- What the work that notes the calls keeps holds of them. -/
theorem calls_of_keeps {J : List (Call σ κ) → Prop} {h : Host σ κ} {n : Nat} {q : Request κ}
    {w : World σ κ} (hkeeps : Engine.Keeps (World.Tells fun calls _ => J calls) (h.noting n q))
    (hJ : J []) : J (h.calls n q w) := by
  have hended := hkeeps w.opened hJ
  rw [calls, Engine.after]
  cases ho : h.noting n q w.opened with
  | ok a v =>
    rw [ho] at hended
    exact hended
  | error e v =>
    rw [ho] at hended
    exact hended

theorem performed_of_mem_calls {h : Host σ κ} {n : Nat} {q : Request κ} {w : World σ κ}
    {c : Call σ κ} (hc : c ∈ h.calls n q w) : c.Performed h n :=
  calls_of_keeps (keeps_performed (Nat.le_refl n) q) (fun _ hc => absurd hc List.not_mem_nil) c hc

/-- A call is a request that was carried out by the host, with some of its fuel. -/
theorem carryOut_of_mem_calls {h : Host σ κ} {n : Nat} {q : Request κ} {w : World σ κ}
    {c : Call σ κ} (hc : c ∈ h.calls n q w) :
    ∃ k,
    Engine.attempt (Engine.carryOut (h.responder (h.perform k)) (h.hook k) k c.request) c.before =
      .ok c.outcome c.after := by
  obtain ⟨k, -, hk⟩ := performed_of_mem_calls hc
  cases k with
  | zero => cases hk
  | succ k => exact ⟨k, hk⟩

end Host

end Statechart
