import Mathlib.Data.List.Forall2
import Statechart.Proofs.Machine.Work

/-!
# Comparing two runs

Work on two worlds is compared step by step: from related worlds it gives answers that are related
too, or stops for the same reason, and leaves related worlds. What behaviors keep may be of another
kind on the one side than on the other. To match is to give the same answers. That work keeps a
condition is the comparison of a run with itself.
-/

namespace Statechart

variable {σ τ κ α β γ δ ε : Type}

/-- Answers that are related, or the same error. -/
inductive Likewise (R : α → β → Prop) : Except ε α → Except ε β → Prop
  | ok {a : α} {b : β} (h : R a b) : Likewise R (.ok a) (.ok b)
  | error (e : ε) : Likewise R (.error e) (.error e)

namespace Likewise

theorem refl {R : α → α → Prop} (hR : ∀ a, R a a) (x : Except ε α) : Likewise R x x := by
  cases x with
  | ok a => exact .ok (hR a)
  | error e => exact .error e

theorem eq {x y : Except ε α} (h : Likewise Eq x y) : x = y := by
  cases h with
  | ok h => rw [h]
  | error e => rfl

end Likewise

theorem optionRel_eq : Option.Rel (α := α) Eq = Eq := by
  funext a b
  refine propext ⟨?_, ?_⟩
  · rintro (h | _)
    · rw [h]
    · rfl
  · rintro rfl
    cases a with
    | none => exact .none
    | some a => exact .some rfl

/-- Which worlds are related, and how work on two of them may be cut off. -/
structure Comparison (σ τ κ : Type) where
  related : World σ κ → World τ κ → Prop
  /-- Work on both may be cut off together. -/
  starves : Prop := True
  /-- Work on the first may be cut off where work on the second goes on. -/
  cuts : Prop := False

namespace Comparison

/-- A run beside itself, in worlds with the condition. -/
def within (I : World σ κ → Prop) : Comparison σ σ κ where
  related w w' := w' = w ∧ I w

/-- The outcomes of work on two worlds agree. -/
inductive Agree (c : Comparison σ τ κ) :
    EStateM.Result Stop (World σ κ) α → EStateM.Result Stop (World τ κ) α → Prop
  | ok {a : α} {w : World σ κ} {w' : World τ κ} (h : c.related w w') : Agree c (.ok a w) (.ok a w')
  | error {e : Stop} {w : World σ κ} {w' : World τ κ} (he : e = .exhausted → c.starves)
      (h : c.related w w') :
    Agree c (.error e w) (.error e w')
  | cut {w : World σ κ} {o : EStateM.Result Stop (World τ κ) α} (h : c.cuts) :
      Agree c (.error .exhausted w) o

/-- The outcomes of work on two worlds agree, with answers that are related. -/
inductive AgreeBy (c : Comparison σ τ κ) (R : α → β → Prop) :
    EStateM.Result Stop (World σ κ) α → EStateM.Result Stop (World τ κ) β → Prop
  | ok {a : α} {b : β} {w : World σ κ} {w' : World τ κ} (hab : R a b) (h : c.related w w') :
    AgreeBy c R (.ok a w) (.ok b w')
  | error {e : Stop} {w : World σ κ} {w' : World τ κ} (he : e = .exhausted → c.starves)
      (h : c.related w w') :
    AgreeBy c R (.error e w) (.error e w')
  | cut {w : World σ κ} {o : EStateM.Result Stop (World τ κ) β} (h : c.cuts) :
      AgreeBy c R (.error .exhausted w) o

theorem agree_iff {c : Comparison σ τ κ} {o : EStateM.Result Stop (World σ κ) α}
    {o' : EStateM.Result Stop (World τ κ) α} : c.Agree o o' ↔ c.AgreeBy Eq o o' := by
  constructor
  · rintro (h | ⟨he, h⟩ | h)
    · exact .ok rfl h
    · exact .error he h
    · exact .cut h
  · rintro (⟨rfl, h⟩ | ⟨he, h⟩ | h)
    · exact .ok h
    · exact .error he h
    · exact .cut h

end Comparison

namespace Engine

variable {c : Comparison σ τ κ} {I : World σ κ → Prop}

/-- From related worlds the works have outcomes that agree, with answers that are related. -/
def Relates (c : Comparison σ τ κ) (R : α → β → Prop) (x : Engine σ κ α)
    (y : Engine τ κ β) : Prop :=
  ∀ w w', c.related w w' → c.AgreeBy R (x w) (y w')

namespace Relates

variable {R : α → β → Prop} {S : γ → δ → Prop} {x : Engine σ κ α} {y : Engine τ κ β}
  {f : α → Engine σ κ γ} {g : β → Engine τ κ δ} {as : List α} {bs : List β}

theorem mono {R' : α → β → Prop} (hR : ∀ {a b}, R a b → R' a b)
    (hx : Relates c R x y) : Relates c R' x y := by
  intro w w' hw
  have hxw := hx w w' hw
  generalize x w = o, y w' = o' at hxw ⊢
  cases hxw with
  | ok hab h => exact .ok (hR hab) h
  | error he h => exact .error he h
  | cut h => exact .cut h

theorem bind (hx : Relates c R x y) (hf : ∀ a b, R a b → Relates c S (f a) (g b)) :
    Relates c S (x >>= f) (y >>= g) := by
  intro w w' hw
  have hxw := hx w w' hw
  simp only [Bind.bind, EStateM.bind]
  generalize x w = o, y w' = o' at hxw ⊢
  cases hxw with
  | ok hab h => exact hf _ _ hab _ _ h
  | error he h => exact .error he h
  | cut h => exact .cut h

/-- Work after which the rest goes on without a look at the answer. -/
theorem seq {rest : Engine σ κ γ} {rest' : Engine τ κ δ} (hx : Relates c R x y)
    (hrest : Relates c S rest rest') : Relates c S (x >>= fun _ => rest) (y >>= fun _ => rest') :=
  hx.bind fun _ _ _ => hrest

theorem pure {a : α} {b : β} (hab : R a b) :
    Relates c R (Pure.pure a : Engine σ κ α) (Pure.pure b : Engine τ κ β) :=
  fun _ _ hw => .ok hab hw

theorem exhausted (hc : c.starves) :
    Relates c R (throw .exhausted : Engine σ κ α) (throw .exhausted : Engine τ κ β) :=
  fun _ _ hw => .error (fun _ => hc) hw

theorem fail {e : MachineError} : Relates c R (fail e : Engine σ κ α) (fail e : Engine τ κ β) :=
  fun _ _ hw => .error nofun hw

/-- Works that read the machine are related if they are for any two machines that may be read. -/
theorem machine_bind {M : Machine κ → Machine κ → Prop} {f : Machine κ → Engine σ κ α}
    {g : Machine κ → Engine τ κ β} (hM : ∀ {w w'}, c.related w w' → M w.machine w'.machine)
    (h : ∀ m m', M m m' → Relates c R (f m) (g m')) : Relates c R (machine >>= f) (machine >>= g) :=
  fun w w' hw => h _ _ (hM hw) w w' hw

theorem get_bind {f : World σ κ → Engine σ κ α} {g : World τ κ → Engine τ κ β}
    (h : ∀ w w', c.related w w' → Relates c R (f w) (g w')) :
    Relates c R (get >>= f) (get >>= g) := fun w w' hw => h w w' hw w w' hw

theorem modify {f : World σ κ → World σ κ} {g : World τ κ → World τ κ}
    (h : ∀ w w', c.related w w' → c.related (f w) (g w')) :
    Relates c Eq (modify f : Engine σ κ Unit) (modify g : Engine τ κ Unit) :=
  fun w w' hw => .ok rfl (h w w' hw)

theorem update {f g : Machine κ → Machine κ}
    (h : ∀ w w', c.related w w' → c.related (w.mapMachine f) (w'.mapMachine g)) :
    Relates c Eq (update f) (update g) := modify h

theorem notify {n n' : Notice} (h : ∀ w w', c.related w w' →
    c.related (w.notify n) (w'.notify n')) :
    Relates c Eq (notify n) (notify n') := modify h

theorem ofGraph {a : Except GraphError α} {b : Except GraphError β} (h : Likewise R a b) :
    Relates c R (ofGraph a : Engine σ κ α) (ofGraph b : Engine τ κ β) := by
  cases h with
  | ok h => exact pure h
  | error e => exact fail

theorem ofExcept {a : Except MachineError α} {b : Except MachineError β} (h : Likewise R a b) :
    Relates c R (ofExcept a : Engine σ κ α) (ofExcept b : Engine τ κ β) := by
  cases h with
  | ok h => exact pure h
  | error e => exact fail

theorem ite {p : Prop} [Decidable p] {x' : Engine σ κ α} {y' : Engine τ κ β}
    (hx : Relates c R x y) (hy : Relates c R x' y') :
    Relates c R (if p then x else x') (if p then y else y') := by
  split
  · exact hx
  · exact hy

/-- A check before the rest of some work. -/
theorem check {p : Prop} [Decidable p] {e : MachineError} {f : Unit → Engine σ κ α}
    {g : Unit → Engine τ κ β} (h : Relates c R (f ()) (g ())) :
    Relates c R (if p then Engine.fail e >>= f else f ()) (if p then
      Engine.fail e >>= g else g ()) :=
  ite (bind fail fun _ _ (_ : () = ()) => h) h

theorem attempt (hx : Relates c R x y) : Relates c (Likewise R) (attempt x) (attempt y) := by
  intro w w' hw
  have hxw := hx w w' hw
  rw [Engine.attempt, Engine.attempt]
  generalize x w = o, y w' = o' at hxw ⊢
  cases hxw with
  | ok hab h => exact .ok (.ok hab) h
  | @error e _ _ he h =>
    cases e with
    | fault e => exact .ok (.error e) h
    | exhausted => exact .error he h
  | cut h => exact .cut h

theorem thenAlways {f : World σ κ → World σ κ} {g : World τ κ → World τ κ} (hx : Relates c R x y)
    (h : ∀ w w', c.related w w' → c.related (f w) (g w')) :
    Relates c R (thenAlways x f) (thenAlways y g) := by
  intro w w' hw
  have hxw := hx w w' hw
  rw [Engine.thenAlways, Engine.thenAlways]
  generalize x w = o, y w' = o' at hxw ⊢
  cases hxw with
  | ok hab hv => exact .ok hab (h _ _ hv)
  | error he hv => exact .error he (h _ _ hv)
  | cut hc => exact .cut hc

theorem onFailure {f : World σ κ → World σ κ} {g : World τ κ → World τ κ} (hx : Relates c R x y)
    (h : ∀ w w', c.related w w' → c.related (f w) (g w')) :
    Relates c R (onFailure x f) (onFailure y g) := by
  intro w w' hw
  have hxw := hx w w' hw
  rw [Engine.onFailure, Engine.onFailure]
  generalize x w = o, y w' = o' at hxw ⊢
  cases hxw with
  | ok hab hv => exact .ok hab hv
  | error he hv => exact .error he (h _ _ hv)
  | cut hc => exact .cut hc

theorem forM {fs : α → Engine σ κ PUnit} {gs : β → Engine τ κ PUnit} (hs : List.Forall₂ R as bs)
    (h : ∀ a b, R a b → Relates c Eq (fs a) (gs b)) : Relates c Eq (as.forM fs) (bs.forM gs) := by
  induction hs with
  | nil => exact pure rfl
  | cons hab _ ih => exact bind (h _ _ hab) fun _ _ _ => ih

theorem filterM {fs : α → Engine σ κ Bool} {gs : β → Engine τ κ Bool} (hs : List.Forall₂ R as bs)
    (h : ∀ a b, R a b → Relates c Eq (fs a) (gs b)) :
    Relates c (List.Forall₂ R) (as.filterM fs) (bs.filterM gs) := by
  have hloop : ∀ {as' : List α} {bs' : List β} (acc : List α) (acc' : List β),
      List.Forall₂ R as' bs' → List.Forall₂ R acc acc' →
      Relates c (List.Forall₂ R) (as'.filterAuxM fs acc) (bs'.filterAuxM gs acc') := by
    intro as' bs' acc acc' hs' hacc
    induction hs' generalizing acc acc' with
    | nil => exact pure hacc
    | @cons a b as' bs' hab _ ih =>
      refine bind (h a b hab) fun passed _ hpassed => ?_
      subst hpassed
      cases passed with
      | true => exact ih _ _ (.cons hab hacc)
      | false => exact ih _ _ hacc
  exact bind (hloop [] [] hs .nil) fun _ _ hrev => pure (List.rel_reverse hrev)

theorem filterMapM {fs : α → Engine σ κ (Option γ)} {gs : β → Engine τ κ (Option δ)}
    (hs : List.Forall₂ R as bs) (h : ∀ a b, R a b → Relates c (Option.Rel S) (fs a) (gs b)) :
    Relates c (List.Forall₂ S) (as.filterMapM fs) (bs.filterMapM gs) := by
  induction hs with
  | nil => exact pure .nil
  | cons hab _ ih =>
    rw [List.filterMapM_cons, List.filterMapM_cons]
    refine bind (h _ _ hab) fun o o' ho => ?_
    cases ho with
    | none => exact ih
    | some hcd => exact bind ih fun _ _ hrest => pure (.cons hcd hrest)

end Relates

variable {x : Engine σ κ α} {y : Engine τ κ α}

/-- From related worlds the works have outcomes that agree. -/
def Matches (c : Comparison σ τ κ) (x : Engine σ κ α) (y : Engine τ κ α) : Prop :=
  ∀ w w', c.related w w' → c.Agree (x w) (y w')

/-- To keep a condition is to match oneself in worlds with the condition. -/
theorem keeps_iff_matches : Keeps I x ↔ Matches (.within I) x x := by
  constructor
  · rintro hx _ w ⟨rfl, hw⟩
    have hxw := hx w hw
    cases h : x w with
    | ok a v =>
      rw [h] at hxw
      exact .ok (c := .within I) ⟨rfl, hxw⟩
    | error e v =>
      rw [h] at hxw
      exact .error (c := .within I) (fun _ => trivial) ⟨rfl, hxw⟩
  · intro hx w hw
    have hxw := hx w w ⟨rfl, hw⟩
    cases h : x w with
    | ok a v =>
      rw [h] at hxw
      cases hxw with
      | ok hv => exact hv.2
    | error e v =>
      rw [h] at hxw
      cases hxw with
      | error _ hv => exact hv.2
      | cut hc => exact hc.elim

/-- Works that give related answers match if related answers are the same. -/
theorem Relates.matches {R : α → α → Prop} (hR : ∀ {a b}, R a b → a = b)
    (h : Relates c R x y) : Matches c x y :=
  fun w w' hw => Comparison.agree_iff.mpr (h.mono hR w w' hw)

namespace Matches

variable {f : α → Engine σ κ β} {g : α → Engine τ κ β} {xs : List β}

theorem relates (h : Matches c x y) : Relates c Eq x y :=
  fun w w' hw => Comparison.agree_iff.mp (h w w' hw)

theorem relates_of {a b : α} {u : α → Engine σ κ β} {v : α → Engine τ κ β}
    (h : ∀ a, Matches c (u a) (v a)) (hab : a = b) : Relates c Eq (u a) (v b) := by
  subst hab
  exact (h a).relates

theorem bind (hx : Matches c x y) (hf : ∀ a, Matches c (f a) (g a)) :
    Matches c (x >>= f) (y >>= g) :=
  (hx.relates.bind fun _ _ => relates_of hf).matches id

theorem pure {a : α} : Matches c (Pure.pure a : Engine σ κ α) (Pure.pure a : Engine τ κ α) :=
  fun _ _ hw => .ok hw

theorem exhausted (hc : c.starves) :
    Matches c (throw .exhausted : Engine σ κ α) (throw .exhausted : Engine τ κ α) :=
  (Relates.exhausted hc).matches id

theorem fail {e : MachineError} : Matches c (fail e : Engine σ κ α) (fail e : Engine τ κ α) :=
  Relates.fail.matches id

/-- Work that reads the machine matches if it does for any two machines that may be read. -/
theorem machine_bind {M : Machine κ → Machine κ → Prop} {f : Machine κ → Engine σ κ β}
    {g : Machine κ → Engine τ κ β} (hM : ∀ {w w'}, c.related w w' → M w.machine w'.machine)
    (h : ∀ m m', M m m' → Matches c (f m) (g m')) : Matches c (machine >>= f) (machine >>= g) :=
  fun w w' hw => h _ _ (hM hw) w w' hw

theorem get_bind {f : World σ κ → Engine σ κ β} {g : World τ κ → Engine τ κ β}
    (h : ∀ w w', c.related w w' → Matches c (f w) (g w')) :
    Matches c (get >>= f) (get >>= g) := fun w w' hw => h w w' hw w w' hw

theorem modify {f : World σ κ → World σ κ} {g : World τ κ → World τ κ}
    (h : ∀ w w', c.related w w' → c.related (f w) (g w')) :
    Matches c (modify f : Engine σ κ Unit) (modify g : Engine τ κ Unit) :=
  (Relates.modify h).matches id

theorem update {f g : Machine κ → Machine κ}
    (h : ∀ w w', c.related w w' → c.related (w.mapMachine f) (w'.mapMachine g)) :
    Matches c (update f) (update g) := modify h

theorem ofGraph {a : Except GraphError α} :
    Matches c (ofGraph a : Engine σ κ α) (ofGraph a : Engine τ κ α) :=
  (Relates.ofGraph (.refl (fun _ => rfl) a)).matches id

theorem ofExcept {a : Except MachineError α} :
    Matches c (ofExcept a : Engine σ κ α) (ofExcept a : Engine τ κ α) :=
  (Relates.ofExcept (.refl (fun _ => rfl) a)).matches id

/-- A check before the rest of some work. -/
theorem check {p : Prop} [Decidable p] {e : MachineError} {f : Unit → Engine σ κ α}
    {g : Unit → Engine τ κ α}
    (h : Matches c (f ()) (g ())) :
    Matches c (if p then Engine.fail e >>= f else f ()) (if p then Engine.fail e >>= g else g ()) :=
  (Relates.check h.relates).matches id

theorem attempt (hx : Matches c x y) : Matches c (attempt x) (attempt y) :=
  hx.relates.attempt.matches Likewise.eq

/-- What is done for each element of a list is done for the elements of the list only. -/
theorem of_mem {u : β → Engine σ κ α} {v : β → Engine τ κ α} (h : ∀ b ∈ xs, Matches c (u b) (v b))
    (b b' : β) (hb : b = b' ∧ b ∈ xs) : Relates c Eq (u b) (v b') := by
  obtain ⟨rfl, hmem⟩ := hb
  exact (h b hmem).relates

theorem forM {fs : β → Engine σ κ PUnit} {gs : β → Engine τ κ PUnit}
    (h : ∀ b ∈ xs, Matches c (fs b) (gs b)) : Matches c (xs.forM fs) (xs.forM gs) :=
  (Relates.forM (List.forall₂_same.mpr fun _ hb => ⟨rfl, hb⟩) (of_mem h)).matches id

end Matches

end Engine

/-! ## Bodies -/

/-- Whatever answers on one side when a behavior runs, it does the like on the other. -/
structure Responder.Matches (c : Comparison σ τ κ) (r : Responder σ κ)
    (r' : Responder τ κ) : Prop where
  respondsTo : ∀ {w w'}, c.related w w' → ∀ name, r'.respondsTo w'.env name =
    r.respondsTo w.env name
  call : ∀ name element args,
    Engine.Matches c (r.call name element args) (r'.call name element args)
  callback : ∀ key element args,
    Engine.Matches c (r.callback key element args) (r'.callback key element args)

theorem Responder.Keeps.matches {r : Responder σ κ} {I : World σ κ → Prop} (h : r.Keeps I) :
    Responder.Matches (.within I) r r where
  respondsTo hw _ := by rw [hw.1]
  call _ _ _ := Engine.keeps_iff_matches.mp (h.call _ _ _)
  callback _ _ _ := Engine.keeps_iff_matches.mp (h.callback _ _ _)

namespace World

variable {w : World σ κ}

/-- What a body sees of a world. -/
def view (w : World σ κ) : View σ κ := ⟨w.machine, w.logs, w.env⟩

end World

/-- The programs do the same as long as the one sees what is like what the other sees, and they make
only allowed requests. -/
inductive Program.Alike (R : View σ κ → View σ κ → Prop) (A : Request κ → Prop) :
    Program σ κ α → Program σ κ α → Prop
  | ret (a : α) : Alike R A (.ret a) (.ret a)
  | look {next next' : View σ κ → Program σ κ α} (h : ∀ v v', R v v' →
      Alike R A (next v) (next' v')) :
    Alike R A (.look next) (.look next')
  | write (env : σ) {next next' : Program σ κ α} (h : Alike R A next next') :
    Alike R A (.write env next) (.write env next')
  | call {q : Request κ} {next next' : Except MachineError q.Answer → Program σ κ α} (hq : A q)
    (h : ∀ o, Alike R A (next o) (next' o)) : Alike R A (.call q next) (.call q next')

/-- Hosts with the same handlers answer alike if their bodies match. -/
theorem Host.responder_matches {c : Comparison σ τ κ} {h : Host σ κ} {h' : Host τ κ}
    {perform : (q : Request κ) → Engine σ κ q.Answer}
    {perform' : (q : Request κ) → Engine τ κ q.Answer}
    (hhandlers : ∀ {w w'}, c.related w w' → h'.handlers w'.env = h.handlers w.env)
    (hbody : ∀ key element args,
      Engine.Matches c (h.runBody perform key element args)
        (h'.runBody perform' key element args)) :
    (h.responder perform).Matches c (h'.responder perform') where
  respondsTo {w w'} hw name := by
    show (h'.handlers w'.env).respondsTo name = (h.handlers w.env).respondsTo name
    rw [hhandlers hw]
  call := by
    intro name element args
    refine .get_bind fun w w' hw => ?_
    rw [hhandlers hw]
    cases (h.handlers w.env).get? name with
    | none => exact .pure
    | some key => exact hbody key (some element) args
  callback key element args := hbody key (some element) args

variable {R : View σ κ → View σ κ → Prop} {A : Request κ → Prop} {c : Comparison σ σ κ}
  {h : Host σ κ}

/-- Programs that see the same do the same. -/
theorem Program.Within.alike {p : Program σ κ α} (hR : ∀ v v', R v v' → v' = v) (hp : p.Within A) :
    p.Alike R A p := by
  induction p with
  | ret a => exact .ret a
  | look next ih =>
    refine .look fun v v' hv => ?_
    obtain rfl := hR v v' hv
    exact ih _ (hp _)
  | write env next ih => exact .write env (ih hp)
  | call q next ih => exact .call hp.1 fun o => ih o (hp.2 o)

/-- No body tells worlds apart that are related so, and all make only allowed requests. -/
def Host.Blind (h : Host σ κ) (R : View σ κ → View σ κ → Prop) (A : Request κ → Prop) : Prop :=
  ∀ key element args, (h.body key element args).Alike R A (h.body key element args)

namespace Comparison

/-- Related worlds look alike to bodies, which keep their environment. -/
structure Shows (c : Comparison σ σ κ) (R : View σ κ → View σ κ → Prop) : Prop where
  env : ∀ {w w'}, c.related w w' → w'.env = w.env
  setEnv : ∀ {w w'} env, c.related w w' → c.related { w with env } { w' with env }
  view : ∀ {w w'}, c.related w w' → R w.view w'.view

end Comparison

section
variable {perform perform' : (q : Request κ) → Engine σ κ q.Answer} (hc : c.Shows R)
  (hperform : ∀ q, A q → Engine.Matches c (perform q) (perform' q))
include hc hperform

theorem Program.Alike.matches_runWith {p p' : Program σ κ α} (hp : p.Alike R A p') :
    Engine.Matches c (p.runWith perform) (p'.runWith perform') := by
  induction hp with
  | ret a => exact .pure
  | look _ ih => exact .get_bind fun w w' hw => ih _ _ (hc.view hw)
  | write env _ ih => exact .bind (.modify fun _ _ hw => hc.setEnv env hw) fun _ => ih
  | call hq _ ih => exact .bind (.attempt (hperform _ hq)) fun o => ih o

namespace Host

variable (hbodies : h.Blind R A)
include hbodies

theorem matches_runBody (key : κ) (element : Option (Element κ)) (args : List Json.Value) :
    Engine.Matches c (h.runBody perform key element args) (h.runBody perform' key element args) :=
  .bind ((hbodies key element args).matches_runWith hc hperform) fun _ => .ofExcept

theorem matches_responder : (h.responder perform).Matches c (h.responder perform') :=
  responder_matches (fun hw => by rw [hc.env hw]) (matches_runBody hc hperform hbodies)

end Host

end

end Statechart
