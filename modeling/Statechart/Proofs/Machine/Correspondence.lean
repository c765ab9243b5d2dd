import Mathlib.Logic.Relator
import Statechart.Proofs.Machine.Comparison
import Statechart.Proofs.Machine.Moves

/-!
# Corresponding handles

Two machines may do the like on two graphs in which the handles of the one stand for those of the
other. What is asked of them, what they answer and what is noticed is then the same but for the
handles. Every machine is like itself, with each handle standing for itself.
-/

namespace Statechart

open Json

variable {σ κ α : Type}

/-- Which handles stand for which, each for one at most and no two for the same, and which elements
are to behaviors as if they were the same. -/
structure Correspondence (κ : Type) where
  state : StateId → StateId → Prop
  transition : TransitionId → TransitionId → Prop
  element : Element κ → Element κ → Prop
  states_unique : Relator.BiUnique state
  transitions_unique : Relator.BiUnique transition

/-- Every handle stands for itself. -/
def Correspondence.same : Correspondence κ where
  state := Eq
  transition := Eq
  element := Eq
  states_unique := ⟨fun _ _ _ h h' => h.trans h'.symm, fun _ _ _ h h' => h.symm.trans h'⟩
  transitions_unique := ⟨fun _ _ _ h h' => h.trans h'.symm, fun _ _ _ h h' => h.symm.trans h'⟩

variable {k : Correspondence κ}

/-! ## Lists and options of handles -/

section
variable {a b : Type} {R : a → b → Prop} {o : Option a} {o' : Option b} {x : a} {x' : b}
  {xs : List a} {xs' : List b}

theorem isSome_of_rel (h : Option.Rel R o o') : o'.isSome = o.isSome := by
  cases h with
  | some _ => rfl
  | none => rfl

theorem isNone_of_rel (h : Option.Rel R o o') : o'.isNone = o.isNone := by
  cases h with
  | some _ => rfl
  | none => rfl

variable (hR : Relator.BiUnique R)
include hR

theorem eq_iff_of_rel {y : a} {y' : b} (hx : R x x') (hy : R y y') : x' = y' ↔ x = y :=
  ⟨fun h => hR.1 hx (h ▸ hy), fun h => hR.2 hx (h ▸ hy)⟩

variable [DecidableEq a] [DecidableEq b]

theorem contains_of_rel (hxs : List.Forall₂ R xs xs') (hx : R x x') :
    xs'.contains x' = xs.contains x := by
  rw [Bool.eq_iff_iff, List.contains_iff_mem, List.contains_iff_mem]
  exact (List.rel_mem hR hx hxs).symm

theorem beq_of_rel {p : Option a} {p' : Option b} (ho : Option.Rel R o o')
    (hp : Option.Rel R p p') : (o' == p') = (o == p) := by
  cases ho with
  | none =>
    cases hp with
    | none => rfl
    | some _ => rfl
  | some h =>
    cases hp with
    | none => rfl
    | some h' =>
      rw [Bool.eq_iff_iff, beq_iff_eq, beq_iff_eq, Option.some_inj, Option.some_inj,
        eq_iff_of_rel hR h h']

theorem bne_of_rel {p : Option a} {p' : Option b} (ho : Option.Rel R o o')
    (hp : Option.Rel R p p') : (o' != p') = (o != p) := congrArg (!·) (beq_of_rel hR ho hp)

end

/-! ## What is like what -/

/-- Transitions that lead between states that stand for each other and are otherwise the same to a
machine. -/
structure Transition.Like (k : Correspondence κ) (tr tr' : Transition κ) : Prop where
  name : tr'.name = tr.name
  kind : tr'.kind = tr.kind
  triggers : tr'.triggers = tr.triggers
  source : k.state tr.source tr'.source
  target : k.state tr.target tr'.target

inductive Subject.Like (k : Correspondence κ) : Subject → Subject → Prop
  | state {s s' : StateId} (h : k.state s s') : Like k (.state s) (.state s')
  | transition {t t' : TransitionId} (h : k.transition t t') :
      Like k (.transition t) (.transition t')

structure Pending.Like (k : Correspondence κ) (p p' : Pending) : Prop where
  transition : k.transition p.transition p'.transition
  args : p'.args = p.args

inductive DispatchOutcome.Like (k : Correspondence κ) : DispatchOutcome → DispatchOutcome → Prop
  | fired {t t' : TransitionId} (h : k.transition t t') : Like k (.fired t) (.fired t')
  | queued {t t' : TransitionId} (h : k.transition t t') : Like k (.queued t) (.queued t')
  | ambiguous {ts ts' : List TransitionId} (h : List.Forall₂ k.transition ts ts') :
    Like k (.ambiguous ts) (.ambiguous ts')
  | unhandled : Like k .unhandled .unhandled

inductive Notice.Like (k : Correspondence κ) : Notice → Notice → Prop
  | started {s s' : StateId} (h : k.state s s') : Like k (.started s) (.started s')
  | eventDequeued (event : String) : Like k (.eventDequeued event) (.eventDequeued event)
  | transitionQueued {t t' : TransitionId} (h : k.transition t t') :
      Like k (.transitionQueued t) (.transitionQueued t')
  | guardEvaluated {t t' : TransitionId} (h : k.transition t t') (passed : Bool) :
    Like k (.guardEvaluated t passed) (.guardEvaluated t' passed)
  | effectInvoked {t t' : TransitionId} (h : k.transition t t') :
      Like k (.effectInvoked t) (.effectInvoked t')
  | stateExited {s s' : StateId} (h : k.state s s') : Like k (.stateExited s) (.stateExited s')
  | stateEntered {s s' : StateId} (h : k.state s s') : Like k (.stateEntered s) (.stateEntered s')
  | activityInvoked {s s' : StateId} (h : k.state s s') :
      Like k (.activityInvoked s) (.activityInvoked s')
  | transitionFired {t t' : TransitionId} {source source' : Option StateId}
    {target target' : StateId}
    (ht : k.transition t t') (hsource : Option.Rel k.state source source')
      (htarget : k.state target target') :
    Like k (.transitionFired t source target) (.transitionFired t' source' target')
  | rolledBack {s s' : Option StateId} (h : Option.Rel k.state s s') :
      Like k (.rolledBack s) (.rolledBack s')
  | paused : Like k .paused .paused
  | resumed : Like k .resumed .resumed

/-- The transitions selected stand for each other, and the same trigger accepted the event. -/
def Correspondence.Accepted (k : Correspondence κ) (a a' : TransitionId × String) : Prop :=
  k.transition a.1 a'.1 ∧ a'.2 = a.2

/-- Requests that ask for the like, and how what they answer is related then. Those that give a
machine another graph or a place told by name have no like. -/
inductive Request.Like (k : Correspondence κ) :
    (q q' : Request κ) → (q.Answer → q'.Answer → Prop) → Prop
  | start (args : List Value) : Like k (.start args) (.start args) k.state
  | goto {s s' : StateId} (h : k.state s s') (args : List Value) :
      Like k (.goto s args) (.goto s' args) k.state
  | queue {t t' : TransitionId} (h : k.transition t t') (args : List Value) :
      Like k (.queue t args) (.queue t' args) Eq
  | run (mode : RunMode) : Like k (.run mode) (.run mode) Eq
  | runWith (mode : RunMode) (hook : κ) : Like k (.runWith mode hook) (.runWith mode hook) Eq
  | pause : Like k .pause .pause Eq
  | resume : Like k .resume .resume Eq
  | post (es : List Event) : Like k (.post es) (.post es) Eq
  | runEvents : Like k .runEvents .runEvents Eq
  | dispatch (e : Event) : Like k (.dispatch e) (.dispatch e) (DispatchOutcome.Like k)
  | matching (e : Event) : Like k (.matching e) (.matching e) (List.Forall₂ k.Accepted)
  | valid (args : List Value) : Like k (.valid args) (.valid args) (List.Forall₂ k.transition)
  | hasValid (args : List Value) : Like k (.hasValid args) (.hasValid args) Eq
  | transitionsTo {s s' : StateId} (h : k.state s s') (args : List Value) :
    Like k (.transitionsTo s args) (.transitionsTo s' args) (List.Forall₂ k.transition)
  | canTransitionTo {s s' : StateId} (h : k.state s s') (args : List Value) :
    Like k (.canTransitionTo s args) (.canTransitionTo s' args) Eq
  | transitionNamed (name : String) (args : List Value) :
    Like k (.transitionNamed name args) (.transitionNamed name args) k.transition
  | transitionById {t t' : TransitionId} (h : k.transition t t') (args : List Value) :
    Like k (.transitionById t args) (.transitionById t' args) k.transition
  | transitionTo {s s' : StateId} (h : k.state s s') (args : List Value) :
    Like k (.transitionTo s args) (.transitionTo s' args) k.transition
  | transitionToNext (args : List Value) :
      Like k (.transitionToNext args) (.transitionToNext args) k.transition
  | tryTransitionToNext (args : List Value) :
    Like k (.tryTransitionToNext args) (.tryTransitionToNext args) (Option.Rel k.transition)
  | transitionIfValid (args : List Value) :
    Like k (.transitionIfValid args) (.transitionIfValid args) (Option.Rel k.transition)
  | setOptions (o : MachineOptions) : Like k (.setOptions o) (.setOptions o) Eq
  | clearHistory : Like k .clearHistory .clearHistory Eq
  | consult (name : String) {s s' : StateId} (h : k.state s s') (args : List Value) :
    Like k (.consult name s args) (.consult name s' args) Eq

/-- The machines are at places that stand for each other, and each handle tells the like on both
graphs. -/
structure Machine.Like (k : Correspondence κ) (m m' : Machine κ) : Prop where
  active : Option.Rel k.state m.active m'.active
  atEnd : m'.atEnd = m.atEnd
  definitionLabel : m'.graph.definitionLabel m'.definition = m.graph.definitionLabel m.definition
  start : Likewise (fun x x' => Option.Rel k.state x.start x'.start)
    (m.graph.definition m.definition) (m'.graph.definition m'.definition)
  state : ∀ {s s'}, k.state s s' → Likewise (fun st st' => k.element (.state st) (.state st') ∧
    m'.graph.isWithin st'.owner m'.definition =
      m.graph.isWithin st.owner m.definition) (m.graph.state s)
    (m'.graph.state s')
  transition : ∀ {t t'}, k.transition t t' →
    Likewise (Transition.Like k) (m.graph.transition t) (m'.graph.transition t')
  behaviorOf : ∀ a {x x'}, Subject.Like k x x' →
    Likewise (fun b b' => k.element b.1 b'.1 ∧ b'.2 = b.2)
    (m.graph.behaviorOf a x) (m'.graph.behaviorOf a x')
  pathOfState : ∀ {s s'}, k.state s s' → m'.graph.pathOfState s' = m.graph.pathOfState s
  pathOfTransition : ∀ {t t'}, k.transition t t' → m'.graph.pathOfTransition t' =
    m.graph.pathOfTransition t
  isActive : ∀ {s s'}, k.state s s' → m'.isActive s' = m.isActive s
  resolveEntryTarget : ∀ {s s'}, k.state s s' →
    k.state (m.graph.resolveEntryTarget s) (m'.graph.resolveEntryTarget s')
  scopedAncestors : ∀ {s s'}, k.state s s' →
    List.Forall₂ k.state (m.scopedAncestors s) (m'.scopedAncestors s')
  candidatesFrom : ∀ {s s'}, k.state s s' →
    Likewise (List.Forall₂ k.transition) (m.candidatesFrom s) (m'.candidatesFrom s')

/-! ## Machines that are alike -/

namespace Machine.Like

variable {m m' : Machine κ} (h : m.Like k m') {s s' : StateId} {t t' : TransitionId}
  {old old' : Option StateId}
include h

theorem activePath : m'.activePath = m.activePath := by
  have hactive := h.active
  rw [Machine.activePath, Machine.activePath]
  generalize m.active = o, m'.active = o' at hactive ⊢
  cases hactive with
  | none => rfl
  | some hs => exact congrArg some (h.pathOfState hs)

theorem transitionPaths {ts ts' : List TransitionId} (hts : List.Forall₂ k.transition ts ts') :
    m'.transitionPaths ts' = m.transitionPaths ts := by
  induction hts with
  | nil => rfl
  | cons ht _ ih => exact congrArg₂ List.cons (h.pathOfTransition ht) ih

theorem isNamed (ht : k.transition t t') (name : String) :
    ((m'.graph.transition? t').any (·.name == name)) =
      ((m.graph.transition? t).any (·.name == name)) := by
  have hlike := h.transition ht
  rw [Graph.transition, Graph.transition] at hlike
  generalize m.graph.transition? t = o, m'.graph.transition? t' = o' at hlike ⊢
  cases o with
  | none =>
    cases o' with
    | none => rfl
    | some tr' => cases hlike
  | some tr =>
    cases o' with
    | none => cases hlike
    | some tr' =>
      cases hlike with
      | ok htr => exact congrArg (· == name) htr.name

theorem isExternal {via via' : Option TransitionId} (hvia : Option.Rel k.transition via via') :
    Likewise Eq (Engine.isExternal m.graph via) (Engine.isExternal m'.graph via') := by
  cases hvia with
  | none => exact .ok rfl
  | @some t t' ht =>
    have hlike := h.transition ht
    simp only [Engine.isExternal]
    generalize m.graph.transition t = o, m'.graph.transition t' = o' at hlike ⊢
    cases hlike with
    | error e => exact .error e
    | ok htr => exact .ok (by rw [htr.kind])

private theorem outOf (hold : Option.Rel k.state old old') :
    List.Forall₂ k.state ((old.map m.scopedAncestors).getD [])
      ((old'.map m'.scopedAncestors).getD []) := by
  cases hold with
  | none => exact .nil
  | some hs => exact h.scopedAncestors hs

theorem leaving (external : Bool) (hold : Option.Rel k.state old old') (hs : k.state s s') :
    List.Forall₂ k.state (m.leaving external old s) (m'.leaving external old' s') := by
  have hinto := h.scopedAncestors hs
  rw [Machine.leaving, Machine.leaving, bne_of_rel k.states_unique hold (.some hs)]
  split
  · refine List.rel_filter (fun c c' hc => ?_) (h.outOf hold)
    simp only [contains_of_rel k.states_unique hinto hc]
  · exact .nil

theorem entering (external : Bool) (hold : Option.Rel k.state old old') (hs : k.state s s') :
    List.Forall₂ k.state (m.entering external old s) (m'.entering external old' s') := by
  have houtOf := h.outOf hold
  rw [Machine.entering, Machine.entering, bne_of_rel k.states_unique hold (.some hs)]
  split
  · refine List.rel_filter (fun c c' hc => ?_) (List.rel_reverse (h.scopedAncestors hs))
    simp only [contains_of_rel k.states_unique houtOf hc]
  · exact .nil

theorem unknownFrom (name : String) : Engine.unknownFrom name m' = Engine.unknownFrom name m := by
  rw [Engine.unknownFrom, Engine.unknownFrom, h.activePath]

end Machine.Like

/-! ## Bodies -/

/-- Whatever answers on one side when a behavior runs, it does the like on the other. -/
structure Responder.Relates {τ : Type} (c : Comparison σ τ κ) (k : Correspondence κ)
    (r : Responder σ κ) (r' : Responder τ κ) : Prop where
  respondsTo : ∀ {w w'}, c.related w w' → ∀ name, r'.respondsTo w'.env name =
    r.respondsTo w.env name
  call : ∀ name {e e'} args, k.element e e' →
    Engine.Relates c Eq (r.call name e args) (r'.call name e' args)
  callback : ∀ key {e e'} args, k.element e e' →
    Engine.Relates c Eq (r.callback key e args) (r'.callback key e' args)

/-- The programs look at nothing but the environment and ask for the like, as long as what they are
answered is like. -/
inductive Program.Like (k : Correspondence κ) : Program σ κ α → Program σ κ α → Prop
  | ret (a : α) : Like k (.ret a) (.ret a)
  | look {next next' : View σ κ → Program σ κ α} (h : ∀ v v', v'.env = v.env →
      Like k (next v) (next' v')) :
    Like k (.look next) (.look next')
  | write (env : σ) {next next' : Program σ κ α} (h : Like k next next') :
      Like k (.write env next) (.write env next')
  | call {q q' : Request κ} {R : q.Answer → q'.Answer → Prop} {next : Except MachineError q.Answer →
      Program σ κ α}
    {next' : Except MachineError q'.Answer → Program σ κ α} (hq : q.Like k q' R)
    (h : ∀ o o', Likewise R o o' → Like k (next o) (next' o')) :
    Like k (.call q next) (.call q' next')

/-- Bodies that depend only on the names of elements, on arguments and on the environment. They may
make requests, but only with handles that they were answered, and they can tell those apart only by
asking. -/
def Host.Nominal (h : Host σ κ) : Prop :=
  ∀ (k : Correspondence κ) (key : κ) {e e' : Option (Element κ)} (args : List Value),
    Option.Rel (fun x x' => x'.name = x.name) e e' → (h.body key e args).Like k (h.body key e' args)

end Statechart
