import Statechart.Proofs.Machine.AlignmentRuns
import Statechart.Proofs.Machine.Lockstep

/-!
# Runs in lockstep

Runs, events and every other request match themselves in two worlds with machines that work on the
same graph at the same place, whatever the bodies ask for in turn. Only a request that gives the
machine another graph, or a place told by name, has no like: that it matches itself is asked for.
-/

namespace Statechart

open Json

variable {σ τ κ α : Type}

theorem likeOutcome_same : DispatchOutcome.Like (κ := κ) .same = Eq := by
  funext o o'
  refine propext ⟨?_, ?_⟩
  · rintro (h | h | h | _)
    · exact congrArg _ h
    · exact congrArg _ h
    · exact congrArg _ (List.forall₂_eq_eq_eq ▸ h)
    · rfl
  · rintro rfl
    cases o with
    | fired t => exact .fired rfl
    | queued t => exact .queued rfl
    | ambiguous ts => exact .ambiguous (forall₂_refl ts)
    | unhandled => exact .unhandled

theorem Request.Like.congr {k : Correspondence κ} {q q' : Request κ}
    {R S : q.Answer → q'.Answer → Prop} (h : q.Like k q' R) (hR : R = S) : q.Like k q' S := hR ▸ h

/-- Every request that stays asks for what it asks for itself. -/
theorem Request.like_same_or (q : Request κ) : q.Like .same q Eq ∨ ¬ q.Stays := by
  have hlists : List.Forall₂ (Correspondence.same (κ := κ)).transition = Eq :=
    List.forall₂_eq_eq_eq
  have haccepted : List.Forall₂ (Correspondence.same (κ := κ)).Accepted = Eq := by
    funext xs ys
    refine propext ⟨eq_of_accepted, ?_⟩
    rintro rfl
    exact List.forall₂_same.mpr fun _ _ => ⟨rfl, rfl⟩
  have hoptions : Option.Rel (Correspondence.same (κ := κ)).transition = Eq := optionRel_eq
  have houtcomes := likeOutcome_same (κ := κ)
  cases q with
  | isolate => exact .inr id
  | edit e => exact .inr id
  | restore s => exact .inr id
  | start args => exact .inl (.start args)
  | goto s args => exact .inl (.goto rfl args)
  | queue t args => exact .inl (.queue rfl args)
  | run mode => exact .inl (.run mode)
  | runWith mode body => exact .inl (.runWith mode body)
  | pause => exact .inl .pause
  | resume => exact .inl .resume
  | post es => exact .inl (.post es)
  | runEvents => exact .inl .runEvents
  | dispatch e => exact .inl ((Like.dispatch e).congr houtcomes)
  | matching e => exact .inl ((Like.matching e).congr haccepted)
  | valid args => exact .inl ((Like.valid args).congr hlists)
  | hasValid args => exact .inl (.hasValid args)
  | transitionsTo s args => exact .inl ((Like.transitionsTo rfl args).congr hlists)
  | canTransitionTo s args => exact .inl (.canTransitionTo rfl args)
  | transitionNamed name args => exact .inl (.transitionNamed name args)
  | transitionById t args => exact .inl (.transitionById rfl args)
  | transitionTo s args => exact .inl (.transitionTo rfl args)
  | transitionToNext args => exact .inl (.transitionToNext args)
  | tryTransitionToNext args => exact .inl ((Like.tryTransitionToNext args).congr hoptions)
  | transitionIfValid args => exact .inl ((Like.transitionIfValid args).congr hoptions)
  | setOptions o => exact .inl (.setOptions o)
  | clearHistory => exact .inl .clearHistory
  | consult name s args => exact .inl (.consult name rfl args)

namespace Comparison

variable {c : Comparison σ τ κ}

theorem takes_of {good : Pending → Prop} (hpending : ∀ {w w'}, c.related w w' →
    w'.machine.pending = w.machine.pending ∧ ∀ p, w.machine.pending = some p → good p)
    (hempty : ∀ {w w'}, c.related w w' → c.related (w.mapMachine ({ · with pending := none }))
      (w'.mapMachine ({ · with pending := none }))) : c.Takes .same good := by
  intro α f g hnone hsome
  let M (m m' : Machine κ) : Prop := m'.pending = m.pending ∧ ∀ p, m.pending = some p → good p
  have hM {w : World σ κ} {w' : World τ κ} (hw : c.related w w') : M w.machine w'.machine :=
    hpending hw
  have hemptied : Engine.Relates c Eq
      (Engine.update ({ · with pending := none }) : Engine σ κ Unit)
      (Engine.update ({ · with pending := none }) : Engine τ κ Unit) :=
    .update fun _ _ => hempty
  simp only [Engine.takePending, bind_assoc, pure_bind]
  refine .machine_bind hM fun m m' hshared => hemptied.seq ?_
  obtain ⟨hsame, hgood⟩ := hshared
  rw [hsame]
  cases hp : m.pending with
  | none => exact hnone
  | some p => exact hsome p p (hgood p hp) ⟨rfl, rfl⟩

/-- For every request, those that have no like among them. -/
structure ServesAll (c : Comparison σ τ κ) : Prop extends Serves c .same where
  isolate : Engine.Matches c Engine.isolate Engine.isolate
  edit : ∀ e, Engine.Matches c (Engine.edit e) (Engine.edit e)
  restore : ∀ s, Engine.Matches c (Engine.restore s) (Engine.restore s)

end Comparison

namespace Engine

variable {c : Comparison σ τ κ} {r : Responder σ κ} {r' : Responder τ κ}

theorem relates_of_forall {f : TransitionId → Engine σ κ Unit} {g : TransitionId → Engine τ κ Unit}
    (h : ∀ t, Matches c (f t) (g t)) (t t' : TransitionId)
    (ht : Correspondence.same.transition (κ := κ) t t') : Relates c Eq (f t) (g t') :=
  Matches.relates_of h ht

/-- What is done for a request matches if it does for a request that has a like and for one that
does not stay. -/
theorem matches_of_like {q : Request κ} {x : Engine σ κ q.Answer} {y : Engine τ κ q.Answer}
    (hlike : q.Like .same q Eq → Relates c Eq x y) (hmoves : ¬ q.Stays → Matches c x y) :
    Matches c x y := by
  rcases q.like_same_or with hq | hstays
  · exact (hlike hq).matches id
  · exact hmoves hstays

theorem matches_selectAndQueue (hc : c.Selects .same) (hr : r.Matches c r') {e : Event}
    (hqueue : ∀ t, Matches c (queueTransition t e.args)
      (queueTransition t e.args : Engine τ κ Unit))
    (hlabel : ∀ label w w', c.related w w' →
      c.related (w.mapMachine ({ · with trigger := some label }))
        (w'.mapMachine ({ · with trigger := some label })))
    (wrap : TransitionId → DispatchOutcome) :
    Matches c (selectAndQueue r e wrap) (selectAndQueue r' e wrap) :=
  (relates_selectAndQueue hc hr.relates (relates_of_forall hqueue) hlabel fun _ _ ht =>
    likeOutcome_same ▸ congrArg wrap ht).matches fun h => likeOutcome_same ▸ h

theorem matches_reenter (hc : c.Steers .same) :
    Matches c (reenter : Engine σ κ _) (reenter : Engine τ κ _) :=
  (relates_reenter hc).matches id

theorem matches_takeEvent (hc : c.Posts .same) :
    Matches c (takeEvent : Engine σ κ _) (takeEvent : Engine τ κ _) :=
  (relates_takeEvent hc).matches id

/-- A request matches itself if it does where it steers a run, posts events, runs the machine, puts
it elsewhere or replaces what it works on. -/
theorem matches_carryOut_of_selects (hc : c.Selects .same) (hr : r.Matches c r')
    {hook : κ → Engine σ κ Unit} {hook' : κ → Engine τ κ Unit} (n : Nat) {q : Request κ}
    (hqueue : ∀ args, q.Puts args → ∀ t,
      Matches c (queueTransition t args) (queueTransition t args : Engine τ κ Unit))
    (hsteers : q.Steers → Matches c (carryOut r hook n q) (carryOut r' hook' n q))
    (hpost : ∀ es, q = .post es → Matches c (post es) (post es : Engine τ κ Unit))
    (hruns : q.Runs → Matches c (carryOut r hook n q) (carryOut r' hook' n q))
    (hreplaces : q.Replaces → Matches c (carryOut r hook n q) (carryOut r' hook' n q)) :
    Matches c (carryOut r hook n q) (carryOut r' hook' n q) := by
  refine matches_of_like (fun hq => ?_) fun hmoves =>
    hreplaces (Request.replaces_of_not_stays hmoves)
  exact relates_carryOut_of_selects hc hr.relates n hq
    (fun args hputs => relates_of_forall (hqueue args hputs)) (fun h => (hsteers h).relates)
    (fun es hes => (hpost es hes).relates) (fun h => (hruns h).relates)
    fun h => (hreplaces h).relates

/-- A request matches itself if it does where it posts events, runs the machine, puts it elsewhere
or replaces what it works on. -/
theorem matches_carryOut_of_steers (hc : c.Steers .same) (hr : r.Matches c r')
    {hook : κ → Engine σ κ Unit} {hook' : κ → Engine τ κ Unit} (n : Nat) {q : Request κ}
    (hqueue : ∀ args, q.Puts args → ∀ t,
      Matches c (queueTransition t args) (queueTransition t args : Engine τ κ Unit))
    (hpost : ∀ es, q = .post es → Matches c (post es) (post es : Engine τ κ Unit))
    (hruns : q.Runs → Matches c (carryOut r hook n q) (carryOut r' hook' n q))
    (hreplaces : q.Replaces → Matches c (carryOut r hook n q) (carryOut r' hook' n q)) :
    Matches c (carryOut r hook n q) (carryOut r' hook' n q) := by
  refine matches_of_like (fun hq => ?_) fun hmoves =>
    hreplaces (Request.replaces_of_not_stays hmoves)
  exact relates_carryOut_of_steers hc hr.relates n hq
    (fun args hputs => relates_of_forall (hqueue args hputs))
    (fun es hes => (hpost es hes).relates) (fun h => (hruns h).relates)
    fun h => (hreplaces h).relates

/-- A request matches itself if it does where it runs the machine, puts it elsewhere or replaces
what it works on. -/
theorem matches_carryOut_of_posts (hc : c.Posts .same) (hr : r.Matches c r')
    {hook : κ → Engine σ κ Unit} {hook' : κ → Engine τ κ Unit} (n : Nat) {q : Request κ}
    (hqueue : ∀ args, q.Puts args → ∀ t,
      Matches c (queueTransition t args) (queueTransition t args : Engine τ κ Unit))
    (hruns : q.Runs → Matches c (carryOut r hook n q) (carryOut r' hook' n q))
    (hreplaces : q.Replaces → Matches c (carryOut r hook n q) (carryOut r' hook' n q)) :
    Matches c (carryOut r hook n q) (carryOut r' hook' n q) :=
  matches_carryOut_of_steers hc.toSteers hr n hqueue
    (fun es _ => (relates_post hc es).matches id) hruns hreplaces

section
variable {good : Pending → Prop} (htake : c.Takes .same good)
  (hfire : ∀ p, good p → Matches c (fireTransition r p) (fireTransition r' p))
include htake hfire

omit htake in
theorem relates_of_good (p p' : Pending) (hgood : good p) (hp : p.Like (κ := κ) .same p') :
    Relates c Eq (fireTransition r p) (fireTransition r' p') := by
  obtain rfl := hp.eq
  exact (hfire p hgood).relates

theorem matches_processTransitions {hook : Option (Engine σ κ Unit)}
    {hook' : Option (Engine τ κ Unit)} (hhook : Matches c (hook.forM id) (hook'.forM id))
    (hc : c.Steers .same) (fuel : Nat) (mode : RunMode) :
    Matches c (processTransitions r fuel mode hook) (processTransitions r' fuel mode hook') :=
  (relates_processTransitions htake (relates_of_good hfire) hhook.relates hc fuel mode).matches id

theorem matches_processEvents (hc : c.Handles .same) (hr : r.Matches c r')
    (hqueue : ∀ t args,
      Matches c (queueTransition t args) (queueTransition t args : Engine τ κ Unit))
    (fuel fired : Nat) : Matches c (processEvents r fuel fired) (processEvents r' fuel fired) :=
  (relates_processEvents htake (relates_of_good hfire) hc hr.relates
    (fun args => relates_of_forall (hqueue · args)) fuel fired).matches id

/-- A request matches itself if it does where it puts the machine elsewhere or replaces what it
works on. -/
theorem matches_carryOut_of_runs (hc : c.Runs .same) (hr : r.Matches c r')
    (hqueue : ∀ t args,
      Matches c (queueTransition t args) (queueTransition t args : Engine τ κ Unit))
    {hook : κ → Engine σ κ Unit} {hook' : κ → Engine τ κ Unit}
    (hhook : ∀ key, Matches c (hook key) (hook' key)) (n : Nat) {q : Request κ}
    (hreplaces : q.Replaces → Matches c (carryOut r hook n q) (carryOut r' hook' n q)) :
    Matches c (carryOut r hook n q) (carryOut r' hook' n q) := by
  refine matches_of_like (fun hq => ?_) fun hmoves =>
    hreplaces (Request.replaces_of_not_stays hmoves)
  exact relates_carryOut_of_runs htake (relates_of_good hfire) hc hr.relates
    (fun args => relates_of_forall (hqueue · args)) (fun key => (hhook key).relates) n hq
    fun h => (hreplaces h).relates

end

theorem matches_carryOut_of_serves (hr : r.Matches c r') {hook : κ → Engine σ κ Unit}
    {hook' : κ → Engine τ κ Unit} (hhook : ∀ key, Matches c (hook key) (hook' key))
    (hc : c.ServesAll) (n : Nat) (q : Request κ) :
    Matches c (carryOut r hook n q) (carryOut r' hook' n q) := by
  refine matches_of_like (fun hq => ?_) fun hmoves => ?_
  · exact relates_carryOut_of_serves hr.relates (fun key => (hhook key).relates) hc.toServes n hq
  · cases q with
    | isolate => exact hc.isolate
    | edit e => exact hc.edit e
    | restore s => exact hc.restore s
    | _ => exact absurd trivial hmoves

end Engine

/-- Bodies that tell no related worlds apart have no request tell them apart. -/
theorem Host.matches_perform {c : Comparison σ σ κ} {R : View σ κ → View σ κ → Prop} {h : Host σ κ}
    (hc : c.ServesAll) (hshows : c.Shows R) (hbodies : h.Blind R fun _ => True) (n : Nat)
    (q : Request κ) : Engine.Matches c (h.perform n q) (h.perform n q) := by
  induction n generalizing q with
  | zero => exact .exhausted hc.starves
  | succ n ih =>
    have hperform (q : Request κ) (_ : True) := ih q
    have hhook (key : κ) : Engine.Matches c (h.hook n key) (h.hook n key) :=
      .bind (matches_runBody hshows hperform hbodies key none []) fun _ => .pure
    have hr := matches_responder hshows hperform hbodies
    exact Engine.matches_carryOut_of_serves hr hhook hc n q

end Statechart
