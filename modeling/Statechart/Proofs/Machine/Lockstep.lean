import Statechart.Proofs.Machine.Alignment

/-!
# Requests in lockstep

Two machines that work on the same graph at the same place are alike with each handle standing for
itself. So whatever is known of requests of machines that are alike holds of one request asked of
the two: it matches itself.
-/

namespace Statechart

open Json

variable {σ τ κ α β : Type}

theorem eq_of_optionRel {o o' : Option α} (h : Option.Rel Eq o o') : o = o' := optionRel_eq ▸ h

theorem optionRel_refl (o : Option α) : Option.Rel Eq o o := optionRel_eq ▸ rfl

theorem forall₂_refl (xs : List α) : List.Forall₂ Eq xs xs := List.forall₂_eq_eq_eq ▸ rfl

theorem Pending.Like.eq {p p' : Pending} (h : p.Like (κ := κ) .same p') : p = p' := by
  obtain ⟨t, args⟩ := p
  obtain ⟨t', args'⟩ := p'
  have ht : t = t' := h.transition
  have hargs : args' = args := h.args
  rw [ht, hargs]

theorem eq_of_likePending {o o' : Option Pending}
    (h : Option.Rel (Pending.Like (κ := κ) .same) o o') : o = o' := by
  cases h with
  | none => rfl
  | some h => rw [h.eq]

theorem Notice.Like.eq {n n' : Notice} (h : n.Like (κ := κ) .same n') : n = n' := by
  cases h with
  | transitionFired ht hsource htarget =>
    rw [eq_of_optionRel hsource, show _ = _ from ht, show _ = _ from htarget]
  | rolledBack h => rw [eq_of_optionRel h]
  | eventDequeued | paused | resumed => rfl
  | _ h => rw [h]

theorem eq_of_accepted {xs ys : List (TransitionId × String)}
    (h : List.Forall₂ (Correspondence.same (κ := κ)).Accepted xs ys) : xs = ys := by
  induction h with
  | nil => rfl
  | cons ha _ ih => rw [ih, Prod.ext ha.1 ha.2.symm]

namespace Machine

/-- The machines work on the same graph, at the same place. -/
structure Meets (m m' : Machine κ) : Prop where
  graph : m'.graph = m.graph
  definition : m'.definition = m.definition
  active : m'.active = m.active

namespace Meets

variable {m m' : Machine κ} (h : m.Meets m')
include h

theorem covers : m'.covers = m.covers := by
  funext s
  rw [Machine.covers, Machine.covers, h.graph, h.definition]

theorem scopedAncestors : m'.scopedAncestors = m.scopedAncestors := by
  funext s
  rw [Machine.scopedAncestors, Machine.scopedAncestors, h.graph, h.covers]

theorem candidatesFrom : m'.candidatesFrom = m.candidatesFrom := by
  have hleads : m'.leadsInside = m.leadsInside := by
    funext t
    rw [leadsInside, leadsInside, h.graph, h.definition]
  funext s
  rw [Machine.candidatesFrom, Machine.candidatesFrom, h.graph, h.scopedAncestors, hleads]

theorem atEnd : m'.atEnd = m.atEnd := by
  rw [Machine.atEnd, Machine.atEnd, h.graph, h.definition, h.active]

theorem isActive : m'.isActive = m.isActive := by
  funext s
  rw [Machine.isActive, Machine.isActive, h.graph, h.active]

theorem transitionPaths : m'.transitionPaths = m.transitionPaths := by
  funext ts
  rw [Machine.transitionPaths, Machine.transitionPaths, h.graph]

theorem like : m.Like .same m' where
  active := h.active ▸ optionRel_refl _
  atEnd := h.atEnd
  definitionLabel := by rw [h.graph, h.definition]
  start := by
    rw [h.graph, h.definition]
    exact .refl (fun x => optionRel_refl x.start) _
  state := by
    rintro s _ rfl
    rw [h.graph, h.definition]
    exact .refl (fun _ => ⟨rfl, rfl⟩) _
  transition := by
    rintro t _ rfl
    rw [h.graph]
    exact .refl (fun _ => ⟨rfl, rfl, rfl, rfl, rfl⟩) _
  behaviorOf a x x' hx := by
    have hsame : x' = x := by cases hx with | _ h => rw [h]
    rw [h.graph, hsame]
    exact .refl (fun _ => ⟨rfl, rfl⟩) _
  pathOfState := by
    rintro s _ rfl
    rw [h.graph]
  pathOfTransition := by
    rintro t _ rfl
    rw [h.graph]
  isActive := by
    rintro s _ rfl
    rw [h.isActive]
  resolveEntryTarget := by
    rintro s _ rfl
    rw [h.graph]
    rfl
  scopedAncestors := by
    rintro s _ rfl
    rw [h.scopedAncestors]
    exact forall₂_refl _
  candidatesFrom := by
    rintro s _ rfl
    rw [h.candidatesFrom]
    exact .refl forall₂_refl _

end Meets

end Machine

theorem World.like_of_eq {w w' : World σ κ} (h : w' = w) : w.machine.Like .same w'.machine := by
  subst h
  exact Machine.Meets.like ⟨rfl, rfl, rfl⟩

theorem likePending_of_eq {o o' : Option Pending} (h : o' = o) :
    Option.Rel (Pending.Like (κ := κ) .same) o o' := by
  subst h
  cases o' with
  | none => exact .none
  | some p => exact .some ⟨rfl, rfl⟩

theorem Responder.Matches.relates {c : Comparison σ τ κ} {r : Responder σ κ} {r' : Responder τ κ}
    (h : r.Matches c r') : r.Relates c .same r' where
  respondsTo := h.respondsTo
  call name _ _ args he := by
    obtain rfl := he
    exact (h.call _ _ _).relates
  callback key _ _ args he := by
    obtain rfl := he
    exact (h.callback _ _ _).relates

namespace Engine

variable {c : Comparison σ τ κ} {r : Responder σ κ} {r' : Responder τ κ}

/-- Work that keeps a condition is related to itself in worlds with the condition. -/
theorem Keeps.relates {I : World σ κ → Prop} {x : Engine σ κ α} (h : Keeps I x) :
    Relates (.within I) Eq x x :=
  (keeps_iff_matches.mp h).relates

/-- Records match if every record that is made does. -/
theorem relates_record_of_forall
    (h : ∀ previous t new, Matches c (recordHistory previous t new) (recordHistory previous t new))
    {previous previous' : Option StateId} {t t' : TransitionId} {new new' : StateId}
    (hprevious : Option.Rel (Correspondence.same (κ := κ)).state previous previous')
    (ht : (Correspondence.same (κ := κ)).transition t t')
    (hnew : (Correspondence.same (κ := κ)).state new new') :
    Relates c Eq (recordHistory previous (some t) new)
      (recordHistory previous' (some t') new') := by
  obtain rfl := eq_of_optionRel hprevious
  obtain rfl : t = t' := ht
  obtain rfl : new = new' := hnew
  exact (h previous (some t) new).relates

section
variable (hc : c.Selects .same) (hr : r.Matches c r')
include hc hr

theorem matches_invoke (a : Action) (x : Subject) (args : List Value) :
    Matches c (invoke r a x args) (invoke r' a x args) := by
  have hx : x.Like (κ := κ) .same x := by
    cases x with
    | state s => exact .state rfl
    | transition t => exact .transition rfl
  exact (relates_invoke hc hr.relates a hx args).matches id

theorem matches_transitionsMatching (e : Event) :
    Matches c (transitionsMatching r e) (transitionsMatching r' e) :=
  (relates_transitionsMatching hc hr.relates e).matches eq_of_accepted

theorem matches_selectOne (e : Event) : Matches c (selectOne r e) (selectOne r' e) :=
  (relates_selectOne hc hr.relates e).matches fun h => Prod.ext h.1 h.2.symm

end

theorem matches_queueTransition (hc : c.Queues .same) (t : TransitionId) (args : List Value) :
    Matches c (queueTransition t args) (queueTransition t args) :=
  (relates_queueTransition hc rfl args).matches id

section
variable (hc : c.Enters .same) (hr : r.Matches c r')
include hc hr

theorem matches_enter (target : StateId) (via : Option TransitionId) (args : List Value) :
    Matches c (enter r target via args) (enter r' target via args) :=
  (relates_enter hc hr.relates rfl (optionRel_refl via) args).matches id

omit hr in
theorem matches_clearHistory :
    Matches c (clearHistory : Engine σ κ Unit) (clearHistory : Engine τ κ Unit) :=
  hc.clear.matches id

theorem matches_start (args : List Value) : Matches c (start r args) (start r' args) :=
  (relates_start hc hr.relates args).matches id

theorem matches_goto (s : StateId) (args : List Value) :
    Matches c (goto r s args) (goto r' s args) :=
  (relates_goto hc hr.relates rfl args).matches id

end

theorem matches_fireTransition (hc : c.Fires .same) (hr : r.Matches c r') (p : Pending)
    (hrecord : ∀ previous new, Matches c (recordHistory previous (some p.transition) new)
      (recordHistory previous (some p.transition) new)) :
    Matches c (fireTransition r p) (fireTransition r' p) := by
  refine (relates_fireTransition hc hr.relates ⟨rfl, rfl⟩ ?_).matches id
  rintro previous previous' new _ hprevious rfl
  obtain rfl := eq_of_optionRel hprevious
  exact (hrecord previous new).relates

end Engine
end Statechart
