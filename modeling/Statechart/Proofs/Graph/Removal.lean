import Mathlib.Data.List.Basic
import Statechart.Proofs.Graph.Restriction

/-!
# Removal

Removing a state leaves exactly what lies outside it: the other states that are not nested in it,
the definitions around or beside them and the transitions between them.
-/

namespace Statechart

namespace Kept

/-- All but some transitions. -/
def dropTransitions (ts : List TransitionId) : Kept :=
  ⟨fun _ => true, fun _ => true, fun t => !ts.contains t⟩

def dropState (s : StateId) : Kept := ⟨(· != s), fun _ => true, fun _ => true⟩

def dropDefinition (d : DefinitionId) : Kept := ⟨fun _ => true, (· != d), fun _ => true⟩

end Kept

namespace Graph

variable {κ : Type} {g g' : Graph κ} {k k' : Kept} {d e : DefinitionId} {s s' c : StateId}
  {t : TransitionId} {x y : Definition κ} {st : State κ} {tr : Transition κ}

/-! ## Single elements -/

theorem restrictDefinition_self (hs : ∀ s ∈ x.states, k.state s = true)
    (ht : ∀ t ∈ x.transitions, k.transition t = true)
    (hm : ∀ m s, x.marked m = some s → k.state s = true) : restrictDefinition k x = x := by
  have hmark (m : Mark) : (x.marked m).filter k.state = x.marked m := by
    cases h : x.marked m with
    | none => rfl
    | some s => rw [Option.filter_some, if_pos (hm m s h)]
  have hstart := hmark .start
  have hfinal := hmark .final
  simp only [Definition.marked] at hstart hfinal
  simp only [restrictDefinition, List.filter_eq_self.mpr hs,
    List.filter_eq_self.mpr ht, hstart, hfinal]

theorem restrictState_self (hi : ∀ t ∈ st.incoming, k.transition t = true)
    (ho : ∀ t ∈ st.outgoing, k.transition t = true) : restrictState k st = st := by
  have hall : ∀ t ∈ st.incoming ++ st.outgoing, k.transition t = true :=
    fun t ht => (List.mem_append.mp ht).elim (hi t) (ho t)
  simp only [restrictState, List.filter_eq_self.mpr hi, List.filter_eq_self.mpr ho, if_pos hall]

theorem eraseDefinition_eq : g.eraseDefinition d = g.restrict (.dropDefinition d) := by
  refine ext_lookups rfl ?_ ?_ ?_ (fun e => ?_) (fun s => ?_) (fun t => ?_)
  · simp only [eraseDefinition, restrict, Arena.size_restrict, Arena.size_erase]
  · simp only [eraseDefinition, restrict, Arena.size_restrict]
  · simp only [eraseDefinition, restrict, Arena.size_restrict]
  · have hself : restrictDefinition (.dropDefinition d) = (id : Definition κ → Definition κ) := by
      funext x
      exact restrictDefinition_self (fun _ _ => rfl) (fun _ _ => rfl) (fun _ _ _ => rfl)
    rw [definition?_restrict, hself, Option.map_id]
    simp only [definition?, eraseDefinition, Arena.get?_erase, DefinitionId.index_inj,
      Kept.dropDefinition, bne_iff_ne, ne_eq, ite_not, id]
  · have hself : restrictState (.dropDefinition d) = (id : State κ → State κ) := by
      funext st
      exact restrictState_self (fun _ _ => rfl) (fun _ _ => rfl)
    rw [state?_restrict, hself, Option.map_id]
    rfl
  · rw [transition?_restrict]
    rfl

theorem restrictDefinition_dropState : restrictDefinition (.dropState s) x = x.forgetState s := by
  have htrue : x.transitions.filter (fun _ => true) = x.transitions :=
    List.filter_eq_self.mpr fun _ _ => rfl
  have hmark (o : Option StateId) : o.filter (· != s) = if o = some s then none else o := by
    cases o with
    | none => rfl
    | some q => simp only [Option.some.injEq, Option.filter_some, bne_iff_ne, ne_eq, ite_not]
  simp only [Definition.forgetState, restrictDefinition, Kept.dropState, htrue, hmark]

theorem Backed.eraseState_eq (h : g.Backed) (hs : g.stateOwner? s = some d) :
    g.eraseState s d = g.restrict (.dropState s) := by
  refine ext_lookups rfl ?_ ?_ ?_ (fun e => ?_) (fun q => ?_) (fun t => ?_)
  · simp only [eraseState, modifyDefinition, Graph.restrict, Arena.size_restrict, Arena.size_modify]
  · simp only [eraseState, modifyDefinition, Graph.restrict, Arena.size_restrict, Arena.size_erase]
  · simp only [eraseState, modifyDefinition, Graph.restrict, Arena.size_restrict]
  · have hk : (Kept.dropState s).definition e = true := rfl
    rw [definition?_restrict, if_pos hk]
    show (g.modifyDefinition d (·.forgetState s)).definition? e = _
    rw [definition?_modifyDefinition]
    cases hx : g.definition? e with
    | none => rfl
    | some x =>
      rw [Option.map_some, Option.map_some, restrictDefinition_dropState]
      split
      · rfl
      · rename_i hne
        have howner {q : StateId} (hq : g.stateOwner? q = some e) : (q != s) = true := by
          refine bne_iff_ne.mpr ?_
          rintro rfl
          rw [hs] at hq
          exact hne (Option.some.inj hq).symm
        have hself : restrictDefinition (.dropState s) x = x :=
          restrictDefinition_self (fun q hq => howner (h.listed.states.owner (statesOf?_of hx) hq))
            (fun _ _ => rfl) fun m q hq => howner (h.marks hx hq)
        rw [← restrictDefinition_dropState, hself]
  · have hself : restrictState (.dropState s) = (id : State κ → State κ) := by
      funext st
      exact restrictState_self (fun _ _ => rfl) (fun _ _ => rfl)
    rw [state?_restrict, hself, Option.map_id]
    show (g.states.erase s.index).get? q.index = _
    simp only [state?, Arena.get?_erase, StateId.index_inj, Kept.dropState, bne_iff_ne,
      ne_eq, ite_not, id]
  · rw [transition?_restrict]
    rfl

theorem dropTransitions_singleton (t : TransitionId) :
    (Kept.dropTransitions [t]).transition = (· != t) := by
  funext u
  simp only [Kept.dropTransitions, List.contains_cons, List.contains_nil, Bool.or_false]
  rfl

theorem restrictDefinition_dropTransition : restrictDefinition (.dropTransitions [t]) x =
    { x with transitions := x.transitions.filter (· != t) } := by
  have htrue : x.states.filter (fun _ => true) = x.states := List.filter_eq_self.mpr fun _ _ => rfl
  have hmark (o : Option StateId) : o.filter (fun _ => true) = o := by cases o <;> rfl
  simp only [restrictDefinition, dropTransitions_singleton]
  simp only [Kept.dropTransitions, htrue, hmark]

/-- A transition is listed at no state but its ends. -/
theorem Listed.forall_incident_ne (h : g.Listed) (ht : g.transition? t = some tr)
    (hs : g.state? s = some st) :
    (∀ u ∈ st.incoming ++ st.outgoing, (u != t) = true) ↔ ¬ (s = tr.target ∨ s = tr.source) := by
  have hmem : t ∈ st.incoming ++ st.outgoing ↔ s = tr.target ∨ s = tr.source := by
    rw [List.mem_append, h.incoming.mem_iff (incoming?_of hs), h.outgoing.mem_iff (outgoing?_of hs),
      target?_of ht, source?_of ht, Option.some.injEq, Option.some.injEq, eq_comm,
      @eq_comm _ tr.source]
  rw [← hmem]
  constructor
  · intro hne hm
    exact bne_iff_ne.mp (hne t hm) rfl
  · intro hnot u hu
    refine bne_iff_ne.mpr ?_
    rintro rfl
    exact hnot hu

theorem Listed.eraseTransition_eq (h : g.Listed) (ht : g.transition? t = some tr) :
    g.eraseTransition t tr = g.restrict (.dropTransitions [t]) := by
  refine ext_lookups rfl ?_ ?_ ?_ (fun e => ?_) (fun q => ?_) (fun u => ?_)
  · simp only [eraseTransition, modifyDefinition, modifyState, Graph.restrict, Arena.size_restrict,
      Arena.size_modify]
  · simp only [eraseTransition, modifyDefinition, modifyState, Graph.restrict, Arena.size_restrict,
      Arena.size_modify]
  · simp only [eraseTransition, modifyDefinition, modifyState, Graph.restrict, Arena.size_restrict,
      Arena.size_erase]
  · have hk : (Kept.dropTransitions [t]).definition e = true := rfl
    rw [definition?_restrict, if_pos hk]
    show (g.modifyDefinition tr.owner _).definition? e = _
    rw [definition?_modifyDefinition]
    cases hx : g.definition? e with
    | none => rfl
    | some x =>
      have hfilter := h.transitions.filter_ne (transitionOwner?_of ht) (transitionsOf?_of hx)
      rw [Option.map_some, Option.map_some, restrictDefinition_dropTransition, ← hfilter]
      split <;> rfl
  · have hk : (Kept.dropTransitions [t]).state q = true := rfl
    rw [state?_restrict, if_pos hk]
    simp only [eraseTransition, state?_modifyState, state?_modifyDefinition, Option.map_map]
    show Option.map _ (g.state? q) = _
    cases hst : g.state? q with
    | none => rfl
    | some st =>
      have hout := h.outgoing.filter_ne (source?_of ht) (outgoing?_of hst)
      have hin := h.incoming.filter_ne (target?_of ht) (incoming?_of hst)
      have hkeep := h.forall_incident_ne ht hst
      rw [Option.map_some, Option.map_some, restrictState, dropTransitions_singleton, ← hout, ← hin]
      simp only [Function.comp, hkeep]
      split <;> split <;> simp only [*, or_true, true_or, or_false, not_true_eq_false,
        not_false_eq_true, if_true, if_false] <;> rfl
  · rw [transition?_restrict, dropTransitions_singleton]
    show (g.transitions.erase t.index).get? u.index = _
    simp only [transition?, Arena.get?_erase, TransitionId.index_inj, bne_iff_ne, ne_eq, ite_not]

theorem restrict_self (hs : ∀ s, k.state s = true) (hd : ∀ d, k.definition d = true)
    (ht : ∀ t, k.transition t = true) : g.restrict k = g := by
  refine ext_lookups rfl ?_ ?_ ?_ (fun d => ?_) (fun s => ?_) (fun t => ?_)
  · simp only [restrict, Arena.size_restrict]
  · simp only [restrict, Arena.size_restrict]
  · simp only [restrict, Arena.size_restrict]
  · have hself : restrictDefinition k = (id : Definition κ → Definition κ) := by
      funext x
      exact restrictDefinition_self (fun s _ => hs s) (fun t _ => ht t) (fun _ s _ => hs s)
    rw [definition?_restrict, if_pos (hd d), hself, Option.map_id]
    rfl
  · have hself : restrictState k = (id : State κ → State κ) := by
      funext st
      exact restrictState_self (fun t _ => ht t) (fun t _ => ht t)
    rw [state?_restrict, if_pos (hs s), hself, Option.map_id]
    rfl
  · rw [transition?_restrict, if_pos (ht t)]

theorem closed_dropTransitions (ts : List TransitionId) : g.Closed (.dropTransitions ts) := by
  constructor <;> (intros; rfl)

/-! ## The transitions at a state -/

section
variable {α : Type} [DecidableEq α]

theorem mem_foldl_distinct {a : α} {xs seen : List α} :
    a ∈ xs.foldl (fun seen x => if x ∈ seen then seen else seen ++ [x]) seen ↔
      a ∈ seen ∨ a ∈ xs := by
  induction xs generalizing seen with
  | nil => simp
  | cons x xs ih =>
    rw [List.foldl_cons, ih, List.mem_cons]
    split
    · constructor
      · rintro (h | h)
        · exact .inl h
        · exact .inr (.inr h)
      · rintro (h | rfl | h)
        · exact .inl h
        · exact .inl ‹_›
        · exact .inr h
    · rw [List.mem_append, List.mem_singleton, or_assoc]

theorem mem_distinct {a : α} {xs : List α} : a ∈ distinct xs ↔ a ∈ xs := by
  rw [distinct, mem_foldl_distinct]
  simp

theorem nodup_distinct (xs : List α) : (distinct xs).Nodup := by
  have h (seen : List α) (hs : seen.Nodup) :
      (xs.foldl (fun seen x => if x ∈ seen then seen else seen ++ [x]) seen).Nodup := by
    induction xs generalizing seen with
    | nil => exact hs
    | cons x xs ih =>
      rw [List.foldl_cons]
      apply ih
      split
      · exact hs
      · rename_i hx
        refine List.nodup_append.mpr ⟨hs, by simp, ?_⟩
        intro a ha b hb hab
        rw [List.mem_singleton.mp hb] at hab
        exact hx (hab ▸ ha)
  exact h [] List.nodup_nil

end

theorem Listed.mem_touching (h : g.Listed) (hs : g.state? s = some st) :
    t ∈ Editor.touching st ↔ ∃ tr, g.transition? t = some tr ∧ (tr.source = s ∨ tr.target = s) := by
  rw [Editor.touching, mem_distinct, List.mem_mergeSort, List.mem_append]
  rw [h.incoming.mem_iff (incoming?_of hs), h.outgoing.mem_iff (outgoing?_of hs), target?, source?]
  cases g.transition? t with
  | none => simp
  | some tr =>
    simp only [Option.map_some, Option.some.injEq, exists_eq_left']
    exact or_comm

/-! ## Outside a state -/

/-- What touches neither a state nor what is nested in it. -/
def outside (g : Graph κ) (s : StateId) : Kept where
  state q := !(g.ancestors q).contains s
  definition d := ((g.definition? d).bind (·.composite)).all fun c => !(g.ancestors c).contains s
  transition t := (g.transition? t).all fun tr =>
    !(g.ancestors tr.source).contains s && !(g.ancestors tr.target).contains s

/-- What lies outside each of some states. -/
def outsideAll (g : Graph κ) (ss : List StateId) : Kept where
  state q := ss.all fun s => (g.outside s).state q
  definition d := ss.all fun s => (g.outside s).definition d
  transition t := ss.all fun s => (g.outside s).transition t

section
variable (h : g.Nested)
include h

theorem not_ancestor_iff : (!(g.ancestors s').contains s) = true ↔ ¬ g.Inside s' s := by
  rw [Bool.not_eq_true', ← Bool.not_eq_true, List.contains_iff_mem, mem_ancestors h]

theorem outside_state : (g.outside s).state s' = true ↔ ¬ g.Inside s' s := not_ancestor_iff h

theorem outside_definition :
    (g.outside s).definition d = true ↔
      ∀ x c, g.definition? d = some x → x.composite = some c → ¬ g.Inside c s := by
  simp only [outside, Option.all_eq_true, not_ancestor_iff h, Option.bind_eq_some_iff]
  constructor
  · intro hc x c hx hxc
    exact hc c ⟨x, hx, hxc⟩
  · rintro hc c ⟨x, hx, hxc⟩
    exact hc x c hx hxc

theorem outside_transition :
    (g.outside s).transition t = true ↔
      ∀ tr, g.transition? t = some tr → ¬ g.Inside tr.source s ∧ ¬ g.Inside tr.target s := by
  simp only [outside, Option.all_eq_true, Bool.and_eq_true, not_ancestor_iff h]

theorem closed_outside : g.Closed (g.outside s) := by
  constructor
  · rw [outside_definition h]
    intro x c hx hc
    obtain ⟨y, hy, hn⟩ := h.root
    rw [hx] at hy
    obtain rfl := Option.some.inj hy
    rw [hn] at hc
    cases hc
  · intro q st hst hq
    rw [outside_state h] at hq
    rw [outside_definition h]
    intro x c hx hc hin
    exact hq (.head (superstate_eq_some.mpr ⟨st, x, hst, hx, hc⟩) hin)
  · intro d x c hx hd hc
    exact (outside_state h).mpr ((outside_definition h).mp hd x c hx hc)
  · intro q st d hst hq hsub
    rw [outside_state h] at hq
    rw [outside_definition h]
    intro x c hx hc
    obtain ⟨y, hy, hyc, -⟩ := h.nested hst hsub
    rw [hx] at hy
    obtain rfl := Option.some.inj hy
    rw [hyc] at hc
    obtain rfl := Option.some.inj hc
    exact hq
  · intro t tr htr ht
    exact (outside_state h).mpr ((outside_transition h).mp ht tr htr).1
  · intro t tr htr ht
    exact (outside_state h).mpr ((outside_transition h).mp ht tr htr).2

end

/-- What is nested in a state is nested in a state right inside it. -/
theorem inside_iff_child :
    g.Inside s' s ↔ s' = s ∨ ∃ q, g.Inside s' q ∧ g.superstate q = some s := by
  constructor
  · intro h
    rcases Relation.ReflTransGen.cases_tail h with rfl | ⟨q, hq, hs⟩
    · exact .inl rfl
    · exact .inr ⟨q, hq, hs⟩
  · rintro (rfl | ⟨q, hq, hs⟩)
    · exact .refl
    · exact hq.tail hs

theorem inside_iff_head :
    g.Inside s' s ↔ s' = s ∨ ∃ c, g.superstate s' = some c ∧ g.Inside c s := by
  constructor
  · intro h
    rcases Relation.ReflTransGen.cases_head h with rfl | ⟨c, hc, hs⟩
    · exact .inl rfl
    · exact .inr ⟨c, hc, hs⟩
  · rintro (rfl | ⟨c, hc, hs⟩)
    · exact .refl
    · exact .head hc hs

/-- What lies outside some states one after the other. -/
theorem Tied.restrict_outsideAll_cons (h : g.Tied) (s : StateId) (ss : List StateId) :
    (g.restrict (g.outside s)).restrict ((g.restrict (g.outside s)).outsideAll ss) =
      g.restrict (g.outsideAll (s :: ss)) := by
  have hk := closed_outside (s := s) h.nested
  have h₁ := h.nested.restrict hk
  rw [restrict_restrict]
  refine h.backed.restrict_congr (fun q st hq => ?_) (fun d x hx => ?_) (fun t tr ht => ?_)
  · rw [Bool.eq_iff_iff]
    simp only [Kept.meet, outsideAll, List.all_cons, Bool.and_eq_true, List.all_eq_true]
    refine and_congr_right fun hout => forall₂_congr fun c _ => ?_
    rw [outside_state h₁, outside_state h.nested, inside_restrict hk hout]
  · rw [Bool.eq_iff_iff]
    simp only [Kept.meet, outsideAll, List.all_cons, Bool.and_eq_true, List.all_eq_true]
    refine and_congr_right fun hout => forall₂_congr fun c _ => ?_
    rw [outside_definition h₁, outside_definition h.nested, definition?_restrict_of hout hx, hx]
    constructor
    · intro hd y q hy hq
      obtain rfl := Option.some.inj hy
      rw [← inside_restrict hk (hk.composite hx hout hq)]
      exact hd _ q rfl hq
    · intro hd y q hy hq
      obtain rfl := Option.some.inj hy
      rw [inside_restrict hk (hk.composite hx hout hq)]
      exact hd x q rfl hq
  · rw [Bool.eq_iff_iff]
    simp only [Kept.meet, outsideAll, List.all_cons, Bool.and_eq_true, List.all_eq_true]
    refine and_congr_right fun hout => forall₂_congr fun c _ => ?_
    rw [outside_transition h₁, outside_transition h.nested, transition?_restrict_of hout ht, ht]
    refine forall₂_congr fun ur hur => ?_
    obtain rfl := Option.some.inj hur
    rw [inside_restrict hk (hk.source ht hout), inside_restrict hk (hk.target ht hout)]

end Graph

namespace Editor

variable {κ α β : Type} {g g' : Graph κ} {s : StateId} {st : State κ}

theorem bind_of_ok {x : Editor κ α} {f : α → Editor κ β} {a : α} (h : x g = .ok a g') :
    (x >>= f) g = f a g' := by
  show EStateM.bind x f g = _
  rw [EStateM.bind, h]

theorem bind_of_error {x : Editor κ α} {f : α → Editor κ β} {e : GraphError}
    (h : x g = .error e g') :
    (x >>= f) g = .error e g' := by
  show EStateM.bind x f g = _
  rw [EStateM.bind, h]

theorem forM_cons_of_ok {f : α → Editor κ Unit} {a : α} {as : List α} (h : f a g = .ok () g') :
    (a :: as).forM f g = as.forM f g' :=
  bind_of_ok h

/-- The transitions of the graph with their handles. -/
def described (g : Graph κ) (ts : List TransitionId) : List (TransitionId × Transition κ) :=
  ts.filterMap fun t => (g.transition? t).map (t, ·)

theorem removeTransition_dead {t : TransitionId} (ht : g.transition? t = none) :
    removeTransition t g = .error (.unknownTransition t.label) g := by
  rw [removeTransition, Graph.transition, ht]

theorem removeTransition_eq {t : TransitionId} {tr : Transition κ} (h : g.Listed)
    (ht : g.transition? t = some tr) :
    removeTransition t g = .ok tr (g.restrict (.dropTransitions [t])) := by
  rw [removeTransition, Graph.transition_ok_iff.mpr ht]
  exact congrArg _ (h.eraseTransition_eq ht)

theorem removeTransitions_eq (h : g.Listed) (ts : List TransitionId) (hnd : ts.Nodup)
    (hlive : ∀ t ∈ ts, ∃ tr, g.transition? t = some tr) :
    removeTransitions ts g = .ok (described g ts) (g.restrict (.dropTransitions ts)) := by
  induction ts generalizing g with
  | nil =>
    rw [Graph.restrict_self (fun _ => rfl) (fun _ => rfl) (fun _ => rfl)]
    rfl
  | cons t ts ih =>
    obtain ⟨tr, htr⟩ := hlive t List.mem_cons_self
    obtain ⟨hnt, hnd'⟩ := List.nodup_cons.mp hnd
    let g₁ := g.restrict (.dropTransitions [t])
    have hold {u : TransitionId} (hu : u ∈ ts) : g₁.transition? u = g.transition? u := by
      rw [Graph.transition?_restrict, if_pos]
      have hne : u ≠ t := fun he => hnt (he ▸ hu)
      simp [Kept.dropTransitions, hne]
    have hfirst : removeTransition t g = .ok tr g₁ := removeTransition_eq h htr
    have hrest : removeTransitions ts g₁ = .ok (described g ts)
        (g.restrict (.dropTransitions (t :: ts))) := by
      rw [ih h.restrict hnd' fun u hu => by rw [hold hu]; exact hlive u (List.mem_cons_of_mem _ hu)]
      congr 1
      · exact List.filterMap_congr fun u hu => by rw [hold hu]
      · rw [Graph.restrict_restrict]
        congr 1
        simp only [Kept.meet, Kept.dropTransitions, Bool.and_self, Kept.mk.injEq, true_and]
        funext u
        simp only [List.contains_cons, List.contains_nil, Bool.or_false, Bool.not_or]
    have hpair : (do pure (t, ← removeTransition t) : Editor κ _) g = .ok (t, tr) g₁ := by
      rw [bind_of_ok hfirst]
      rfl
    rw [removeTransitions, List.mapM_cons, bind_of_ok hpair]
    rw [removeTransitions] at hrest
    have hd : described g (t :: ts) = (t, tr) :: described g ts := by
      rw [described, List.filterMap_cons, htr]
      rfl
    rw [bind_of_ok hrest, hd]
    rfl

/-- A graph without a state, what is nested in it and what touches these. -/
def RemovesBelow (n : Nat) (κ : Type) : Prop :=
  ∀ {g : Graph κ} {s : StateId} {st : State κ}, g.Tied → g.state? s = some st →
    g.definitions.size ≤ n + st.owner.index →
    removeStateBelow n s g = .ok (described g (touching st)) (g.restrict (g.outside s))

/-- The states of one definition go one after the other. -/
theorem RemovesBelow.forM {n : Nat} (hn : RemovesBelow n κ) {d : DefinitionId} {ss : List StateId}
    (h : g.Tied) (hnd : ss.Nodup) (hss : ∀ s ∈ ss, ∃ st, g.state? s = some st ∧ st.owner = d)
    (hsize : g.definitions.size ≤ n + d.index) :
    (ss.forM fun s => do let _ ← removeStateBelow n s) g =
      .ok () (g.restrict (g.outsideAll ss)) := by
  induction ss generalizing g with
  | nil =>
    rw [Graph.restrict_self (fun _ => rfl) (fun _ => rfl) (fun _ => rfl)]
    rfl
  | cons s ss ih =>
    obtain ⟨st, hst, rfl⟩ := hss s List.mem_cons_self
    obtain ⟨hns, hnd'⟩ := List.nodup_cons.mp hnd
    have hfirst : (do let _ ← removeStateBelow n s : Editor κ Unit) g =
        .ok () (g.restrict (g.outside s)) := by
      rw [bind_of_ok (hn h hst hsize)]
      rfl
    refine Eq.trans (forM_cons_of_ok hfirst) ?_
    rw [← h.restrict_outsideAll_cons]
    refine ih (h.restrict (Graph.closed_outside h.nested)) hnd' ?_ ?_
    · intro q hq
      obtain ⟨qt, hqt, ho⟩ := hss q (List.mem_cons_of_mem _ hq)
      -- Two states of one definition are side by side, so neither is inside the other.
      have hout : (g.outside s).state q = true := by
        rw [Graph.outside_state h.nested, Graph.inside_iff_head]
        rintro (rfl | ⟨c, hc, hcs⟩)
        · exact hns hq
        · obtain ⟨qt', x, hqt', hx, hxc⟩ := Graph.superstate_eq_some.mp hc
          rw [hqt] at hqt'
          obtain rfl := Option.some.inj hqt'
          have hlt := h.nested.deeper hst (ho ▸ hx) hxc
          have hle := hcs.index_le h.nested
          omega
      exact ⟨_, Graph.state?_restrict_of hout hqt, ho⟩
    · rw [Graph.size_restrict]
      exact hsize

/-- What is not inside a state is another state and not inside one right below it. -/
theorem not_inside_iff {q : StateId} :
    ¬ g.Inside q s ↔ q ≠ s ∧ ∀ c, g.superstate c = some s → ¬ g.Inside q c := by
  rw [Graph.inside_iff_child]
  constructor
  · intro hq
    exact ⟨fun he => hq (.inl he), fun c hc hin => hq (.inr ⟨c, hin, hc⟩)⟩
  · rintro ⟨hne, hc⟩ (he | ⟨c, hin, hcs⟩)
    · exact hne he
    · exact hc c hcs hin

theorem outside_definition_iff (h : g.Tied) (hst : g.state? s = some st) {d : DefinitionId}
    {x : Definition κ} (hx : g.definition? d = some x) :
    (g.outside s).definition d = true ↔ st.submachine ≠ some d ∧
      ∀ q c, x.composite = some q → g.superstate c = some s → ¬ g.Inside q c := by
  rw [Graph.outside_definition h.nested]
  constructor
  · intro hc
    constructor
    · intro hsub
      obtain ⟨y, hy, hyc, -⟩ := h.nested.nested hst hsub
      exact hc y s hy hyc .refl
    · intro q c hq hcs
      exact (not_inside_iff.mp (hc x q hx hq)).2 c hcs
  · rintro ⟨hsub, hc⟩ y q hy hq
    rw [hx] at hy
    obtain rfl := Option.some.inj hy
    refine not_inside_iff.mpr ⟨?_, fun c hcs => hc q c hq hcs⟩
    rintro rfl
    obtain ⟨st', hst', hsub'⟩ := h.nested.composite_live hx hq
    rw [hst] at hst'
    obtain rfl := Option.some.inj hst'
    exact hsub hsub'

theorem outside_transition_iff (h : g.Tied) (hst : g.state? s = some st) {t : TransitionId}
    {tr : Transition κ} (ht : g.transition? t = some tr) :
    (g.outside s).transition t = true ↔ t ∉ touching st ∧
      ∀ c, g.superstate c = some s → ¬ g.Inside tr.source c ∧ ¬ g.Inside tr.target c := by
  rw [Graph.outside_transition h.nested, h.listed.mem_touching hst]
  constructor
  · intro hout
    obtain ⟨hsrc, htgt⟩ := hout tr ht
    rw [not_inside_iff] at hsrc htgt
    constructor
    · rintro ⟨ur, hur, hends⟩
      rw [ht] at hur
      obtain rfl := Option.some.inj hur
      exact hends.elim hsrc.1 htgt.1
    · exact fun c hcs => ⟨hsrc.2 c hcs, htgt.2 c hcs⟩
  · rintro ⟨htouch, hc⟩ ur hur
    rw [ht] at hur
    obtain rfl := Option.some.inj hur
    rw [not_inside_iff, not_inside_iff]
    exact ⟨⟨fun he => htouch ⟨tr, ht, .inl he⟩, fun c hcs => (hc c hcs).1⟩,
      ⟨fun he => htouch ⟨tr, ht, .inr he⟩, fun c hcs => (hc c hcs).2⟩⟩

/-- To keep what lies outside a state is to drop the state itself, the definition nested in it, what
touches it, and what lies inside the states right below it. -/
theorem outside_eq (h : g.Tied) (hst : g.state? s = some st) {k : Kept}
    (hstate : ∀ q qt, g.state? q = some qt → (k.state q = true ↔
      q ≠ s ∧ ∀ c, g.superstate c = some s → ¬ g.Inside q c))
    (hdefinition : ∀ d x, g.definition? d = some x → (k.definition d = true ↔
      st.submachine ≠ some d ∧
        ∀ q c, x.composite = some q → g.superstate c = some s → ¬ g.Inside q c))
    (htransition : ∀ t tr, g.transition? t = some tr → (k.transition t = true ↔
      t ∉ touching st ∧
        ∀ c, g.superstate c = some s → ¬ g.Inside tr.source c ∧ ¬ g.Inside tr.target c)) :
    g.restrict k = g.restrict (g.outside s) := by
  refine h.backed.restrict_congr (fun q qt hq => ?_) (fun d x hx => ?_) (fun t tr ht => ?_)
  · rw [Bool.eq_iff_iff, hstate q qt hq, Graph.outside_state h.nested, not_inside_iff]
  · rw [Bool.eq_iff_iff, hdefinition d x hx, outside_definition_iff h hst hx]
  · rw [Bool.eq_iff_iff, htransition t tr ht, outside_transition_iff h hst ht]

/-- The last step of removing a state that has nothing nested in it. -/
theorem eraseState_outside (h : g.Tied) (hst : g.state? s = some st) (hsub : st.submachine = none) :
    (g.restrict (.dropTransitions (touching st))).eraseState s st.owner =
      g.restrict (g.outside s) := by
  have h₁ := h.restrict (Graph.closed_dropTransitions (touching st))
  have ho : (g.restrict (.dropTransitions (touching st))).stateOwner? s = some st.owner := by
    rw [Graph.stateOwner?, Graph.state?_restrict_of rfl hst]
    rfl
  have hno (c : StateId) := h.nested.superstate_ne (c := c) hst hsub
  rw [h₁.backed.eraseState_eq ho, Graph.restrict_restrict]
  apply outside_eq h hst
  · intro q qt hq
    simp [Kept.meet, Kept.dropTransitions, Kept.dropState, hno]
  · intro d x hx
    simp [Kept.meet, Kept.dropTransitions, Kept.dropState, hno, hsub]
  · intro t tr ht
    simp [Kept.meet, Kept.dropTransitions, Kept.dropState, hno]

section
variable {ts : List TransitionId}

theorem inside_dropTransitions {q : StateId} :
    (g.restrict (.dropTransitions ts)).Inside q c ↔ g.Inside q c :=
  Graph.inside_restrict (Graph.closed_dropTransitions ts) rfl

/-- What lies outside a state is the same definitions when some transitions are gone. -/
theorem outside_definition_dropTransitions (h : g.Tied) {e : DefinitionId} {y : Definition κ}
    (hy : g.definition? e = some y) :
    ((g.restrict (.dropTransitions ts)).outside c).definition e = true ↔
      ∀ q, y.composite = some q → ¬ g.Inside q c := by
  rw [Graph.outside_definition (h.restrict (Graph.closed_dropTransitions ts)).nested]
  constructor
  · intro hc q hq
    rw [← inside_dropTransitions]
    exact hc _ q (Graph.definition?_restrict_of rfl hy) hq
  · intro hc z q hz hq
    obtain ⟨z, -, hz', rfl⟩ := Graph.of_definition?_restrict hz
    rw [hy] at hz'
    obtain rfl := Option.some.inj hz'
    rw [inside_dropTransitions]
    exact hc q hq

theorem outside_transition_dropTransitions (h : g.Tied) {t : TransitionId} {tr : Transition κ}
    (ht : g.transition? t = some tr) (hkeep : (Kept.dropTransitions ts).transition t = true) :
    ((g.restrict (.dropTransitions ts)).outside c).transition t = true ↔
      ¬ g.Inside tr.source c ∧ ¬ g.Inside tr.target c := by
  simp only [Graph.outside_transition (h.restrict (Graph.closed_dropTransitions ts)).nested,
    Graph.transition?_restrict_of hkeep ht, Option.some.injEq, forall_eq', inside_dropTransitions]

end

/-- The last steps of removing a composite state, after the states nested right in it. -/
theorem eraseComposite_outside (h : g.Tied) (hst : g.state? s = some st) {d : DefinitionId}
    (hsub : st.submachine = some d) {x : Definition κ} (hx : g.definition? d = some x)
    {g₁ : Graph κ} (hg₁ : g₁ = g.restrict (.dropTransitions (touching st))) :
    ((g₁.restrict (g₁.outsideAll x.states)).eraseDefinition d).eraseState s st.owner =
      g.restrict (g.outside s) := by
  have h₁ : g₁.Tied := hg₁ ▸ h.restrict (Graph.closed_dropTransitions (touching st))
  have hchild (c : StateId) := h.mem_states_iff (c := c) hst hsub hx
  have hself : (g₁.outsideAll x.states).state s = true := by
    refine List.all_eq_true.mpr fun c hc => (Graph.outside_state h₁.nested).mpr fun hin => ?_
    rw [hg₁, inside_dropTransitions] at hin
    have hle := hin.index_le h.nested
    have hlt := h.nested.superstate_lt ((hchild c).mp hc)
    omega
  have ho : ((g₁.restrict (g₁.outsideAll x.states)).restrict (.dropDefinition d)).stateOwner? s =
      some st.owner := by
    rw [hg₁] at hself ⊢
    rw [Graph.stateOwner?, Graph.state?_restrict_of rfl
      (Graph.state?_restrict_of hself (Graph.state?_restrict_of rfl hst))]
    rfl
  rw [Graph.eraseDefinition_eq, h₁.backed.restrict.restrict.eraseState_eq ho,
    Graph.restrict_restrict, Graph.restrict_restrict, hg₁, Graph.restrict_restrict]
  rw [hg₁] at h₁
  apply outside_eq h hst
  · intro q qt hq
    simp only [Kept.meet, Graph.outsideAll, Bool.and_eq_true, List.all_eq_true,
      Graph.outside_state h₁.nested, inside_dropTransitions, hchild]
    simp only [Kept.dropTransitions, Kept.dropDefinition, Kept.dropState, bne_iff_ne, true_and]
    exact and_comm
  · intro e y hy
    simp only [Kept.meet, Graph.outsideAll, Bool.and_eq_true, List.all_eq_true,
      outside_definition_dropTransitions h hy, hchild]
    simp only [Kept.dropTransitions, Kept.dropDefinition, Kept.dropState, bne_iff_ne,
      true_and, and_true, hsub, ne_eq, Option.some.injEq]
    constructor
    · rintro ⟨hc, hne⟩
      exact ⟨fun he => hne he.symm, fun q c hq hcs => hc c hcs q hq⟩
    · rintro ⟨hne, hc⟩
      exact ⟨fun c hcs q hq => hc q c hq hcs, fun he => hne he.symm⟩
  · intro t tr ht
    simp only [Kept.meet, Graph.outsideAll, Bool.and_eq_true, List.all_eq_true]
    by_cases htouch : t ∈ touching st
    · simp [Kept.dropTransitions, htouch]
    · have hkeep : (Kept.dropTransitions (touching st)).transition t = true := by
        simp [Kept.dropTransitions, htouch]
      simp only [hkeep, outside_transition_dropTransitions h ht hkeep, hchild, htouch]
      simp [Kept.dropDefinition, Kept.dropState]

theorem removesBelow (n : Nat) : RemovesBelow n κ := by
  induction n with
  | zero =>
    intro g s st h hst hsize
    obtain ⟨x, hx⟩ := h.placed.owner hst
    have hlt := Graph.definition?_lt hx
    omega
  | succ n ih =>
    intro g s st h hst hsize
    have htouch {t : TransitionId} := h.listed.mem_touching (t := t) hst
    have hfirst := removeTransitions_eq h.listed (touching st) (Graph.nodup_distinct _)
      fun t ht => (htouch.mp ht).imp fun tr htr => htr.1
    have hquery : (query (·.state s) : Editor κ _) g = .ok st g := by
      rw [query, Graph.state_ok_iff.mpr hst]
    rw [removeStateBelow, bind_of_ok hquery, bind_of_ok hfirst]
    cases hsub : st.submachine with
    | none =>
      exact congrArg (EStateM.Result.ok (described g (touching st))) (eraseState_outside h hst hsub)
    | some nested =>
      obtain ⟨x, hx, -, hlt⟩ := h.nested.nested hst hsub
      let g₁ := g.restrict (.dropTransitions (touching st))
      have h₁ : g₁.Tied := h.restrict (Graph.closed_dropTransitions _)
      have hx₁ : g₁.definition? nested = some (Graph.restrictDefinition _ x) :=
        Graph.definition?_restrict_of rfl hx
      have hstates : (Graph.restrictDefinition (.dropTransitions (touching st)) x).states =
          x.states :=
        List.filter_eq_self.mpr fun _ _ => rfl
      have hquery₁ : (query (·.definition nested) : Editor κ _) g₁ =
          .ok (Graph.restrictDefinition (.dropTransitions (touching st)) x) g₁ := by
        rw [query, Graph.definition_ok_iff.mpr hx₁]
      have hloop : (x.states.forM fun q => do let _ ← removeStateBelow n q) g₁ =
          .ok () (g₁.restrict (g₁.outsideAll x.states)) := by
        refine ih.forM (d := nested) h₁ (h.listed.nodup_states hx) ?_ ?_
        · intro q hq
          obtain ⟨qt, hqt, ho⟩ := h.listed.state_live hx hq
          exact ⟨_, Graph.state?_restrict_of rfl hqt, ho⟩
        · rw [Graph.size_restrict]
          omega
      rw [← hstates] at hloop
      refine (bind_of_ok hquery₁).trans ((bind_of_ok hloop).trans ?_)
      rw [hstates]
      exact congrArg (EStateM.Result.ok (described g (touching st)))
        (eraseComposite_outside h hst hsub hx rfl)

theorem removeState_dead (hs : g.state? s = none) :
    removeState s g = .error (.unknownState s.label) g := by
  have hquery : (query (·.state s) : Editor κ _) g = .error (.unknownState s.label) g := by
    rw [query, Graph.state, hs]
  show removeStateBelow (g.definitions.size + 1) s g = _
  rw [removeStateBelow, bind_of_error hquery]

/-- Removing a live state leaves what lies outside it and returns the transitions that touched
it. -/
theorem removeState_eq (h : g.Tied) (hst : g.state? s = some st) :
    removeState s g = .ok (described g (touching st)) (g.restrict (g.outside s)) :=
  removesBelow _ h hst (by omega)

end Editor
end Statechart
