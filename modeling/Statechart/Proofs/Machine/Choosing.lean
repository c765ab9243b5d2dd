import Statechart.Proofs.Machine.Selection

/-!
# Ways of choosing

A transition can be chosen by its handle, by its name, by where it leads, or for being the only one.
Each of these requests goes through the candidates on its own, in an order of its own of tests and
guards. With guards that stick to their answers, all choose from one list: the candidates whose
guards pass.
-/

namespace Statechart

open Json

variable {σ κ α β : Type}

/-- Of a list without repetitions exactly one member has a property if that is what is left of the
list. -/
theorem filter_eq_singleton_iff {xs : List α} (hnd : xs.Nodup) {p : α → Bool} {x : α} :
    xs.filter p = [x] ↔ ∀ y, y ∈ xs ∧ p y = true ↔ y = x := by
  rw [← List.perm_singleton, List.perm_ext_iff_of_nodup (hnd.filter p) (List.nodup_singleton x)]
  simp

theorem filter_beq_eq_singleton_iff [BEq α] [LawfulBEq α] {xs : List α} (hnd : xs.Nodup) {x y : α} :
    xs.filter (· == x) = [y] ↔ y = x ∧ y ∈ xs := by
  simp only [filter_eq_singleton_iff hnd, beq_iff_eq]
  constructor
  · intro hsole
    obtain ⟨hy, rfl⟩ := (hsole y).mpr rfl
    exact ⟨rfl, hy⟩
  · rintro ⟨rfl, hy⟩ z
    exact ⟨fun hz => hz.2, fun hz => ⟨hz ▸ hy, hz⟩⟩

/-! ## Guards that stick to their answers -/

namespace World

/-- The world once guards of the transitions have been asked, as often and in whatever order one
likes. -/
def Consulted (r : Responder σ κ) (args : List Value) (ts : List TransitionId)
    (w v : World σ κ) : Prop :=
  ∃ asked env, w.Asked r args asked env ∧ (∀ a ∈ asked, a.1 ∈ ts) ∧ v = w.hearing asked env

/-- Asking the guards of the transitions never fails, leaves all but the environment alone, and
gives the same answer for a transition each time. -/
def Firm (r : Responder σ κ) (args : List Value) (ts : List TransitionId)
    (passes : TransitionId → Bool) (w : World σ κ) : Prop :=
  ∀ v, w.Consulted r args ts v → ∀ t ∈ ts, ∃ answer env,
    Engine.invoke r .guard (.transition t) args v = .ok answer { v with env } ∧
    answer.getD true = passes t

/-- The world once a transition is in the slot of the machine, and that told. -/
def queued (w : World σ κ) (t : TransitionId) (args : List Value) : World σ κ :=
  (w.mapMachine fun m => { m with pending := some ⟨t, args⟩ }).notify (.transitionQueued t)

variable {r : Responder σ κ} {args : List Value} {ts : List TransitionId}
  {passes : TransitionId → Bool} {w v : World σ κ} {t : TransitionId}

theorem Consulted.machine (h : w.Consulted r args ts v) : v.machine = w.machine := by
  obtain ⟨asked, env, -, -, rfl⟩ := h
  rfl

theorem Consulted.logs (h : w.Consulted r args ts v) : v.logs = w.logs := by
  obtain ⟨asked, env, -, -, rfl⟩ := h
  rfl

/-- A firm guard can be asked once more. -/
theorem Firm.guard (hfirm : w.Firm r args ts passes) (hv : w.Consulted r args ts v) (ht : t ∈ ts) :
    ∃ v', w.Consulted r args ts v' ∧ Engine.guard r t args v = .ok (passes t) v' := by
  obtain ⟨answer, env', hanswer, hpasses⟩ := hfirm v hv t ht
  obtain ⟨asked, env, hasked, hin, rfl⟩ := hv
  obtain ⟨hasked', hguard⟩ := Engine.asked_answer hasked hanswer
  rw [hpasses] at hguard
  refine ⟨_, ⟨_, _, hasked', fun a ha => ?_, rfl⟩, hguard⟩
  rcases List.mem_append.mp ha with ha | ha
  · exact hin a ha
  · rw [List.mem_singleton.mp ha]
    exact ht

end World

/-! ## Requests that choose -/

namespace Request

/-- The request chooses among the transitions whose guards pass for the arguments, or tells of
them. -/
def Chooses (args : List Value) : Request κ → Prop
  | .valid a | .hasValid a | .transitionsTo _ a | .canTransitionTo _ a | .transitionNamed _ a
    | .transitionById _ a
  | .transitionTo _ a | .transitionToNext a | .tryTransitionToNext a | .transitionIfValid a =>
    a = args
  | _ => False

/-- The transition that the outcome of a request says it has chosen. -/
def chosen? : (q : Request κ) → Except MachineError q.Answer → Option TransitionId
  | .transitionNamed .., .ok t | .transitionById .., .ok t | .transitionTo ..,
      .ok t | .transitionToNext _, .ok t =>
    some t
  | .tryTransitionToNext _, .ok o | .transitionIfValid _, .ok o => o
  | _, _ => none

/-- Those of the transitions that pass that a request chooses from. -/
def choices (g : Graph κ) (valid : List TransitionId) : Request κ → List TransitionId
  | .transitionNamed name _ => valid.filter fun t => (g.transition? t).any (·.name == name)
  | .transitionById t _ => valid.filter (· == t)
  | .transitionTo c _ => valid.filter fun t => g.target? t == some c
  | .transitionToNext _ | .tryTransitionToNext _ | .transitionIfValid _ => valid
  | _ => []

end Request

/-- A machine at rest in a state, with nothing in its slot and not at its end. -/
structure Machine.Open (m : Machine κ) (s : StateId) : Prop where
  tied : m.graph.Tied
  phase : m.phase = .idle
  active : m.active = some s
  atEnd : m.atEnd = false
  pending : m.pending = none

namespace Engine

variable {r : Responder σ κ} {args : List Value} {s c : StateId} {ts us : List TransitionId}
  {w v v' : World σ κ} {passes : TransitionId → Bool} {t : TransitionId}
  {told : Except MachineError α → Option TransitionId} {o : Except MachineError α}
  {x : Engine σ κ α}

/-! ## Asking in a loop -/

theorem consulted_filterAuxM {p : TransitionId → Bool} {f : TransitionId → Engine σ κ Bool}
    (hfirm : w.Firm r args ts passes) (hus : us ⊆ ts)
    (hf : ∀ t ∈ us, ∀ v, v.machine = w.machine → f t v = if p t then
      guard r t args v else .ok false v)
    (hv : w.Consulted r args ts v) (kept : List TransitionId) :
    ∃ v', w.Consulted r args ts v' ∧
      us.filterAuxM f kept v = .ok ((us.filter fun t => p t && passes t).reverse ++ kept) v' := by
  induction us generalizing kept v with
  | nil => exact ⟨v, hv, rfl⟩
  | cons t us ih =>
    obtain ⟨ht, hus⟩ := List.cons_subset.mp hus
    have hstep : ∃ v', w.Consulted r args ts v' ∧ f t v = .ok (p t && passes t) v' := by
      rw [hf t List.mem_cons_self v hv.machine]
      cases p t with
      | false => exact ⟨v, hv, rfl⟩
      | true => exact hfirm.guard hv ht
    obtain ⟨v₁, hv₁, hstep⟩ := hstep
    have hrest := ih hus (fun u hu => hf u (List.mem_cons_of_mem t hu)) hv₁
    rw [List.filterAuxM, bind_of_ok hstep, List.filter_cons]
    cases p t && passes t with
    | false => exact hrest kept
    | true =>
      obtain ⟨v₂, hv₂, hrun⟩ := hrest (t :: kept)
      refine ⟨v₂, hv₂, ?_⟩
      simpa using hrun

/-- A loop that asks the guards of those transitions that pass a test keeps those that pass both. -/
theorem consulted_filterM {p : TransitionId → Bool} {f : TransitionId → Engine σ κ Bool}
    (hfirm : w.Firm r args ts passes) (hus : us ⊆ ts)
    (hf : ∀ t ∈ us, ∀ v, v.machine = w.machine → f t v = if p t then
      guard r t args v else .ok false v)
    (hv : w.Consulted r args ts v) :
    ∃ v', w.Consulted r args ts v' ∧ us.filterM f v =
      .ok (us.filter fun t => p t && passes t) v' := by
  obtain ⟨v', hv', hrun⟩ := consulted_filterAuxM hfirm hus hf hv []
  refine ⟨v', hv', ?_⟩
  rw [List.filterM, bind_of_ok hrun, List.append_nil]
  exact congrArg (EStateM.Result.ok · v') (List.reverse_reverse _)

theorem consulted_passing (hfirm : w.Firm r args ts passes) (hus : us ⊆ ts)
    (hv : w.Consulted r args ts v) :
    ∃ v', w.Consulted r args ts v' ∧ passing r args us v = .ok (us.filter passes) v' := by
  obtain ⟨v', hv', hrun⟩ := consulted_filterM (p := fun _ => true) hfirm hus (fun t _ v _ => rfl) hv
  exact ⟨v', hv', hrun⟩

section
variable (hopen : w.machine.Open s) (hfirm : w.Firm r args (w.machine.outbound s) passes)
  (hv : w.Consulted r args (w.machine.outbound s) v)
include hopen hv

theorem candidates_consulted : candidates v = .ok (w.machine.outbound s) v := by
  rw [← hv.machine]
  exact candidates_outbound (hv.machine ▸ hopen.tied) (hv.machine ▸ hopen.active)

include hfirm

theorem consulted_validTransitions : ∃ v', w.Consulted r args (w.machine.outbound s) v' ∧
    validTransitions r args v = .ok ((w.machine.outbound s).filter passes) v' := by
  rw [validTransitions, bind_of_ok (candidates_consulted hopen hv)]
  exact consulted_passing hfirm (List.Subset.refl _) hv

theorem consulted_transitionsTo (c : StateId) : ∃ v', w.Consulted r args (w.machine.outbound s) v' ∧
    transitionsTo r c args v = .ok (((w.machine.outbound s).filter passes).filter fun t =>
      w.machine.graph.target? t == some c) v' := by
  rw [transitionsTo, machine_bind, bind_of_ok (candidates_consulted hopen hv),
    List.filter_filter, hv.machine]
  refine consulted_filterM hfirm (List.Subset.refl _) (fun t ht u hu => ?_) hv
  obtain ⟨tr, htr, -⟩ := (Machine.mem_outbound hopen.tied).mp ht
  rw [Graph.transition_ok_iff.mpr htr, Graph.target?_of htr]
  simp only [ofGraph, pure_bind]
  by_cases htarget : tr.target = c
  · simp [htarget]
  · simp [htarget]
    rfl

end

/-! ## Picking one -/

/-- Guards are asked. Then the only transition of the list is queued, which the outcome tells, or,
if the list has none or several, nothing is. -/
def Picks (r : Responder σ κ) (args : List Value) (ts : List TransitionId) (w : World σ κ)
    (us : List TransitionId) (told : Except MachineError α → Option TransitionId) (x : Engine σ κ α)
    (v : World σ κ) : Prop :=
  ∃ o v', w.Consulted r args ts v' ∧
    ((∃ t, us = [t] ∧ told o = some t ∧ attempt x v = .ok o (v'.queued t args)) ∨
      (∀ t, us ≠ [t]) ∧ told o = none ∧ attempt x v = .ok o v')

theorem attempt_bind_of_ok {y : Engine σ κ β} {b : β} {f : β → Engine σ κ α} (h : y v = .ok b v') :
    attempt (y >>= f) v = attempt (f b) v' := by
  rw [attempt, attempt, bind_of_ok h]

theorem Picks.of_bind {y : Engine σ κ β} {b : β} {f : β → Engine σ κ α} (hy : y v = .ok b v')
    (h : Picks r args ts w us told (f b) v') : Picks r args ts w us told (y >>= f) v := by
  obtain ⟨o, v₁, hv₁, h⟩ := h
  refine ⟨o, v₁, hv₁, ?_⟩
  rwa [attempt_bind_of_ok hy]

theorem picks_none (hv : w.Consulted r args ts v') (hx : attempt x v = .ok o v')
    (hus : ∀ t, us ≠ [t]) (htold : told o = none) : Picks r args ts w us told x v :=
  ⟨o, v', hv, .inr ⟨hus, htold, hx⟩⟩

theorem picks_single (hv : w.Consulted r args ts v') (hx : attempt x v = .ok o (v'.queued t args))
    (htold : told o = some t) : Picks r args ts w [t] told x v :=
  ⟨o, v', hv, .inl ⟨t, rfl, htold, hx⟩⟩

/-- A transition is in the slot in the end exactly if it is the only one of the list. -/
theorem Picks.queues_iff (h : Picks r args ts w us told x v) (hempty : w.machine.pending = none) :
    (∃ o v', attempt x v = .ok o v' ∧ v'.machine.pending = some ⟨t, args⟩) ↔ us = [t] := by
  obtain ⟨o, v', hv', ⟨u, rfl, -, hx⟩ | ⟨hnone, -, hx⟩⟩ := h
  · constructor
    · rintro ⟨o', v'', hx', hp⟩
      obtain ⟨-, rfl⟩ := EStateM.Result.ok.inj (hx.symm.trans hx')
      obtain ⟨rfl, -⟩ := Pending.mk.inj (Option.some.inj hp)
      rfl
    · intro heq
      obtain ⟨rfl, -⟩ := List.cons.inj heq
      exact ⟨o, _, hx, rfl⟩
  · constructor
    · rintro ⟨o', v'', hx', hp⟩
      obtain ⟨-, rfl⟩ := EStateM.Result.ok.inj (hx.symm.trans hx')
      rw [hv'.machine, hempty] at hp
      cases hp
    · intro heq
      exact absurd heq (hnone t)

/-- Nothing but the slot is changed, and that only for what the outcome tells. -/
theorem Picks.frame (h : Picks r args ts w us told x v) :
    ∃ o v', attempt x v = .ok o v' ∧ v'.logs = w.logs ∧
    v'.machine = match told o with
      | some t => { w.machine with pending := some ⟨t, args⟩ }
      | none => w.machine := by
  obtain ⟨o, v', hv', ⟨u, -, htold, hx⟩ | ⟨-, htold, hx⟩⟩ := h
  · refine ⟨o, _, hx, hv'.logs, ?_⟩
    rw [htold, ← hv'.machine]
    rfl
  · refine ⟨o, v', hx, hv'.logs, ?_⟩
    rw [htold]
    exact hv'.machine

section
variable (hopen : w.machine.Open s) (hv : w.Consulted r args (w.machine.outbound s) v)
include hopen hv

/-- A candidate is queued. -/
theorem queueTransition_queued (ht : t ∈ w.machine.outbound s) :
    queueTransition t args v = .ok () (v.queued t args) := by
  have hm := hv.machine
  exact queueTransition_of_candidate (hm ▸ Machine.inTransit_of_idle hopen.phase)
    (hm ▸ hopen.pending)
    (hm ▸ hopen.atEnd) (hm ▸ hopen.active) (hm ▸ Machine.candidatesFrom_eq hopen.tied s) ht

theorem queueOnly_single (ht : t ∈ w.machine.outbound s) (missing : Machine κ → MachineError) :
    queueOnly missing [t] args v = .ok t (v.queued t args) := by
  rw [queueOnly, bind_of_ok (queueTransition_queued hopen hv ht)]
  rfl

theorem picks_queueOnly {told : Except MachineError TransitionId → Option TransitionId}
    (hus : us ⊆ w.machine.outbound s) (missing : Machine κ → MachineError)
    (hok : ∀ t, told (.ok t) = some t) (herror : ∀ e, told (.error e) = none) :
    Picks r args (w.machine.outbound s) w us told (queueOnly missing us args) v := by
  match us with
  | [] => exact picks_none hv (attempt_of_error rfl) (by simp) (herror _)
  | [t] => exact picks_single hv (attempt_of_ok
    (queueOnly_single hopen hv (hus List.mem_cons_self) missing)) (hok t)
  | _ :: _ :: _ => exact picks_none hv (attempt_of_error rfl) (by simp) (herror _)

/-- A transition that is no candidate cannot be chosen by its handle. -/
theorem transitionById_refused (ht : t ∉ w.machine.outbound s) :
    ∃ e, transitionById r t args v = .error (.fault e) v := by
  have hout : (w.machine.outbound s).contains t = false := by simpa using ht
  rw [transitionById, machine_bind, hv.machine]
  cases w.machine.graph.transition t with
  | error e => exact ⟨.graph e, rfl⟩
  | ok tr =>
    simp only [ofGraph, pure_bind]
    rw [bind_of_ok (candidates_consulted hopen hv), hout]
    exact ⟨_, rfl⟩

/-- Of a candidate the source is active, so that all is up to the guard. -/
theorem transitionById_asks (ht : t ∈ w.machine.outbound s) : transitionById r t args v =
    (guard r t args >>= fun passed => do
      if passed then
        queueTransition t args
        pure t
      else fail (.cannotTransition ((← machine).graph.pathOfTransition t) .guardRejected)) v := by
  obtain ⟨tr, htr, ⟨hsource, -⟩, -⟩ := (Machine.mem_outbound hopen.tied).mp ht
  have hactive : w.machine.isActive tr.source = true := by
    rw [Machine.isActive, hopen.active]
    exact List.contains_iff_mem.mpr hsource
  rw [transitionById, machine_bind, hv.machine, Graph.transition_ok_iff.mpr htr]
  simp only [ofGraph, pure_bind]
  rw [bind_of_ok (candidates_consulted hopen hv), List.contains_iff_mem.mpr ht, hactive]
  rfl

variable (hfirm : w.Firm r args (w.machine.outbound s) passes)
include hfirm

/-- A transition chosen by its handle is queued if it is a candidate whose guard passes. -/
theorem picks_transitionById {told : Except MachineError TransitionId → Option TransitionId}
    (t : TransitionId) (hok : ∀ t, told (.ok t) = some t) (herror : ∀ e, told (.error e) = none) :
    Picks r args (w.machine.outbound s) w
      (((w.machine.outbound s).filter passes).filter (· == t)) told
      (transitionById r t args) v := by
  have hone (u : TransitionId) : ((w.machine.outbound s).filter passes).filter (· == t) = [u] ↔
      u = t ∧ u ∈ w.machine.outbound s ∧ passes u = true := by
    rw [filter_beq_eq_singleton_iff ((Machine.nodup_outbound hopen.tied s).filter passes),
      List.mem_filter]
  have hnone (hout : ¬ (t ∈ w.machine.outbound s ∧ passes t = true)) (u : TransitionId) :
      ((w.machine.outbound s).filter passes).filter (· == t) ≠ [u] := by
    intro hu
    obtain ⟨rfl, hin⟩ := (hone u).mp hu
    exact hout hin
  by_cases ht : t ∈ w.machine.outbound s
  · obtain ⟨v', hv', hguard⟩ := hfirm.guard hv ht
    have hrun := (transitionById_asks hopen hv ht).trans (bind_of_ok hguard)
    cases hpass : passes t with
    | true =>
      rw [hpass, if_pos rfl, bind_of_ok (queueTransition_queued hopen hv' ht)] at hrun
      rw [(hone t).mpr ⟨rfl, ht, hpass⟩]
      exact picks_single hv' (attempt_of_ok hrun) (hok t)
    | false =>
      rw [hpass, if_neg Bool.false_ne_true] at hrun
      exact picks_none hv' (attempt_of_error hrun) (hnone (by simp [hpass])) (herror _)
  · obtain ⟨e, he⟩ := transitionById_refused hopen hv ht
    exact picks_none hv (attempt_of_error he) (hnone fun h => ht h.1) (herror e)

/-- Of the candidates with a name, the one whose guard passes is queued if no other passes. -/
theorem picks_transitionNamed {told : Except MachineError TransitionId → Option TransitionId}
    (name : String) (hok : ∀ t, told (.ok t) = some t) (herror : ∀ e, told (.error e) = none) :
    Picks r args (w.machine.outbound s) w (((w.machine.outbound s).filter passes).filter fun t =>
      (w.machine.graph.transition? t).any (·.name == name)) told
        (transitionNamed r name args) v := by
  rw [transitionNamed, ← hv.machine, List.filter_comm]
  refine .of_bind (y := machine) (b := v.machine) rfl (.of_bind (candidates_consulted hopen hv) ?_)
  rw [hv.machine]
  let named := (w.machine.outbound s).filter fun t =>
    (w.machine.graph.transition? t).any (·.name == name)
  show Picks r args _ w (named.filter passes) told (do
    if named.isEmpty then fail (unknownFrom name (← machine))
    queueOnly (fun _ => .cannotTransition name .guardRejected) (← passing r args named) args) v
  cases hnamed : named.isEmpty with
  | true =>
    rw [List.isEmpty_iff.mp hnamed]
    exact picks_none hv (attempt_of_error rfl) (by simp) (herror _)
  | false =>
    have hsub : named ⊆ w.machine.outbound s := List.filter_sublist.subset
    obtain ⟨v', hv', hrun⟩ := consulted_passing hfirm hsub hv
    rw [if_neg Bool.false_ne_true]
    refine .of_bind hrun ?_
    exact picks_queueOnly hopen hv' (List.Subset.trans List.filter_sublist.subset hsub) _ hok herror

/-- To try takes there being none or several for an answer. -/
theorem picks_tryTransitionToNext
    {told : Except MachineError (Option TransitionId) → Option TransitionId}
    (hok : ∀ o, told (.ok o) = o) :
    Picks r args (w.machine.outbound s) w
      ((w.machine.outbound s).filter passes) told (tryTransitionToNext r args) v := by
  obtain ⟨v', hv', hrun⟩ := consulted_validTransitions hopen hfirm hv
  have hsub : (w.machine.outbound s).filter passes ⊆ w.machine.outbound s :=
    List.filter_sublist.subset
  have hnext : transitionToNext r args v = _ := bind_of_ok hrun
  match hV : (w.machine.outbound s).filter passes with
  | [] =>
    rw [hV] at hnext
    exact picks_none hv' (attempt_of_ok (bind_of_ok (attempt_of_error hnext))) (by simp) (hok none)
  | [t] =>
    rw [hV, queueOnly_single hopen hv' (hsub (by simp [hV]))] at hnext
    exact picks_single hv' (attempt_of_ok (bind_of_ok (attempt_of_ok hnext))) (hok (some t))
  | _ :: _ :: _ =>
    rw [hV] at hnext
    exact picks_none hv' (attempt_of_ok (bind_of_ok (attempt_of_error hnext))) (by simp) (hok none)

/-- To queue what is valid does not fail for want of one, nor because there are several. -/
theorem picks_transitionIfValid
    {told : Except MachineError (Option TransitionId) → Option TransitionId}
    (hok : ∀ o, told (.ok o) = o) :
    Picks r args (w.machine.outbound s) w
      ((w.machine.outbound s).filter passes) told (transitionIfValid r args) v := by
  obtain ⟨v', hv', hrun⟩ := consulted_validTransitions hopen hfirm hv
  have hsub : (w.machine.outbound s).filter passes ⊆ w.machine.outbound s :=
    List.filter_sublist.subset
  refine .of_bind hrun ?_
  match hV : (w.machine.outbound s).filter passes with
  | [] => exact picks_none hv' (attempt_of_ok rfl) (by simp) (hok none)
  | [t] =>
    have hqueue := queueTransition_queued hopen hv' (t := t) (hsub (by simp [hV]))
    exact picks_single hv' (attempt_of_ok (bind_of_ok hqueue)) (hok (some t))
  | _ :: _ :: _ => exact picks_none hv' (attempt_of_ok rfl) (by simp) (hok none)

/-- Each request that chooses picks the only one of its choices. -/
theorem picks_carryOut {hook : κ → Engine σ κ Unit} {n : Nat} {q : Request κ}
    (hq : q.Chooses args) :
    Picks r args (w.machine.outbound s) w
      (q.choices w.machine.graph ((w.machine.outbound s).filter passes)) q.chosen?
      (carryOut r hook n q) v := by
  have hsub : (w.machine.outbound s).filter passes ⊆ w.machine.outbound s :=
    List.filter_sublist.subset
  obtain ⟨v', hv', hrun⟩ := consulted_validTransitions hopen hfirm hv
  cases q with
  | valid a =>
    obtain rfl : a = args := hq
    exact picks_none hv' (attempt_of_ok hrun) (by simp [Request.choices]) rfl
  | hasValid a =>
    obtain rfl : a = args := hq
    exact picks_none hv' (attempt_of_ok (bind_of_ok hrun)) (by simp [Request.choices]) rfl
  | transitionsTo c a =>
    obtain rfl : a = args := hq
    obtain ⟨v', hv', hrun⟩ := consulted_transitionsTo hopen hfirm hv c
    exact picks_none hv' (attempt_of_ok hrun) (by simp [Request.choices]) rfl
  | canTransitionTo c a =>
    obtain rfl : a = args := hq
    obtain ⟨v', hv', hrun⟩ := consulted_transitionsTo hopen hfirm hv c
    exact picks_none hv' (attempt_of_ok (bind_of_ok hrun)) (by simp [Request.choices]) rfl
  | transitionNamed name a =>
    obtain rfl : a = args := hq
    exact picks_transitionNamed hopen hv hfirm name (fun _ => rfl) fun _ => rfl
  | transitionById t a =>
    obtain rfl : a = args := hq
    exact picks_transitionById hopen hv hfirm t (fun _ => rfl) fun _ => rfl
  | transitionTo c a =>
    obtain rfl : a = args := hq
    obtain ⟨v', hv', hrun⟩ := consulted_transitionsTo hopen hfirm hv c
    exact .of_bind hrun (picks_queueOnly hopen hv'
      (List.Subset.trans List.filter_sublist.subset hsub) _ (fun _ => rfl)
      fun _ => rfl)
  | transitionToNext a =>
    obtain rfl : a = args := hq
    exact .of_bind hrun (picks_queueOnly hopen hv' hsub _ (fun _ => rfl) fun _ => rfl)
  | tryTransitionToNext a =>
    obtain rfl : a = args := hq
    exact picks_tryTransitionToNext hopen hv hfirm fun _ => rfl
  | transitionIfValid a =>
    obtain rfl : a = args := hq
    exact picks_transitionIfValid hopen hv hfirm fun _ => rfl
  | _ => exact hq.elim

end

end Engine

/-! ## Agreement -/

/-- Carried out, the request has put that in the slot of the machine, whether it succeeds or
fails. -/
def Host.Queues (h : Host σ κ) (n : Nat) (q : Request κ) (w : World σ κ) (p : Pending) : Prop :=
  ∃ o w', Engine.attempt (h.perform n q) w = .ok o w' ∧ w'.machine.pending = some p

/-- In the world the requests that choose agree with the list of the transitions whose guards
pass. -/
structure Host.Agrees (h : Host σ κ) (n : Nat) (args : List Value) (V : List TransitionId)
    (w : World σ κ) : Prop where
  /-- A transition is queued by its handle if it is listed. -/
  byId : ∀ t u, h.Queues n (.transitionById t args) w ⟨u, args⟩ ↔ u = t ∧ u ∈ V
  /-- By a name, if it alone of those listed has the name. -/
  named : ∀ name t, h.Queues n (.transitionNamed name args) w ⟨t, args⟩ ↔
    ∀ u, (u ∈ V ∧ ∃ tr, w.machine.graph.transition? u = some tr ∧ tr.name = name) ↔ u = t
  /-- By where it leads, if it alone of those listed leads there. -/
  leading : ∀ c t, h.Queues n (.transitionTo c args) w ⟨t, args⟩ ↔
    ∀ u, (u ∈ V ∧ ∃ tr, w.machine.graph.transition? u = some tr ∧ tr.target = c) ↔ u = t
  /-- Which the machine knows beforehand. -/
  can : ∀ c, ∃ can w', h.perform n (.canTransitionTo c args) w = .ok can w' ∧
    (can = true ↔ ∃ t, h.Queues n (.transitionTo c args) w ⟨t, args⟩)
  /-- With nothing said of it, if it alone is listed. -/
  only : ∀ q ∈ [.transitionToNext args, .tryTransitionToNext args, .transitionIfValid args],
    ∀ t, h.Queues n q w ⟨t, args⟩ ↔ V = [t]
  /-- A request answers what it queues, and changes nothing else. If it queues nothing, the machine
  is as before. -/
  frame : ∀ q : Request κ, q.Chooses args → ∃ o w', Engine.attempt (h.perform n q) w = .ok o w' ∧
    w'.logs = w.logs ∧ w'.machine = match q.chosen? o with
      | some t => { w.machine with pending := some ⟨t, args⟩ }
      | none => w.machine

/-- On a machine at rest, started and not at its end, with nothing in its slot, and with guards that
stick to their answers, the requests that choose agree with what the machine says is valid, however
often guards have been asked. -/
theorem Host.choices_agree {h : Host σ κ} {w : World σ κ} {s : StateId} {args : List Value}
    {passes : TransitionId → Bool} (hreachable : w.machine.graph.Reachable) (hidle : w.machine.Idle)
    (hactive : w.machine.active = some s) (hend : w.machine.atEnd = false)
    (hpending : w.machine.pending = none) (k : Nat)
    (hfirm : w.Firm (h.responder (h.perform k)) args (w.machine.outbound s) passes) :
    let consulted := w.Consulted (h.responder (h.perform k)) args (w.machine.outbound s)
    ∃ V, ∀ v, consulted v →
      (∃ v', consulted v' ∧ h.perform (k + 1) (.valid args) v = .ok V v') ∧
      h.Agrees (k + 1) args V v := by
  intro consulted
  have hopen : w.machine.Open s := ⟨hreachable.tied, hidle.phase, hactive, hend, hpending⟩
  let V := (w.machine.outbound s).filter passes
  have hnodup : V.Nodup := (Machine.nodup_outbound hopen.tied s).filter passes
  refine ⟨V, fun v hv => ⟨Engine.consulted_validTransitions hopen hfirm hv, ?_⟩⟩
  have hpicks {q : Request κ} (hq : q.Chooses args) : Engine.Picks _ args (w.machine.outbound s) w
      (q.choices w.machine.graph V) q.chosen? (h.perform (k + 1) q) v :=
        Engine.picks_carryOut hopen hv hfirm hq
  have hqueues (q : Request κ) (hq : q.Chooses args) (t : TransitionId) :
      h.Queues (k + 1) q v ⟨t, args⟩ ↔ q.choices v.machine.graph V = [t] := by
    rw [hv.machine]
    exact (hpicks hq).queues_iff hpending
  have hleading (c : StateId) (t : TransitionId) :
      h.Queues (k + 1) (.transitionTo c args) v ⟨t, args⟩ ↔
      (V.filter fun t => v.machine.graph.target? t == some c) = [t] :=
        hqueues (.transitionTo c args) rfl t
  constructor
  case byId =>
    intro t u
    rw [hqueues (.transitionById t args) rfl]
    exact filter_beq_eq_singleton_iff hnodup
  case named =>
    intro name t
    rw [hqueues (.transitionNamed name args) rfl, Request.choices, filter_eq_singleton_iff hnodup]
    simp only [Option.any_eq_true, beq_iff_eq]
  case leading =>
    intro c t
    rw [hleading, filter_eq_singleton_iff hnodup]
    simp only [Graph.target?, beq_iff_eq, Option.map_eq_some_iff]
  case can =>
    intro c
    obtain ⟨v', -, hrun⟩ := Engine.consulted_transitionsTo hopen hfirm hv c
    refine ⟨_, v', Engine.bind_of_ok hrun, ?_⟩
    simp only [hleading, beq_iff_eq, List.length_eq_one_iff, hv.machine]
    rfl
  case only =>
    intro q hq t
    simp only [List.mem_cons, List.not_mem_nil, or_false] at hq
    rcases hq with rfl | rfl | rfl
    · exact hqueues (.transitionToNext args) rfl t
    · exact hqueues (.tryTransitionToNext args) rfl t
    · exact hqueues (.transitionIfValid args) rfl t
  case frame =>
    intro q hq
    rw [hv.machine, hv.logs]
    exact (hpicks hq).frame

/-! ## A flat with a window -/

/-- What the guard of a transition answers if bodies answer what their keys say. -/
def Graph.verdict (g : Graph Bool) (args : List Value) (t : TransitionId) : Bool :=
  match g.behaviorOf .guard (.transition t) with
  | .ok (_, .callback key) => key
  | .ok (_, .test accepts) => accepts args
  | _ => true

theorem Host.firm_frank {w : World Unit Bool}
    {perform : (q : Request Bool) → Engine Unit Bool q.Answer} {args : List Value}
    {ts : List TransitionId}
    (hfound : ∀ t ∈ ts, (w.machine.graph.behaviorOf .guard (.transition t)).isOk = true) :
    w.Firm (frank.responder perform) args ts (w.machine.graph.verdict args) := by
  intro v hv t ht
  have hfound := hfound t ht
  rw [← hv.machine] at hfound ⊢
  cases hb : v.machine.graph.behaviorOf .guard (.transition t) with
  | error e =>
    rw [hb] at hfound
    cases hfound
  | ok found =>
    obtain ⟨element, b⟩ := found
    rw [Engine.invoke, Engine.machine_bind, hb, Graph.verdict, hb]
    cases b with
    | absent => exact ⟨none, v.env, rfl, rfl⟩
    | named name => exact ⟨none, v.env, rfl, rfl⟩
    | callback key => exact ⟨some key, v.env, rfl, rfl⟩
    | test accepts => exact ⟨some (accepts args), v.env, rfl, rfl⟩

/-- As `exitEdits`, with a window of the flat that is shut. -/
def windowEdits : List (Edit Bool) :=
  exitEdits ++ [.addTransition ⟨0⟩
    { name := "climb", source := ⟨1⟩, target := ⟨0⟩, guard := .callback false }]

/-- A machine in the parlour with nothing to do. -/
def waiting : World Unit Bool :=
  (World.fresh ((Graph.new "exits").edited windowEdits)).mapMachine ({ · with active := some ⟨2⟩ })

theorem choices_agree_waiting :
    let r := Host.frank.responder (Host.frank.perform 1)
    let passes := waiting.machine.graph.verdict []
    waiting.machine.graph.Reachable ∧ waiting.machine.Idle ∧ waiting.machine.active = some ⟨2⟩ ∧
      waiting.machine.atEnd = false ∧ waiting.machine.pending = none ∧
      waiting.Firm r [] (waiting.machine.outbound ⟨2⟩) passes ∧
      ∃ V, ∀ v, waiting.Consulted r [] (waiting.machine.outbound ⟨2⟩) v →
        (∃ v', waiting.Consulted r [] (waiting.machine.outbound ⟨2⟩) v' ∧
          Host.frank.perform 2 (.valid []) v = .ok V v') ∧ Host.frank.Agrees 2 [] V v := by
  intro r passes
  have hreachable : waiting.machine.graph.Reachable :=
    (Graph.Reachable.new "exits").edited windowEdits
  have hfirm : waiting.Firm r [] (waiting.machine.outbound ⟨2⟩) passes :=
    Host.firm_frank (by decide +kernel)
  exact ⟨hreachable, ⟨rfl, rfl, rfl⟩, rfl, rfl, rfl, hfirm,
    Host.choices_agree hreachable ⟨rfl, rfl, rfl⟩ rfl rfl rfl 1 hfirm⟩

/-- The window has a name, but is not valid. -/
example : Host.frank.fault? 2 (.transitionNamed "climb" []) waiting =
    some (.cannotTransition "climb" .guardRejected) := by
  decide +kernel

end Statechart
