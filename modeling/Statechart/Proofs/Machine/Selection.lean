import Statechart.Proofs.Machine.Admission
import Statechart.Proofs.Machine.Books
import Statechart.Proofs.Machine.EventTurns
import Statechart.Proofs.Machine.Outbound
import Statechart.Proofs.Machine.Progress

/-!
# What an event selects

An event is matched against the transitions out of the active state and of the states around it,
innermost first. The guard of each that has a trigger for it is asked once. The event fires a
transition if exactly one passes. But a transition without a guard of its own leaves it to its
definition, and one whose definition is gone cannot be asked: the matching fails there.
-/

namespace Statechart

open Json

variable {σ κ α : Type}

/-- A live transition out of the state or of one around it, inside the machine's definition at both
ends, with a trigger that accepts the event. -/
def Machine.Eligible (m : Machine κ) (s : StateId) (e : Event) (t : TransitionId) : Prop :=
  ∃ tr, m.graph.transition? t = some tr ∧
    (tr.source ∈ m.graph.ancestors s ∧ m.covers tr.source = true) ∧
    m.covers tr.target = true ∧ ∃ trigger ∈ tr.triggers, trigger.accepts e = true

/-- Exactly candidates with a trigger for the event are eligible. -/
theorem Machine.mem_filter_outbound {m : Machine κ} (hg : m.graph.Tied) {s : StateId} {e : Event}
    {t : TransitionId} :
    t ∈ (m.outbound s).filter (fun t => (m.graph.label? e t).isSome) ↔ m.Eligible s e t := by
  rw [List.mem_filter, mem_outbound hg, Eligible]
  constructor
  · rintro ⟨⟨tr, htr, hsource, htarget⟩, hlabel⟩
    rw [Graph.label?, htr, Option.bind_some, Option.isSome_map] at hlabel
    exact ⟨tr, htr, hsource, htarget, List.find?_isSome.mp hlabel⟩
  · rintro ⟨tr, htr, hsource, htarget, htrigger⟩
    refine ⟨⟨tr, htr, hsource, htarget⟩, ?_⟩
    rw [Graph.label?, htr, Option.bind_some, Option.isSome_map]
    exact List.find?_isSome.mpr htrigger

/-! ## Guards that are found, and bodies that do nothing but answer -/

namespace Graph

variable {g : Graph κ} {t : TransitionId} {d : DefinitionId}

/-- The transition has no guard of its own, and the definition that would stand in is gone. -/
def Bereft (g : Graph κ) (t : TransitionId) (d : DefinitionId) : Prop :=
  ∃ tr, g.transition? t = some tr ∧ tr.guard.isAbsent = true ∧ tr.owner = d ∧
    g.definition? d = none

theorem Bereft.behaviorOf (h : g.Bereft t d) :
    g.behaviorOf .guard (.transition t) = .error (.unknownDefinition d.label) := by
  obtain ⟨tr, htr, hown, rfl, hd⟩ := h
  have howner : g.definition tr.owner = .error (.unknownDefinition tr.owner.label) := by
    rw [definition, hd]
  rw [Graph.behaviorOf, subject, transition_ok_iff.mpr htr]
  show (if tr.guard.isAbsent = true then _ else _) = _
  rw [if_pos hown, howner]
  rfl

/-- A live transition that is not bereft of its guard has one that is found. -/
theorem exists_behaviorOf_guard {tr : Transition κ} (htr : g.transition? t = some tr)
    (hbereft : ∀ d, ¬ g.Bereft t d) :
    ∃ element b, g.behaviorOf .guard (.transition t) = .ok (element, b) := by
  rw [behaviorOf, subject, transition_ok_iff.mpr htr]
  show ∃ element b, (if tr.guard.isAbsent = true then _ else _) = Except.ok (element, b)
  split
  · rename_i hown
    cases hd : g.definition? tr.owner with
    | none => exact absurd ⟨tr, htr, hown, rfl, hd⟩ (hbereft tr.owner)
    | some x =>
      rw [definition_ok_iff.mpr hd]
      exact ⟨_, _, rfl⟩
  · exact ⟨_, _, rfl⟩

/-- Of the transitions of a list that are looked for, either none is bereft of its guard, or there
is a first one that is. -/
theorem first_bereft (g : Graph κ) (p : TransitionId → Bool) (ts : List TransitionId) :
    (∀ t ∈ ts, p t = true → ∀ d, ¬ g.Bereft t d) ∨
      ∃ before t later d, ts = before ++ t :: later ∧ p t = true ∧ g.Bereft t d ∧
        ∀ u ∈ before, p u = true → ∀ d, ¬ g.Bereft u d := by
  induction ts with
  | nil => exact .inl fun _ h => nomatch h
  | cons t ts ih =>
    by_cases hmet : p t = true ∧ ∃ d, g.Bereft t d
    · obtain ⟨ht, d, hd⟩ := hmet
      exact .inr ⟨[], t, ts, d, rfl, ht, hd, fun _ h => nomatch h⟩
    · have hhead : p t = true → ∀ d, ¬ g.Bereft t d := fun ht d hd => hmet ⟨ht, d, hd⟩
      rcases ih with hall | ⟨before, u, later, d, rfl, hu, hd, hbefore⟩
      · exact .inl (List.forall_mem_cons.mpr ⟨hhead, hall⟩)
      · exact .inr ⟨t :: before, u, later, d, rfl, hu, hd,
          List.forall_mem_cons.mpr ⟨hhead, hbefore⟩⟩

end Graph

/-- Asking the guard of a transition of the graph does not fail, and leaves all but the environment
alone. -/
def Responder.Quiet (r : Responder σ κ) (g : Graph κ) (t : TransitionId) (args : List Value) :
    Prop :=
  ∀ w : World σ κ, w.machine.graph = g →
    ∃ answer env, Engine.invoke r .guard (.transition t) args w = .ok answer { w with env }

namespace Host

variable {h : Host σ κ} {perform : (q : Request κ) → Engine σ κ q.Answer}

/-- The behavior may run the body of the key. -/
def Runs (h : Host σ κ) (b : Behavior κ) (key : κ) : Prop :=
  b = .callback key ∨ ∃ name env, b = .named name ∧ (h.handlers env).get? name = some key

/-- What the guard of the transition may run makes no requests and does not fail. -/
def Mild (h : Host σ κ) (g : Graph κ) (t : TransitionId) (args : List Value) : Prop :=
  ∀ element b key, g.behaviorOf .guard (.transition t) = .ok (element, b) → h.Runs b key →
    (h.body key (some element) args).Harmless

/-- A guard that is found is quiet if what it may run is mild. -/
theorem Mild.quiet {g : Graph κ} {t : TransitionId} {args : List Value} {element : Element κ}
    {b : Behavior κ} (hmild : h.Mild g t args)
    (hb : g.behaviorOf .guard (.transition t) = .ok (element, b)) :
    (h.responder perform).Quiet g t args := by
  intro w hw
  let I (v : World σ κ) : Prop := v = { w with env := v.env }
  have hI : World.Indifferent I := by
    intro v env hv
    rw [hv]
  have hbody {key : κ} (hkey : h.Runs b key) :
      Engine.Triple I (h.runBody perform key (some element) args) (fun _ => I) fun _ _ => False :=
    runBody_of_harmless hI (hmild element b key hb hkey)
  have hasks : Engine.Triple I (Engine.invoke (h.responder perform) .guard (.transition t) args)
      (fun _ => I) fun _ _ => False := by
    intro v hv
    have hgraph : v.machine.graph = g := by rw [hv, ← hw]
    rw [Engine.invoke, Engine.machine_bind, hgraph, hb]
    simp only [Engine.ofGraph, pure_bind]
    cases b with
    | absent => exact hv
    | test accepts => exact hv
    | callback key => exact hbody (.inl rfl) v hv
    | named name =>
      refine Engine.Triple.bind (P := I) (Q := fun _ => I) (fun _ hu => hu) (fun u => ?_) v hv
      split
      · refine .bind (Q := fun _ => I) (fun _ hu => hu) fun u => ?_
        cases hkey : (h.handlers u.env).get? name with
        | none => exact fun _ hu => hu
        | some key => exact hbody (.inr ⟨name, u.env, rfl, hkey⟩)
      · exact fun _ hu => hu
  have hanswer := hasks w rfl
  cases ho : Engine.invoke (h.responder perform) .guard (.transition t) args w with
  | ok answer v =>
    rw [ho] at hanswer
    exact ⟨answer, v.env, congrArg _ hanswer⟩
  | error e v =>
    rw [ho] at hanswer
    exact hanswer.elim

end Host

/-! ## Asking -/

/-- A transition whose guard has been asked, and the answer. -/
abbrev Hearing := TransitionId × Option Bool

namespace Hearing

/-- No answer is taken for a yes. -/
def passed (a : Hearing) : Bool := a.2.getD true

def notice (a : Hearing) : Notice := .guardEvaluated a.1 a.passed

end Hearing

namespace World

/-- The world once some guards have been asked. -/
def hearing (w : World σ κ) (asked : List Hearing) (env : σ) : World σ κ :=
  { w with notices := w.notices ++ asked.map Hearing.notice, env }

theorem hearing_nil (w : World σ κ) : w.hearing [] w.env = w := by
  rw [hearing, List.map_nil, List.append_nil]

/-- The guards of some transitions are asked one after the other, and give the answers. -/
inductive Asked (r : Responder σ κ) (args : List Value) (w : World σ κ) : List Hearing → σ → Prop
  | start : Asked r args w [] w.env
  | next {asked : List Hearing} {env : σ} {t : TransitionId} {answer : Option Bool} {v : World σ κ}
    (h : Asked r args w asked env)
    (hanswer : Engine.invoke r .guard (.transition t) args (w.hearing asked env) = .ok answer v) :
    Asked r args w (asked ++ [(t, answer)]) v.env

end World

/-- Of those asked, the transitions that pass. -/
def passers (asked : List Hearing) : List TransitionId := (asked.filter (·.passed)).map (·.1)

namespace Engine

variable {r : Responder σ κ} {w : World σ κ} {e : Event} {s : StateId} {asked : List Hearing}
  {env : σ}

/-- The outcome for one candidate of what an event is matched against. -/
def matching (r : Responder σ κ) (g : Graph κ) (e : Event) (t : TransitionId) :
    Engine σ κ (Option (TransitionId × String)) := do
  match (← ofGraph (g.transition t)).matchingTrigger e with
  | none => pure none
  | some trigger => do
    if ← guard r t e.args then pure (some (t, trigger.label)) else pure none

theorem transitionsMatching_eq (r : Responder σ κ) (e : Event) : transitionsMatching r e =
    machine >>= fun m => candidates >>= fun ts => ts.filterMapM (matching r m.graph e) := rfl

/-- A guard whose behavior leaves all but the environment alone is asked. -/
theorem asked_answer {t : TransitionId} {args : List Value} {answer : Option Bool} {env' : σ}
    (hasked : w.Asked r args asked env)
    (hanswer : invoke r .guard (.transition t) args (w.hearing asked env) =
      .ok answer { w.hearing asked env with env := env' }) :
    w.Asked r args (asked ++ [(t, answer)]) env' ∧ guard r t args (w.hearing asked env) =
      .ok (answer.getD true) (w.hearing (asked ++ [(t, answer)]) env') := by
  refine ⟨hasked.next hanswer, ?_⟩
  have htold : ({ w.hearing asked env with env := env' } : World σ κ).notify
      (.guardEvaluated t (answer.getD true)) = w.hearing (asked ++ [(t, answer)]) env' := by
    rw [World.notify, World.hearing, World.hearing, List.map_append, ← List.append_assoc]
    rfl
  rw [guard, bind_of_ok hanswer, ← htold]
  rfl

/-- A guard that is asked answers. -/
theorem asked_guard {t : TransitionId} {args : List Value} (hasked : w.Asked r args asked env)
    (hquiet : r.Quiet w.machine.graph t args) :
    ∃ a env', a.1 = t ∧ w.Asked r args (asked ++ [a]) env' ∧
      guard r t args (w.hearing asked env) = .ok a.passed (w.hearing (asked ++ [a]) env') := by
  obtain ⟨answer, env', hanswer⟩ := hquiet (w.hearing asked env) rfl
  obtain ⟨hasked', hguard⟩ := asked_answer hasked hanswer
  exact ⟨(t, answer), env', rfl, hasked', hguard⟩

/-- The guard of a transition that is bereft of it is never asked. -/
theorem guard_of_bereft {t : TransitionId} {d : DefinitionId} {args : List Value}
    (h : w.machine.graph.Bereft t d) :
    guard r t args w = .error (.fault (.graph (.unknownDefinition d.label))) w := by
  rw [guard, invoke, bind_assoc, machine_bind, h.behaviorOf]
  rfl

section
variable {t : TransitionId} {tr : Transition κ} {trigger : Trigger}

theorem matching_of_none (htr : w.machine.graph.transition? t = some tr)
    (htrigger : tr.matchingTrigger e = none) :
    matching r w.machine.graph e t (w.hearing asked env) = .ok none (w.hearing asked env) := by
  rw [matching, Graph.transition_ok_iff.mpr htr]
  simp only [ofGraph, pure_bind, htrigger]
  rfl

theorem matching_of_some {v : World σ κ} (htr : w.machine.graph.transition? t = some tr)
    (htrigger : tr.matchingTrigger e = some trigger) :
    matching r w.machine.graph e t v = (guard r t e.args >>= fun passed =>
      if passed then pure (some (t, trigger.label)) else pure none) v := by
  rw [matching, Graph.transition_ok_iff.mpr htr]
  simp only [ofGraph, pure_bind, htrigger]

end

/-- Of the candidates at the head of a list the guards are asked of those with a trigger for the
event, before those that come later. -/
theorem asked_matching {ts : List TransitionId}
    (hlive : ∀ t ∈ ts, ∃ tr, w.machine.graph.transition? t = some tr)
    (hquiet : ∀ t ∈ ts, (w.machine.graph.label? e t).isSome → r.Quiet w.machine.graph t e.args)
    (hasked : w.Asked r e.args asked env) :
    ∃ more env', more.map (·.1) = ts.filter (fun t => (w.machine.graph.label? e t).isSome) ∧
      w.Asked r e.args (asked ++ more) env' ∧
      ∀ later, (ts ++ later).filterMapM (matching r w.machine.graph e) (w.hearing asked env) =
        (later.filterMapM (matching r w.machine.graph e) >>= fun os => pure
          ((passers more).map (fun t => (t, (w.machine.graph.label? e t).getD "")) ++ os))
            (w.hearing (asked ++ more) env') := by
  induction ts generalizing asked env with
  | nil =>
    refine ⟨[], env, rfl, ?_, fun later => ?_⟩ <;> rw [List.append_nil]
    · exact hasked
    · exact (congrFun (bind_pure (later.filterMapM _)) _).symm
  | cons t ts ih =>
    obtain ⟨tr, htr⟩ := hlive t List.mem_cons_self
    have hrest {told : List Hearing} {left : σ} (htold : w.Asked r e.args told left) :=
      ih (fun u hu => hlive u (List.mem_cons_of_mem _ hu))
        (fun u hu => hquiet u (List.mem_cons_of_mem _ hu)) htold
    have hlabel : w.machine.graph.label? e t = (tr.matchingTrigger e).map (·.label) := by
      rw [Graph.label?, htr, Option.bind_some]
    simp only [List.cons_append, List.filterMapM_cons, List.filter_cons]
    cases htrigger : tr.matchingTrigger e with
    | none =>
      rw [htrigger, Option.map_none] at hlabel
      rw [hlabel, Option.isSome_none, if_neg Bool.false_ne_true]
      simp only [bind_of_ok (matching_of_none htr htrigger)]
      exact hrest hasked
    | some trigger =>
      rw [htrigger, Option.map_some] at hlabel
      obtain ⟨a, env', rfl, hasked', hguard⟩ := asked_guard hasked
        (hquiet _ List.mem_cons_self (by rw [hlabel]; rfl))
      have hstep : matching r w.machine.graph e a.1 (w.hearing asked env) =
          .ok (if a.passed then some (a.1, trigger.label) else none)
            (w.hearing (asked ++ [a]) env') := by
        rw [matching_of_some htr htrigger, bind_of_ok hguard]
        cases a.passed <;> rfl
      obtain ⟨more, env'', hmore, hasked'', hrun⟩ := hrest hasked'
      refine ⟨a :: more, env'', ?_, ?_, fun later => ?_⟩
      · rw [List.map_cons, hmore, hlabel, Option.isSome_some, if_pos rfl]
      · rw [List.append_cons]
        exact hasked''
      · rw [bind_of_ok hstep, List.append_cons asked a more, passers, List.filter_cons]
        cases a.passed with
        | false => exact hrun later
        | true =>
          refine (bind_congr_at (hrun later)).trans ?_
          rw [if_pos rfl, List.map_cons, List.map_cons, hlabel]
          simp only [bind_assoc, pure_bind]
          rfl

/-- The candidates are the transitions out of the active state and of what is around it. -/
theorem candidates_outbound (hg : w.machine.graph.Tied) (hactive : w.machine.active = some s) :
    candidates w = .ok (w.machine.outbound s) w := by
  rw [candidates, machine_bind, hactive]
  dsimp only
  rw [Machine.candidatesFrom_eq hg]
  rfl

/-- Matching an event asks the guards of what has a trigger for it, up to the first transition that
is bereft of its guard. -/
theorem asked_transitionsMatching (hg : w.machine.graph.Tied) (hactive : w.machine.active = some s)
    (hquiet : ∀ t, w.machine.Eligible s e t → (∀ d, ¬ w.machine.graph.Bereft t d) →
      r.Quiet w.machine.graph t e.args) :
    ∃ asked env, w.Asked r e.args asked env ∧
      (∀ t ∈ asked.map (·.1), ∀ d, ¬ w.machine.graph.Bereft t d) ∧
      (asked.map (·.1) =
          (w.machine.outbound s).filter (fun t => (w.machine.graph.label? e t).isSome) ∧
        transitionsMatching r e w = .ok
          ((passers asked).map fun t => (t, (w.machine.graph.label? e t).getD ""))
          (w.hearing asked env) ∨
      ∃ t later d, (w.machine.outbound s).filter (fun t => (w.machine.graph.label? e t).isSome) =
          asked.map (·.1) ++ t :: later ∧ w.machine.graph.Bereft t d ∧
        transitionsMatching r e w =
          .error (.fault (.graph (.unknownDefinition d.label))) (w.hearing asked env)) := by
  let p (t : TransitionId) : Bool := (w.machine.graph.label? e t).isSome
  -- what is asked of the head of the candidates, if none there is bereft
  have hhead {ts : List TransitionId} (hts : ts ⊆ w.machine.outbound s)
      (hmet : ∀ t ∈ ts, p t = true → ∀ d, ¬ w.machine.graph.Bereft t d) :=
    asked_matching (r := r) (w := w) (e := e)
      (fun t ht => (((Machine.mem_outbound hg).mp (hts ht)).imp fun _ h => h.1))
      (fun t ht hlabel => hquiet t
        ((Machine.mem_filter_outbound hg).mp (List.mem_filter.mpr ⟨hts ht, hlabel⟩))
        (hmet t ht hlabel)) .start
  have hfound {ts : List TransitionId} {asked : List Hearing}
      (hmet : ∀ t ∈ ts, p t = true → ∀ d, ¬ w.machine.graph.Bereft t d)
      (hts : asked.map (·.1) = ts.filter p) :
      ∀ t ∈ asked.map (·.1), ∀ d, ¬ w.machine.graph.Bereft t d := by
    intro t ht
    rw [hts, List.mem_filter] at ht
    exact hmet t ht.1 ht.2
  have hmatching : transitionsMatching r e w =
      (w.machine.outbound s).filterMapM (matching r w.machine.graph e) w := by
    rw [transitionsMatching_eq, machine_bind, bind_of_ok (candidates_outbound hg hactive)]
  rcases w.machine.graph.first_bereft p (w.machine.outbound s) with
    hmet | ⟨before, t, later, d, hsplit, hlabel, hbereft, hmet⟩
  · obtain ⟨asked, env, hts, hasked, hrun⟩ := hhead (List.Subset.refl _) hmet
    refine ⟨asked, env, hasked, hfound hmet hts, .inl ⟨hts, ?_⟩⟩
    have hall := hrun []
    rw [World.hearing_nil, List.append_nil] at hall
    rw [hmatching, hall, List.nil_append, List.filterMapM_nil, pure_bind, List.append_nil]
    rfl
  · obtain ⟨asked, env, hts, hasked, hrun⟩ := hhead
      (fun u hu => hsplit ▸ List.mem_append_left _ hu) hmet
    refine ⟨asked, env, hasked, hfound hmet hts, .inr ⟨t, later.filter p, d, ?_, hbereft, ?_⟩⟩
    · rw [hsplit, List.filter_append, List.filter_cons, if_pos hlabel, hts]
    · obtain ⟨tr, htr, -⟩ := id hbereft
      simp only [p, Graph.label?, htr, Option.bind_some, Option.isSome_map] at hlabel
      obtain ⟨trigger, htrigger⟩ := Option.isSome_iff_exists.mp hlabel
      have hguard : guard r t e.args (w.hearing asked env) =
          .error (.fault (.graph (.unknownDefinition d.label))) (w.hearing asked env) :=
        guard_of_bereft hbereft
      have hrest := hrun (t :: later)
      rw [World.hearing_nil, ← hsplit, List.filterMapM_cons, List.nil_append] at hrest
      rw [hmatching, hrest]
      refine bind_of_error (bind_of_error ?_)
      rw [matching_of_some htr htrigger, bind_of_error hguard]

end Engine

namespace World

/-- The world as a run begins with the first event of the queue. -/
def setOut (w : World σ κ) (e : Event) (rest : List Event) : World σ κ :=
  (w.begun.mapMachine ({ · with events := rest })).taking e

/-- The world once a run of events has failed at the first one, with some guards asked. -/
def unhandled (w : World σ κ) (e : Event) (rest : List Event) (asked : List Hearing)
    (env : σ) : World σ κ :=
  { w with
    machine := { w.machine with events := rest, paused := false, event := none, trigger := none }
    notices := w.notices ++ .eventDequeued e.name :: asked.map Hearing.notice
    env }

theorem ended_setOut {w : World σ κ} (hidle : w.machine.Idle) (e : Event) (rest : List Event)
    (asked : List Hearing) (env : σ) :
    ((w.setOut e rest).hearing asked env).ended = w.unhandled e rest asked env := by
  simp only [ended, hearing, setOut, taking, begun, unhandled, notify, mapMachine, hidle.running,
    List.append_assoc, List.singleton_append]

end World

namespace Engine

variable {r : Responder σ κ} {w : World σ κ} {e : Event} {rest : List Event} {s : StateId}

/-- A run of events from the firing of a transition on. -/
def runOn (r : Responder σ κ) (n : Nat) (p : Pending) : Engine σ κ RunOutcome := do
  let fire : Engine σ κ (Nat × StopReason) := do
    fireTransition r p
    setCurrent none none
    processEvents r n 1
  let o ← fire.thenAlways World.ended
  pure (.completed o.1 o.2)

/-- A run of events of an idle machine begins with what the first one selects. -/
theorem runEvents_setOut (hidle : w.machine.Idle) (hevents : w.machine.events = e :: rest)
    (n : Nat) :
    runEvents r (n + 1) w =
      ((selectOne r e >>= fun o =>
          handleSelected r (n + 1) e o.1 o.2 >>= fun more =>
          processEvents r n (0 + more)).thenAlways World.ended >>= fun o =>
        pure (.completed o.1 o.2)) (w.setOut e rest) := by
  rw [runEvents_idle hidle.running]
  have hcons := processEvents_cons (r := r) (w := w.begun) rfl hevents n 0
  refine bind_congr_at (thenAlways_congr_at (hcons.trans ?_))
  rw [← bind_assoc]
  exact bind_congr_at (handleEvent_eq ..)

section
variable {v v' : World σ κ}

theorem selectOne_of_nil (h : transitionsMatching r e v = .ok [] v') :
    selectOne r e v = .error (.fault (.noTransitions e.name)) v' := by
  rw [selectOne, bind_of_ok h]
  rfl

theorem selectOne_of_single {o : TransitionId × String}
    (h : transitionsMatching r e v = .ok [o] v') :
    selectOne r e v = .ok o v' := by
  rw [selectOne, bind_of_ok h]
  rfl

theorem selectOne_of_many {many : List (TransitionId × String)}
    (h : transitionsMatching r e v = .ok many v') (hmany : 2 ≤ many.length) :
    selectOne r e v =
      .error (.fault (.tooManyTransitions e.name (v'.machine.transitionPaths (many.map (·.1)))))
        v' := by
  rw [selectOne, bind_of_ok h]
  match many with
  | [] => exact absurd hmany (by decide)
  | [_] => exact absurd hmany (Nat.not_succ_le_self 1)
  | _ :: _ :: _ => rfl

end

/-- What has selected a transition with the slot empty fires it. -/
theorem handleSelected_eq {v : World σ κ} {t : TransitionId} {label : String}
    {ts : List TransitionId} (hphase : v.machine.phase = .idle)
    (hpending : v.machine.pending = none) (hend : v.machine.atEnd = false)
    (hactive : v.machine.active = some s) (hts : v.machine.candidatesFrom s = .ok ts) (ht : t ∈ ts)
    (n : Nat) :
    handleSelected r n e t label v = (do
        fireTransition r ⟨t, e.args⟩
        setCurrent none none
        pure 1)
      ((v.mapMachine ({ · with trigger := some label })).notify (.transitionQueued t)) := by
  let u := v.mapMachine ({ · with trigger := some label })
  have hqueue : queueTransition t e.args u = _ :=
    queueTransition_of_candidate (Machine.inTransit_of_idle hphase) hpending hend hactive hts ht
  have hprocess := processTransitions_single (r := r) (w := (u.mapMachine fun m =>
    { m with pending := some ⟨t, e.args⟩ }).notify (.transitionQueued t)) hend rfl n
  have hslot : ({ v.machine with trigger := some label, pending := none } : Machine κ) =
      { v.machine with trigger := some label } := by rw [← hpending]
  refine (bind_of_ok hqueue).trans ((bind_congr_at hprocess).trans ?_)
  simp only [bind_assoc, pure_bind]
  exact congrArg (fun m =>
    (fireTransition r ⟨t, e.args⟩ >>= fun _ => setCurrent none none >>= fun _ => pure 1)
    (({ v with machine := m } : World σ κ).notify (.transitionQueued t))) hslot

end Engine

/-- The guards of all that is eligible for the first event have been asked, and the run goes by what
has passed. If nothing has, or several have, it fails, the error listing them in the order they were
asked in, and only the first event is gone. If exactly one has and the machine is not at its end, it
is fired with the arguments of the event. -/
structure Host.Decided (h : Host σ κ) (k : Nat) (w : World σ κ) (e : Event) (rest : List Event)
    (asked : List Hearing) (env : σ) : Prop where
  none : passers asked = [] → h.perform (k + 2) .runEvents w =
    .error (.fault (.noTransitions e.name)) (w.unhandled e rest asked env)
  many : 2 ≤ (passers asked).length → h.perform (k + 2) .runEvents w =
    .error (.fault (.tooManyTransitions e.name
      ((passers asked).map w.machine.graph.pathOfTransition))) (w.unhandled e rest asked env)
  single : ∀ t, passers asked = [t] → w.machine.atEnd = false →
    ∃ label, w.machine.graph.label? e t = some label ∧
      h.perform (k + 2) .runEvents w =
        Engine.runOn (h.responder (h.perform (k + 1))) k ⟨t, e.args⟩
          ((((w.setOut e rest).hearing asked env).mapMachine
            ({ · with trigger := some label })).notify (.transitionQueued t))

/-- On a machine at rest with nothing in its slot, where no guard of what is eligible for the first
event runs a body that makes a request or fails, a run of events asks the guards of exactly what is
eligible, each once, those out of inner states first, and goes by what passes. But if one of them is
bereft of its guard, those before the first such are asked, and the run fails there with only the
first event gone. -/
theorem Host.runEvents_selects {h : Host σ κ} {w : World σ κ} {s : StateId} {e : Event}
    {rest : List Event} (hreachable : w.machine.graph.Reachable) (hidle : w.machine.Idle)
    (hactive : w.machine.active = some s) (hpending : w.machine.pending = none)
    (hevents : w.machine.events = e :: rest) (k : Nat)
    (hmild : ∀ t, w.machine.Eligible s e t → h.Mild w.machine.graph t e.args) :
    ∃ ts asked env,
      (∀ t, t ∈ ts ↔ w.machine.Eligible s e t) ∧
      ts.Pairwise (fun t u => t ≠ u ∧ w.machine.graph.InnerFirst t u) ∧
      (w.setOut e rest).Asked (h.responder (h.perform (k + 1))) e.args asked env ∧
      (∀ t ∈ asked.map (·.1), ∀ d, ¬ w.machine.graph.Bereft t d) ∧
      (asked.map (·.1) = ts ∧ h.Decided k w e rest asked env ∨
        ∃ t later d, ts = asked.map (·.1) ++ t :: later ∧ w.machine.graph.Bereft t d ∧
          h.perform (k + 2) .runEvents w =
            .error (.fault (.graph (.unknownDefinition d.label)))
              (w.unhandled e rest asked env)) := by
  let r := h.responder (h.perform (k + 1))
  let v := w.setOut e rest
  have hg := hreachable.tied
  have hrun : h.perform (k + 2) .runEvents w = _ :=
    Engine.runEvents_setOut (r := r) hidle hevents k
  have hquiet : ∀ t, w.machine.Eligible s e t → (∀ d, ¬ w.machine.graph.Bereft t d) →
      r.Quiet w.machine.graph t e.args := by
    intro t ht hbereft
    obtain ⟨tr, htr, -⟩ := id ht
    obtain ⟨element, b, hb⟩ := Graph.exists_behaviorOf_guard htr hbereft
    exact (hmild t ht).quiet hb
  have hfailed {asked : List Hearing} {env : σ} {err : Stop}
      (hselect : Engine.selectOne r e v = .error err (v.hearing asked env)) :
      h.perform (k + 2) .runEvents w = .error err (w.unhandled e rest asked env) := by
    rw [hrun, ← World.ended_setOut hidle]
    refine Engine.bind_of_error ?_
    rw [Engine.thenAlways, Engine.bind_of_error hselect]
  obtain ⟨asked, env, hasked, hfound, hout⟩ :=
    Engine.asked_transitionsMatching (r := r) (w := v) (s := s) (e := e) hg hactive hquiet
  refine ⟨_, asked, env, fun t => Machine.mem_filter_outbound hg,
    (Machine.pairwise_outbound hg s).filter _, hasked, hfound, ?_⟩
  rcases hout with ⟨hts, hmatching⟩ | ⟨t, later, d, hts, hbereft, hmatching⟩
  · refine .inl ⟨hts, fun hnone => ?_, fun hmany => ?_, fun t hone hend => ?_⟩
    · rw [hnone] at hmatching
      exact hfailed (Engine.selectOne_of_nil hmatching)
    · have hselect := Engine.selectOne_of_many hmatching (by rwa [List.length_map])
      have hids : ((passers asked).map fun t =>
          (t, (v.machine.graph.label? e t).getD "")).map (·.1) = passers asked := by
        rw [List.map_map]
        exact List.map_id _
      rw [hids] at hselect
      exact hfailed hselect
    · have hpasser : t ∈ passers asked := by rw [hone]; exact List.mem_singleton_self t
      have heard : t ∈ asked.map (·.1) := (List.filter_sublist.map _).subset hpasser
      rw [hts, List.mem_filter] at heard
      obtain ⟨label, hlabel⟩ := Option.isSome_iff_exists.mp heard.2
      rw [hone, List.map_singleton, hlabel] at hmatching
      have hselected : Engine.handleSelected r (k + 1) e t label (v.hearing asked env) = _ :=
        Engine.handleSelected_eq (v := v.hearing asked env) hidle.phase hpending hend hactive
          (Machine.candidatesFrom_eq hg s) heard.1 (k + 1)
      refine ⟨label, hlabel, hrun.trans (Engine.bind_congr_at (Engine.thenAlways_congr_at ?_))⟩
      refine (Engine.bind_of_ok (Engine.selectOne_of_single hmatching)).trans ?_
      refine (Engine.bind_congr_at hselected).trans ?_
      simp only [bind_assoc, pure_bind, Nat.zero_add]
      rfl
  · have hselect : Engine.selectOne r e v =
        .error (.fault (.graph (.unknownDefinition d.label))) (v.hearing asked env) := by
      rw [Engine.selectOne, Engine.bind_of_error hmatching]
    exact .inr ⟨t, later, d, hts, hbereft, hfailed hselect⟩

/-! ## An event with two ways on -/

/-- Bodies that answer what their keys say. -/
def Host.frank : Host Unit Bool where
  handlers _ := .empty
  body key _ _ := .ret (.ok (some key))

/-- A hall, and a flat with a parlour. One can leave the flat, if its guard lets one, or slip out of
the parlour. -/
def exitEdits : List (Edit Bool) :=
  [.addState ⟨0⟩ { name := "hall" }, .addState ⟨0⟩ { name := "flat" },
    .attachSubmachine ⟨1⟩ "rooms", .addState ⟨1⟩ { name := "parlour" },
    .addTransition ⟨0⟩
      { name := "leave", source := ⟨1⟩, target := ⟨0⟩, triggers := [.tag "go"],
        guard := .callback true },
    .addTransition ⟨1⟩ { name := "slip", source := ⟨2⟩, target := ⟨0⟩, triggers := [.tag "go"] }]

/-- A machine in the parlour that is told to go. -/
def parlour : World Unit Bool :=
  let w := World.fresh ((Graph.new "exits").edited exitEdits)
  w.mapMachine ({ · with active := some ⟨2⟩, events := [⟨"go", []⟩] })

theorem runEvents_selects_parlour :
    let e : Event := ⟨"go", []⟩
    parlour.machine.graph.Reachable ∧ parlour.machine.Idle ∧ parlour.machine.active = some ⟨2⟩ ∧
      parlour.machine.pending = none ∧ parlour.machine.events = [e] ∧
      (∀ t, parlour.machine.Eligible ⟨2⟩ e t → Host.frank.Mild parlour.machine.graph t e.args) ∧
      ∃ ts asked env,
        (∀ t, t ∈ ts ↔ parlour.machine.Eligible ⟨2⟩ e t) ∧
        ts.Pairwise (fun t u => t ≠ u ∧ parlour.machine.graph.InnerFirst t u) ∧
        (parlour.setOut e []).Asked (Host.frank.responder (Host.frank.perform 1)) e.args asked env ∧
        (∀ t ∈ asked.map (·.1), ∀ d, ¬ parlour.machine.graph.Bereft t d) ∧
        (asked.map (·.1) = ts ∧ Host.frank.Decided 0 parlour e [] asked env ∨
          ∃ t later d, ts = asked.map (·.1) ++ t :: later ∧ parlour.machine.graph.Bereft t d ∧
            Host.frank.perform 2 .runEvents parlour =
              .error (.fault (.graph (.unknownDefinition d.label)))
                (parlour.unhandled e [] asked env)) := by
  intro e
  have hreachable : parlour.machine.graph.Reachable :=
    (Graph.Reachable.new "exits").edited exitEdits
  have hmild : ∀ t, parlour.machine.Eligible ⟨2⟩ e t →
      Host.frank.Mild parlour.machine.graph t e.args := fun _ _ _ _ key _ _ => ⟨some key, rfl⟩
  exact ⟨hreachable, ⟨rfl, rfl, rfl⟩, rfl, rfl, rfl, hmild,
    Host.runEvents_selects hreachable ⟨rfl, rfl, rfl⟩ rfl rfl rfl 0 hmild⟩

/-- Both ways out are open, and the inner one is listed first. -/
example : Host.frank.fault? 2 .runEvents parlour =
    some (.tooManyTransitions "go" ["flat::slip", "leave"]) := by decide +kernel

/-- A way from one state to another that belongs to the definition nested in a third. The third is
removed, and the way stays. -/
def forsakingEdits : List (Edit Bool) :=
  [.addState ⟨0⟩ { name := "a" }, .addState ⟨0⟩ { name := "b" }, .addState ⟨0⟩ { name := "c" },
    .attachSubmachine ⟨0⟩ "inner",
    .addTransition ⟨1⟩ { name := "leave", source := ⟨1⟩, target := ⟨2⟩, triggers := [.tag "go"] },
    .removeState ⟨0⟩]

/-- A machine in the state that the way leads out of, told to go. -/
def forsaken : World Unit Bool :=
  let w := World.fresh ((Graph.new "bereft").edited forsakingEdits)
  w.mapMachine ({ · with active := some ⟨1⟩, events := [⟨"go", []⟩] })

/-- The way is the only one that is eligible, and nothing guards it. It is not fired. -/
theorem not_fired_forsaken :
    forsaken.machine.graph.Reachable ∧ forsaken.machine.Idle ∧
      forsaken.machine.active = some ⟨1⟩ ∧ forsaken.machine.pending = none ∧
      forsaken.machine.events = [⟨"go", []⟩] ∧ forsaken.machine.atEnd = false ∧
      (∀ t, forsaken.machine.Eligible ⟨1⟩ ⟨"go", []⟩ t ↔ t = ⟨0⟩) ∧
      ((forsaken.machine.graph.transition? ⟨0⟩).any fun tr => tr.guard.isAbsent) = true ∧
      ∃ w, Host.frank.perform 2 .runEvents forsaken =
        .error (.fault (.graph (.unknownDefinition "definition#1"))) w := by
  have hreachable : forsaken.machine.graph.Reachable :=
    (Graph.Reachable.new "bereft").edited forsakingEdits
  have heligible : (forsaken.machine.outbound ⟨1⟩).filter (fun t =>
      (forsaken.machine.graph.label? ⟨"go", []⟩ t).isSome) = [⟨0⟩] := by decide +kernel
  refine ⟨hreachable, ⟨rfl, rfl, rfl⟩, rfl, rfl, rfl, by decide +kernel, fun t => ?_,
    by decide +kernel, _, Host.perform_of_fault (by decide +kernel)⟩
  rw [← Machine.mem_filter_outbound hreachable.tied, heligible, List.mem_singleton]

end Statechart
