import Statechart.Proofs.Machine.Cutoff
import Statechart.Proofs.Machine.Scope

/-!
# States entered and left

Entering a state puts it on a stack and leaving it takes it off. As long as no behavior fails or
makes a request and no internal transition fires, what has been entered and not left is the active
state and what is around it, and states are left in the reverse of the order in which they were
entered.
-/

namespace Statechart

open Json

variable {σ κ α : Type}

/-! ## Behaviors that neither fail nor make requests -/

/-- What answers has a part in nothing but the environment, and fails only by being cut off. -/
structure Responder.Docile (r : Responder σ κ) : Prop where
  call : ∀ {I}, World.Indifferent I → ∀ name element args,
    Engine.Triple I (r.call name element args) (fun _ => I) Engine.cutOff
  callback : ∀ {I}, World.Indifferent I → ∀ key element args,
    Engine.Triple I (r.callback key element args) (fun _ => I) Engine.cutOff

namespace Host

/-- The behaviors of a host, cut off where one fails or makes a request. -/
def docile (h : Host σ κ) : Responder σ κ :=
  let r := h.responder fun _ => throw .exhausted
  { respondsTo := r.respondsTo
    call := fun name element args => Engine.orCut (r.call name element args)
    callback := fun key element args => Engine.orCut (r.callback key element args) }

/-- The hooks of a host, cut off where one fails or makes a request. -/
def docileHook (h : Host σ κ) (key : κ) : Engine σ κ Unit :=
  Engine.orCut do let _ ← h.runBody (fun _ => throw .exhausted) key none []

/-- Carries out a request, cut off where a behavior fails or makes a request. -/
def smoothly (h : Host σ κ) (n : Nat) (q : Request κ) : Engine σ κ q.Answer :=
  Engine.carryOut h.docile h.docileHook n q

/-- An operation on a machine succeeds or fails, and no behavior fails or makes a request on the
way. Before it, what the behaviors keep and the time may have become anything. -/
def Smooth (h : Host σ κ) (q : Request κ) (w w' : World σ κ) : Prop :=
  ∃ n env now, (h.smoothly n q).Leads { w with env, now } w'

variable {h : Host σ κ} {q : Request κ} {w w' : World σ κ}

theorem docile_docile : h.docile.Docile := by
  have hkeeps {I : World σ κ → Prop} (hI : World.Indifferent I) :
      (h.responder fun _ => throw .exhausted).Keeps I :=
    keeps_responder hI h.makes_any fun _ _ => .throw
  constructor
  · exact fun hI name element args => .orCut ((hkeeps hI).call name element args)
  · exact fun hI key element args => .orCut ((hkeeps hI).callback key element args)

theorem docile_docileHook {I : World σ κ → Prop} (hI : World.Indifferent I) (key : κ) :
    Engine.Triple I (h.docileHook key) (fun _ => I) Engine.cutOff :=
  .orCut (.bind (keeps_runBody hI h.makes_any (fun _ _ => .throw) key none []) fun _ => .pure)

theorem matches_smoothly (n : Nat) (q : Request κ) :
    Engine.Matches (.upTo fun _ => True) (h.smoothly n q) (h.perform (n + 1) q) := by
  have hshows := Comparison.shows_upTo (σ := σ) (κ := κ) (I := fun _ => True) fun _ _ _ => trivial
  have hcut (q : Request κ) (_ : True) :
      Engine.Matches (.upTo fun _ => True) (throw .exhausted) (h.perform n q) := .cut trivial
  have hr := matches_responder hshows hcut h.blind_eq
  have hdocile : h.docile.Matches (.upTo fun _ => True) (h.responder (h.perform n)) :=
    ⟨fun hw _ => by rw [hw.1]; rfl,
      fun name element args => .orCut trivial (hr.call name element args),
      fun key element args => .orCut trivial (hr.callback key element args)⟩
  have hhook (key : κ) : Engine.Matches (.upTo fun _ => True) (h.docileHook key) (h.hook n key) :=
    .orCut trivial (.bind (matches_runBody hshows hcut h.blind_eq key none []) fun _ => .pure)
  exact Engine.matches_carryOut_of_serves hdocile hhook Comparison.serves_upTo n q

/-- An operation in which no behavior fails or makes a request is an operation. -/
theorem Smooth.step (hs : h.Smooth q w w') : h.Step q w w' := by
  obtain ⟨n, env, now, hn⟩ := hs
  exact ⟨n + 1, env, now, (matches_smoothly n q).leads trivial hn⟩

end Host

namespace Engine

variable {I : World σ κ → Prop} {r : Responder σ κ}

/-- A behavior runs unless there is none to be found. -/
theorem docile_invoke (hr : r.Docile) (hI : World.Indifferent I) (a : Action) (s : Subject)
    (args : List Value) : Triple I (invoke r a s args) (fun _ => I) fun e w =>
      e = .exhausted ∨ I w ∧ ∀ p, w.machine.graph.behaviorOf a s ≠ .ok p := by
  intro w hw
  rw [invoke, machine_bind]
  cases hb : w.machine.graph.behaviorOf a s with
  | error e =>
    refine .inr ⟨hw, fun p hp => ?_⟩
    rw [hb] at hp
    cases hp
  | ok p =>
    obtain ⟨element, behavior⟩ := p
    have hpure (answer : Option Bool) :
        Triple I (pure answer : Engine σ κ (Option Bool)) (fun _ => I) cutOff :=
      fun _ hw => hw
    simp only [ofGraph, pure_bind]
    refine Triple.mono_error (E := cutOff) ?_ (fun _ _ => .inl) w hw
    cases behavior with
    | absent => exact hpure none
    | named name =>
      refine Triple.bind (Q := fun _ => I) (x := get) (fun _ hw => hw) fun w => ?_
      split
      · exact hr.call hI name element args
      · exact hpure none
    | callback body => exact hr.callback hI body element args
    | test accepts => exact hpure _

end Engine

/-! ## The stack that notices tell of -/

namespace Notice

/-- What becomes of a stack of states. A state is entered if it is not on the stack, and left from
the top. -/
def shift : Notice → List StateId → Option (List StateId)
  | .stateEntered s, stack => if s ∈ stack then none else some (s :: stack)
  | .stateExited s, stack => if stack.head? = some s then some stack.tail else none
  | _, stack => some stack

/-- A transition that the notice tells of as fired is external. -/
def External (g : Graph κ) : Notice → Prop
  | .transitionFired t _ _ => (g.transition? t).map (·.kind) = some .external
  | _ => True

instance (g : Graph κ) (n : Notice) : Decidable (n.External g) :=
  match n with
  | .transitionFired t _ _ =>
    inferInstanceAs (Decidable ((g.transition? t).map (·.kind) = some .external))
  | .started _ | .eventDequeued _ | .transitionQueued _ | .guardEvaluated .. | .effectInvoked _
  | .stateExited _ | .stateEntered _ | .activityInvoked _ | .rolledBack _ | .paused | .resumed =>
    .isTrue trivial

end Notice

namespace World

variable {g : Graph κ} {since : Nat} {m : Machine κ} {stack stack' : List StateId} {w : World σ κ}

/-- The states entered since and not left, innermost first. -/
def entered (since : Nat) (w : World σ κ) : Option (List StateId) :=
  (w.notices.drop since).foldlM (fun stack n => n.shift stack) []

/-- Every transition fired since is external. -/
def External (g : Graph κ) (since : Nat) (w : World σ κ) : Prop :=
  ∀ n ∈ w.notices.drop since, n.External g

/-- The machine by now, and the states entered and not left unless an internal transition has
fired. -/
structure Stacked (g : Graph κ) (since : Nat) (m : Machine κ) (stack : List StateId)
    (w : World σ κ) : Prop where
  machine : w.machine = m
  length : since ≤ w.notices.length
  entered : w.External g since → w.entered since = some stack

theorem indifferent_stacked : World.Indifferent (Stacked (σ := σ) g since m stack) :=
  fun _ _ hw => ⟨hw.machine, hw.length, hw.entered⟩

theorem tracks_stacked : Engine.Tracks fun m => Stacked (σ := σ) g since m stack where
  machine h := h.machine
  map f h := ⟨congrArg f h.machine, h.length, h.entered⟩

theorem Stacked.setLogs (h : w.Stacked g since m stack) (logs : LogStore) :
    Stacked g since m stack { w with logs } :=
  ⟨h.machine, h.length, h.entered⟩

theorem Stacked.notify (h : w.Stacked g since m stack) {n : Notice}
    (hn : n.External g → n.shift stack = some stack') : (w.notify n).Stacked g since m stack' := by
  have hnotices : (w.notify n).notices.drop since = w.notices.drop since ++ [n] :=
    List.drop_append_of_le_length h.length
  refine ⟨h.machine, ?_, fun hexternal => ?_⟩
  · rw [World.notify, List.length_append]
    exact Nat.le_add_right_of_le h.length
  · rw [External, hnotices] at hexternal
    have hbefore := h.entered fun n hmem => hexternal n (List.mem_append_left _ hmem)
    have hlast := hn (hexternal n (List.mem_append_right _ List.mem_cons_self))
    rw [World.entered] at hbefore ⊢
    rw [hnotices, List.foldlM_append, hbefore]
    show (n.shift stack).bind pure = some stack'
    rw [hlast]
    rfl

end World

namespace Machine

variable {m : Machine κ} {s : StateId}

/-- The states that a machine is in with the given one active, innermost first. -/
def chain (m : Machine κ) (active : Option StateId) : List StateId :=
  (active.map m.scopedAncestors).getD []

/-- The machine after a move. -/
def moved (m : Machine κ) (via : Option TransitionId) (s : StateId) : Machine κ :=
  { m with active := some s, lastTransition := via, firing := none }

section
variable (hg : m.graph.Nested) (external : Bool) (old : Option StateId) (new : StateId)
include hg

theorem live_of_mem_chain (h : s ∈ m.chain old) : ∃ st, m.graph.state? s = some st := by
  cases old with
  | none => exact (List.not_mem_nil h).elim
  | some q => exact live_of_covers ((mem_scopedAncestors hg).mp h).2

theorem nodup_chain : (m.chain old).Nodup := by
  cases old with
  | none => exact List.nodup_nil
  | some q => exact nodup_scopedAncestors hg q

/-- A move leaves one end of the chain and enters another, and the rest stays. -/
theorem exists_kept :
    ∃ kept, m.chain old = m.leaving external old new ++ kept ∧
    m.chain (if external then some new else old) =
      (m.entering external old new).reverse ++ kept := by
  by_cases hcrosses : (external && old != some new) = true
  · have hforks : Forks (m.chain old) (m.scopedAncestors new) := by
      cases old with
      | none => exact .nil _
      | some q => exact forks_scopedAncestors hg q new
    obtain ⟨kept, hold, hnew⟩ := hforks
    refine ⟨kept, ?_, ?_⟩
    · rw [leaving, if_pos hcrosses]
      exact hold
    · rw [entering, if_pos hcrosses, if_pos (Bool.and_eq_true_iff.mp hcrosses).1,
        List.filter_reverse, List.reverse_reverse]
      exact hnew
  · rw [leaving, entering, if_neg hcrosses, if_neg hcrosses]
    refine ⟨m.chain old, rfl, ?_⟩
    cases external with
    | false => rfl
    | true =>
      rw [Bool.true_and, bne_iff_ne, Classical.not_not] at hcrosses
      rw [hcrosses]
      rfl

end

end Machine

namespace Engine

variable {g : Graph κ} {since : Nat} {m : Machine κ} {stack : List StateId} {r : Responder σ κ}
  {E : Stop → World σ κ → Prop}

theorem stacked_notify {n : Notice} (hn : n.shift stack = some stack) :
    Triple (World.Stacked g since m stack) (notify n : Engine σ κ Unit)
      (fun _ => World.Stacked g since m stack) E :=
  .notify fun _ hw => hw.notify fun _ => hn

theorem exists_behaviorOf (hg : g.Placed) {s : StateId} {st : State κ} (hs : g.state? s = some st)
    (a : Action) : ∃ p, g.behaviorOf a (.state s) = .ok p := by
  obtain ⟨x, hx⟩ := hg.owner hs
  rw [Graph.behaviorOf, Graph.subject, Graph.state_ok_iff.mpr hs]
  show ∃ p, (if (st.behavior a).isAbsent = true then _ else _) = Except.ok p
  split
  · rw [Graph.definition_ok_iff.mpr hx]
    exact ⟨_, rfl⟩
  · exact ⟨_, rfl⟩

/-! ## Moves -/

section
variable (hr : r.Docile) (hg : g.Tied)
include hr hg

/-- The behavior of a live state is run. -/
theorem stacked_invoke (hm : m.graph = g) {s : StateId} (hs : ∃ st, g.state? s = some st)
    (a : Action) (args : List Value) :
    Triple (World.Stacked g since m stack) (invoke r a (.state s) args)
      (fun _ => World.Stacked g since m stack) cutOff := by
  refine (docile_invoke hr World.indifferent_stacked a _ args).mono_error fun e w h => ?_
  rcases h with hcut | ⟨hw, hnone⟩
  · exact hcut
  · obtain ⟨st, hst⟩ := hs
    obtain ⟨p, hp⟩ := exists_behaviorOf hg.placed hst a
    rw [hw.machine, hm] at hnone
    exact (hnone p hp).elim

theorem stacked_leaveState (hm : m.graph = g) {s : StateId} (hs : ∃ st, g.state? s = some st)
    (args : List Value) : Triple (World.Stacked g since m (s :: stack)) (leaveState r args s)
      (fun _ => World.Stacked g since m stack) cutOff :=
  .bind (.notify fun _ hw => hw.notify fun _ => if_pos rfl) fun _ =>
    .bind (stacked_invoke hr hg hm hs .exit args) fun _ _ hw => hw

theorem stacked_enterState (hm : m.graph = g) {s : StateId} (hs : ∃ st, g.state? s = some st)
    (hfresh : s ∉ stack) (args : List Value) :
    Triple (World.Stacked g since m stack) (enterState r args s)
      (fun _ => World.Stacked g since m (s :: stack)) cutOff :=
  .bind (.notify fun _ hw => hw.notify fun _ => if_neg hfresh) fun _ =>
    .bind (stacked_invoke hr hg hm hs .entry args) fun _ _ hw => hw

variable {ss : List StateId} (hm : m.graph = g) (hphase : m.phase = .idle)
include hm hphase

/-- What is left is taken off the stack. -/
theorem stacked_leave (hss : ∀ s ∈ ss, ∃ st, g.state? s = some st) (args : List Value) :
    Triple (World.Stacked g since m (ss ++ stack)) (leave r args ss)
      (fun _ => World.Stacked g since m stack)
      cutOff := by
  have hflag := phaseFlag_of_idle hphase .exit
  have hloop (m' : Machine κ) (hm : m'.graph = g) : Triple (World.Stacked g since m' (ss ++ stack))
      (ss.forM (leaveState r args)) (fun _ => World.Stacked g since m' stack) cutOff := by
    induction ss with
    | nil => exact fun _ hw => hw
    | cons s ss ih =>
      have hrest := ih fun s hs => hss s (List.mem_cons_of_mem _ hs)
      exact .bind (stacked_leaveState hr hg hm (hss s List.mem_cons_self) args) fun _ => hrest
  exact .bind (World.tracks_stacked.beginPhase hflag) fun _ => .bind (hloop _ hm) fun _ =>
    World.tracks_stacked.endPhase hflag

/-- What is entered is put on the stack. -/
theorem stacked_enterAll (hss : ∀ s ∈ ss, ∃ st, g.state? s = some st)
    (hnodup : (ss.reverse ++ stack).Nodup) (args : List Value) :
    Triple (World.Stacked g since m stack) (enterAll r args ss)
      (fun _ => World.Stacked g since m (ss.reverse ++ stack)) cutOff := by
  have hflag := phaseFlag_of_idle hphase .entry
  have hloop (m' : Machine κ) (hm : m'.graph = g) : Triple (World.Stacked g since m' stack)
      (ss.forM (enterState r args))
        (fun _ => World.Stacked g since m' (ss.reverse ++ stack)) cutOff := by
    induction ss generalizing stack with
    | nil => exact fun _ hw => hw
    | cons s ss ih =>
      rw [List.reverse_cons, List.append_assoc, List.singleton_append] at hnodup ⊢
      have hfresh : s ∉ stack := (List.nodup_cons.mp (List.nodup_append.mp hnodup).2.1).1
      have hrest := ih (fun s hs => hss s (List.mem_cons_of_mem _ hs)) hnodup
      exact .bind (stacked_enterState hr hg hm (hss s List.mem_cons_self) hfresh args)
        fun _ => hrest
  exact .bind (World.tracks_stacked.beginPhase hflag) fun _ => .bind (hloop _ hm) fun _ =>
    World.tracks_stacked.endPhase hflag

theorem stacked_settle {s : StateId} (hs : ∃ st, g.state? s = some st) (via : Option TransitionId)
    (args : List Value) :
    Triple (World.Stacked g since m stack) (settle r args via s)
      (fun _ => World.Stacked g since { m with lastTransition := via, firing := none } stack)
        cutOff := by
  have hflag := phaseFlag_of_idle hphase .doActivity
  have hactivity (m' : Machine κ) (hm : m'.graph = g) : Triple (World.Stacked g since m' stack)
      (invoke r .doActivity (.state s) args) (fun _ => World.Stacked g since m' stack) cutOff :=
    stacked_invoke hr hg hm hs .doActivity args
  refine .seq World.tracks_stacked.update ?_
  refine .seq (World.tracks_stacked.beginPhase hflag) ?_
  refine .seq (stacked_notify rfl) ?_
  exact .seq (hactivity _ hm) (World.tracks_stacked.endPhase hflag)

/-- A move that crosses states takes the stack from the chain of the one to the chain of the
other. -/
theorem stacked_cascade {old : Option StateId} {target : StateId} {via : Option TransitionId}
    {external : Bool} (hexternal : isExternal g via = .ok external)
    (htarget : m.covers target = true) (args : List Value) :
    Triple (World.Stacked g since m (m.chain old)) (cascade r old target via args)
      (fun s w => m.covers s = true ∧ World.Stacked g since (m.moved via s)
        (m.chain (if external then some s else old)) w) cutOff := by
  subst hm
  have hlive {active : Option StateId} {s : StateId} (hs : s ∈ m.chain active) :
      ∃ st, m.graph.state? s = some st := Machine.live_of_mem_chain hg.nested active hs
  have hreached := Machine.covers_resolveEntryTarget hg htarget
  -- What is kept stays on the stack throughout: the states left are above it at first, those
  -- entered in the end.
  obtain ⟨kept, hold, hnew⟩ :=
    Machine.exists_kept hg.nested external old (m.graph.resolveEntryTarget target)
  have hleave : Triple (World.Stacked m.graph since m (m.chain old))
      (leave r args (m.leaving external old (m.graph.resolveEntryTarget target)))
      (fun _ => World.Stacked m.graph since m kept) cutOff := by
    rw [hold]
    exact stacked_leave hr hg rfl hphase
      (fun s hs => hlive (hold ▸ List.mem_append_left kept hs)) args
  rw [cascade_eq]
  refine World.tracks_stacked.machine_bind ?_
  rw [hexternal]
  simp only [ofGraph, pure_bind]
  refine .bind hleave fun _ => .bind World.tracks_stacked.update fun _ => ?_
  refine .bind (stacked_enterAll
    (m := { m with active := some (m.graph.resolveEntryTarget target) }) hr hg rfl
    hphase ?_ (hnew ▸ Machine.nodup_chain hg.nested _) args) fun _ => ?_
  · exact fun s hs => hlive (hnew ▸ List.mem_append_left kept (List.mem_reverse.mpr hs))
  · rw [← hnew]
    exact .bind (stacked_settle
      (m := { m with active := some (m.graph.resolveEntryTarget target) }) hr hg rfl
      hphase (Machine.live_of_covers hreached) via args) fun _ _ hw => ⟨hreached, hw⟩

theorem stacked_enter {target : StateId} {via : Option TransitionId} {external : Bool}
    (hexternal : isExternal g via = .ok external) (htarget : m.covers target = true)
    (args : List Value) :
    Triple (World.Stacked g since m (m.chain m.active)) (enter r target via args)
      (fun s w => m.covers s = true ∧ World.Stacked g since (m.moved via s)
        (m.chain (if external then some s else m.active)) w) cutOff := by
  refine World.tracks_stacked.machine_bind (.onFailure (.thenAlways ?_))
  refine (stacked_cascade hr hg hm hphase hexternal htarget args).mono_post ?_ fun _ _ he => he
  rintro s w ⟨hs, hw⟩
  exact ⟨hs, World.tracks_stacked.map ({ · with phase := m.phase }) hw⟩

omit hr hg hm hphase in
theorem stacked_recordHistory (previous : Option StateId)
    (t : Option TransitionId) (new : StateId) :
    Triple (World.Stacked g since m stack) (recordHistory previous t new)
      (fun _ => World.Stacked (σ := σ) g since m stack) E := by
  refine .modify fun w hw => ?_
  split
  · exact hw.setLogs _
  · exact hw

theorem stacked_seed {s : StateId} (hs : m.covers s = true) (args : List Value) :
    Triple (World.Stacked g since m (m.chain m.active)) (seed r s args)
      (fun s w => m.covers s = true ∧ World.Stacked g since (m.moved none s) (m.chain (some s)) w)
        cutOff := by
  have hexternal : isExternal g none = .ok true := rfl
  refine .bind (stacked_enter hr hg hm hphase hexternal hs args) fun s => .of_and fun hs => ?_
  refine .bind (.modify fun w hw => hw.setLogs _) fun _ => ?_
  exact .bind (stacked_recordHistory none none s) fun _ _ hw => ⟨hs, hw⟩

/-- A transition that fires takes the stack along, unless it is internal. -/
theorem stacked_fire {t : TransitionId} {tr : Transition κ} (ht : g.transition? t = some tr)
    (htarget : m.covers tr.target = true) (args : List Value) :
    Triple (World.Stacked g since m (m.chain m.active)) (fire r t tr.target m.active args)
      (fun _ w => ∃ s, m.covers s = true ∧
        World.Stacked g since (m.moved (some t) s) (m.chain (some s)) w)
      fun e w => e = .exhausted ∨
        World.Stacked g since { m with phase := setPhaseFlag m.phase .effect true }
          (m.chain m.active) w := by
  have hflag := phaseFlag_of_idle hphase .effect
  have hexternal : isExternal g (some t) = .ok (decide (tr.kind = .external)) := by
    rw [isExternal, Graph.transition_ok_iff.mpr ht]
    rfl
  refine .seq (World.tracks_stacked.beginPhase hflag) ?_
  refine .seq (stacked_notify rfl) ?_
  have heffect {I : World σ κ → Prop} (hI : World.Indifferent I) :
      Triple I (invoke r .effect (.transition t) args) (fun _ => I)
        fun e w => e = .exhausted ∨ I w :=
    (docile_invoke hr hI .effect (.transition t) args).mono_error fun _ _ h => h.imp_right (·.1)
  refine .seq (heffect World.indifferent_stacked) ?_
  refine .seq (World.tracks_stacked.endPhase hflag) ?_
  refine .bind ((stacked_enter hr hg hm hphase hexternal htarget args).mono_error
    fun _ _ => .inl) fun s => ?_
  refine .of_and fun hs => ?_
  refine .seq (stacked_recordHistory m.active (some t) s) ?_
  refine .notify fun w hw => ⟨s, hs, hw.notify fun hkind => ?_⟩
  rw [Notice.External, ht] at hkind
  rw [if_pos (decide_eq_true (Option.some.inj hkind))]
  rfl

end

end Engine

/-! ## Between moves -/

/-- The machine is on the graph and the definition of the given one, in a state of the definition,
and has entered that state and what is around it. What waits leads into the definition. -/
structure World.Upright (m : Machine κ) (since : Nat) (w : World σ κ) : Prop where
  graph : w.machine.graph = m.graph
  definition : w.machine.definition = m.definition
  phase : w.machine.phase = .idle
  active : ∃ s, w.machine.active = some s ∧ m.covers s = true
  pending : ∀ p, w.machine.pending = some p → m.LeadsInto p.transition
  stacked : w.Stacked m.graph since w.machine (m.chain w.machine.active)

namespace Machine

variable {m a : Machine κ} (hgraph : a.graph = m.graph) (hdefinition : a.definition = m.definition)
include hgraph hdefinition

theorem chain_congr : a.chain = m.chain := by
  funext active
  have hscoped : a.scopedAncestors = m.scopedAncestors := by
    funext s
    rw [scopedAncestors, scopedAncestors, hgraph, covers_congr hgraph hdefinition]
  rw [chain, chain, hscoped]

end Machine

namespace World

variable {m : Machine κ} {since : Nat} {w w' : World σ κ}

/-- A change that leaves the place, the slot and the phases of the machine alone. -/
theorem Upright.map (h : w.Upright m since) {f : Machine κ → Machine κ}
    (hgraph : (f w.machine).graph = w.machine.graph)
    (hdefinition : (f w.machine).definition = w.machine.definition)
    (hactive : (f w.machine).active = w.machine.active)
    (hphase : (f w.machine).phase = w.machine.phase)
    (hpending : (f w.machine).pending = w.machine.pending) : (w.mapMachine f).Upright m since where
  graph := hgraph.trans h.graph
  definition := hdefinition.trans h.definition
  phase := hphase.trans h.phase
  active := by
    obtain ⟨s, hs, hcovers⟩ := h.active
    exact ⟨s, hactive.trans hs, hcovers⟩
  pending p hp := h.pending p (hpending.symm.trans hp)
  stacked := by
    have hmap := tracks_stacked.map f h.stacked
    rwa [← hactive] at hmap

theorem Upright.setPending (h : w.Upright m since) {pending : Option Pending}
    (hpending : ∀ p, pending = some p → m.LeadsInto p.transition) :
    (w.mapMachine ({ · with pending })).Upright m since :=
  ⟨h.graph, h.definition, h.phase, h.active, hpending,
    tracks_stacked.map ({ · with pending }) h.stacked⟩

theorem Upright.setLogs (h : w.Upright m since) (logs : LogStore) :
    Upright m since { w with logs } :=
  ⟨h.graph, h.definition, h.phase, h.active, h.pending, h.stacked.setLogs logs⟩

theorem indifferent_upright : World.Indifferent (Upright (σ := σ) m since) :=
  fun _ env h => ⟨h.graph, h.definition, h.phase, h.active, h.pending,
    indifferent_stacked _ env h.stacked⟩

theorem Upright.notify (h : w.Upright m since) {n : Notice}
    (hn : ∀ stack, n.shift stack = some stack) : (w.notify n).Upright m since :=
  ⟨h.graph, h.definition, h.phase, h.active, h.pending, h.stacked.notify fun _ => hn _⟩

theorem Stacked.upright {a : Machine κ} (hw : w.Stacked m.graph since a (a.chain a.active))
    (hgraph : a.graph = m.graph) (hdefinition : a.definition = m.definition)
    (hphase : a.phase = .idle) (hpending : ∀ p, a.pending = some p → m.LeadsInto p.transition)
    (hactive : ∃ s, a.active = some s ∧ a.covers s = true) : w.Upright m since := by
  obtain rfl := hw.machine
  rw [Machine.covers_congr hgraph hdefinition] at hactive
  rw [Machine.chain_congr hgraph hdefinition] at hw
  exact ⟨hgraph, hdefinition, hphase, hactive, hpending, hw⟩

theorem Upright.stacked_self (h : w.Upright m since) :
    w.Stacked m.graph since w.machine (w.machine.chain w.machine.active) := by
  rw [Machine.chain_congr h.graph h.definition]
  exact h.stacked

theorem Upright.covers_eq (h : w.Upright m since) : w.machine.covers = m.covers :=
  Machine.covers_congr h.graph h.definition

end World

namespace Engine

variable {m : Machine κ} {since : Nat} {r : Responder σ κ}

theorem upright_queueTransition (t : TransitionId) (args : List Value) :
    Keeps (World.Upright m since) (queueTransition t args : Engine σ κ Unit) := by
  intro w hw
  rcases queueTransition_cases t args w with ⟨e, he⟩ | ⟨s, ts, -, -, -, hts, ht, hok⟩
  · rw [he]
    exact hw
  · have hleads := Machine.leadsInto_of_candidate hts ht
    rw [Machine.leadsInto_congr hw.graph hw.definition] at hleads
    rw [hok]
    exact World.Upright.notify (hw.setPending fun p hp => Option.some.inj hp ▸ hleads) fun _ => rfl

variable (hg : m.graph.Tied) (hr : r.Docile)
include hg hr

theorem upright_fireTransition {p : Pending} (hp : m.LeadsInto p.transition) :
    Triple (World.Upright m since) (fireTransition r p) (fun _ => World.Upright m since)
      (unlessCut (World.Upright m since)) := by
  intro w hw
  obtain ⟨tr, htr, htarget⟩ := hp
  rw [fireTransition, machine_bind]
  cases hfiring : w.machine.firing with
  | some t => exact .inr hw
  | none =>
    have ht : w.machine.graph.transition p.transition = .ok tr := by
      rw [hw.graph]
      exact Graph.transition_ok_iff.mpr htr
    rw [ht]
    have hcovers : w.machine.covers tr.target = true := by
      rw [hw.covers_eq]
      exact htarget
    have hidle : { w.machine.phase with effect := false } = Phase.idle := by
      rw [hw.phase]
      rfl
    have hbegun := World.tracks_stacked.map ({ · with firing := some p.transition }) hw.stacked_self
    refine Triple.thenAlways
      (Triple.mono_post (stacked_fire (m := { w.machine with firing := some p.transition })
      hr hg hw.graph hw.phase htr hcovers p.args) ?_ ?_) _ hbegun
    · rintro _ v ⟨s, hs, hv⟩
      have hended := World.tracks_stacked.map
        (fun m => { m with firing := none, phase := { m.phase with effect := false } }) hv
      exact hended.upright hw.graph hw.definition hidle hw.pending ⟨s, rfl, hs⟩
    · rintro e v (hcut | hv)
      · exact .inl hcut
      · have hactive := hw.active
        rw [← hw.covers_eq] at hactive
        have hended := World.tracks_stacked.map
          (fun m => { m with firing := none, phase := { m.phase with effect := false } }) hv
        exact .inr (hended.upright hw.graph hw.definition hidle hw.pending hactive)

theorem upright_goto (s : StateId) (args : List Value) :
    Triple (World.Upright m since) (goto r s args) (fun _ => World.Upright m since)
      (unlessCut (World.Upright m since)) := by
  intro w hw
  rw [goto, machine_bind]
  cases hst : w.machine.graph.state s with
  | error e => exact .inr hw
  | ok st =>
    simp only [ofGraph, pure_bind]
    by_cases hwithin : w.machine.graph.isWithin st.owner w.machine.definition = true
    · rw [if_pos hwithin]
      have hcovers : w.machine.covers s = true :=
        Machine.covers_iff.mpr ⟨st, Graph.state_ok_iff.mp hst, hwithin⟩
      refine (stacked_seed hr hg hw.graph hw.phase hcovers args).mono_post ?_
        (fun _ _ he => .inl he) w hw.stacked_self
      rintro s v ⟨hs, hv⟩
      exact hv.upright hw.graph hw.definition hw.phase hw.pending ⟨s, rfl, hs⟩
    · rw [if_neg hwithin]
      exact .inr hw

/-- A start puts the first states on the stack, if there is a state to start in. -/
theorem stacked_start (hphase : m.phase = .idle) {x : Definition κ} {s : StateId}
    (hx : m.graph.definition? m.definition = some x) (hs : x.start = some s) (args : List Value) :
    Triple (World.Stacked m.graph since m []) (start r args) (fun s w => m.covers s = true ∧
      World.Stacked m.graph since (({ m with active := none } : Machine κ).moved none s)
        (m.chain (some s)) w)
      cutOff := by
  have hcovers := Machine.covers_of_marked (k := .start) hg hx hs
  refine World.tracks_stacked.machine_bind ?_
  simp only [Graph.definition_ok_iff.mpr hx, ofGraph, pure_bind, hs]
  refine .bind World.tracks_stacked.update fun _ =>
    .bind (stacked_seed (m := { m with active := none }) hr hg rfl hphase hcovers args) fun s => ?_
  exact .of_and fun hs => .bind (.notify fun w hw => hw.notify fun _ => rfl) fun _ w hw => ⟨hs, hw⟩

theorem upright_start (hpending : m.pending = none) (hphase : m.phase = .idle)
    (args : List Value) : Triple (World.Stacked m.graph since m []) (start r args)
      (fun _ => World.Upright m since) fun _ _ => True := by
  cases hx : m.graph.definition m.definition with
  | error e =>
    refine World.tracks_stacked.machine_bind ?_
    rw [hx]
    exact fun _ _ => trivial
  | ok x =>
    cases hs : x.start with
    | none =>
      refine World.tracks_stacked.machine_bind ?_
      simp only [hx, ofGraph, pure_bind, hs]
      exact fun _ _ => trivial
    | some s =>
      refine (stacked_start hg hr hphase (Graph.definition_ok_iff.mp hx) hs args).mono_post ?_
        fun _ _ _ => trivial
      rintro s w ⟨hs, hw⟩
      refine hw.upright rfl rfl hphase (fun p hp => ?_) ⟨s, rfl, hs⟩
      cases hpending.symm.trans hp

end Engine

/-- The request neither starts the machine nor puts another graph, slot or state in place. -/
def Request.Continues : Request κ → Prop
  | .start _ | .isolate | .edit _ | .restore _ => False
  | _ => True

theorem Comparison.runs_upright {m : Machine κ} {since : Nat} :
    (Comparison.upTo (World.Upright m since) : Comparison σ σ κ).Runs .same where
  like h := World.like_of_eq h.1
  guarded | _, rfl, h => ⟨by rw [h.1], h.2.notify fun _ => rfl⟩
  running h := by rw [h.1]
  paused h := by rw [h.1]
  events h := by rw [h.1]
  setPaused _ h := ⟨by rw [h.1], h.2.map rfl rfl rfl rfl rfl⟩
  setEvents _ h := ⟨by rw [h.1], h.2.map rfl rfl rfl rfl rfl⟩
  stopped h := ⟨by rw [h.1], h.2.notify fun _ => rfl⟩
  resumed h := ⟨by rw [h.1], h.2.notify fun _ => rfl⟩
  dequeued _ h := ⟨by rw [h.1], h.2.notify fun _ => rfl⟩
  starves := trivial
  setRunning _ h := ⟨by rw [h.1], h.2.map rfl rfl rfl rfl rfl⟩
  setEvent _ h := ⟨by rw [h.1], h.2.map rfl rfl rfl rfl rfl⟩
  setTrigger _ h := ⟨by rw [h.1], h.2.map rfl rfl rfl rfl rfl⟩

theorem Comparison.takes_upright {m : Machine κ} {since : Nat} :
    (Comparison.upTo (World.Upright m since) : Comparison σ σ κ).Takes .same fun p =>
      m.LeadsInto p.transition :=
  takes_of (c := .upTo (World.Upright m since)) (fun h => ⟨by rw [h.1], h.2.pending⟩)
    fun h => ⟨by rw [h.1], h.2.setPending nofun⟩

namespace Engine

variable {m : Machine κ} {since : Nat} {r : Responder σ κ} {hook : κ → Engine σ κ Unit}

/-- Between moves the machine is upright, unless the work is cut off. -/
theorem upright_carryOut (hg : m.graph.Tied) (hr : r.Docile)
    (hhook : ∀ {I}, World.Indifferent I → ∀ key, Triple I (hook key) (fun _ => I) cutOff) (n : Nat)
    {q : Request κ} (hq : q.Continues) : Triple (World.Upright m since) (carryOut r hook n q)
      (fun _ => World.Upright m since) (unlessCut (World.Upright m since)) := by
  have hdocile {α : Type} {x : Engine σ κ α} (hx : Triple (World.Upright m since) x
      (fun _ => World.Upright m since) cutOff) : Matches (.upTo (World.Upright m since)) x x :=
    matches_upTo_iff.mpr (hx.mono_error fun _ _ => .inl)
  have hresponder : r.Matches (.upTo (World.Upright m since)) r :=
    ⟨fun hw _ => by rw [hw.1], fun _ _ _ => hdocile (hr.call World.indifferent_upright _ _ _),
      fun _ _ _ => hdocile (hr.callback World.indifferent_upright _ _ _)⟩
  have hfire (p : Pending) (hp : m.LeadsInto p.transition) :
      Matches (.upTo (World.Upright m since)) (fireTransition r p) (fireTransition r p) :=
    matches_upTo_iff.mpr (upright_fireTransition hg hr hp)
  have hqueue (t : TransitionId) (args : List Value) :
      Matches (.upTo (World.Upright m since)) (queueTransition t args : Engine σ κ Unit)
        (queueTransition t args) :=
    matches_upTo_iff.mpr ((upright_queueTransition t args).mono_error fun _ _ => .inr)
  refine matches_upTo_iff.mp
    (matches_carryOut_of_runs Comparison.takes_upright hfire Comparison.runs_upright
    hresponder hqueue (fun key => hdocile (hhook World.indifferent_upright key)) n
      fun hreplaces => ?_)
  cases q with
  | goto s args => exact matches_upTo_iff.mpr (upright_goto hg hr s args)
  | setOptions o => exact .update fun _ _ h => ⟨by rw [h.1], h.2.map rfl rfl rfl rfl rfl⟩
  | clearHistory => exact .modify fun _ _ h => ⟨by rw [h.1], h.2.setLogs _⟩
  | start args => exact hq.elim
  | isolate => exact hq.elim
  | edit e => exact hq.elim
  | restore s => exact hq.elim
  | _ => exact hreplaces.elim

end Engine

namespace Host

variable {h : Host σ κ}

/-- A start leaves the machine upright. -/
theorem upright_of_start {w w' : World σ κ} {k : Nat} {args : List Value} {s : StateId}
    (hg : w.machine.graph.Tied) (hpending : w.machine.pending = none)
    (hphase : w.machine.phase = .idle) (hstart : h.smoothly k (.start args) w = .ok s w') :
    w'.Upright w.machine w.notices.length := by
  have hbegun : w.Stacked w.machine.graph w.notices.length w.machine [] := by
    refine ⟨rfl, Nat.le_refl _, fun _ => ?_⟩
    rw [World.entered, List.drop_length]
    rfl
  have hfirst := Engine.upright_start (r := h.docile) hg docile_docile hpending hphase args w hbegun
  have hrun : Engine.start h.docile args w = .ok s w' := hstart
  rw [hrun] at hfirst
  exact hfirst

/-- One operation leaves an upright machine upright. -/
theorem Smooth.upright {m : Machine κ} {since : Nat} {q : Request κ} {w w' : World σ κ}
    (hg : m.graph.Tied) (hq : q.Continues) (hs : h.Smooth q w w')
    (hw : w.Upright m since) : w'.Upright m since := by
  obtain ⟨n, env, now, hn⟩ := hs
  have hbefore : World.Upright m since { w with env, now } :=
    ⟨hw.graph, hw.definition, hw.phase, hw.active, hw.pending, hw.stacked.machine,
      hw.stacked.length, hw.stacked.entered⟩
  have hcarried : Engine.Triple (World.Upright m since) (h.smoothly n q)
      (fun _ => World.Upright m since) (Engine.unlessCut (World.Upright m since)) :=
    Engine.upright_carryOut hg docile_docile docile_docileHook n hq
  exact hcarried.leads hbefore hn

/-- A run begins with a start and goes on with operations in which no behavior fails or makes a
request. As long as all that fires is external, after each operation the states entered and not left
are the active state and, of its superstates, those in the definition of the machine; no state was
entered twice without being left, and each that was left was the last one entered. -/
theorem entered_of_steps {w₀ : World σ κ} {w : Nat → World σ κ} {q : Nat → Request κ} {n k : Nat}
    {s : StateId} {args : List Value} (hreachable : w₀.machine.graph.Reachable)
    (hpending : w₀.machine.pending = none) (hphase : w₀.machine.phase = .idle)
    (hstart : h.smoothly k (.start args) w₀ = .ok s (w 0)) (hrequests : ∀ i < n, (q i).Continues)
    (hsteps : ∀ i < n, h.Smooth (q i) (w i) (w (i + 1)))
    (hexternal : ∀ i ≤ n, (w i).External w₀.machine.graph w₀.notices.length) :
    ∀ i ≤ n, ∃ s, (w i).machine.active = some s ∧ (w i).entered w₀.notices.length =
      some (s :: (w₀.machine.graph.superstates s).filter w₀.machine.covers) := by
  have htied := hreachable.tied
  have hall : ∀ i ≤ n, (w i).Upright w₀.machine w₀.notices.length := by
    intro i
    induction i with
    | zero => exact fun _ => upright_of_start htied hpending hphase hstart
    | succ i ih =>
      exact fun hi => (hsteps i hi).upright htied (hrequests i hi) (ih (Nat.le_of_succ_le hi))
  intro i hi
  have hw := hall i hi
  obtain ⟨s, hs, hcovers⟩ := hw.active
  have hentered := hw.stacked.entered (hexternal i hi)
  rw [hs] at hentered
  exact ⟨s, hs, hentered.trans
    (congrArg some (Machine.scopedAncestors_of_covers htied.nested hcovers))⟩

end Host

theorem Host.smooth_after {h : Host σ κ} {k : Nat} {q : Request κ} {w : World σ κ}
    (ha : ((h.smoothly k q).answer? w).isSome) : h.Smooth q w ((h.smoothly k q).after w) :=
  ⟨k, w.env, w.now, Engine.leads_after ha⟩

/-- A hall, and a flat with a parlour that leads to a study. -/
def houseEdits : List (Edit Unit) :=
  [.addState ⟨0⟩ { name := "hall" }, .addState ⟨0⟩ { name := "flat" },
    .attachSubmachine ⟨1⟩ "rooms",
    .addState ⟨1⟩ { name := "parlour" }, .addState ⟨1⟩ { name := "study" },
    .setStart ⟨1⟩ (some ⟨2⟩),
    .addTransition ⟨0⟩ { name := "enter", source := ⟨0⟩, target := ⟨1⟩ },
    .addTransition ⟨1⟩ { name := "withdraw", source := ⟨2⟩, target := ⟨3⟩ },
    .addTransition ⟨0⟩ { name := "leave", source := ⟨1⟩, target := ⟨0⟩ }, .setStart ⟨0⟩ (some ⟨0⟩)]

def house : World Unit Unit := .fresh ((Graph.new "house").edited houseEdits)

/-- From the hall to the study, and out of the flat. -/
def visit : Nat → Request Unit
  | 0 => .queue ⟨0⟩ []
  | 1 => .run .continuous
  | 2 => .queue ⟨1⟩ []
  | 3 => .run .single
  | 4 => .queue ⟨2⟩ []
  | _ => .run .continuous

def visited : Nat → World Unit Unit
  | 0 => (Host.silent.smoothly 3 (.start [])).after house
  | i + 1 => (Host.silent.smoothly 3 (visit i)).after (visited i)

theorem entered_house :
    house.machine.graph.Reachable ∧ house.machine.pending = none ∧ house.machine.phase = .idle ∧
    Host.silent.smoothly 3 (.start []) house = .ok ⟨0⟩ (visited 0) ∧
    (∀ i < 6, (visit i).Continues) ∧
    (∀ i < 6, Host.silent.Smooth (visit i) (visited i) (visited (i + 1))) ∧
    (∀ i ≤ 6, (visited i).External house.machine.graph house.notices.length) ∧
    ∀ i ≤ 6, ∃ s, (visited i).machine.active = some s ∧ (visited i).entered house.notices.length =
      some (s :: (house.machine.graph.superstates s).filter house.machine.covers) := by
  have hreachable : house.machine.graph.Reachable := (Graph.Reachable.new "house").edited houseEdits
  have hstart : Host.silent.smoothly 3 (.start []) house = .ok ⟨0⟩ (visited 0) :=
    Engine.ok_of_answer? (by decide +kernel)
  have hrequests : ∀ i < 6, (visit i).Continues := by
    intro i _
    match i with
    | 0 | 1 | 2 | 3 | 4 | _ + 5 => trivial
  have hsteps : ∀ i < 6, Host.silent.Smooth (visit i) (visited i) (visited (i + 1)) := by
    have hall : ∀ i < 6, ((Host.silent.smoothly 3 (visit i)).answer? (visited i)).isSome := by
      decide +kernel
    exact fun i hi => Host.smooth_after (hall i hi)
  have hexternal : ∀ i ≤ 6, (visited i).External house.machine.graph house.notices.length := by
    unfold World.External
    decide +kernel
  exact ⟨hreachable, rfl, rfl, hstart, hrequests, hsteps, hexternal,
    Host.entered_of_steps hreachable rfl rfl hstart hrequests hsteps hexternal⟩

/-- In the study, with the parlour left. -/
example : (visited 4).entered house.notices.length = some [⟨3⟩, ⟨1⟩] := by decide +kernel

end Statechart
