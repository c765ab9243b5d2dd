import Statechart.Proofs.Graph.Validity
import Statechart.Proofs.Machine.Crossings
import Statechart.Proofs.Machine.Outbound
import Statechart.Proofs.Machine.Requests
import Statechart.Proofs.Machine.Rollback

/-!
# Machines that never get stuck

On a valid graph the active state of a machine of the root has candidates unless the machine is at
its end: a state that no transition leaves is an end state, and if its definition is nested in a
state, that one is no end state. A machine starts, and whatever fires from then on leads to such a
state again, since moves end in states in which nothing is nested.
-/

namespace Statechart

open Json

namespace Machine

variable {κ : Type} {m m' : Machine κ} {s c : StateId} {t : TransitionId}

/-- The machine in a state. -/
def inState (m : Machine κ) (s : StateId) : Machine κ := { m with active := some s }

/-- In the active state nothing is nested, and it has no candidates if and only if the machine is at
its end. -/
structure Unstuck (m : Machine κ) : Prop where
  simple : ∀ s, m.active = some s → ∃ st, m.graph.state? s = some st ∧ st.submachine = none
  candidates : ∀ s, m.active = some s → ∃ ts, m.candidatesFrom s = .ok ts ∧
    (ts = [] ↔ m.atEnd = true)

theorem Unstuck.congr (h : m.Unstuck) (hm : m.Meets m') : m'.Unstuck := by
  constructor
  · intro s hs
    rw [hm.graph]
    exact h.simple s (hm.active.symm.trans hs)
  · intro s hs
    rw [hm.candidatesFrom, hm.atEnd]
    exact h.candidates s (hm.active.symm.trans hs)

theorem unstuck_of_inactive (h : m.active = none) : m.Unstuck := by
  constructor <;>
  · intro s hs
    cases h.symm.trans hs

theorem atEnd_iff : m.atEnd = true ↔
    ∃ x s, m.graph.definition? m.definition = some x ∧ x.final = some s ∧ m.active = some s := by
  rw [atEnd, Bool.and_eq_true, beq_iff_eq, Option.isSome_iff_exists]
  simp only [Option.bind_eq_some_iff]
  constructor
  · rintro ⟨⟨s, x, hx, hs⟩, hactive⟩
    rw [hx, Option.bind_some, hs] at hactive
    exact ⟨x, s, hx, hs, hactive⟩
  · rintro ⟨x, s, hx, hs, hactive⟩
    refine ⟨⟨s, x, hx, hs⟩, ?_⟩
    rw [hx, Option.bind_some, hs, hactive]

section
variable (hg : m.graph.Tied) (hroot : m.definition = m.graph.root)
include hg hroot

/-- A machine of the root covers every live state. -/
theorem covers_of_root (hs : ∃ st, m.graph.state? s = some st) : m.covers s = true := by
  obtain ⟨st, hst⟩ := hs
  obtain ⟨x, hx⟩ := hg.placed.owner hst
  refine covers_iff.mpr ⟨st, hst, (Graph.isWithin_iff hg.nested).mpr ?_⟩
  rw [hroot]
  exact hg.within_root hx

theorem scopedAncestors_of_root (hs : ∃ st, m.graph.state? s = some st) :
    m.scopedAncestors s = m.graph.ancestors s := by
  rw [scopedAncestors_eq_filter hg.nested]
  refine List.filter_eq_self.mpr fun c hc => covers_of_root hg hroot ?_
  have hinside := (Graph.mem_ancestors hg.nested).mp hc
  rcases Relation.ReflTransGen.cases_tail hinside with rfl | ⟨q, -, hq⟩
  · exact hs
  · obtain ⟨qt, x, -, hx, hxc⟩ := Graph.superstate_eq_some.mp hq
    obtain ⟨ct, hct, -⟩ := hg.nested.composite_live hx hxc
    exact ⟨ct, hct⟩

/-- The candidates of a machine of the root are all transitions that leave the state or one around
it. -/
theorem candidatesFrom_of_root (hs : ∃ st, m.graph.state? s = some st) : m.candidatesFrom s =
    .ok ((m.graph.ancestors s).flatMap fun c => (m.graph.outgoing? c).getD []) := by
  have hlevel : ∀ c ∈ m.graph.ancestors s, m.outOf c = (m.graph.outgoing? c).getD [] := by
    intro c hc
    rw [← scopedAncestors_of_root hg hroot hs, mem_scopedAncestors hg.nested] at hc
    obtain ⟨ct, hct⟩ := live_of_covers hc.2
    rw [outOf, Graph.outgoing?_of hct]
    refine List.filter_eq_self.mpr fun t ht => ?_
    obtain ⟨tr, htr, -⟩ := hg.listed.outgoing_live hct ht
    rw [Graph.target?_of htr]
    exact covers_of_root hg hroot (hg.placed.target htr)
  rw [candidatesFrom_eq hg, outbound, scopedAncestors_of_root hg hroot hs]
  exact congrArg Except.ok (List.flatMap_congr hlevel)

/-- On a valid graph nothing leaves a live state or what is around it if and only if it is the end
state. -/
theorem candidatesFrom_eq_nil_iff (hv : m.graph.Validated) (hs : ∃ st, m.graph.state? s = some st)
    (hactive : m.active = some s) : m.candidatesFrom s = .ok [] ↔ m.atEnd = true := by
  rw [candidatesFrom_of_root hg hroot hs, Except.ok.injEq, List.flatMap_eq_nil_iff, atEnd_iff]
  constructor
  · intro hnone
    have hfinal {c : StateId} {ct : State κ} (hc : c ∈ m.graph.ancestors s)
        (hct : m.graph.state? c = some ct) :
        ct.kind = .final := by
      have hempty := hnone c hc
      rw [Graph.outgoing?_of hct] at hempty
      exact (hv.outgoing hct).mp hempty
    obtain ⟨st, hst⟩ := hs
    have hself : s ∈ m.graph.ancestors s := (Graph.mem_ancestors hg.nested).mpr .refl
    obtain ⟨x, hx, hxs⟩ := hg.marked.kind (m := .final) hst (hfinal hself hst)
    -- An end state within a nested definition would have an end state around it.
    have howner : st.owner = m.definition := by
      rw [hroot]
      by_contra hne
      obtain ⟨c, ct, hxc, hct, hsub⟩ := hg.nested.enclosed hx hne
      have hsuper := Graph.superstate_eq_some.mpr ⟨st, x, hst, hx, hxc⟩
      have hsimple :=
        hv.submachine hct (hfinal ((Graph.mem_ancestors hg.nested).mpr (.single hsuper)) hct)
      rw [hsub] at hsimple
      cases hsimple
    exact ⟨x, s, howner ▸ hx, hxs, hactive⟩
  · rintro ⟨x, q, hx, hxq, hq⟩ c hc
    obtain rfl : s = q := Option.some.inj (hactive.symm.trans hq)
    obtain ⟨st, hst, howner, hkind⟩ := hg.marked.marked (m := .final) hx hxq
    have hsuper : m.graph.superstate s = none := by
      refine Option.eq_none_iff_forall_ne_some.mpr fun c hc => ?_
      obtain ⟨st', y, hst', hy, hyc⟩ := Graph.superstate_eq_some.mp hc
      obtain ⟨r, hr, hrc⟩ := hg.nested.root
      obtain rfl : st = st' := Option.some.inj (hst.symm.trans hst')
      rw [howner, hroot, hr] at hy
      rw [Option.some.inj hy, hyc] at hrc
      cases hrc
    rw [Graph.ancestors_eq_cons hg.nested, Graph.superstates, hsuper] at hc
    obtain rfl := List.mem_singleton.mp hc
    rw [Graph.outgoing?_of hst]
    exact (hv.outgoing hst).mpr hkind

/-- A machine that has entered a live state of a valid graph is not stuck. -/
theorem unstuck_of_entered (hv : m.graph.Validated) (hs : ∃ st, m.graph.state? s = some st) :
    (m.inState (m.graph.resolveEntryTarget s)).Unstuck := by
  have hsimple := hv.simple_resolveEntryTarget hg hs
  constructor
  · intro q hq
    obtain rfl := Option.some.inj hq
    exact hsimple
  · intro q hq
    obtain rfl := Option.some.inj hq
    obtain ⟨st, hst, -⟩ := hsimple
    have hcandidates := candidatesFrom_of_root (m := m.inState (m.graph.resolveEntryTarget s))
      hg hroot ⟨st, hst⟩
    have hiff := candidatesFrom_eq_nil_iff (m := m.inState (m.graph.resolveEntryTarget s)) hg
      hroot hv ⟨st, hst⟩ rfl
    rw [hcandidates, Except.ok.injEq] at hiff
    exact ⟨_, hcandidates, hiff⟩

end

end Machine

variable {σ κ α : Type}

/-! ## Where moves end -/

/-- The machine is on the graph and the definition of the given one. It is not stuck, nor was it
after any firing told of since. -/
structure World.Landed (m : Machine κ) (since : Nat) (w : World σ κ) : Prop where
  graph : w.machine.graph = m.graph
  definition : w.machine.definition = m.definition
  active : ∀ s, w.machine.active = some s → (m.inState s).Unstuck
  fired : ∀ t previous s, .transitionFired t previous s ∈ w.notices.drop since →
    (m.inState s).Unstuck

namespace World

variable {m : Machine κ} {since : Nat} {w : World σ κ}

theorem Landed.setActive (h : w.Landed m since) {active : Option StateId}
    (hactive : ∀ s, active = some s → (m.inState s).Unstuck) :
    (w.mapMachine ({ · with active })).Landed m since :=
  ⟨h.graph, h.definition, hactive, h.fired⟩

theorem Landed.map (h : w.Landed m since) {f : Machine κ → Machine κ}
    (hf : w.machine.Meets (f w.machine)) : (w.mapMachine f).Landed m since :=
  ⟨hf.graph.trans h.graph, hf.definition.trans h.definition,
    fun s hs => h.active s (hf.active.symm.trans hs), h.fired⟩

theorem Landed.notify (h : w.Landed m since) {n : Notice} (hn : ∀ t previous s,
    n = .transitionFired t previous s → (m.inState s).Unstuck) :
    (w.notify n).Landed m since := by
  refine ⟨h.graph, h.definition, h.active, fun t previous s hs => ?_⟩
  rw [World.notify, List.drop_append, List.mem_append] at hs
  rcases hs with hold | hnew
  · exact h.fired t previous s hold
  · exact hn t previous s (List.mem_singleton.mp (List.mem_of_mem_drop hnew)).symm

theorem Landed.notify_other (h : w.Landed m since) {n : Notice} (hn : n.isFiring = false) :
    (w.notify n).Landed m since :=
  h.notify fun _ _ _ heq => by
    rw [heq] at hn
    cases hn

theorem lax_landed : World.Lax (Landed (σ := σ) m since) where
  machine hm h := ⟨hm.graph.trans h.graph, hm.definition.trans h.definition,
    fun s hs => h.active s (hm.active.symm.trans hs), h.fired⟩
  logs _ h := ⟨h.graph, h.definition, h.active, h.fired⟩
  env _ h := ⟨h.graph, h.definition, h.active, h.fired⟩
  now _ h := ⟨h.graph, h.definition, h.active, h.fired⟩
  notify {_ n} hn h := h.notify_other (by cases n <;> first | rfl | exact hn.elim)

theorem runs_landed : (Comparison.within (Landed m since) : Comparison σ σ κ).Runs .same where
  toHandles := Comparison.handles_within lax_landed
  setRunning _ h := ⟨by rw [h.1], h.2.map ⟨rfl, rfl, rfl⟩⟩

theorem queues_landed : (Comparison.within (Landed m since) : Comparison σ σ κ).Queues .same where
  toSelects := Comparison.selects_within lax_landed
  phase h := by rw [h.1]
  pending h := likePending_of_eq (by rw [h.1])
  setPending hp h := ⟨by rw [h.1, eq_of_likePending hp], h.2.map ⟨rfl, rfl, rfl⟩⟩
  queued | rfl, h => ⟨by rw [h.1], h.2.notify_other rfl⟩

end World

namespace Engine

variable {m : Machine κ} {since : Nat} {r : Responder σ κ}
  (hland : ∀ s, (∃ st, m.graph.state? s = some st) →
    (m.inState (m.graph.resolveEntryTarget s)).Unstuck)
  (hr : r.Keeps (World.Landed m since))
include hland hr

theorem landed_cascade (old : Option StateId) {target : StateId}
    (htarget : ∃ st, m.graph.state? target = some st) (via : Option TransitionId)
    (args : List Value) :
    Triple (World.Landed m since) (cascade r old target via args)
      (fun s w => (m.inState s).Unstuck ∧ w.Landed m since)
      fun _ => World.Landed m since := by
  have hreached := hland target htarget
  have hmove {w : World σ κ} {n : Notice} (hn : n.Moving) (hw : w.Landed m since) :
      (w.notify n).Landed m since :=
    hw.notify_other (by cases n <;> first | rfl | exact hn.elim)
  rw [cascade_eq]
  refine .bind (Q := fun m' w => m'.graph = m.graph ∧ w.Landed m since)
      (fun w hw => ⟨hw.graph, hw⟩) fun m' =>
    .of_and fun hgraph => ?_
  rw [hgraph]
  refine .bind Keeps.ofGraph fun external =>
    .bind (keeps_leave World.lax_landed hr args _) fun _ => ?_
  refine .bind (.update (I := World.Landed m since) fun w hw => hw.setActive
    fun s hs => ?_) fun _ => ?_
  · obtain rfl := Option.some.inj hs
    exact hreached
  · exact .bind (keeps_enterAll World.lax_landed hr hmove args _) fun _ =>
      .bind (keeps_settle World.lax_landed hr hmove args via _) fun _ _ hw => ⟨hreached, hw⟩

theorem landed_enter {target : StateId} (htarget : ∃ st, m.graph.state? target = some st)
    (via : Option TransitionId) (args : List Value) :
    Triple (World.Landed m since) (enter r target via args)
      (fun s w => (m.inState s).Unstuck ∧ w.Landed m since)
      fun _ => World.Landed m since := by
  intro w hw
  rw [enter, machine_bind]
  refine Triple.onFailure
    (.thenAlways ((landed_cascade hland hr w.machine.active htarget via args).mono_post ?_ ?_))
    w hw
  · exact fun s v hv => ⟨hv.1, hv.2.map ⟨rfl, rfl, rfl⟩⟩
  · intro e v hv
    have hphase : World.Landed m since (v.mapMachine ({ · with phase := w.machine.phase })) :=
      hv.map ⟨rfl, rfl, rfl⟩
    exact (hphase.setActive hw.active).notify_other rfl

theorem landed_seed {s : StateId} (hs : ∃ st, m.graph.state? s = some st) (args : List Value) :
    Keeps (World.Landed m since) (seed r s args) := by
  have henter : Keeps (World.Landed m since) (enter r s none args) :=
    (landed_enter hland hr hs none args).mono_post (fun _ _ hw => hw.2) fun _ _ => id
  refine henter.bind fun new => ?_
  have hrecord : Keeps (World.Landed m since) (recordHistory none none new : Engine σ κ Unit) :=
    keeps_recordHistory World.lax_landed none none new
  exact .seq (keeps_clearHistory World.lax_landed) (hrecord.seq .pure)

theorem landed_start (hg : m.graph.Marked) (args : List Value) :
    Keeps (World.Landed m since) (start r args) := by
  intro w hw
  rw [start, machine_bind]
  cases hx : w.machine.graph.definition w.machine.definition with
  | error e => exact hw
  | ok x =>
    cases hs : x.start with
    | none =>
      simp only [ofGraph, pure_bind, hs]
      exact hw
    | some s =>
      simp only [ofGraph, pure_bind, hs]
      rw [hw.graph] at hx
      obtain ⟨st, hst, -⟩ := hg.marked (m := .start) (Graph.definition_ok_iff.mp hx) hs
      have hemptied : Keeps (World.Landed m since)
          (update fun m => { m with active := none } : Engine σ κ Unit) :=
        .update fun v hv => hv.setActive fun q hq => absurd hq.symm (Option.some_ne_none q)
      have hseed := landed_seed hland hr ⟨st, hst⟩ args
      refine hemptied.seq (hseed.bind fun new => ?_) w hw
      exact .seq (keeps_notify World.lax_landed (n := .started new) trivial) .pure

theorem landed_goto (s : StateId) (args : List Value) :
    Keeps (World.Landed m since) (goto r s args) := by
  intro w hw
  rw [goto, machine_bind]
  cases hst : w.machine.graph.state s with
  | error e => exact hw
  | ok st =>
    simp only [ofGraph, pure_bind]
    rw [hw.graph] at hst
    have hseed := landed_seed hland hr ⟨st, Graph.state_ok_iff.mp hst⟩ args
    by_cases hwithin : w.machine.graph.isWithin st.owner w.machine.definition = true
    · rw [if_pos hwithin]
      exact hseed w hw
    · rw [if_neg hwithin]
      exact hw

theorem landed_fire (t : TransitionId) {target : StateId}
    (htarget : ∃ st, m.graph.state? target = some st) (previous : Option StateId)
    (args : List Value) : Keeps (World.Landed m since) (fire r t target previous args) := by
  have htold : Keeps (World.Landed m since) (notify (.effectInvoked t) : Engine σ κ Unit) :=
    .notify fun _ hw => hw.notify_other rfl
  refine .seq (keeps_beginPhase World.lax_landed .effect) (htold.seq ?_)
  refine .seq (keeps_invoke hr .effect (.transition t) args) ?_
  refine .seq (keeps_endPhase World.lax_landed .effect) ?_
  refine Triple.bind (landed_enter hland hr htarget (some t) args) fun new => .of_and fun hnew => ?_
  refine Keeps.seq (keeps_recordHistory World.lax_landed previous (some t) new) ?_
  refine .notify fun w hw => hw.notify ?_
  rintro t previous s heq
  cases heq
  exact hnew

theorem landed_fireTransition (hg : m.graph.Placed) (p : Pending) :
    Keeps (World.Landed m since) (fireTransition r p) := by
  intro w hw
  rw [fireTransition, machine_bind]
  cases hfiring : w.machine.firing with
  | some t => exact hw
  | none =>
    cases htr : w.machine.graph.transition p.transition with
    | error e => exact hw
    | ok tr =>
      simp only [Option.isSome_none, ofGraph, pure_bind]
      rw [hw.graph] at htr
      have htarget := hg.target (Graph.transition_ok_iff.mp htr)
      have hfire := landed_fire hland hr p.transition htarget w.machine.active p.args
      exact Keeps.bind (.update fun v hv => hv.map ⟨rfl, rfl, rfl⟩)
        (fun _ => hfire.thenAlways fun _ hv => hv.map ⟨rfl, rfl, rfl⟩) w hw

/-- A request takes a machine that is not stuck to where it is not stuck. -/
theorem landed_carryOut (hg : m.graph.Tied) {hook : κ → Engine σ κ Unit}
    (hhook : ∀ key, Keeps (World.Landed m since) (hook key)) (n : Nat) {q : Request κ}
    (hq : q.Stays) : Keeps (World.Landed m since) (carryOut r hook n q) := by
  have hfire (p : Pending) (_ : True) :=
    keeps_iff_matches.mp (landed_fireTransition hland hr hg.placed p)
  have hqueues : (Comparison.within (World.Landed m since) : Comparison σ σ κ).Queues .same :=
    World.queues_landed
  have hqueue := matches_queueTransition hqueues
  refine keeps_iff_matches.mpr (matches_carryOut_of_runs hqueues.takes hfire World.runs_landed
    hr.matches hqueue (fun key => keeps_iff_matches.mp (hhook key)) n fun hreplaces => ?_)
  cases q with
  | start args => exact keeps_iff_matches.mp (landed_start hland hr hg.marked args)
  | goto s args => exact keeps_iff_matches.mp (landed_goto hland hr s args)
  | setOptions o => exact keeps_iff_matches.mp (.update fun _ hw => hw.map ⟨rfl, rfl, rfl⟩)
  | clearHistory => exact keeps_iff_matches.mp (keeps_clearHistory World.lax_landed)
  | _ => first | exact hq.elim | exact hreplaces.elim

end Engine

/-! ## Behaviors that never fail -/

/-- The program makes no request and comes to an end without an error, whatever it sees. -/
def Program.Harmless : Program σ κ (Except MachineError α) → Prop
  | .ret o => ∃ a, o = .ok a
  | .look next => ∀ v, (next v).Harmless
  | .write _ next => next.Harmless
  | .call .. => False

/-- No behavior of the host fails or makes a request. -/
def Host.Harmless (h : Host σ κ) : Prop := ∀ key element args, (h.body key element args).Harmless

section
variable {I : World σ κ → Prop} (hI : World.Indifferent I)
  {perform : (q : Request κ) → Engine σ κ q.Answer}

theorem Program.Harmless.within {p : Program σ κ (Except MachineError α)} (hp : p.Harmless) :
    p.Within fun _ => False := by
  induction p with
  | ret o => trivial
  | look next ih => exact fun v => ih v (hp v)
  | write env next ih => exact ih hp
  | call q next ih => exact hp.elim

include hI

theorem Program.Harmless.runWith {p : Program σ κ (Except MachineError α)} (hp : p.Harmless) :
    Engine.Triple I (p.runWith perform) (fun o w => (∃ a, o = .ok a) ∧ I w) fun _ _ => False := by
  induction p with
  | ret o => exact fun _ hw => ⟨hp, hw⟩
  | look next ih => exact .bind (Q := fun _ => I) (fun _ hw => hw) fun w => ih _ (hp _)
  | write env next ih => exact .bind (.modify fun w hw => hI w env hw) fun _ => ih hp
  | call q next ih => exact hp.elim

theorem Host.runBody_of_harmless {h : Host σ κ} {key : κ} {element : Option (Element κ)}
    {args : List Value} (hbody : (h.body key element args).Harmless) :
    Engine.Triple I (h.runBody perform key element args) (fun _ => I) fun _ _ => False := by
  refine .bind (Program.Harmless.runWith hI hbody) fun o => .of_and ?_
  rintro ⟨a, rfl⟩
  exact fun _ hw => hw

namespace Host.Harmless

variable {h : Host σ κ} (hh : h.Harmless)
include hh

theorem runBody (key : κ) (element : Option (Element κ)) (args : List Value) :
    Engine.Triple I (h.runBody perform key element args) (fun _ => I) fun _ _ => False :=
  runBody_of_harmless hI (hh key element args)

theorem call (name : String) (element : Element κ) (args : List Value) :
    Engine.Triple I ((h.responder perform).call name element args) (fun _ => I)
      fun _ _ => False := by
  refine .bind (Q := fun _ => I) (fun _ hw => hw) fun w => ?_
  cases (h.handlers w.env).get? name with
  | none => exact fun _ hw => hw
  | some key => exact runBody hI hh key (some element) args

omit hI in
theorem docile : (h.responder perform).Docile where
  call hI name element args := (call hI hh name element args).mono_error fun _ _ => False.elim
  callback hI key element args := (runBody hI hh key (some element) args).mono_error
    fun _ _ => False.elim

end Host.Harmless

end

/-- A run beside itself that is never cut off. -/
def Comparison.uncut : Comparison σ σ κ where
  related w w' := w' = w
  starves := False

namespace Engine

theorem matches_uncut {x : Engine σ κ α} {Q : α → World σ κ → Prop}
    (hx : Triple (fun _ => True) x Q fun _ _ => False) : Matches .uncut x x := by
  intro w w' hw
  obtain rfl : w' = w := hw
  have hxw := hx w' trivial
  cases h : x w' with
  | ok a v => exact .ok rfl
  | error e v =>
    rw [h] at hxw
    exact hxw.elim

theorem ne_exhausted_of_uncut {x : Engine σ κ α} (hx : Matches .uncut x x) {w w' : World σ κ} :
    x w ≠ .error .exhausted w' := by
  intro hxw
  have hself := hx w w rfl
  rw [hxw] at hself
  cases hself with
  | error he _ => exact he rfl
  | cut hc => exact hc

theorem enters_uncut : (Comparison.uncut : Comparison σ σ κ).Enters .same where
  like := World.like_of_eq
  guarded | _, rfl, h => by rw [h]; rfl
  phase h := by rw [h]
  setPhase _ h := by rw [h]; rfl
  setActive hs h := by rw [h, eq_of_optionRel hs]; rfl
  setLast hvia h := by rw [h, eq_of_optionRel hvia]; rfl
  exited | rfl, h => by rw [h]; rfl
  started | rfl, h => by rw [h]; rfl
  moving _ hlike h := by rw [h, hlike.eq]; rfl
  seeded | rfl => .modify fun _ _ h => by rw [h]; rfl
  clear := .modify fun _ _ h => by rw [h]; rfl

end Engine

namespace Host

variable {h : Host σ κ} (hh : h.Harmless)
include hh

/-- With behaviors that never fail a machine starts if there is a state to start in. -/
theorem Harmless.start {w : World σ κ} (hg : w.machine.graph.Tied)
    (hphase : w.machine.phase = .idle) {x : Definition κ} {s : StateId}
    (hx : w.machine.graph.definition? w.machine.definition = some x) (hs : x.start = some s)
    (k : Nat) (args : List Value) :
    ∃ q w', h.perform (k + 1) (.start args) w = .ok q w' ∧ w'.machine.active = some q := by
  have hbegun : w.Stacked w.machine.graph w.notices.length w.machine [] := by
    refine ⟨rfl, Nat.le_refl _, fun _ => ?_⟩
    rw [World.entered, List.drop_length]
    rfl
  have hr : (h.responder (h.perform k)).Matches .uncut (h.responder (h.perform k)) :=
    ⟨fun hw _ => by rw [hw],
      fun name element args => Engine.matches_uncut (hh.call (fun _ _ h => h) name element args),
      fun key element args =>
        Engine.matches_uncut (hh.runBody (fun _ _ h => h) key (some element) args)⟩
  have hdocile : (h.responder (h.perform k)).Docile := hh.docile
  have hstarted := Engine.stacked_start hg hdocile hphase hx hs args w hbegun
  have hperform : h.perform (k + 1) (.start args) w =
    Engine.start (h.responder (h.perform k)) args w := rfl
  rw [hperform]
  cases ho : Engine.start (h.responder (h.perform k)) args w with
  | ok q w' =>
    rw [ho] at hstarted
    refine ⟨q, w', rfl, ?_⟩
    rw [hstarted.2.machine]
    rfl
  | error e w' =>
    rw [ho] at hstarted
    obtain rfl : e = .exhausted := hstarted
    exact absurd ho (Engine.ne_exhausted_of_uncut
      (Engine.matches_start Engine.enters_uncut hr args))

theorem Harmless.keeps_landed {m : Machine κ} {since : Nat} (hg : m.graph.Tied)
    (hland : ∀ s, (∃ st, m.graph.state? s = some st) →
      (m.inState (m.graph.resolveEntryTarget s)).Unstuck)
    (n : Nat) {q : Request κ} (hq : q.Stays) :
    Engine.Keeps (World.Landed m since) (h.perform n q) := by
  have hbodies : h.Makes fun _ => False := fun key element args => (hh key element args).within
  have hI : World.Indifferent (World.Landed (σ := σ) m since) :=
    fun _ env hw => World.lax_landed.env env hw
  cases n with
  | zero => exact .throw
  | succ n =>
    exact Engine.landed_carryOut hland (keeps_responder hI hbodies fun _ hq => hq.elim) hg
      (keeps_hook hI hbodies n fun _ hq => hq.elim) n hq

end Host

/-- On a valid graph and with behaviors that never fail, a machine of the root starts and enters a
state in which nothing is nested. From then on, after each operation and after each firing on the
way, the active state has no candidates if and only if the machine is at its end. -/
theorem Host.never_stuck {h : Host σ κ} {w : Nat → World σ κ} {q : Nat → Request κ} {n : Nat}
    (hreachable : (w 0).machine.graph.Reachable)
    (hvalid : (w 0).machine.graph.isValid (w 0).machine.graph.root = true)
    (hroot : (w 0).machine.definition = (w 0).machine.graph.root)
    (hactive : (w 0).machine.active = none) (hphase : (w 0).machine.phase = .idle)
    (hharmless : h.Harmless) (hrequests : ∀ i < n, (q i).Stays)
    (hsteps : ∀ i < n, h.Step (q i) (w i) (w (i + 1))) :
    (∀ k args, ∃ s w', h.perform (k + 1) (.start args) (w 0) = .ok s w' ∧
      w'.machine.active = some s ∧
      w'.machine.Unstuck) ∧
    ∀ i ≤ n, (w i).machine.Unstuck ∧ ∀ t previous s,
      .transitionFired t previous s ∈ (w i).notices.drop (w 0).notices.length →
        ((w 0).machine.inState s).Unstuck := by
  have hg := hreachable.tied
  have hv := hg.validated hvalid
  have hland (s : StateId) := Machine.unstuck_of_entered (s := s) hg hroot hv
  have hfresh : (w 0).Landed (w 0).machine (w 0).notices.length := by
    refine ⟨rfl, rfl, fun s hs => ?_, fun t previous s hs => ?_⟩
    · cases hactive.symm.trans hs
    · rw [List.drop_length] at hs
      cases hs
  have hunstuck {v : World σ κ} (hl : v.Landed (w 0).machine (w 0).notices.length) :
      v.machine.Unstuck := by
    cases ha : v.machine.active with
    | none => exact Machine.unstuck_of_inactive ha
    | some s => exact (hl.active s ha).congr ⟨hl.graph, hl.definition, ha⟩
  constructor
  · intro k args
    obtain ⟨r, hr, -⟩ := hg.nested.root
    obtain ⟨s, hs⟩ := hv.start hr
    obtain ⟨e, w', hok, he⟩ := hharmless.start hg hphase (hroot ▸ hr) hs k args
    have hlanded := hharmless.keeps_landed hg hland (k + 1) (q := .start args) trivial (w 0) hfresh
    rw [hok] at hlanded
    exact ⟨e, w', hok, he, hunstuck hlanded⟩
  · have hall : ∀ i ≤ n, (w i).Landed (w 0).machine (w 0).notices.length := by
      intro i
      induction i with
      | zero => exact fun _ => hfresh
      | succ i ih =>
        intro hi
        obtain ⟨k, env, now, hend⟩ := hsteps i hi
        have hbefore :=
          World.lax_landed.now now (World.lax_landed.env env (ih (Nat.le_of_succ_le hi)))
        have hafter := hharmless.keeps_landed hg hland k (hrequests i hi) _ hbefore
        rcases hend with ⟨a, ha⟩ | ⟨e, he⟩
        · rw [ha] at hafter
          exact hafter
        · rw [he] at hafter
          exact hafter
    exact fun i hi => ⟨hunstuck (hall i hi), (hall i hi).fired⟩

/-- A gate, an inn with a room and a door, and a home. The way from the room to the door is
internal. -/
def journeyEdits : List (Edit Unit) :=
  [.addState ⟨0⟩ { name := "gate" }, .addState ⟨0⟩ { name := "inn" },
    .addState ⟨0⟩ { name := "home" },
    .attachSubmachine ⟨1⟩ "inside", .addState ⟨1⟩ { name := "room" },
    .addState ⟨1⟩ { name := "door" },
    .addTransition ⟨0⟩ { name := "arrive", source := ⟨0⟩, target := ⟨1⟩ },
    .addTransition ⟨1⟩ { name := "rise", source := ⟨3⟩, target := ⟨4⟩, kind := .internal },
    .addTransition ⟨0⟩ { name := "depart", source := ⟨1⟩, target := ⟨2⟩ }, .setStart ⟨1⟩ (some ⟨3⟩),
    .setFinal ⟨1⟩ (some ⟨4⟩), .setStart ⟨0⟩ (some ⟨0⟩), .setFinal ⟨0⟩ (some ⟨2⟩)]

def traveller : World Unit Unit := .fresh ((Graph.new "journey").edited journeyEdits)

/-- From the gate through the inn to the home. -/
def journey : Nat → Request Unit
  | 0 => .start []
  | 1 => .queue ⟨0⟩ []
  | 3 => .queue ⟨1⟩ []
  | 5 => .queue ⟨2⟩ []
  | _ => .run .continuous

def travelled : Nat → World Unit Unit := Host.silent.worlds 3 journey traveller

theorem never_stuck_journey :
    traveller.machine.graph.Reachable ∧
      traveller.machine.graph.isValid traveller.machine.graph.root = true ∧
    traveller.machine.definition = traveller.machine.graph.root ∧ traveller.machine.active = none ∧
    traveller.machine.phase = .idle ∧ Host.silent.Harmless ∧ (∀ i < 7, (journey i).Stays) ∧
    (∀ i < 7, Host.silent.Step (journey i) (travelled i) (travelled (i + 1))) ∧
    (∀ k args, ∃ s w', Host.silent.perform (k + 1) (.start args) traveller = .ok s w' ∧
      w'.machine.active = some s ∧ w'.machine.Unstuck) ∧
    ∀ i ≤ 7, (travelled i).machine.Unstuck ∧ ∀ t previous s,
      .transitionFired t previous s ∈ (travelled i).notices.drop traveller.notices.length →
        (traveller.machine.inState s).Unstuck := by
  have hreachable : traveller.machine.graph.Reachable := by
    rw [traveller, World.graph_fresh]
    exact (Graph.Reachable.new "journey").edited journeyEdits
  have hvalid : traveller.machine.graph.isValid traveller.machine.graph.root =
    true := by decide +kernel
  have hharmless : Host.silent.Harmless := fun _ _ _ => ⟨none, rfl⟩
  have hrequests : ∀ i < 7, (journey i).Stays := by
    intro i _
    match i with
    | 0 | 1 | 2 | 3 | 4 | 5 | _ + 6 => trivial
  have hsteps : ∀ i < 7, Host.silent.Step (journey i) (travelled i) (travelled (i + 1)) := by
    have hall : ∀ i < 7, Host.silent.completes 3 (journey i) (travelled i) =
      true := by decide +kernel
    exact fun i hi => Host.step_next (hall i hi)
  have hroot : traveller.machine.definition = traveller.machine.graph.root := by decide +kernel
  have hactive : traveller.machine.active = none := rfl
  have hphase : traveller.machine.phase = .idle := rfl
  exact ⟨hreachable, hvalid, hroot, hactive, hphase, hharmless, hrequests, hsteps,
    Host.never_stuck (w := travelled) hreachable hvalid hroot hactive hphase
      hharmless hrequests hsteps⟩

/-- At the door, an end state of what is nested in the inn, the way out of the inn is left. -/
example : (travelled 5).machine.active = some ⟨4⟩ ∧ (travelled 5).machine.atEnd = false ∧
    (travelled 7).machine.atEnd = true := by decide +kernel

end Statechart
