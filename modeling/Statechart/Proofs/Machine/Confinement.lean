import Statechart.Machine.Copies
import Statechart.Proofs.Machine.Restoring
import Statechart.Proofs.Machine.Scope
import Statechart.Proofs.Machine.Visits

/-!
# Confinement

A machine is bound to a definition. As long as its graph stays as it is, it is never in a state
outside the definition and what is nested in it, and nothing that leads outside waits in its slot.
The scope is kept wherever a state or a transition comes from: the start mark, the target of a move,
the candidates of the active state, a snapshot, and the state that a failed move goes back to.
-/

namespace Statechart

open Json

variable {σ κ α : Type}

/-- The state that the notice tells the machine to be in. -/
def Notice.reached? : Notice → Option StateId
  | .stateEntered s | .activityInvoked s => some s
  | _ => none

namespace Graph

variable {g : Graph κ} {d : DefinitionId} {s c : StateId}

/-- The state is live and belongs to the definition or to one nested in it. -/
def Contains (g : Graph κ) (d : DefinitionId) (s : StateId) : Prop :=
  ∃ st, g.state? s = some st ∧ g.Within st.owner d

/-- What the definition nested in a state contains lies in the state. -/
theorem inside_of_contains (hg : g.Nested) {ct : State κ} (hc : g.state? c = some ct)
    (hnested : ct.submachine = some d) (h : g.Contains d s) : g.Inside s c ∧ s ≠ c := by
  have hstep {s s' : StateId} (hs : g.superstate s = some s') (hs' : g.Inside s' c) :
      g.Inside s c ∧ s ≠ c := by
    refine ⟨.head hs hs', ?_⟩
    rintro rfl
    exact Nat.lt_irrefl _ (Nat.lt_of_lt_of_le (hg.superstate_lt hs) (Inside.index_le hg hs'))
  obtain ⟨st, hst, hwithin⟩ := h
  generalize howner : st.owner = e at hwithin
  induction hwithin using Relation.ReflTransGen.head_induction_on generalizing s st with
  | refl =>
    obtain ⟨x, hx, hcomposite, -⟩ := hg.nested hc hnested
    exact hstep (superstate_eq_some.mpr ⟨st, x, hst, howner ▸ hx, hcomposite⟩) .refl
  | head hsuper _ ih =>
    obtain ⟨x, s', st', hx, hcomposite, hst', howner'⟩ := superdefinition_eq_some.mp hsuper
    exact hstep (superstate_eq_some.mpr ⟨st, x, hst, howner ▸ hx, hcomposite⟩)
      (ih st' hst' howner').1

end Graph

namespace Machine

variable {m m' : Machine κ} {s : StateId}

/-- The machine runs the definition. It is in a state of the definition, if in any, and what waits
in its slot leads to one. -/
structure Confined (m : Machine κ) (g : Graph κ) (d : DefinitionId) : Prop where
  graph : m.graph = g
  definition : m.definition = d
  active : ∀ s, m.active = some s → g.Contains d s
  pending : ∀ p, m.pending = some p → ∃ tr, g.transition? p.transition = some tr ∧
    g.Contains d tr.target

/-- A machine that is nowhere and has nothing queued is confined. -/
theorem confined_of_empty (hactive : m.active = none) (hpending : m.pending = none) :
    m.Confined m.graph m.definition where
  graph := rfl
  definition := rfl
  active _ hs := nomatch hactive.symm.trans hs
  pending _ hp := nomatch hpending.symm.trans hp

theorem covers_of_mem_entering (hg : m.graph.Nested) {external : Bool} {old : Option StateId}
    {new : StateId} (hs : s ∈ m.entering external old new) : m.covers s = true := by
  rw [entering] at hs
  split at hs
  · exact ((mem_scopedAncestors hg).mp (List.mem_reverse.mp (List.mem_filter.mp hs).1)).2
  · exact absurd hs List.not_mem_nil

theorem covers_iff_contains (hg : m.graph.Nested) :
    m.covers s = true ↔ m.graph.Contains m.definition s := by
  rw [covers_iff]
  exact exists_congr fun st => and_congr_right fun _ => Graph.isWithin_iff hg

end Machine

namespace World

variable {m : Machine κ} {since : Nat} {K : σ → Prop} {w w' : World σ κ}

/-- The machine runs the definition that it did at the outset and is confined to it, and so is every
state that it has told to be in. What behaviors keep is so too. -/
structure Confined (m : Machine κ) (since : Nat) (K : σ → Prop) (w : World σ κ) : Prop where
  graph : w.machine.graph = m.graph
  definition : w.machine.definition = m.definition
  active : ∀ s, w.machine.active = some s → m.covers s = true
  pending : ∀ p, w.machine.pending = some p → m.LeadsInto p.transition
  told : ∀ x ∈ w.notices.drop since, ∀ s, x.reached? = some s → m.covers s = true
  kept : K w.env

theorem Confined.map (h : w.Confined m since K) {f : Machine κ → Machine κ}
    (hgraph : (f w.machine).graph = w.machine.graph)
    (hdefinition : (f w.machine).definition = w.machine.definition)
    (hactive : (f w.machine).active = w.machine.active)
    (hpending : (f w.machine).pending = w.machine.pending) : (w.mapMachine f).Confined m since K :=
  ⟨hgraph.trans h.graph, hdefinition.trans h.definition,
    fun s hs => h.active s (hactive.symm.trans hs),
    fun p hp => h.pending p (hpending.symm.trans hp), h.told, h.kept⟩

theorem Confined.setActive (h : w.Confined m since K) {active : Option StateId}
    (hactive : ∀ s, active = some s → m.covers s = true) :
    (w.mapMachine ({ · with active })).Confined m since K :=
  ⟨h.graph, h.definition, hactive, h.pending, h.told, h.kept⟩

theorem Confined.setPending (h : w.Confined m since K) {pending : Option Pending}
    (hpending : ∀ p, pending = some p → m.LeadsInto p.transition) :
    (w.mapMachine ({ · with pending })).Confined m since K :=
  ⟨h.graph, h.definition, h.active, hpending, h.told, h.kept⟩

theorem Confined.setEnv {τ : Type} {K' : τ → Prop} (h : w.Confined m since K) {env : τ}
    (henv : K' env) (now : Instant) : ({ w with env, now } : World τ κ).Confined m since K' :=
  ⟨h.graph, h.definition, h.active, h.pending, h.told, henv⟩

theorem Confined.setLogs (h : w.Confined m since K) (logs : LogStore) :
    Confined m since K { w with logs } :=
  ⟨h.graph, h.definition, h.active, h.pending, h.told, h.kept⟩

theorem Confined.notify (h : w.Confined m since K) {n : Notice}
    (hn : ∀ s, n.reached? = some s → m.covers s = true) : (w.notify n).Confined m since K := by
  refine ⟨h.graph, h.definition, h.active, h.pending, fun x hx => ?_, h.kept⟩
  rw [World.notify, List.drop_append] at hx
  rcases List.mem_append.mp hx with hx | hx
  · exact h.told x hx
  · exact List.mem_singleton.mp (List.mem_of_mem_drop hx) ▸ hn

theorem Confined.notify_other (h : w.Confined m since K) {n : Notice} (hn : n.reached? = none) :
    (w.notify n).Confined m since K :=
  h.notify fun _ hs => nomatch hn.symm.trans hs

/-- What the machine may be asked to fire leads into the definition. -/
theorem Confined.leadsInto (h : w.Confined m since K) {s : StateId} {ts : List TransitionId}
    {t : TransitionId} (hts : w.machine.candidatesFrom s = .ok ts) (ht : t ∈ ts) : m.LeadsInto t :=
  (Machine.leadsInto_congr h.graph h.definition).mp (Machine.leadsInto_of_candidate hts ht)

theorem Confined.machine (h : w.Confined m since K) (hg : m.graph.Nested) :
    w.machine.Confined m.graph m.definition where
  graph := h.graph
  definition := h.definition
  active s hs := (Machine.covers_iff_contains hg).mp (h.active s hs)
  pending p hp := (h.pending p hp).imp fun _ => .imp_right (Machine.covers_iff_contains hg).mp

theorem confined_of_machine (hg : m.graph.Nested) (h : w.machine.Confined m.graph m.definition)
    (hkept : K w.env) : w.Confined m w.notices.length K where
  graph := h.graph
  definition := h.definition
  active s hs := (Machine.covers_iff_contains hg).mpr (h.active s hs)
  pending p hp := (h.pending p hp).imp fun _ => .imp_right (Machine.covers_iff_contains hg).mpr
  told x hx := by
    rw [List.drop_length] at hx
    exact absurd hx List.not_mem_nil
  kept := hkept

end World

/-! ## What keeps a machine confined -/

namespace Comparison

variable {m : Machine κ} {since : Nat} {K : σ → Prop}

theorem runs_confined : (within (World.Confined m since K)).Runs .same where
  like h := World.like_of_eq h.1
  guarded | _, rfl, h => ⟨by rw [h.1], h.2.notify_other rfl⟩
  starves := trivial
  running h := by rw [h.1]
  paused h := by rw [h.1]
  setPaused _ h := ⟨by rw [h.1], h.2.map rfl rfl rfl rfl⟩
  stopped h := ⟨by rw [h.1], h.2.notify_other rfl⟩
  resumed h := ⟨by rw [h.1], h.2.notify_other rfl⟩
  events h := by rw [h.1]
  setEvents _ h := ⟨by rw [h.1], h.2.map rfl rfl rfl rfl⟩
  dequeued _ h := ⟨by rw [h.1], h.2.notify_other rfl⟩
  setEvent _ h := ⟨by rw [h.1], h.2.map rfl rfl rfl rfl⟩
  setTrigger _ h := ⟨by rw [h.1], h.2.map rfl rfl rfl rfl⟩
  setRunning _ h := ⟨by rw [h.1], h.2.map rfl rfl rfl rfl⟩

theorem takes_confined :
    (within (World.Confined m since K)).Takes .same fun p => m.LeadsInto p.transition :=
  takes_of (c := within (World.Confined m since K)) (fun h => ⟨by rw [h.1], h.2.pending⟩)
    fun h => ⟨by rw [h.1], h.2.setPending nofun⟩

end Comparison

namespace Engine

variable {m : Machine κ} {since : Nat} {K : σ → Prop} {r : Responder σ κ}

theorem confined_queueTransition (t : TransitionId) (args : List Value) :
    Keeps (World.Confined m since K) (queueTransition t args) := by
  intro w hw
  rcases queueTransition_cases t args w with ⟨e, he⟩ | ⟨s, ts, -, -, -, hts, hmem, hok⟩
  · rw [he]
    exact hw
  · rw [hok]
    exact World.Confined.notify_other (hw.setPending fun p hp => Option.some.inj hp ▸
      hw.leadsInto hts hmem) rfl

theorem confined_restore (s : Snapshot) : Keeps (World.Confined m since K) (restore s) := by
  intro w hw
  rw [restore, machine_bind]
  cases hs : s.restoreInto w.machine with
  | error e => exact hw
  | ok m' =>
    obtain ⟨active, pending, rfl, -, -, hactive, -, hleaves⟩ := Snapshot.restoreInto_ok hs
    refine ⟨hw.graph, hw.definition, fun q hq => ?_, fun p hp => ?_, hw.told, hw.kept⟩
    · obtain rfl : active = some q := hq
      rw [Snapshot.resolveActive] at hactive
      split at hactive
      · cases hactive
      split at hactive
      · cases hactive
      split at hactive
      · rename_i hcovers
        cases hactive
        rw [← Machine.covers_congr hw.graph hw.definition]
        exact hcovers
      · cases hactive
    · obtain ⟨q, -, hq⟩ := hleaves p hp
      obtain ⟨ts, hts, ht⟩ := Snapshot.leaves_iff.mp hq
      exact hw.leadsInto hts ht

theorem confined_beginPhase (o : Operation) : Keeps (World.Confined m since K) (beginPhase o) := by
  refine .bind .machine fun m' => ?_
  split
  · exact .fail
  · exact .update fun _ hw => hw.map rfl rfl rfl rfl

theorem confined_endPhase (o : Operation) : Keeps (World.Confined m since K) (endPhase o) :=
  .update fun _ hw => hw.map rfl rfl rfl rfl

theorem confined_recordHistory (previous : Option StateId)
    (t : Option TransitionId) (new : StateId) :
    Keeps (World.Confined m since K) (recordHistory previous t new) := by
  refine .modify fun w hw => ?_
  split
  · exact hw.setLogs _
  · exact hw

section
variable (hr : r.Keeps (World.Confined m since K))
include hr

theorem confined_announced {n : Notice} (hn : ∀ s, n.reached? = some s → m.covers s = true)
    (a : Action) (s : Subject) (args : List Value) :
    Keeps (World.Confined m since K) (do
      notify n
      let _ ← invoke r a s args) := by
  have htold : Keeps (World.Confined m since K) (notify n : Engine σ κ Unit) :=
    .notify fun _ hw => hw.notify hn
  exact htold.seq ((keeps_invoke hr a s args).seq .pure)

theorem confined_leave (args : List Value) (ss : List StateId) :
    Keeps (World.Confined m since K) (leave r args ss) := by
  have hstates : Keeps (World.Confined m since K) (ss.forM (leaveState r args)) :=
    .forM fun s _ => confined_announced (n := .stateExited s) hr nofun .exit (.state s) args
  exact (confined_beginPhase .exit).seq (hstates.seq (confined_endPhase .exit))

theorem confined_enterAll (args : List Value) {ss : List StateId}
    (hss : ∀ s ∈ ss, m.covers s = true) :
    Keeps (World.Confined m since K) (enterAll r args ss) := by
  have hstates : Keeps (World.Confined m since K) (ss.forM fun s => do
      notify (.stateEntered s)
      let _ ← invoke r .entry (.state s) args) := by
    refine .forM fun s hs => ?_
    have htold (s' : StateId) (hs' : Notice.reached? (.stateEntered s) = some s') :
        m.covers s' = true :=
      Option.some.inj hs' ▸ hss s hs
    exact confined_announced hr htold .entry (.state s) args
  exact (confined_beginPhase .entry).seq (hstates.seq (confined_endPhase .entry))

theorem confined_settle (args : List Value) (via : Option TransitionId) {s : StateId}
    (hs : m.covers s = true) : Keeps (World.Confined m since K) (settle r args via s) := by
  have htold (s' : StateId) (hs' : Notice.reached? (.activityInvoked s) = some s') :
      m.covers s' = true :=
    Option.some.inj hs' ▸ hs
  have hlast : Keeps (World.Confined m since K)
      (update fun m => { m with lastTransition := via, firing := none } : Engine σ κ Unit) :=
    .update fun _ hw => hw.map rfl rfl rfl rfl
  have hactivity := confined_announced hr htold .doActivity (.state s) args
  rw [settle_eq]
  exact hlast.seq ((confined_beginPhase .doActivity).seq
    (hactivity.seq (confined_endPhase .doActivity)))

variable (hg : m.graph.Tied)
include hg

/-- A move to a state of the definition ends in one. -/
theorem confined_cascade (old : Option StateId) {target : StateId}
    (htarget : m.covers target = true) (via : Option TransitionId) (args : List Value) :
    Keeps (World.Confined m since K) (cascade r old target via args) := by
  intro w hw
  have hstate : m.covers (w.machine.graph.resolveEntryTarget target) = true := by
    rw [hw.graph]
    exact Machine.covers_resolveEntryTarget hg htarget
  have hentering (external : Bool) (s : StateId)
      (hs : s ∈ w.machine.entering external old (w.machine.graph.resolveEntryTarget target)) :
      m.covers s = true := by
    rw [← Machine.covers_congr hw.graph hw.definition]
    exact Machine.covers_of_mem_entering (hw.graph ▸ hg.nested) hs
  have hreached : Keeps (World.Confined m since K) (update fun m =>
      { m with active := some (w.machine.graph.resolveEntryTarget target) } : Engine σ κ Unit) :=
    .update fun v hv => hv.setActive fun s hs => Option.some.inj hs ▸ hstate
  have hsettle := confined_settle hr args via hstate
  rw [cascade_eq, machine_bind]
  refine Keeps.bind .ofGraph (fun external => ?_) w hw
  have henter := confined_enterAll hr args (hentering external)
  exact (confined_leave hr args _).seq (hreached.seq (henter.seq (hsettle.seq .pure)))

/-- A move that fails goes back to where the machine was. -/
theorem confined_enter {target : StateId} (htarget : m.covers target = true)
    (via : Option TransitionId) (args : List Value) :
    Keeps (World.Confined m since K) (enter r target via args) := by
  intro w hw
  rw [enter, machine_bind]
  have hmoved := confined_cascade hr hg w.machine.active htarget via args
  refine Triple.onFailure (.thenAlways (hmoved.mono_post ?_ ?_)) w hw
  · exact fun _ v hv => hv.map rfl rfl rfl rfl
  · exact fun _ v hv => World.Confined.notify_other
      ((hv.map rfl rfl rfl rfl).setActive hw.active) rfl

theorem confined_seed {s : StateId} (hs : m.covers s = true) (args : List Value) :
    Keeps (World.Confined m since K) (seed r s args) := by
  refine (confined_enter hr hg hs none args).bind fun new => ?_
  have hcleared : Keeps (World.Confined m since K) (clearHistory : Engine σ κ Unit) :=
    .modify fun _ hw => hw.setLogs _
  exact hcleared.seq ((confined_recordHistory none none new).seq .pure)

theorem confined_start (args : List Value) : Keeps (World.Confined m since K) (start r args) := by
  intro w hw
  rw [start, machine_bind, hw.graph, hw.definition]
  cases hd : m.graph.definition m.definition with
  | error e => exact hw
  | ok d =>
    cases hstart : d.start with
    | none =>
      simp only [ofGraph, pure_bind, hstart]
      exact hw
    | some s =>
      simp only [ofGraph, pure_bind, hstart]
      have hs : m.covers s = true :=
        Machine.covers_of_marked hg (k := .start) (Graph.definition_ok_iff.mp hd) hstart
      have hemptied : Keeps (World.Confined m since K)
          (update fun m => { m with active := none } : Engine σ κ Unit) :=
        .update fun v hv => hv.setActive fun q hq => absurd hq.symm (Option.some_ne_none q)
      have htold (new : StateId) :
          Keeps (World.Confined m since K) (notify (.started new) : Engine σ κ Unit) :=
        .notify fun v hv => hv.notify_other rfl
      refine hemptied.seq ((confined_seed hr hg hs args).bind fun new => ?_) w hw
      exact (htold new).seq .pure

theorem confined_goto (s : StateId) (args : List Value) :
    Keeps (World.Confined m since K) (goto r s args) := by
  intro w hw
  rw [goto, machine_bind, hw.graph, hw.definition]
  cases hst : m.graph.state s with
  | error e => exact hw
  | ok st =>
    simp only [ofGraph, pure_bind]
    by_cases hwithin : m.graph.isWithin st.owner m.definition = true
    · rw [if_pos hwithin]
      exact confined_seed hr hg (Machine.covers_iff.mpr ⟨st, Graph.state_ok_iff.mp hst,
        hwithin⟩) args w hw
    · rw [if_neg hwithin]
      exact hw

/-- A transition that leads into the definition is fired within it. -/
theorem confined_fireTransition {p : Pending} (hp : m.LeadsInto p.transition) :
    Keeps (World.Confined m since K) (fireTransition r p) := by
  obtain ⟨tr, htr, hcovers⟩ := hp
  have hfire (previous : Option StateId) :
      Keeps (World.Confined m since K) (fire r p.transition tr.target previous p.args) := by
    have htold {n : Notice} (hn : n.reached? = none) :
        Keeps (World.Confined m since K) (notify n : Engine σ κ Unit) :=
      .notify fun _ hw => hw.notify_other hn
    refine .seq (confined_beginPhase .effect) (.seq (htold rfl) ?_)
    refine .seq (keeps_invoke hr .effect (.transition p.transition) p.args) ?_
    refine .seq (confined_endPhase .effect) ?_
    refine .bind (confined_enter hr hg hcovers (some p.transition) p.args) fun new => ?_
    exact .seq (confined_recordHistory previous (some p.transition) new) (htold rfl)
  intro w hw
  rw [fireTransition, machine_bind, hw.graph, Graph.transition_ok_iff.mpr htr]
  by_cases hfiring : w.machine.firing.isSome = true
  · rw [if_pos hfiring]
    exact hw
  · rw [if_neg hfiring]
    simp only [ofGraph, pure_bind]
    refine Keeps.bind (.update fun v hv => ?_) (fun _ => .thenAlways (hfire w.machine.active)
      fun v hv => ?_) w hw
    · exact hv.map rfl rfl rfl rfl
    · exact hv.map rfl rfl rfl rfl

/-- Whatever is asked of a machine leaves it confined, as long as its graph is left as it is. -/
theorem confined_carryOut {hook : κ → Engine σ κ Unit}
    (hhook : ∀ key, Keeps (World.Confined m since K) (hook key)) (n : Nat) {q : Request κ}
    (hq : q.KeepsGraph) : Keeps (World.Confined m since K) (carryOut r hook n q) := by
  refine keeps_iff_matches.mpr (matches_carryOut_of_runs Comparison.takes_confined
    (fun p hp => keeps_iff_matches.mp (confined_fireTransition hr hg hp))
      Comparison.runs_confined hr.matches
    (fun t args => keeps_iff_matches.mp (confined_queueTransition t args))
    (fun key => keeps_iff_matches.mp (hhook key)) n fun hreplaces => keeps_iff_matches.mp ?_)
  cases q with
  | start args => exact confined_start hr hg args
  | goto s args => exact confined_goto hr hg s args
  | setOptions o => exact .update fun _ hw => hw.map rfl rfl rfl rfl
  | clearHistory => exact .modify fun _ hw => hw.setLogs _
  | restore s => exact confined_restore s
  | isolate => exact hq.elim
  | edit e => exact hq.elim
  | _ => exact hreplaces.elim

end

end Engine

/-! ## Operations -/

/-- The machine was confined as each of the bodies was run. -/
def Register.Confined (g : Graph κ) (d : DefinitionId) (reg : Register σ κ) : Prop :=
  ∀ v ∈ reg.visits, v.world.machine.Confined g d

namespace World

variable {m : Machine κ} {since : Nat} {w : World (Register σ κ) κ}

theorem Confined.resumed (h : w.Confined m since (Register.Confined m.graph m.definition)) :
    w.resumed.Confined m since (Register.Confined m.graph m.definition) :=
  ⟨h.graph, h.definition, h.active, h.pending, h.told, h.kept⟩

theorem Confined.register (hg : m.graph.Nested)
    (h : w.Confined m since (Register.Confined m.graph m.definition)) (asked : World σ κ)
    (element : Option (Element κ)) :
    (w.register (w.visit asked element)).Confined m since
      (Register.Confined m.graph m.definition) := by
  refine h.setEnv (fun v hv => ?_) w.now
  rcases List.mem_append.mp hv with hv | hv
  · exact h.kept v hv
  · rw [List.mem_singleton.mp hv]
    exact h.machine hg

end World

namespace Engine

variable {m : Machine κ} {since : Nat} {x : Engine (Register σ κ) κ α}

theorem confined_visiting (hg : m.graph.Nested) (asked : World σ κ) (element : Option (Element κ))
    (hx : Keeps (World.Confined m since (Register.Confined m.graph m.definition)) x) :
    Keeps (World.Confined m since (Register.Confined m.graph m.definition))
      (visiting asked element x) :=
  .thenAlways (.bind (.modify fun _ hw => hw.register hg asked element) fun _ => hx)
    fun _ hw => hw.resumed

end Engine

namespace Host

variable {h : Host σ κ} {m : Machine κ} {since : Nat} {q : Request κ} {w w' : World σ κ}

section
variable (hg : m.graph.Tied) (hbodies : h.Makes Request.KeepsGraph)
include hg hbodies

/-- Bodies are run with the machine confined and leave it so. -/
theorem keeps_visiting_confined (n : Nat) (hq : q.KeepsGraph) :
    Engine.Keeps (World.Confined m since (Register.Confined m.graph m.definition))
      (h.visiting n q) := by
  have henv (w : World (Register σ κ) κ) (env : σ)
      (hw : w.Confined m since (Register.Confined m.graph m.definition)) :
      World.Confined m since (Register.Confined m.graph m.definition)
        { w with env := { w.env with env } } :=
    ⟨hw.graph, hw.definition, hw.active, hw.pending, hw.told, hw.kept⟩
  induction n generalizing q with
  | zero => exact .throw
  | succ n ih =>
    have hr : (h.registered.responder (h.visiting n)).Keeps
        (World.Confined m since (Register.Confined m.graph m.definition)) :=
      keeps_inside_responder henv (fun q => ih) hbodies
    have hbody (key : κ) :
        Engine.Keeps (World.Confined m since (Register.Confined m.graph m.definition))
        (h.registered.runBody (h.visiting n) key none []) :=
      keeps_inside_runBody henv (fun q => ih) hbodies key none []
    refine .bind (.modify fun _ hw => hw.resumed) fun _ => .bind .get fun w => ?_
    refine Engine.confined_carryOut ⟨?_, ?_⟩ hg (fun key => ?_) n hq
    · exact fun name element args =>
        Engine.confined_visiting hg.nested _ _ (hr.call name element args)
    · exact fun key element args =>
        Engine.confined_visiting hg.nested _ _ (hr.callback key element args)
    · exact Engine.confined_visiting hg.nested _ _ (.bind (hbody key) fun _ => .pure)

/-- The machine is confined once a request has been carried out, and was so as each of the bodies
was run. -/
theorem confined_perform (n : Nat) (hq : q.KeepsGraph) (hw : w.Confined m since fun _ => True) :
    ((h.perform n q).after w).Confined m since (fun _ => True) ∧
      ∀ v ∈ h.visits n q w, v.world.machine.Confined m.graph m.definition := by
  have hregistering : w.registering.Confined m since (Register.Confined m.graph m.definition) :=
    hw.setEnv (fun _ hv => absurd hv List.not_mem_nil) w.now
  have hafter := (keeps_visiting_confined hg hbodies n hq).after hregistering
  have hmap : (((h.visiting n q).after w.registering).mapEnv Register.env) =
      (h.perform n q).after w :=
    (h.projecting_visiting n q).after_of_projecting
  rw [← hmap]
  exact ⟨hafter.setEnv trivial _, hafter.kept⟩

theorem Step.confined (hs : h.Step q w w') (hq : q.KeepsGraph)
    (hw : w.Confined m since fun _ => True) : w'.Confined m since fun _ => True := by
  obtain ⟨n, env, now, hn⟩ := hs
  rw [← Engine.Leads.after_eq hn]
  exact (confined_perform hg hbodies n hq (hw.setEnv trivial now)).1

end

/-- Whatever operations are asked of a machine that is confined at first, as a new one is, whether
they succeed or fail, and whatever the bodies that they run into ask for in turn: as long as the
graph is left as it is, the machine runs its definition and is confined to it between operations and
as each body is run, and so is every state that it tells to be in. If it was spawned for a composite
state, all of that lies in the state. -/
theorem confined_of_steps {g : Graph κ} {d : DefinitionId} {w : Nat → World σ κ}
    {q : Nat → Request κ} {n : Nat} (hg : g.Tied) (hbodies : h.Makes Request.KeepsGraph)
    (hconfined : (w 0).machine.Confined g d) (hq : ∀ i < n, (q i).KeepsGraph)
    (hsteps : ∀ i < n, h.Step (q i) (w i) (w (i + 1))) {i : Nat} (hi : i ≤ n) :
    (w i).machine.Confined g d ∧
    (∀ x ∈ (w i).notices.drop (w 0).notices.length, ∀ s, x.reached? = some s → g.Contains d s) ∧
    (∀ k q' env now, q'.KeepsGraph → ∀ v ∈ h.visits k q' { w i with env, now },
      v.world.machine.Confined g d) ∧
    ∀ {m : Machine κ} {c : StateId} {id : Uuid} {logs logs' : LogStore},
      m.spawnSubmachine c id logs = .ok ((w 0).machine, logs') → ∀ s, g.Contains d s →
      g.Inside s c ∧ s ≠ c := by
  obtain ⟨rfl, rfl⟩ : (w 0).machine.graph = g ∧ (w 0).machine.definition = d :=
    ⟨hconfined.graph, hconfined.definition⟩
  have hkept : (w i).Confined (w 0).machine (w 0).notices.length fun _ => True := by
    induction i with
    | zero => exact World.confined_of_machine hg.nested hconfined trivial
    | succ i ih => exact (hsteps i hi).confined hg hbodies (hq i hi) (ih (Nat.le_of_succ_le hi))
  refine ⟨hkept.machine hg.nested, fun x hx s hs => ?_, fun k q' env now hq' => ?_,
    fun hspawn s hs => ?_⟩
  · exact (Machine.covers_iff_contains hg.nested).mp (hkept.told x hx s hs)
  · exact (confined_perform hg hbodies k hq' (hkept.setEnv trivial now)).2
  · obtain ⟨ct, d, history, hc, hnested, hmade, -⟩ := Machine.spawnSubmachine_ok hspawn
    rw [hmade] at hg hs ⊢
    exact Graph.inside_of_contains hg.nested hc hnested hs

end Host

/-- As `nestingEdits`, begun at x. The activity of y runs a body. -/
def annexEdits : List (Edit Unit) :=
  Graph.nestingEdits ++ [.setStart ⟨1⟩ (some ⟨2⟩), .setStateBehavior ⟨3⟩ .doActivity (.callback ())]

/-- A machine for what is nested in b. -/
def annex : World Unit Unit :=
  { World.fresh ((Graph.new "annex").edited annexEdits) with
    machine :=
      (Machine.bound default ((Graph.new "annex").edited annexEdits) ⟨1⟩ {} LogStore.empty).1 }

/-- From x to y, on to a, and to a by force. -/
def excursion : Nat → Request Unit
  | 0 => .start []
  | 1 => .queue ⟨0⟩ []
  | 2 => .run .continuous
  | 3 => .queue ⟨1⟩ []
  | _ => .goto ⟨0⟩ []

/-- Neither the body nor the operations get the machine to a, which y->a leads to, though it goes
from x to y. -/
theorem confined_annex :
    let h := Host.asking (.queue ⟨1⟩ [])
    let g := (Graph.new "annex").edited annexEdits
    let w := h.worlds 4 excursion annex
    g.Tied ∧ h.Makes Request.KeepsGraph ∧ annex.machine.Confined g ⟨1⟩ ∧
    (∀ i < 5, (excursion i).KeepsGraph) ∧
    (∀ i < 5, h.Step (excursion i) (w i) (w (i + 1))) ∧ (w 2).machine.active = some ⟨2⟩ ∧
    (w 5).machine.active = some ⟨3⟩ ∧ (w 5).machine.Confined g ⟨1⟩ ∧
    ∀ s, g.Contains ⟨1⟩ s → g.Inside s ⟨1⟩ ∧ s ≠ ⟨1⟩ := by
  intro h g w
  have hg : g.Tied := ((Graph.Reachable.new "annex").edited annexEdits).tied
  have hbodies : h.Makes Request.KeepsGraph := fun _ _ _ => ⟨trivial, fun _ => trivial⟩
  have hconfined : annex.machine.Confined g ⟨1⟩ := Machine.confined_of_empty rfl rfl
  have hq : ∀ i < 5, (excursion i).KeepsGraph := by
    rintro (_ | _ | _ | _ | _) _ <;> trivial
  have hsteps : ∀ i < 5, h.Step (excursion i) (w i) (w (i + 1)) := by
    have hall : ∀ i < 5, h.completes 4 (excursion i) (w i) = true := by decide +kernel
    exact fun i hi => Host.step_next (hall i hi)
  have hspawn : (World.fresh g).machine.spawnSubmachine ⟨1⟩ default LogStore.empty =
      .ok (annex.machine, LogStore.empty.create.2) := rfl
  have hall := Host.confined_of_steps hg hbodies hconfined hq hsteps (Nat.le_refl 5)
  exact ⟨hg, hbodies, hconfined, hq, hsteps,
    by decide +kernel, by decide +kernel, hall.1, hall.2.2.2 hspawn⟩

end Statechart
