import Statechart.Proofs.Graph.Transport
import Statechart.Proofs.Machine.Journal

/-!
# Isolation

A machine that is isolated moves, with all that it holds, onto a copy of its definition, and its
records move with it. What it holds keeps its name within the definition. Of all requests only this
one and edits have a machine work on another graph.
-/

namespace Statechart

open Json

variable {σ κ : Type}

namespace Graph

variable {g : Graph κ} {s c : StateId}

theorem names_of_superstate (hg : g.Nested) (h : g.superstate s = some c) :
    g.names s = g.names c ++ [g.stateName s] := by
  rw [names, ancestors_eq_cons hg, superstates, h, List.reverse_cons, List.map_append]
  rfl

end Graph

namespace Machine

variable {m m' : Machine κ} {s : StateId} {c : GraphCopy}

/-! ## Names within a definition -/

/-- The names of the states around a state and its own, as far as the machine's definition goes,
outermost first. -/
def names (m : Machine κ) (s : StateId) : List String :=
  (m.scopedAncestors s).reverse.map m.graph.stateName

/-- The name of a state from the root is what is around the definition, followed by its name within
the definition. -/
theorem names_of_covers (hg : m.graph.Nested) (hs : m.covers s = true) :
    m.graph.names s = m.graph.namesAround m.definition ++ m.names s := by
  refine hg.induction (P := fun s => m.covers s = true →
    m.graph.names s = m.graph.namesAround m.definition ++ m.names s) (fun s ih hs => ?_) s hs
  obtain ⟨st, hst, hwithin⟩ := covers_iff.mp hs
  have hnames (ss : List StateId) (h : (m.graph.superstates s).filter m.covers = ss) :
      m.names s = ss.reverse.map m.graph.stateName ++ [m.graph.stateName s] := by
    rw [names, scopedAncestors_of_covers hg hs, h, List.reverse_cons, List.map_append]
    rfl
  by_cases hin : ∃ c, m.graph.superstate s = some c ∧ m.covers c = true
  · obtain ⟨c, hc, hcovers⟩ := hin
    have hsame : m.names s = m.names c ++ [m.graph.stateName s] := by
      refine hnames (m.scopedAncestors c) ?_
      rw [Graph.superstates, hc, scopedAncestors_eq_filter hg]
    rw [Graph.names_of_superstate hg hc, ih c hc hcovers, hsame, List.append_assoc]
  · -- The state belongs to the definition itself, so that nothing around it is seen.
    have howner : st.owner = m.definition := by
      rcases Relation.ReflTransGen.cases_head ((Graph.isWithin_iff hg).mp hwithin)
        with heq | ⟨e, he, hrest⟩
      · exact heq
      · obtain ⟨x, c, ct, hx, hxc, hct, rfl⟩ := Graph.superdefinition_eq_some.mp he
        have hcovers : m.covers c = true :=
          covers_iff.mpr ⟨ct, hct, (Graph.isWithin_iff hg).mpr hrest⟩
        exact absurd ⟨c, Graph.superstate_eq_some.mpr ⟨st, x, hst, hx, hxc⟩, hcovers⟩ hin
    have hnone : (m.graph.superstates s).filter m.covers = [] := by
      rw [Graph.superstates]
      cases hc : m.graph.superstate s with
      | none => rfl
      | some c =>
        refine List.filter_eq_nil_iff.mpr fun b hb hb' => hin ⟨c, hc, ?_⟩
        exact covers_of_mem_ancestors hg hb hb'
    rw [Graph.names_eq hg hst, howner, hnames [] hnone, Graph.stateName, hst]
    rfl

/-! ## The machine that isolation makes -/

/-- The machine on a copy of its definition, and where everything is in the copy. -/
def isolated (m : Machine κ) : Except MachineError (Machine κ × GraphCopy) :=
  if m.running then .error (.unexpectedRecursion .isolate) else
  match m.graph.copyDefinition m.definition with
  | .error e => .error (.graph e)
  | .ok (graph, c) =>
    match m.copiedActive c with
    | .error e => .error (.graph e)
    | .ok active =>
      match m.copiedPending c with
      | .error e => .error (.graph e)
      | .ok pending =>
        .ok ({ m with
          graph, active, pending
          definition := graph.root
          lastTransition := m.lastTransition.bind c.transition? }, c)

theorem isolated_of_running (h : m.running = true) :
    m.isolated = .error (.unexpectedRecursion .isolate) := by
  rw [isolated, if_pos h]

theorem isolated_ok (h : m.isolated = .ok (m', c)) : ∃ g active pending, m.running = false ∧
    m.graph.copyDefinition m.definition = .ok (g, c) ∧ m.copiedActive c = .ok active ∧
    m.copiedPending c = .ok pending ∧
    m' = { m with
      graph := g, active, pending
      definition := g.root
      lastTransition := m.lastTransition.bind c.transition? } := by
  rw [isolated] at h
  cases hrunning : m.running with
  | true =>
    rw [hrunning] at h
    cases h
  | false =>
  cases hcopy : m.graph.copyDefinition m.definition with
  | error e =>
    rw [hrunning, hcopy] at h
    cases h
  | ok gc =>
  obtain ⟨g, c'⟩ := gc
  cases hactive : m.copiedActive c' with
  | error e =>
    simp only [hrunning, hcopy, hactive] at h
    cases h
  | ok active =>
  cases hpending : m.copiedPending c' with
  | error e =>
    simp only [hrunning, hcopy, hactive, hpending] at h
    cases h
  | ok pending =>
    simp only [hrunning, hcopy, hactive, hpending] at h
    obtain ⟨rfl, rfl⟩ := Prod.mk.inj (Except.ok.inj h)
    exact ⟨g, active, pending, rfl, rfl, hactive, hpending, rfl⟩

/-- Where a request takes the machine's handles, if it isolates the machine. -/
def relocation? (m : Machine κ) : Request κ → Option GraphCopy
  | .isolate =>
    match m.isolated with
    | .ok (_, c) => some c
    | .error _ => none
  | _ => none

theorem live_of_isolated (h : m.isolated = .ok (m', c)) :
    ∃ x, m.graph.definition? m.definition = some x := by
  obtain ⟨g, active, pending, -, hcopy, -⟩ := isolated_ok h
  cases hd : m.graph.definition? m.definition with
  | none =>
    rw [Graph.copyDefinition, Graph.definition, hd] at hcopy
    cases hcopy
  | some x => exact ⟨x, rfl⟩

/-- The machine works on the copy then. -/
theorem graph_isolated (hg : m.graph.Tied) (h : m.isolated = .ok (m', c)) :
    m'.graph = m.graph.copyOf m.definition ∧ m'.definition = m'.graph.root ∧ c =
      m.graph.copyMap m.definition := by
  obtain ⟨g, active, pending, -, hcopy, -, -, rfl⟩ := isolated_ok h
  rw [Graph.copyDefinition_eq hg (live_of_isolated h)] at hcopy
  obtain ⟨rfl, rfl⟩ := Prod.mk.inj (Except.ok.inj hcopy)
  exact ⟨rfl, rfl, rfl⟩

theorem tied_isolated (hg : m.graph.Tied) (h : m.isolated = .ok (m', c)) : m'.graph.Tied := by
  rw [(graph_isolated hg h).1]
  exact Graph.tied_copyOf hg (live_of_isolated h)

/-- States that are copied keep their names relative to one another. -/
theorem names_isolated (hg : m.graph.Tied) (h : m.isolated = .ok (m', c)) {s' : StateId}
    (hs : c.state? s = some s') :
    m.graph.names s = m.graph.namesAround m.definition ++ m'.graph.names s' := by
  obtain ⟨hgraph, -, rfl⟩ := graph_isolated hg h
  rw [hgraph]
  exact Graph.names_of_state?_copyMap hg (live_of_isolated h) hs

end Machine

namespace Engine

/-- To isolate a machine is to make it the machine that isolation makes, and to move its records
along. -/
theorem isolate_apply (w : World σ κ) : isolate w =
    match w.machine.isolated with
    | .ok (m, c) =>
      .ok () { w with machine := m, logs := w.logs.remap w.machine.history (·.copied c) }
    | .error e => .error (.fault e) w := by
  simp only [isolate, machine_bind, Machine.isolated]
  by_cases hrunning : w.machine.running = true
  · rw [if_pos hrunning, if_pos hrunning]
    rfl
  rw [if_neg hrunning, if_neg hrunning]
  cases w.machine.graph.copyDefinition w.machine.definition with
  | error e => rfl
  | ok gc =>
  obtain ⟨g, c⟩ := gc
  cases hactive : w.machine.copiedActive c with
  | error e =>
    simp only [ofGraph, pure_bind, hactive]
    rfl
  | ok active =>
  cases hpending : w.machine.copiedPending c with
  | error e =>
    simp only [ofGraph, pure_bind, hactive, hpending]
    rfl
  | ok pending =>
    simp only [ofGraph, pure_bind, hactive, hpending]
    rfl

end Engine

/-! ## What leaves the graph as it is -/

/-- The machine works on the same graph and the same definition. -/
structure World.Bound (m : Machine κ) (w : World σ κ) : Prop where
  graph : w.machine.graph = m.graph
  definition : w.machine.definition = m.definition

variable {m : Machine κ} {w w' : World σ κ}

theorem World.bound_self (w : World σ κ) : w.Bound w.machine := ⟨rfl, rfl⟩

theorem World.Bound.congr (h : w.Bound m) (hw : w'.machine = w.machine) : w'.Bound m :=
  ⟨hw ▸ h.graph, hw ▸ h.definition⟩

theorem World.placeless_bound : Engine.Placeless (World.Bound (σ := σ) m) where
  machine hm h := ⟨hm.graph.trans h.graph, hm.definition.trans h.definition⟩
  logs _ h := h.congr rfl
  env _ h := h.congr rfl
  now _ h := h.congr rfl
  notify _ h := h.congr rfl
  active _ h := ⟨h.graph, h.definition⟩
  move _ h := h.congr rfl

namespace Comparison

theorem runs_bound : (within (World.Bound m) : Comparison σ σ κ).Runs .same where
  toHandles := handles_within World.placeless_bound.toLax
  setRunning _ h := ⟨by rw [h.1], ⟨h.2.graph, h.2.definition⟩⟩

theorem queues_bound : (within (World.Bound m) : Comparison σ σ κ).Queues .same where
  toSelects := selects_within World.placeless_bound.toLax
  phase h := by rw [h.1]
  pending h := likePending_of_eq (by rw [h.1])
  setPending hp h := ⟨by rw [h.1, eq_of_likePending hp], ⟨h.2.graph, h.2.definition⟩⟩
  queued | rfl, h => ⟨by rw [h.1], h.2.congr rfl⟩

theorem fires_bound : (within (World.Bound m) : Comparison σ σ κ).Fires .same where
  toEnters := World.placeless_bound.enters
  firing h := by rw [h.1]
  setFiring ht h := ⟨by rw [h.1, eq_of_optionRel ht], ⟨h.2.graph, h.2.definition⟩⟩
  effect | rfl, h => ⟨by rw [h.1], h.2.congr rfl⟩
  fired | rfl, hsource, rfl, h => ⟨by rw [h.1, eq_of_optionRel hsource], h.2.congr rfl⟩

end Comparison

namespace Engine

variable {r : Responder σ κ}

theorem bound_carryOut (hr : r.Keeps (World.Bound m)) {hook : κ → Engine σ κ Unit}
    (hhook : ∀ key, Keeps (World.Bound m) (hook key)) (n : Nat) {q : Request κ}
      (hq : q.KeepsGraph) :
    Keeps (World.Bound m) (carryOut r hook n q) := by
  have hrecord (previous : Option StateId) (t : Option TransitionId) (new : StateId) :=
    keeps_iff_matches.mp (keeps_recordHistory (World.placeless_bound (σ := σ) (m := m)).toLax
      previous t new)
  have hfire (p : Pending) (_ : True) := matches_fireTransition Comparison.fires_bound hr.matches p
    fun previous => hrecord previous (some p.transition)
  have hqueue := matches_queueTransition (Comparison.queues_bound (σ := σ) (m := m))
  refine keeps_iff_matches.mpr
    (matches_carryOut_of_runs Comparison.queues_bound.takes hfire Comparison.runs_bound hr.matches
    hqueue (fun key => keeps_iff_matches.mp (hhook key)) n fun hreplaces => keeps_iff_matches.mp ?_)
  cases q with
  | start args => exact keeps_start World.placeless_bound hr args
  | goto s args => exact keeps_goto World.placeless_bound hr s args
  | setOptions o => exact .update fun _ hw => ⟨hw.graph, hw.definition⟩
  | clearHistory => exact keeps_clearHistory World.placeless_bound.toLax
  | restore s =>
    refine keeps_of_leads fun w hw => ?_
    rcases leads_restore s w with hsame | ⟨active, pending, -, hleads⟩
    · exact ⟨w, hsame, hw⟩
    · exact ⟨_, hleads, hw.graph, hw.definition⟩
  | _ => first | exact hq.elim | exact hreplaces.elim

end Engine

namespace Host

variable {h : Host σ κ} {q : Request κ}

/-- Unless it or something that it runs into isolates or edits the machine, an operation leaves the
graph as it is. -/
theorem Step.bound (hbodies : h.Makes Request.KeepsGraph) (hs : h.Step q w w') (hq : q.KeepsGraph)
    (hw : w.Bound m) : w'.Bound m := by
  obtain ⟨n, env, now, hn⟩ := hs
  have hkeeps : Engine.Keeps (World.Bound m) (h.perform n q) :=
    keeps_perform (C := fun _ _ => True) (fun _ _ h => h.congr rfl) hbodies (fun _ => trivial)
      (fun _ _ n _ _ hr hhook hq => Engine.bound_carryOut hr hhook n hq) n hq
  have hbegun : World.Bound m { w with env, now } := hw.congr rfl
  exact hkeeps.leads hbegun hn

/-- To isolate a machine is one step, granted or refused. -/
theorem Step.isolate (hs : h.Step .isolate w w') : match w.machine.isolated with
    | .ok (m, c) => w'.machine = m ∧ w'.logs = w.logs.remap w.machine.history (·.copied c)
    | .error _ => w'.machine = w.machine ∧ w'.logs = w.logs := by
  obtain ⟨n, env, now, hn⟩ := hs
  cases n with
  | zero =>
    rcases hn with ⟨a, ha⟩ | ⟨e, he⟩
    · cases ha
    · cases he
  | succ n =>
    have happly := Engine.isolate_apply { w with env, now }
    have hrun : h.perform (n + 1) .isolate { w with env, now } =
      Engine.isolate { w with env, now } := rfl
    rw [hrun, happly] at hn
    cases hm : w.machine.isolated with
    | error e =>
      simp only [hm] at hn
      rcases hn with ⟨a, ha⟩ | ⟨e, he⟩
      · cases ha
      · cases he
        exact ⟨rfl, rfl⟩
    | ok mc =>
      obtain ⟨m', c⟩ := mc
      simp only [hm] at hn
      rcases hn with ⟨a, ha⟩ | ⟨e, he⟩
      · cases ha
        exact ⟨rfl, rfl⟩
      · cases he

end Host

/-- A composite state b between two others, with x nested in it. A copy has x before c. -/
def betweenEdits : List (Edit Unit) :=
  [.addState ⟨0⟩ { name := "a" }, .addState ⟨0⟩ { name := "b" }, .addState ⟨0⟩ { name := "c" },
    .attachSubmachine ⟨1⟩ "b", .addState ⟨1⟩ { name := "x" }, .setStart ⟨1⟩ (some ⟨3⟩)]

end Statechart
