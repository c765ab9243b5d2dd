import Statechart.Proofs.Graph.Labels
import Statechart.Proofs.Machine.Admission

/-!
# Snapshots on their way between machines

A machine that a snapshot has been restored into says what the snapshot said: the names in a path
lead to one element only, and that has no other path. Into a machine for another definition a
snapshot is let exactly if both definitions go by one label, which the root and a definition nested
in it may do.
-/

namespace Statechart

variable {σ κ : Type} {m m' : Machine κ} {s : Snapshot} {w w' : World σ κ}

namespace Snapshot

/-! ## What is resolved has the path that it was resolved from -/

theorem map_of_resolveActive {active : Option StateId} (hn : m.graph.StatesNamed)
    (hg : m.graph.Tied) (h : s.resolveActive m = .ok active) :
    active.map m.graph.pathOfState = s.activeState := by
  rw [resolveActive] at h
  split at h
  · rename_i hnone
    obtain rfl := Except.ok.inj h
    exact hnone.symm
  · rename_i path hpath
    split at h
    · cases h
    · rename_i q hq
      split at h
      · obtain rfl := Except.ok.inj h
        rw [Option.map_some, hn.pathOfState_eq hg hq, hpath]
      · cases h

theorem toList_of_resolvePending {pending : Option Pending} (hn : m.graph.StatesNamed)
    (hg : m.graph.Tied) (h : s.resolvePending m = .ok pending) :
    (pending.map fun p => (⟨m.graph.pathOfTransition p.transition,
      p.args⟩ : QueuedTransition)).toList =
      s.transitionQueue := by
  rw [resolvePending] at h
  split at h
  · rename_i hnil
    obtain rfl := Except.ok.inj h
    exact hnil.symm
  · rename_i queued hqueue
    split at h
    · rename_i t ht
      obtain rfl := Except.ok.inj h
      rw [hqueue, Option.map_some, Option.toList_some, hn.pathOfTransition_eq hg ht]
    · cases h
  · cases h

/-- Whatever a machine said before, what it says after restoring is what was restored. -/
theorem capture_restoreInto (hn : m.graph.StatesNamed) (hg : m.graph.Tied)
    (h : s.restoreInto m = .ok m') (id : Uuid) (takenAt : Instant) (records : List HistoryRecord) :
    (capture id takenAt m' records).definition = s.definition ∧
      (capture id takenAt m' records).activeState = s.activeState ∧
      (capture id takenAt m' records).transitionQueue = s.transitionQueue ∧
      (capture id takenAt m' records).eventQueue = s.eventQueue := by
  obtain ⟨active, pending, rfl, -, hlabel, hactive, hpending, -⟩ := restoreInto_ok h
  exact ⟨hlabel, map_of_resolveActive hn hg hactive, toList_of_resolvePending hn hg hpending, rfl⟩

end Snapshot

namespace Engine

theorem restore_eq (s : Snapshot) (w : World σ κ) : restore s w = match s.restoreInto w.machine with
    | .ok m => .ok (.ok ()) { w with machine := m }
    | .error e => .ok (.error e) w := by
  rw [restore, machine_bind]
  cases s.restoreInto w.machine <;> rfl

theorem restore_ok_iff : restore s w = .ok (.ok ()) w' ↔
    ∃ m, s.restoreInto w.machine = .ok m ∧ w' = { w with machine := m } := by
  rw [restore_eq]
  cases s.restoreInto w.machine with
  | ok m => simp [eq_comm]
  | error e => simp

theorem restore_error_iff {e : SnapshotError} : restore s w = .ok (.error e) w' ↔
    s.restoreInto w.machine = .error e ∧ w' = w := by
  rw [restore_eq]
  cases s.restoreInto w.machine with
  | ok m => simp
  | error e => simp [eq_comm]

/-- A machine that has taken a snapshot says what the snapshot says. -/
theorem restored_captured (hreachable : w.machine.graph.Reachable)
    (hnamed : w.machine.graph.StatesNamed) (hrestored : restore s w = .ok (.ok ()) w') (id : Uuid)
    (takenAt : Instant) (records : List HistoryRecord) :
    (Snapshot.capture id takenAt w'.machine records).definition = s.definition ∧
      (Snapshot.capture id takenAt w'.machine records).activeState = s.activeState ∧
      (Snapshot.capture id takenAt w'.machine records).transitionQueue = s.transitionQueue ∧
      (Snapshot.capture id takenAt w'.machine records).eventQueue = s.eventQueue := by
  obtain ⟨m, hinto, rfl⟩ := restore_ok_iff.mp hrestored
  exact Snapshot.capture_restoreInto hnamed hreachable.tied hinto id takenAt records

end Engine

/-- A state with the name of the graph and another state, with something nested in both. -/
def dollEdits : List (Edit Unit) :=
  [.addState ⟨0⟩ { name := "a" }, .attachSubmachine ⟨0⟩ "inner", .addState ⟨1⟩ { name := "x" },
    .addState ⟨0⟩ { name := "b" }, .attachSubmachine ⟨2⟩ "side", .addState ⟨2⟩ { name := "y" },
    .setStart ⟨1⟩ (some ⟨1⟩), .addTransition ⟨1⟩ { name := "on", source := ⟨1⟩, target := ⟨1⟩ }]

def dollGraph : Graph Unit := (Graph.new "a").edited dollEdits

/-- A machine for a definition of it that has not started. -/
def doll (d : DefinitionId) : World Unit Unit :=
  { World.fresh dollGraph with machine := (Machine.bound default dollGraph d {} LogStore.empty).1 }

/-- A machine for what is nested in a, at x, with something queued. -/
def innerDoll : Machine Unit :=
  { (doll ⟨1⟩).machine with
    active := some ⟨1⟩
    pending := some ⟨⟨0⟩, []⟩
    events := [⟨"tick", []⟩] }

def innerSaying : Snapshot := .capture (.ofNat 1) ⟨0, 0, 0⟩ innerDoll []

theorem dollGraph_reachable : dollGraph.Reachable := (Graph.Reachable.new "a").edited dollEdits

theorem dollGraph_named : dollGraph.StatesNamed := by
  have hall : ∀ i : Fin 4, ∀ st ∈ dollGraph.state? ⟨i⟩, st.name ≠ "" := by decide +kernel
  intro q st hq
  exact hall ⟨q.index, Graph.state?_lt hq⟩ st hq

/-- The snapshot is put into another machine for the same definition, which then says what it
says. -/
theorem restored_captured_doll :
    dollGraph.Reachable ∧ dollGraph.StatesNamed ∧
      Engine.restore innerSaying (doll ⟨1⟩) =
        .ok (.ok ()) ((Engine.restore innerSaying).after (doll ⟨1⟩)) ∧
      innerSaying.activeState = some "a::x" ∧
      innerSaying.transitionQueue.map (·.transition) = ["a::on"] ∧
      ∀ id takenAt records,
        (Snapshot.capture id takenAt ((Engine.restore innerSaying).after (doll ⟨1⟩)).machine
          records).definition =
            innerSaying.definition ∧
          (Snapshot.capture id takenAt ((Engine.restore innerSaying).after (doll ⟨1⟩)).machine
            records).activeState =
            innerSaying.activeState ∧
          (Snapshot.capture id takenAt
              ((Engine.restore innerSaying).after (doll ⟨1⟩)).machine records).transitionQueue =
            innerSaying.transitionQueue ∧
          (Snapshot.capture id takenAt ((Engine.restore innerSaying).after (doll ⟨1⟩)).machine
            records).eventQueue =
            innerSaying.eventQueue := by
  have hrestored : Engine.restore innerSaying (doll ⟨1⟩) =
      .ok (.ok ()) ((Engine.restore innerSaying).after (doll ⟨1⟩)) :=
        Engine.ok_of_answer? (by decide +kernel)
  exact ⟨dollGraph_reachable, dollGraph_named, hrestored, by decide +kernel, by decide +kernel,
    Engine.restored_captured (w := doll ⟨1⟩) dollGraph_reachable dollGraph_named hrestored⟩

namespace Snapshot

/-! ## Which definitions a snapshot is for -/

/-- A running machine takes no snapshot, whatever that is of. -/
theorem restoreInto_running (hversion : s.version = currentVersion) (hrunning : m.running = true) :
    s.restoreInto m = .error (.validationFailed .running) := by
  rw [restoreInto, checkVersion, if_pos hversion, hrunning]
  rfl

/-- The definition is looked at before anything that a snapshot names. -/
theorem restoreInto_mismatch (hversion : s.version = currentVersion) (hidle : m.running = false)
    (hlabel : m.graph.definitionLabel m.definition ≠ s.definition) :
    s.restoreInto m = .error
      (.definitionMismatch (m.graph.definitionLabel m.definition) s.definition) := by
  rw [restoreInto, checkVersion, if_pos hversion, hidle]
  simp only [Bind.bind, Except.bind]
  rw [if_neg (by decide)]
  simp only [if_pos hlabel]
  rfl

theorem resolveActive_ne_mismatch (expected found : String) :
    s.resolveActive m ≠ .error (.definitionMismatch expected found) := by
  intro h
  rw [resolveActive] at h
  split at h
  · cases h
  · split at h
    · cases h
    · split at h <;> cases h

theorem resolvePending_ne_mismatch (expected found : String) :
    s.resolvePending m ≠ .error (.definitionMismatch expected found) := by
  intro h
  rw [resolvePending] at h
  split at h
  · cases h
  · split at h <;> cases h
  · cases h

theorem checkPending_ne_mismatch (active : Option StateId) (pending : Option Pending)
    (expected found : String) :
    checkPending m active pending ≠ .error (.definitionMismatch expected found) := by
  intro h
  cases pending with
  | none => cases h
  | some p =>
    cases active with
    | none => cases h
    | some q =>
      rw [checkPending] at h
      split at h <;> cases h

/-- No other check answers that the definition is another. -/
theorem label_ne_of_mismatch {expected found : String}
    (h : s.restoreInto m = .error (.definitionMismatch expected found)) :
    m.graph.definitionLabel m.definition ≠ s.definition := by
  intro hlabel
  simp only [restoreInto, checkVersion, Bind.bind, Except.bind] at h
  split at h
  · rename_i hversion
    split at hversion
    · cases hversion
    · cases hversion
      cases h
  split at h
  · cases h
  rw [if_neg (not_not_intro hlabel)] at h
  split at h
  · rename_i hactive
    cases h
    exact resolveActive_ne_mismatch _ _ hactive
  split at h
  · rename_i hpending
    cases h
    exact resolvePending_ne_mismatch _ _ hpending
  split at h
  · rename_i hcheck
    cases h
    exact checkPending_ne_mismatch _ _ _ _ hcheck
  cases h

end Snapshot

/-- A snapshot of a machine for one definition is refused by an idle machine for another of the same
graph, as one of another definition, exactly if the definitions do not go by one label. They do so
only if one is the root and the other has its name for a path, as long as the names of composite
states come back from their paths. -/
theorem Engine.foreign_refused_iff (hreachable : w.machine.graph.Reachable)
    (hgraph : m.graph = w.machine.graph) (hown : (w.machine.graph.definition? m.definition).isSome)
    (hother : (w.machine.graph.definition? w.machine.definition).isSome)
    (hne : m.definition ≠ w.machine.definition) (id : Uuid) (takenAt : Instant)
    (records : List HistoryRecord) :
    (w.machine.running = true →
      restore (.capture id takenAt m records) w = .ok (.error (.validationFailed .running)) w) ∧
    (w.machine.running = false →
      (restore (.capture id takenAt m records) w = .ok (.error (.definitionMismatch
          (w.machine.graph.definitionLabel w.machine.definition)
            (w.machine.graph.definitionLabel m.definition))) w ↔
        w.machine.graph.definitionLabel m.definition ≠
          w.machine.graph.definitionLabel w.machine.definition)) ∧
    (w.machine.graph.CompositesLegible →
      (w.machine.graph.definitionLabel m.definition =
        w.machine.graph.definitionLabel w.machine.definition ↔
        m.definition = w.machine.graph.root ∧ w.machine.graph.Namesake w.machine.definition ∨
          w.machine.definition = w.machine.graph.root ∧
          w.machine.graph.Namesake m.definition)) := by
  obtain ⟨x, hx⟩ := Option.isSome_iff_exists.mp hown
  obtain ⟨y, hy⟩ := Option.isSome_iff_exists.mp hother
  have hlabel : (Snapshot.capture id takenAt m records).definition =
      w.machine.graph.definitionLabel m.definition := by
    rw [← hgraph]
    rfl
  refine ⟨fun hrunning => restore_error_iff.mpr ⟨Snapshot.restoreInto_running rfl hrunning, rfl⟩,
    fun hidle => ⟨fun h heq => ?_, fun hlabels => ?_⟩, fun hlegible =>
      hlegible.label_eq_iff hreachable.tied hx hy hne⟩
  · exact Snapshot.label_ne_of_mismatch (restore_error_iff.mp h).1 (heq.symm.trans hlabel.symm)
  · have hinto := Snapshot.restoreInto_mismatch (s := .capture id takenAt m records) rfl hidle
      (hlabel ▸ Ne.symm hlabels)
    rw [hlabel] at hinto
    exact restore_error_iff.mpr ⟨hinto, rfl⟩

/-- A machine for the definition nested in b refuses it. -/
theorem foreign_refused_doll :
    dollGraph.Reachable ∧ (dollGraph.definition? ⟨1⟩).isSome ∧ (dollGraph.definition? ⟨2⟩).isSome ∧
      dollGraph.definitionLabel ⟨1⟩ = "a" ∧ dollGraph.definitionLabel ⟨2⟩ = "b" ∧
      Engine.restore innerSaying (doll ⟨2⟩) =
        .ok (.error (.definitionMismatch "b" "a")) (doll ⟨2⟩) := by
  have hown : (dollGraph.definition? ⟨1⟩).isSome := by decide +kernel
  have hother : (dollGraph.definition? ⟨2⟩).isSome := by decide +kernel
  have hlabel : dollGraph.definitionLabel ⟨1⟩ = "a" := by decide +kernel
  have hlabel' : dollGraph.definitionLabel ⟨2⟩ = "b" := by decide +kernel
  have hrefused := (Engine.foreign_refused_iff (w := doll ⟨2⟩)
    (m := innerDoll) dollGraph_reachable rfl hown hother (by decide) (.ofNat 1)
      ⟨0, 0, 0⟩ []).2.1 rfl
  refine ⟨dollGraph_reachable, hown, hother, hlabel, hlabel', ?_⟩
  have hne : dollGraph.definitionLabel ⟨1⟩ ≠ dollGraph.definitionLabel ⟨2⟩ := by
    rw [hlabel, hlabel']
    decide
  rw [← hlabel, ← hlabel']
  exact hrefused.mpr hne

/-- A machine for the root takes it, for a, which the definition goes by, is the name of the root
too. -/
theorem crossed_doll :
    dollGraph.Reachable ∧ (dollGraph.definition? ⟨1⟩).isSome ∧
      (dollGraph.definition? dollGraph.root).isSome ∧
      dollGraph.root ≠ ⟨1⟩ ∧ (doll dollGraph.root).machine.running = false ∧
      Engine.restore innerSaying (doll dollGraph.root) =
        .ok (.ok ()) ((Engine.restore innerSaying).after (doll dollGraph.root)) ∧
      (doll dollGraph.root).machine.active = none ∧
      ((Engine.restore innerSaying).after (doll dollGraph.root)).machine.active = some ⟨1⟩ :=
  ⟨dollGraph_reachable, by decide +kernel, by decide +kernel, by decide, rfl,
    Engine.ok_of_answer? (by decide +kernel), rfl, by decide +kernel⟩

end Statechart
