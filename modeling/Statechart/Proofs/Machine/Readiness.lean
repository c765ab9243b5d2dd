import Statechart.Proofs.Machine.Slot

/-!
# Operations and the slot

A machine carries out operations one after the other, each to success or failure. Its slot is ready
at rest and its firings leave their source, but for operations that move it from under what waits in
the slot or that put it at its end by a snapshot.
-/

namespace Statechart

open Json

variable {σ κ : Type} {m : Machine κ} {h : Host σ κ} {q : Request κ} {s : Snapshot}
  {w w' : World σ κ} {restores : Bool}

/-- An operation on a machine succeeds or fails. Before it, what the behaviors keep and the time may
have become anything. -/
def Host.Step (h : Host σ κ) (q : Request κ) (w w' : World σ κ) : Prop :=
  ∃ n env now, (∃ a, h.perform n q { w with env, now } = .ok a w') ∨
    ∃ e, h.perform n q { w with env, now } = .error (.fault e) w'

namespace Request

/-- The request leaves the graph of the machine as it is. -/
def KeepsGraph : Request κ → Prop
  | .edit _ | .isolate => False
  | _ => True

/-- The request restores a snapshot with something queued at the end of the machine's definition. -/
def Unsettled (m : Machine κ) : Request κ → Prop
  | .restore s => ¬ s.Settled m
  | _ => False

end Request

/-- What the notices of an operation that begins in the world are read with. -/
def World.watch (w : World σ κ) (restores : Bool) : Watch :=
  ⟨w.notices.length, w.machine.pending.isSome, restores⟩

theorem World.told_watch (hnotices : w'.notices = w.notices) :
    w'.told (w.watch restores) = (w.watch restores).start := by
  rw [told, hnotices]
  show ((w.notices.drop w.notices.length).foldl _ _) = _
  rw [List.drop_length]
  rfl

/-- The invariant holds of a ready machine before anything is told. -/
theorem World.sound_of_ready (hm : m.graph.Tied) (hgraph : w.machine.graph = m.graph)
    (hdefinition : w.machine.definition = m.definition) (hready : w.machine.Ready) :
    w.Sound m (w.watch restores) := by
  refine ⟨⟨hm, hgraph, hdefinition, Nat.le_refl _, fun _ hempty => ?_, ?_⟩, fun _ => hready⟩
  · rw [told_watch rfl, Watch.start, watch] at hempty
    cases hp : w.machine.pending with
    | none => rfl
    | some p =>
      rw [hp] at hempty
      cases hempty
  · rw [told_watch rfl]
    intro f hf
    cases hf

/-! ## One operation -/

/-- An operation that restores a snapshot tells nothing. -/
theorem Host.Step.restore (hstep : h.Step (.restore s) w w') : w'.notices = w.notices ∧
    (w'.machine = w.machine ∨ s.restoreInto w.machine = .ok w'.machine) := by
  obtain ⟨n, env, now, hn⟩ := hstep
  cases n with
  | zero =>
    rw [perform] at hn
    rcases hn with ⟨a, ha⟩ | ⟨e, he⟩
    · cases ha
    · cases he
  | succ n =>
    have hrun : h.perform (n + 1) (.restore s) { w with env, now } =
        Engine.restore s { w with env, now } := rfl
    rw [hrun, Engine.restore, Engine.machine_bind] at hn
    cases hs : s.restoreInto w.machine with
    | error e =>
      rw [hs] at hn
      rcases hn with ⟨a, ha⟩ | ⟨e, he⟩
      · cases ha
        exact ⟨rfl, .inl rfl⟩
      · cases he
    | ok m' =>
      rw [hs] at hn
      rcases hn with ⟨a, ha⟩ | ⟨e, he⟩
      · cases ha
        exact ⟨rfl, .inr rfl⟩
      · cases he

/-- What one operation does to a ready machine. -/
structure Host.Outcome (m : Machine κ) (q : Request κ) (v : Watch) (w : World σ κ) : Prop where
  graph : w.machine.graph = m.graph
  definition : w.machine.definition = m.definition
  firings : ∀ f ∈ (w.told v).firings, f.displaced = false → f.Leaves m
  slot : (w.told v).slot ≠ .displaced → ¬ q.Unsettled m → w.machine.Ready

theorem Host.Step.outcome (hbodies : h.Makes (Request.Orderly m restores)) (hq : q.KeepsGraph)
    (hstep : h.Step q w w') (hw : w.Sound m (w.watch restores)) :
    Host.Outcome m q (w.watch restores) w' := by
  have hready : w.machine.Ready := by
    refine hw.slot ?_
    rw [World.told_watch rfl, Watch.start]
    split <;> intro hslot <;> cases hslot
  have hkept (hq : q.Orderly m restores) : Host.Outcome m q (w.watch restores) w' := by
    have hkeeps (n : Nat) := h.keeps_sound (v := w.watch restores) hbodies n hq
    obtain ⟨n, env, now, hn⟩ := hstep
    have hsound := hkeeps n _ (World.lax_sound.now now (World.lax_sound.env env hw))
    rcases hn with ⟨a, ha⟩ | ⟨e, he⟩
    · rw [ha] at hsound
      exact ⟨hsound.graph, hsound.definition, hsound.firings, fun hslot _ => hsound.slot hslot⟩
    · rw [he] at hsound
      exact ⟨hsound.graph, hsound.definition, hsound.firings, fun hslot _ => hsound.slot hslot⟩
  cases q with
  | restore s =>
    obtain ⟨hnotices, hmachine⟩ := hstep.restore
    have hfirings : ∀ f ∈ (w'.told (w.watch restores)).firings,
        f.displaced = false → f.Leaves m := by
      rw [World.told_watch hnotices]
      intro f hf
      cases hf
    rcases hmachine with hsame | hrestored
    · exact ⟨hsame ▸ hw.graph, hsame ▸ hw.definition, hfirings, fun _ _ => hsame ▸ hready⟩
    · have hsettled (hn : ¬ (Request.restore s : Request κ).Unsettled m) : w'.machine.Ready :=
        ((Classical.not_not.mp hn).congr hw.graph hw.definition).ready
          (hw.graph ▸ hw.tied) hrestored
      obtain ⟨active, pending, hm', -⟩ := Snapshot.restoreInto_ok hrestored
      exact ⟨hm' ▸ hw.graph, hm' ▸ hw.definition, hfirings, fun _ hn => hsettled hn⟩
  | edit e => exact hq.elim
  | isolate => exact hq.elim
  | _ => exact hkept trivial

/-! ## Sequences of operations -/

/-- Of a sequence of operations: the slot is ready at rest all along and every firing leaves its
source if and only if each operation that displaces what waits, or restores an unsettled snapshot,
leaves the machine ready, and each firing of something displaced leaves its source. -/
theorem Host.ready_iff_of_steps {w : Nat → World σ κ} {q : Nat → Request κ} {n : Nat}
    (hreachable : (w 0).machine.graph.Reachable)
    (hbodies : h.Makes (Request.Orderly (w 0).machine restores))
    (hrequests : ∀ i < n, (q i).KeepsGraph) (hsteps : ∀ i < n, h.Step (q i) (w i) (w (i + 1)))
    (hready : (w 0).machine.Ready) :
    ((∀ i ≤ n, (w i).machine.Ready) ∧
      ∀ i < n, ∀ f ∈ ((w (i + 1)).told ((w i).watch restores)).firings, f.Leaves (w 0).machine) ↔
    (∀ i < n, ((w (i + 1)).told ((w i).watch restores)).slot = .displaced ∨
        (q i).Unsettled (w 0).machine → (w (i + 1)).machine.Ready) ∧
      ∀ i < n, ∀ f ∈ ((w (i + 1)).told ((w i).watch restores)).firings, f.displaced = true →
        f.Leaves (w 0).machine := by
  constructor
  · rintro ⟨hrest, hfirings⟩
    exact ⟨fun i hi _ => hrest (i + 1) hi, fun i hi f hf _ => hfirings i hi f hf⟩
  · rintro ⟨hmoves, hdisplaced⟩
    have htied := hreachable.tied
    have hall : ∀ i ≤ n, (w i).machine.Ready ∧
        (w i).Sound (w 0).machine ((w i).watch restores) := by
      intro i
      induction i with
      | zero => exact fun _ => ⟨hready, World.sound_of_ready htied rfl rfl hready⟩
      | succ i ih =>
        intro hi
        have hnext := (hsteps i hi).outcome hbodies (hrequests i hi) (ih (Nat.le_of_succ_le hi)).2
        have hrest : (w (i + 1)).machine.Ready := by
          by_cases hflag : ((w (i + 1)).told ((w i).watch restores)).slot = .displaced ∨
              (q i).Unsettled (w 0).machine
          · exact hmoves i hi hflag
          · exact hnext.slot (not_or.mp hflag).1 (not_or.mp hflag).2
        exact ⟨hrest, World.sound_of_ready htied hnext.graph hnext.definition hrest⟩
    refine ⟨fun i hi => (hall i hi).1, fun i hi f hf => ?_⟩
    cases hflag : f.displaced with
    | true => exact hdisplaced i hi f hf hflag
    | false =>
      have hnext := (hsteps i hi).outcome hbodies (hrequests i hi) (hall i (Nat.le_of_lt hi)).2
      exact hnext.firings f hf hflag

/-! ## A machine moved from under its slot -/

namespace Host

/-- The world after a request at most `k` requests deep. -/
def next (h : Host σ κ) (k : Nat) (q : Request κ) (w : World σ κ) : World σ κ :=
  match h.perform k q w with
  | .ok _ w' => w'
  | .error _ w' => w'

/-- The request succeeds or fails within that depth. -/
def completes (h : Host σ κ) (k : Nat) (q : Request κ) (w : World σ κ) : Bool :=
  match h.perform k q w with
  | .error .exhausted _ => false
  | _ => true

theorem step_next {k : Nat} (hc : h.completes k q w = true) : h.Step q w (h.next k q w) := by
  rw [completes] at hc
  refine ⟨k, w.env, w.now, ?_⟩
  rw [next]
  cases hp : h.perform k q w with
  | ok a w' => exact .inl ⟨a, rfl⟩
  | error e w' =>
    cases e with
    | fault e => exact .inr ⟨e, rfl⟩
    | exhausted =>
      rw [hp] at hc
      cases hc

/-- The worlds of a sequence of requests. -/
def worlds (h : Host σ κ) (k : Nat) (q : Nat → Request κ) (w : World σ κ) : Nat → World σ κ
  | 0 => w
  | i + 1 => h.next k (q i) (h.worlds k q w i)

/-- No handlers, and bodies that do nothing. -/
def silent : Host Unit Unit where
  handlers _ := .empty
  body _ _ _ := .ret (.ok none)

end Host

/-- A new machine on a graph. -/
def World.fresh (g : Graph κ) : World Unit κ :=
  let (machine, logs) := Machine.withOptions default g {} .empty
  { machine, logs, notices := [], env := (), now := default }

theorem World.graph_fresh (g : Graph κ) : (World.fresh g).machine.graph = g := rfl

/-- Four states in a row. -/
def linearEdits : List (Edit Unit) :=
  [.addState ⟨0⟩ { name := "a" }, .addState ⟨0⟩ { name := "b" }, .addState ⟨0⟩ { name := "c" },
    .addState ⟨0⟩ { name := "d" },
    .addTransition ⟨0⟩ { name := "a->b", source := ⟨0⟩, target := ⟨1⟩ },
    .addTransition ⟨0⟩ { name := "b->c", source := ⟨1⟩, target := ⟨2⟩ },
    .addTransition ⟨0⟩ { name := "c->d", source := ⟨2⟩, target := ⟨3⟩ },
    .setStart ⟨0⟩ (some ⟨0⟩), .setFinal ⟨0⟩ (some ⟨3⟩)]

def linearWorld : World Unit Unit := .fresh ((Graph.new "linear").edited linearEdits)

/-- The machine is moved to c with a->b in the slot, and runs. -/
def misfire : Nat → Request Unit
  | 0 => .start []
  | 1 => .queue ⟨0⟩ []
  | 2 => .goto ⟨2⟩ []
  | _ => .run .continuous

def misfired : Nat → World Unit Unit := Host.silent.worlds 3 misfire linearWorld

theorem linear_reachable : linearWorld.machine.graph.Reachable :=
  (Graph.Reachable.new "linear").edited linearEdits

theorem misfire_steps : ∀ i < 4, Host.silent.Step (misfire i) (misfired i) (misfired (i + 1)) := by
  have hall : ∀ i < 4, Host.silent.completes 3 (misfire i) (misfired i) = true := by decide +kernel
  exact fun i hi => Host.step_next (hall i hi)

theorem ready_iff_misfire :
    linearWorld.machine.graph.Reachable ∧
      Host.silent.Makes (Request.Orderly linearWorld.machine false) ∧
    (∀ i < 4, (misfire i).KeepsGraph) ∧
    (∀ i < 4, Host.silent.Step (misfire i) (misfired i) (misfired (i + 1))) ∧
    linearWorld.machine.Ready ∧
    (((∀ i ≤ 4, (misfired i).machine.Ready) ∧
      ∀ i < 4, ∀ f ∈ ((misfired (i + 1)).told ((misfired i).watch false)).firings,
        f.Leaves linearWorld.machine) ↔
    (∀ i < 4, ((misfired (i + 1)).told ((misfired i).watch false)).slot = .displaced ∨
        (misfire i).Unsettled linearWorld.machine → (misfired (i + 1)).machine.Ready) ∧
      ∀ i < 4, ∀ f ∈ ((misfired (i + 1)).told ((misfired i).watch false)).firings,
      f.displaced = true →
        f.Leaves linearWorld.machine) := by
  have hbodies : Host.silent.Makes (Request.Orderly linearWorld.machine false) :=
    fun _ _ _ => trivial
  have hrequests : ∀ i < 4, (misfire i).KeepsGraph := by
    intro i _
    match i with
    | 0 | 1 | 2 | _ + 3 => trivial
  have hready : linearWorld.machine.Ready := Machine.ready_of_empty rfl
  exact ⟨linear_reachable, hbodies, hrequests, misfire_steps, hready,
    Host.ready_iff_of_steps (w := misfired) linear_reachable hbodies hrequests misfire_steps hready⟩

/-- After the third request a->b waits in c, which it does not leave, and the fourth fires it from
there. -/
theorem not_ready_misfire :
    (∀ i < 4, Host.silent.Step (misfire i) (misfired i) (misfired (i + 1))) ∧
    ¬ (misfired 3).machine.Ready ∧
    ∃ f ∈ ((misfired 4).told ((misfired 3).watch false)).firings,
    ¬ f.Leaves linearWorld.machine := by
  have hsource : linearWorld.machine.graph.source? ⟨0⟩ = some ⟨0⟩ := by decide +kernel
  have hscoped : ⟨0⟩ ∉ linearWorld.machine.scopedAncestors ⟨2⟩ := by decide +kernel
  refine ⟨misfire_steps, fun hready => ?_, ⟨⟨0⟩, some ⟨2⟩, false⟩, by decide +kernel, ?_⟩
  · have hwaits : (misfired 3).machine.pending.map (·.transition) = some ⟨0⟩ := by decide +kernel
    have hactive : (misfired 3).machine.active = some ⟨2⟩ := by decide +kernel
    have hsource' : (misfired 3).machine.graph.source? ⟨0⟩ = some ⟨0⟩ := by decide +kernel
    have hscoped' : ⟨0⟩ ∉ (misfired 3).machine.scopedAncestors ⟨2⟩ := by decide +kernel
    obtain ⟨p, hp, hpt⟩ := Option.map_eq_some_iff.mp hwaits
    obtain ⟨-, s, hs, hleaves⟩ := hready p hp
    rw [hactive] at hs
    obtain rfl := Option.some.inj hs
    exact Machine.not_leaves hsource' hscoped' (hpt ▸ hleaves)
  · rintro ⟨s, hs, hleaves⟩
    obtain rfl := Option.some.inj hs
    exact Machine.not_leaves hsource hscoped hleaves

end Statechart
