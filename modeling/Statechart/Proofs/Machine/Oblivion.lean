import Statechart.Proofs.Machine.Projection
import Statechart.Proofs.Machine.Resuming

/-!
# History has no part in what a machine does

Two machines may differ in their records, in whether and with what data they record, and in the
transition last fired. Bodies that have no eye for that are run alike on the two, in whatever
session, and the machines go on to differ in nothing else. Their names may differ too, if bodies do
not tell the one from the other.
-/

namespace Statechart

open Json

variable {σ τ κ α : Type} {m m' a a' : Machine κ}

/-! ## Machines but for their history -/

/-- The machines differ at most in name, in the log, in the transition last fired, and in whether
and with what data they record. -/
structure Machine.SamePresent (m m' : Machine κ) : Prop extends m.Meets m' where
  events : m'.events = m.events
  pending : m'.pending = m.pending
  phase : m'.phase = m.phase
  running : m'.running = m.running
  paused : m'.paused = m.paused
  firing : m'.firing = m.firing
  event : m'.event = m.event
  trigger : m'.trigger = m.trigger
  propagateHistory : m'.options.propagateHistory = m.options.propagateHistory

/-- Machines of the given names that differ at most in history, and the same environment. -/
structure View.SamePresent (i i' : Uuid) (v v' : View σ κ) : Prop where
  machine : v.machine.SamePresent v'.machine
  env : v'.env = v.env
  id : v.machine.id = i ∧ v'.machine.id = i'

/-- Machines that differ in nothing but history are twins from the outset. -/
theorem Machine.SamePresent.twin (h : m.SamePresent m') : m.Twin m' m m' :=
  { h with
    trigger := .inl h.trigger
    options := .inr ⟨rfl, rfl⟩
    id := ⟨rfl, rfl⟩ }

/-- And the twins that they become differ in nothing else either. -/
theorem Machine.Twin.samePresent (h : m.Twin m' a a')
    (hm : m.SamePresent m') : a.SamePresent a' where
  toMeets := h.toMeets
  events := h.events
  pending := h.pending
  phase := h.phase
  running := h.running
  paused := h.paused
  firing := h.firing
  event := h.event
  trigger := by
    rcases h.trigger with h | ⟨h, h'⟩
    · exact h
    · rw [h, h', hm.trigger]
  propagateHistory := by
    rcases h.options with h | ⟨h, h'⟩
    · rw [h]
    · rw [h, h', hm.propagateHistory]

theorem View.Twin.samePresent {v v' : View σ κ} (h : v.Twin m m' v') (hm : m.SamePresent m') :
    v.SamePresent m.id m'.id v' :=
  ⟨h.machine.samePresent hm, h.env, h.machine.id⟩

/-- The fewer worlds bodies have to treat alike, the more bodies do. -/
theorem Program.Alike.mono {R R' : View σ κ → View σ κ → Prop} {A : Request κ → Prop}
    {p p' : Program σ κ α} (h : p.Alike R A p')
    (hR : ∀ {v v'}, R' v v' → R v v') : p.Alike R' A p' := by
  induction h with
  | ret a => exact .ret a
  | look _ ih => exact .look fun v v' hv => ih v v' (hR hv)
  | write env _ ih => exact .write env ih
  | call hq _ ih => exact .call hq ih

theorem Host.Blind.twin {h : Host σ κ} {A : Request κ → Prop}
    (hbodies : h.Blind (View.SamePresent m.id m'.id) A) (hm : m.SamePresent m') :
    h.Blind (View.Twin m m') A :=
  fun key element args => (hbodies key element args).mono fun hv => hv.samePresent hm

/-! ## The bodies that are run -/

/-- A body as it is run: for a behavior of an element, or for a hook, which has none. -/
structure BodyRun (κ : Type) where
  key : κ
  element : Option (Element κ)
  args : List Value

/-- What bodies keep, and the bodies run. -/
abbrev Minutes (σ κ : Type) := σ × List (BodyRun κ)

/-- The world with nothing in the minutes yet. -/
def World.minuting (w : World σ κ) : World (Minutes σ κ) κ := { w with env := (w.env, []) }

namespace Host

/-- The host, with minutes taken of the bodies that it runs. They are kept where no body sees
them. -/
def minuted (h : Host σ κ) : Host (Minutes σ κ) κ where
  handlers e := h.handlers e.1
  body key element args := .look fun v =>
    .write (v.env.1, v.env.2 ++ [⟨key, element, args⟩])
      ((h.body key element args).inside Prod.fst fun env e => (env, e.2))

/-- The bodies that are run while a request at most `k` requests deep is carried out. -/
def invocations (h : Host σ κ) (k : Nat) (q : Request κ) (w : World σ κ) : List (BodyRun κ) :=
  ((h.minuted.perform k q).after w.minuting).env.2

end Host

/-- Taking minutes has no part in the run. -/
theorem Host.projecting_minuted (h : Host σ κ) (n : Nat) (q : Request κ) :
    Engine.Matches (.projecting Prod.fst) (h.minuted.perform n q) (h.perform n q) := by
  induction n generalizing q with
  | zero => exact .exhausted trivial
  | succ n ih =>
    have hbody (key : κ) (element : Option (Element κ)) (args : List Value) :
        Engine.Matches (.projecting Prod.fst)
          (h.minuted.runBody (h.minuted.perform n) key element args)
          (h.runBody (h.perform n) key element args) := by
      refine .bind (fun w w' hw => ?_) fun _ => .ofExcept
      exact Program.projecting_inside (fun _ _ => rfl) ih (h.body key element args)
        { w with env := (w.env.1, w.env.2 ++ [⟨key, element, args⟩]) } w' hw
    have hr : (h.minuted.responder (h.minuted.perform n)).Matches (.projecting Prod.fst)
        (h.responder (h.perform n)) := responder_matches (fun hw => by rw [hw]; rfl) hbody
    exact Engine.matches_carryOut_of_serves hr (fun key => .bind (hbody key none []) fun _ => .pure)
      (Comparison.serves_projecting Prod.fst) n q

/-- Programs that do the same do the same with more in the environment, if that is the same. -/
theorem Program.Alike.inside {pr : τ → σ} {put : σ → τ → τ} {R : View σ κ → View σ κ → Prop}
    {S : View τ κ → View τ κ → Prop} {A : Request κ → Prop} {p p' : Program σ κ α}
    (h : p.Alike R A p')
    (hR : ∀ {v v'}, S v v' → R ⟨v.machine, v.logs, pr v.env⟩ ⟨v'.machine, v'.logs, pr v'.env⟩)
    (henv : ∀ {v v'}, S v v' → v'.env = v.env) :
    (p.inside pr put).Alike S A (p'.inside pr put) := by
  induction h with
  | ret a => exact .ret a
  | look _ ih => exact .look fun v v' hv => ih _ _ (hR hv)
  | write env _ ih =>
    refine .look fun v v' hv => ?_
    rw [henv hv]
    exact .write _ ih
  | call hq _ ih => exact .call hq ih

theorem Host.Blind.minuted {h : Host σ κ} {A : Request κ → Prop} {i i' : Uuid}
    (hbodies : h.Blind (View.SamePresent i i') A) : h.minuted.Blind (View.SamePresent i i') A := by
  intro key element args
  refine .look fun v v' hv => ?_
  rw [hv.env]
  exact .write _ ((hbodies key element args).inside
    (fun hv => ⟨hv.machine, congrArg Prod.fst hv.env, hv.id⟩) fun hv => hv.env)

/-! ## Sessions -/

namespace Host

variable {h : Host σ κ} {w w' : World σ κ} {old old' : List Notice}

/-- Twins that differ in nothing but history have the same bodies run. -/
theorem invocations_twin (hm : m.SamePresent m')
    (hbodies : h.Blind (View.SamePresent m.id m'.id) fun _ => True) (hw : w.Twin m m' old old' w')
    (k : Nat) (q : Request κ) : h.invocations k q w' = h.invocations k q w := by
  have hminuting : w.minuting.Twin m m' old old' w'.minuting :=
    ⟨⟨hw.machine, congrArg (fun env => (env, [])) hw.env⟩, hw.notices⟩
  have hmatch := matches_perform Machine.serves_twins Machine.shows_twins
    (hbodies.minuted.twin hm) k q _ _ hminuting
  rw [invocations, invocations, Engine.after, Engine.after]
  generalize h.minuted.perform k q w.minuting = o,
    h.minuted.perform k q w'.minuting = o' at hmatch ⊢
  cases hmatch with
  | ok hv => exact congrArg Prod.snd hv.env
  | error _ hv => exact congrArg Prod.snd hv.env
  | cut hc => exact hc.elim

/-- History has no part in a session. On machines that differ in nothing else, with the same
environment and bodies that have no eye for it, each request gives the same answer, has the same
bodies run and the same told, and leaves machines that differ in nothing else. -/
theorem session_samePresent (hm : w.machine.SamePresent w'.machine) (henv : w'.env = w.env)
    (hbodies : h.Blind (View.SamePresent w.machine.id w'.machine.id) fun _ => True)
    (p : Session σ κ) (now now' : Nat → Instant) (i : Nat) :
    h.answer (p.depth i) (p.request i) (h.session p now' w' i) =
        h.answer (p.depth i) (p.request i) (h.session p now w i) ∧
      h.invocations (p.depth i) (p.request i) (h.session p now' w' i) =
        h.invocations (p.depth i) (p.request i) (h.session p now w i) ∧
      (∃ ns, (h.session p now w i).notices = w.notices ++ ns ∧ (h.session p now' w' i).notices =
        w'.notices ++ ns) ∧
      (h.session p now w i).machine.SamePresent (h.session p now' w' i).machine ∧
      (h.session p now' w' i).env = (h.session p now w i).env := by
  have hw : w.Twin w.machine w'.machine w.notices w'.notices w' :=
    ⟨⟨hm.twin, henv⟩, [], (List.append_nil _).symm, (List.append_nil _).symm⟩
  have hsession := twin_session (hbodies.twin hm) hw p now now' i
  have hanswer := (twin_next (hbodies.twin hm) hsession (p.depth i) (p.request i)).1
  have hinvocations := invocations_twin hm hbodies hsession (p.depth i) (p.request i)
  have hmachine : w.machine.Twin w'.machine (h.session p now w i).machine
      (h.session p now' w' i).machine :=
    hsession.machine
  exact ⟨hanswer, hinvocations, hsession.notices, hmachine.samePresent hm, hsession.env⟩

end Host

/-! ## A walk with and without a record of it -/

/-- In the state b its activity queues the transition to c. -/
def strollEdits : List (Edit Unit) :=
  [.addState ⟨0⟩ { name := "a" }, .addState ⟨0⟩ { name := "b", doActivity := .callback () },
    .addState ⟨0⟩ { name := "c", entry := .callback () },
    .addTransition ⟨0⟩ { name := "first", source := ⟨0⟩, target := ⟨1⟩ },
    .addTransition ⟨0⟩ { name := "second", source := ⟨1⟩, target := ⟨2⟩ }]

/-- The body counts how often it is run, and goes by the active state. -/
def stroller : Host Nat Unit where
  handlers _ := .empty
  body _ _ _ := .look fun v => .write (v.env + 1) <|
    if v.machine.active = some ⟨1⟩ then .call (.queue ⟨1⟩ []) fun _ =>
      .ret (.ok none) else .ret (.ok none)

/-- A machine in the state a, which records, in a world with one record. -/
def recorded : World Nat Unit where
  machine :=
    { id := .ofNat 1, graph := (Graph.new "stroll").edited strollEdits, definition := ⟨0⟩,
      active := some ⟨0⟩
      pending := some ⟨⟨0⟩, []⟩, history := ⟨0, none⟩, options := {} }
  logs := ⟨#[[{ (default : HistoryRecord) with new := ⟨0⟩ }]]⟩
  notices := [.started ⟨0⟩]
  env := 0
  now := default

/-- The same machine by another name, which does not record. -/
def unrecorded : World Nat Unit where
  machine :=
    { recorded.machine with
      id := .ofNat 2, lastTransition := some ⟨1⟩, history := ⟨0, some 1⟩
      options := { recordHistory := false, historyData := some .null } }
  logs := ⟨#[[], []]⟩
  notices := []
  env := 0
  now := default

theorem session_samePresent_recorded :
    recorded.machine.SamePresent unrecorded.machine ∧ unrecorded.env = recorded.env ∧
      stroller.Blind (View.SamePresent recorded.machine.id unrecorded.machine.id) (fun _ => True) ∧
      ∀ (p : Session Nat Unit) (now now' : Nat → Instant) (i : Nat),
        stroller.answer (p.depth i) (p.request i) (stroller.session p now' unrecorded i) =
            stroller.answer (p.depth i) (p.request i) (stroller.session p now recorded i) ∧
          stroller.invocations (p.depth i) (p.request i) (stroller.session p now' unrecorded i) =
            stroller.invocations (p.depth i) (p.request i) (stroller.session p now recorded i) := by
  have hm : recorded.machine.SamePresent unrecorded.machine :=
    ⟨⟨rfl, rfl, rfl⟩, rfl, rfl, rfl, rfl, rfl, rfl, rfl, rfl, rfl⟩
  have hbodies : stroller.Blind (View.SamePresent recorded.machine.id unrecorded.machine.id)
      fun _ => True := by
    intro key element args
    refine .look fun v v' hv => ?_
    rw [hv.env, hv.machine.active]
    refine .write _ ?_
    split
    · exact .call trivial fun _ => .ret _
    · exact .ret _
  refine ⟨hm, rfl, hbodies, fun p now now' i => ?_⟩
  obtain ⟨hanswer, hinvocations, -⟩ := Host.session_samePresent hm rfl hbodies p now now' i
  exact ⟨hanswer, hinvocations⟩

end Statechart
