import Mathlib.Data.List.Infix
import Statechart.Proofs.Graph.Paths
import Statechart.Proofs.Machine.LockstepRuns
import Statechart.Proofs.Machine.Readiness

/-!
# Resuming from a snapshot

A snapshot of a machine at rest, restored into a new machine on the same graph, gives a twin of the
machine. The two differ in what they remember of the past and in name, and behaviors that have no
eye for that let them do the same ever after.
-/

namespace Statechart

open Json

variable {σ κ α : Type} {m m' a a' : Machine κ}

/-! ## Twins -/

/-- What two machines carry on is the same as far as it tells what they do next. Names, options and
triggers may differ as those of the machines at the outset do. -/
structure Machine.Twin (m m' a a' : Machine κ) : Prop extends a.Meets a' where
  events : a'.events = a.events
  pending : a'.pending = a.pending
  phase : a'.phase = a.phase
  running : a'.running = a.running
  paused : a'.paused = a.paused
  firing : a'.firing = a.firing
  event : a'.event = a.event
  trigger : a'.trigger = a.trigger ∨ a.trigger = m.trigger ∧ a'.trigger = m'.trigger
  options : a'.options = a.options ∨ a.options = m.options ∧ a'.options = m'.options
  id : a.id = m.id ∧ a'.id = m'.id

/-- The views differ at most in the past of two machines that began as the given ones. -/
structure View.Twin (m m' : Machine κ) (v v' : View σ κ) : Prop where
  machine : m.Twin m' v.machine v'.machine
  env : v'.env = v.env

/-- The worlds of twins, in which the same has been noticed since the outset. -/
structure World.Twin (m m' : Machine κ) (old old' : List Notice) (w w' : World σ κ) : Prop extends
    View.Twin m m' w.view w'.view where
  notices : ∃ ns, w.notices = old ++ ns ∧ w'.notices = old' ++ ns

/-- Worlds of twins are related. -/
def Machine.twins (m m' : Machine κ) (old old' : List Notice) : Comparison σ σ κ where
  related := World.Twin m m' old old'

variable {old old' : List Notice} {w w' : World σ κ}

theorem World.Twin.map (h : w.Twin m m' old old' w') {f f' : Machine κ → Machine κ}
    (hf : m.Twin m' (f w.machine) (f' w'.machine)) :
    (w.mapMachine f).Twin m m' old old' (w'.mapMachine f') :=
  ⟨⟨hf, h.env⟩, h.notices⟩

theorem World.Twin.notify (h : w.Twin m m' old old' w') (n : Notice) :
    (w.notify n).Twin m m' old old' (w'.notify n) := by
  obtain ⟨ns, hns, hns'⟩ := h.notices
  refine ⟨⟨h.machine, h.env⟩, ns ++ [n], ?_, ?_⟩
  · rw [World.notify, hns, List.append_assoc]
  · rw [World.notify, hns', List.append_assoc]

/-- Logs have no part in being twins. -/
theorem World.Twin.setLogs (h : w.Twin m m' old old' w') (logs logs' : LogStore) :
    World.Twin m m' old old' { w with logs } { w' with logs := logs' } :=
  ⟨⟨h.machine, h.env⟩, h.notices⟩

theorem World.Twin.record (h : w.Twin m m' old old' w') (previous : Option StateId)
    (t : Option TransitionId) (new : StateId) :
    (m.twins m' old old').Agree (Engine.recordHistory previous t new w)
      (Engine.recordHistory previous t new w') := by
  refine .ok ?_
  dsimp only
  split
  · split
    · exact h.setLogs _ _
    · exact h.setLogs _ _
  · split
    · exact h.setLogs _ _
    · exact h

theorem Machine.runs_twins : (m.twins m' old old' : Comparison σ σ κ).Runs .same where
  like h := h.machine.toMeets.like
  guarded | _, rfl, h => h.notify _
  running h := h.machine.running
  paused h := h.machine.paused
  events h := h.machine.events
  setPaused _ h := h.map { h.machine with paused := rfl }
  setEvents _ h := h.map { h.machine with events := rfl }
  stopped h := h.notify _
  resumed h := h.notify _
  dequeued _ h := h.notify _
  starves := trivial
  setRunning _ h := h.map { h.machine with running := rfl }
  setEvent _ h := h.map { h.machine with event := rfl }
  setTrigger _ h := h.map { h.machine with trigger := .inl rfl }

/-! ## Requests that replace what a machine works on -/

theorem Snapshot.checkPending_congr (h : a.Meets a') : checkPending a' = checkPending a := by
  funext active pending
  cases pending with
  | none => rfl
  | some p =>
    cases active with
    | none => rfl
    | some q => rw [checkPending, checkPending, leaves, leaves, h.candidatesFrom, h.graph]

/-- Restoring a snapshot puts machines that meet in the same place, or fails alike. -/
theorem Snapshot.restoreInto_congr (h : a.Meets a') (hrunning : a'.running = a.running)
    (s : Snapshot) :
    s.restoreInto a' = (s.restoreInto a).map fun b =>
      { a' with active := b.active, pending := b.pending, events := b.events } := by
  have hactive : s.resolveActive a' = s.resolveActive a := by
    rw [resolveActive, resolveActive, h.graph, h.covers]
  have hpending : s.resolvePending a' = s.resolvePending a := by
    rw [resolvePending, resolvePending, h.graph]
  rw [restoreInto, restoreInto, hrunning, hactive, hpending, h.graph, h.definition,
    checkPending_congr h]
  cases s.checkVersion with
  | error e => rfl
  | ok u =>
    simp only [Bind.bind, Except.bind]
    split
    · rfl
    split
    · rfl
    cases s.resolveActive a with
    | error e => rfl
    | ok active =>
      cases s.resolvePending a with
      | error e => rfl
      | ok pending =>
        dsimp only
        cases checkPending a active pending <;> rfl

theorem Machine.serves_twins : (m.twins m' old old' : Comparison σ σ κ).ServesAll where
  toRuns := runs_twins
  phase h := h.machine.phase
  setPhase _ h := h.map { h.machine with phase := rfl }
  setActive hs h := h.map { h.machine with active := (eq_of_optionRel hs).symm }
  setLast _ h := h.map { h.machine with firing := rfl }
  exited | rfl, h => h.notify _
  started | rfl, h => h.notify _
  moving _ hlike h := hlike.eq ▸ h.notify _
  seeded | rfl => Engine.Matches.relates fun _ _ h => h.record none none _
  clear := Engine.Matches.relates fun _ _ h => .ok (h.setLogs _ _)
  firing h := congrArg Option.isSome h.machine.firing
  setFiring ht h := h.map { h.machine with firing := (eq_of_optionRel ht).symm }
  effect | rfl, h => h.notify _
  fired | rfl, hsource, rfl, h => eq_of_optionRel hsource ▸ h.notify _
  pending h := likePending_of_eq h.machine.pending
  setPending hp h := h.map { h.machine with pending := (eq_of_likePending hp).symm }
  queued | rfl, h => h.notify _
  recorded := Engine.relates_record_of_forall fun previous t new _ _ h =>
    World.Twin.record h previous t new
  setOptions _ h := h.map { h.machine with options := .inl rfl }
  isolate := by
    refine .machine_bind (M := m.Twin m') (fun h => h.machine) fun b b' hb => ?_
    have hactive (c : GraphCopy) : b'.copiedActive c = b.copiedActive c := by
      rw [copiedActive, copiedActive, hb.graph, hb.active]
    have hpending (c : GraphCopy) : b'.copiedPending c = b.copiedPending c := by
      rw [copiedPending, copiedPending, hb.graph, hb.pending]
    rw [hb.running, hb.graph, hb.definition]
    refine .check (.bind .ofGraph fun ⟨graph, c⟩ => ?_)
    dsimp only
    rw [hactive, hpending]
    refine .bind .ofGraph fun active => .bind .ofGraph fun pending => ?_
    refine .bind (.modify fun _ _ h => h.setLogs _ _) fun _ => .update fun _ _ h => h.map ?_
    exact { h.machine with graph := rfl, definition := rfl, active := rfl, pending := rfl }
  edit e := by
    refine .machine_bind (M := Machine.Meets) (fun h => h.machine.toMeets) fun b b' hb => ?_
    rw [hb.graph]
    cases e.apply.run b.graph with
    | ok x g =>
      exact .bind (.update fun _ _ h => h.map { h.machine with graph := rfl }) fun _ => .pure
    | error err g =>
      exact .bind (.update fun _ _ h => h.map { h.machine with graph := rfl }) fun _ => .fail
  restore s := by
    intro w w' h
    have hmachine : m.Twin m' w.machine w'.machine := h.machine
    have hcongr := s.restoreInto_congr hmachine.toMeets hmachine.running
    rw [Engine.restore, Engine.machine_bind, Engine.machine_bind, hcongr]
    cases hs : s.restoreInto w.machine with
    | error e => exact .ok h
    | ok b =>
      obtain ⟨active, pending, rfl, -⟩ := Snapshot.restoreInto_ok hs
      exact .ok (h.map { h.machine with active := rfl, pending := rfl, events := rfl })

theorem Machine.shows_twins : (m.twins m' old old' : Comparison σ σ κ).Shows (View.Twin m m') where
  env h := h.env
  setEnv _ h := ⟨⟨h.machine, rfl⟩, h.notices⟩
  view h := h.toTwin

/-! ## Sequences of requests -/

/-- Requests one after the other, how deep each may go, and what becomes of the environment before
each. -/
structure Session (σ κ : Type) where
  request : Nat → Request κ
  depth : Nat → Nat
  change : Nat → σ → σ

namespace Host

/-- What a request at most `k` requests deep answers. -/
def answer (h : Host σ κ) (k : Nat) (q : Request κ) (w : World σ κ) : Except Stop q.Answer :=
  match h.perform k q w with
  | .ok a _ => .ok a
  | .error e _ => .error e

/-- The world in which each request of a session is made, given the times of the requests. -/
def session (h : Host σ κ) (p : Session σ κ) (now : Nat → Instant) (w : World σ κ) : Nat → World σ κ
  | 0 => { w with env := p.change 0 w.env, now := now 0 }
  | i + 1 =>
    let w := h.next (p.depth i) (p.request i) (h.session p now w i)
    { w with env := p.change (i + 1) w.env, now := now (i + 1) }

variable {h : Host σ κ}

/-- Twins give the same answer to a request and are twins after it. -/
theorem twin_next (hbodies : h.Blind (View.Twin m m') fun _ => True) (hw : w.Twin m m' old old' w')
    (k : Nat) (q : Request κ) :
    h.answer k q w' = h.answer k q w ∧ (h.next k q w).Twin m m' old old' (h.next k q w') := by
  have hmatch := matches_perform Machine.serves_twins Machine.shows_twins hbodies k q w w' hw
  rw [answer, answer, next, next]
  generalize h.perform k q w = o, h.perform k q w' = o' at hmatch
  cases hmatch with
  | ok hv => exact ⟨rfl, hv⟩
  | error _ hv => exact ⟨rfl, hv⟩
  | cut hc => exact hc.elim

theorem twin_session (hbodies : h.Blind (View.Twin m m') fun _ => True)
    (hw : w.Twin m m' old old' w') (p : Session σ κ) (now now' : Nat → Instant) (i : Nat) :
    (h.session p now w i).Twin m m' old old' (h.session p now' w' i) := by
  have houtside {v v' : World σ κ} (hv : v.Twin m m' old old' v') (f : σ → σ) (t t' : Instant) :
      World.Twin m m' old old' { v with env := f v.env, now := t }
        { v' with env := f v'.env, now := t' } := by
    have henv : v'.env = v.env := hv.env
    exact ⟨⟨hv.machine, congrArg f henv⟩, hv.notices⟩
  induction i with
  | zero => exact houtside hw (p.change 0) (now 0) (now' 0)
  | succ i ih =>
    exact houtside (twin_next hbodies ih (p.depth i) (p.request i)).2 (p.change (i + 1))
      (now (i + 1)) (now' (i + 1))

end Host

/-! ## The restored machine -/

instance (name : String) : Decidable (Path.Plain name) :=
  decidable_of_iff (name ≠ "" ∧ ¬ [':', ':'] <:+: name.toList ∧ ¬ [':'] <:+ name.toList)
    ⟨fun h => ⟨h.1, h.2.1, h.2.2⟩, fun h => ⟨h.nonempty, h.inside, h.last⟩⟩

end Statechart
