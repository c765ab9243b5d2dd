import Statechart.Proofs.Machine.Cutoff
import Statechart.Proofs.Machine.Mirror

/-!
# Isolation goes unnoticed

A machine that is isolated has an image of itself on the copy: of all that it holds it has the
copies, and its records are mapped along. Where the states of its graph list their transitions in
the order of a walk, nothing that behaviors can tell apart by names ever shows the difference. Where
they do not, the candidates come in another order.
-/

namespace Statechart

open Json

variable {σ κ α : Type}

/-! ## Logs -/

/-- The stores have as many logs, and one log has of the records in the other those that the map
keeps. -/
structure LogStore.Mirrors (f : HistoryRecord → Option HistoryRecord) (l : HistoryLog)
    (st st' : LogStore) : Prop where
  size : st'.logs.size = st.logs.size
  records : st'.records l = (st.records l).filterMap f

namespace LogStore.Mirrors

variable {f : HistoryRecord → Option HistoryRecord} {l : HistoryLog} {st st' : LogStore}
  {x x' : HistoryRecord}

theorem of_remap (f : HistoryRecord → Option HistoryRecord) (l : HistoryLog) (st : LogStore) :
    Mirrors f l st (st.remap l f) := ⟨size_update .., records_remap f⟩

theorem clear (h : Mirrors f l st st') : Mirrors f l (st.clear l) (st'.clear l) := by
  refine ⟨(size_update ..).trans (h.size.trans (size_update ..).symm), ?_⟩
  rw [records_clear, records_clear]
  rfl

theorem snoc (h : Mirrors f l st st') (hx : f x = some x') (n : Nat) :
    Mirrors f l (st.update n (· ++ [x])) (st'.update n (· ++ [x'])) := by
  refine ⟨(size_update ..).trans (h.size.trans (size_update ..).symm), ?_⟩
  have hrecords := h.records
  rw [LogStore.records, LogStore.records] at hrecords ⊢
  rw [recordsAt_update, recordsAt_update]
  split
  · rw [recordsAt, recordsAt] at hrecords
    by_cases hstored : l.own < st.logs.size
    · have hstored' : l.own < st'.logs.size := h.size ▸ hstored
      rw [Array.getElem?_eq_getElem hstored, Array.getElem?_eq_getElem hstored'] at hrecords ⊢
      rw [Option.map_some, Option.map_some, Option.getD_some, Option.getD_some,
        List.filterMap_append]
      rw [Option.getD_some, Option.getD_some] at hrecords
      rw [hrecords, List.filterMap_cons_some hx, List.filterMap_nil]
    · have hstored' : ¬ l.own < st'.logs.size := h.size ▸ hstored
      rw [Array.getElem?_eq_none (Nat.le_of_not_lt hstored),
        Array.getElem?_eq_none (Nat.le_of_not_lt hstored')]
      rfl
  · exact hrecords

theorem append (h : Mirrors f l st st') (hx : f x = some x') :
    Mirrors f l (st.append l x) (st'.append l x') := by
  rw [LogStore.append, LogStore.append]
  cases l.parent with
  | none => exact h.snoc hx l.own
  -- A step goes for whichever log is written to, so that nothing has to be known of the parent.
  | some n => exact (h.snoc hx n).snoc hx l.own

end LogStore.Mirrors

/-! ## Machines and worlds -/

/-- The second machine is the image of the first, which works on the given graph, on the copy of its
root. -/
structure Machine.Mirrors (g : Graph κ) (m m' : Machine κ) : Prop extends m.Copied m' where
  graph : m.graph = g
  id : m'.id = m.id
  active : Option.Rel (g.copies g.root).state m.active m'.active
  pending : Option.Rel (Pending.Like (g.copies g.root)) m.pending m'.pending
  lastTransition : m'.lastTransition = m.lastTransition.bind (g.copyMap g.root).transition?
  events : m'.events = m.events
  phase : m'.phase = m.phase
  running : m'.running = m.running
  paused : m'.paused = m.paused
  firing : m'.firing.isSome = m.firing.isSome
  event : m'.event = m.event
  trigger : m'.trigger = m.trigger
  history : m'.history = m.history
  options : m'.options = m.options

/-- The worlds of a machine and its image, in which the like has been noticed since the outset. -/
structure World.Mirrors (g : Graph κ) (old old' : List Notice) (w w' : World σ κ) : Prop where
  machine : w.machine.Mirrors g w'.machine
  env : w'.env = w.env
  now : w'.now = w.now
  notices : ∃ ns ns', w.notices = old ++ ns ∧ w'.notices = old' ++ ns' ∧
    List.Forall₂ (Notice.Like (g.copies g.root)) ns ns'
  logs : LogStore.Mirrors (·.copied (g.copyMap g.root)) w.machine.history w.logs w'.logs

/-- Worlds of machines and their images are related. -/
def Graph.mirroring (g : Graph κ) (old old' : List Notice) : Comparison σ σ κ where
  related := World.Mirrors g old old'

variable {g : Graph κ} {old old' : List Notice} {w w' : World σ κ}

theorem bind_of_rel {a b : Type} {f : a → Option b} {o : Option a} {o' : Option b}
    (h : Option.Rel (fun x y => f x = some y) o o') : o.bind f = o' := by
  cases h with
  | none => rfl
  | some h => exact h

theorem rel_of_bind {a b : Type} {f : a → Option b} {o : Option a}
    (h : ∀ x, o = some x → ∃ y, f x = some y) :
    Option.Rel (fun x y => f x = some y) o (o.bind f) := by
  cases o with
  | none => exact .none
  | some x =>
    obtain ⟨y, hy⟩ := h x rfl
    rw [Option.bind_some, hy]
    exact .some hy

namespace World.Mirrors

variable (h : w.Mirrors g old old' w')
include h

theorem map {f f' : Machine κ → Machine κ} (hf : Machine.Mirrors g (f w.machine) (f' w'.machine))
    (hhistory : (f w.machine).history = w.machine.history) :
    (w.mapMachine f).Mirrors g old old' (w'.mapMachine f') :=
  ⟨hf, h.env, h.now, h.notices, show LogStore.Mirrors _ (f w.machine).history _ _
    from hhistory ▸ h.logs⟩

theorem notify {n n' : Notice} (hn : n.Like (g.copies g.root) n') :
    (w.notify n).Mirrors g old old' (w'.notify n') := by
  obtain ⟨ns, ns', hns, hns', hlike⟩ := h.notices
  refine ⟨h.machine, h.env, h.now,
    ⟨ns ++ [n], ns' ++ [n'], ?_, ?_, List.rel_append hlike (.cons hn .nil)⟩, h.logs⟩
  · rw [World.notify, hns, List.append_assoc]
  · rw [World.notify, hns', List.append_assoc]

theorem setLogs {logs logs' : LogStore}
    (hlogs : LogStore.Mirrors (·.copied (g.copyMap g.root)) w.machine.history logs logs') :
    World.Mirrors g old old' { w with logs } { w' with logs := logs' } :=
  ⟨h.machine, h.env, h.now, h.notices, hlogs⟩

/-- The record that the image makes is the image of the record. -/
theorem copied_recordOf {previous previous' : Option StateId} {t t' : Option TransitionId}
    {new new' : StateId} (hprevious : Option.Rel (g.copies g.root).state previous previous')
    (ht : Option.Rel (g.copies g.root).transition t t') (hnew : (g.copies g.root).state new new') :
    (Engine.recordOf w previous t new).copied (g.copyMap g.root) =
      some (Engine.recordOf w' previous' t' new') := by
  have hstate : (g.copyMap g.root).state? new = some new' := hnew
  rw [HistoryRecord.copied, Engine.recordOf, hstate, Option.map_some,
    bind_of_rel hprevious, bind_of_rel ht,
    Engine.recordOf, h.now, h.machine.event, h.machine.trigger, h.machine.options]

theorem record {previous previous' : Option StateId} {t t' : Option TransitionId}
    {new new' : StateId} (hprevious : Option.Rel (g.copies g.root).state previous previous')
    (ht : Option.Rel (g.copies g.root).transition t t') (hnew : (g.copies g.root).state new new') :
    (g.mirroring old old').AgreeBy Eq (Engine.recordHistory previous t new w)
      (Engine.recordHistory previous' t' new' w') := by
  have hrecord := h.logs.append (h.copied_recordOf hprevious ht hnew)
  refine .ok rfl ?_
  dsimp only
  rw [h.machine.options, h.machine.history]
  split
  · exact h.setLogs hrecord
  · exact h

end World.Mirrors

namespace Graph

variable (ho : g.Owned) (hw : g.InWalkOrder)
include ho hw

theorem like_of_mirrors {m m' : Machine κ} (h : m.Mirrors g m') : m.Like (g.copies g.root) m' := by
  have hcopied := h.toCopied
  have hactive := h.active
  obtain rfl := h.graph
  exact hcopied.like ho hw hactive

/-- A machine and its image do the like in whatever way they may be asked to. -/
theorem serves_mirroring : (g.mirroring old old' : Comparison σ σ κ).Serves (g.copies g.root) where
  like h := like_of_mirrors ho hw h.machine
  guarded passed ht h := h.notify (.guardEvaluated ht passed)
  phase h := h.machine.phase
  pending h := h.machine.pending
  setPending hp h := h.map { h.machine with pending := hp } rfl
  queued ht h := h.notify (.transitionQueued ht)
  setPhase _ h := h.map { h.machine with phase := rfl } rfl
  setActive hs h := h.map { h.machine with active := hs } rfl
  setLast hvia h :=
    h.map { h.machine with lastTransition := (bind_of_rel hvia).symm, firing := rfl } rfl
  exited hs h := h.notify (.stateExited hs)
  started hs h := h.notify (.started hs)
  moving _ hn h := h.notify hn
  seeded hnew _ _ h := h.record .none .none hnew
  clear _ _ h := by
    refine .ok rfl ?_
    dsimp only
    rw [h.machine.history]
    exact h.setLogs h.logs.clear
  firing h := h.machine.firing
  setFiring ht h := h.map { h.machine with firing := isSome_of_rel ht } rfl
  effect ht h := h.notify (.effectInvoked ht)
  fired ht hsource htarget h := h.notify (.transitionFired ht hsource htarget)
  starves := trivial
  running h := h.machine.running
  paused h := h.machine.paused
  setPaused _ h := h.map { h.machine with paused := rfl } rfl
  stopped h := h.notify .paused
  resumed h := h.notify .resumed
  events h := h.machine.events
  setEvents _ h := h.map { h.machine with events := rfl } rfl
  dequeued e h := h.notify (.eventDequeued e)
  setEvent _ h := h.map { h.machine with event := rfl } rfl
  setTrigger _ h := h.map { h.machine with trigger := rfl } rfl
  setRunning _ h := h.map { h.machine with running := rfl } rfl
  recorded hprevious ht hnew _ _ h := h.record hprevious (.some ht) hnew
  setOptions _ h := h.map { h.machine with options := rfl } rfl

omit ho hw in
theorem shows_mirroring :
    (g.mirroring old old' : Comparison σ σ κ).Shows fun v v' => v'.env = v.env where
  env h := h.env
  setEnv _ h := ⟨h.machine, rfl, h.now, h.notices, h.logs⟩
  view h := h.env

/-! ## What has a copy -/

omit hw
variable (hg : g.Tied)
include hg

omit ho in
theorem copies_state {s : StateId} (hs : (g.state? s).isSome) :
    ∃ s', (g.copies g.root).state s s' := by
  obtain ⟨st, hst⟩ := Option.isSome_iff_exists.mp hs
  exact ⟨_, state?_copyMap_eq_some.mpr ⟨hg.mem_walkStates_of_live hst, rfl⟩⟩

theorem copies_transition {t : TransitionId} (ht : (g.transition? t).isSome) :
    ∃ t', (g.copies g.root).transition t t' := by
  obtain ⟨tr, htr⟩ := Option.isSome_iff_exists.mp ht
  exact ⟨_, transition?_copyMap_eq_some.mpr ⟨ho.mem_copiedTransitions hg htr, rfl⟩⟩

end Graph

/-- The request names nothing but live elements of the graph, and leaves the machine the graph that
it works on. -/
def Request.Refers (g : Graph κ) : Request κ → Prop
  | .goto s _ | .transitionsTo s _ | .canTransitionTo s _ | .transitionTo s _ | .consult _ s _ =>
    (g.state? s).isSome
  | .queue t _ | .transitionById t _ => (g.transition? t).isSome
  | .isolate | .edit _ | .restore _ => False
  | _ => True

/-- The like of such a request can be asked of an image. -/
theorem Request.Refers.like (hg : g.Tied) (ho : g.Owned) {q : Request κ} (hq : q.Refers g) :
    ∃ q' R, q.Like (g.copies g.root) q' R := by
  have hstate {s : StateId} (hs : (g.state? s).isSome) := Graph.copies_state hg hs
  have htransition {t : TransitionId} (ht : (g.transition? t).isSome) :=
    Graph.copies_transition ho hg ht
  cases q with
  | start args => exact ⟨_, _, .start args⟩
  | goto s args => exact (hstate hq).elim fun _ h => ⟨_, _, .goto h args⟩
  | queue t args => exact (htransition hq).elim fun _ h => ⟨_, _, .queue h args⟩
  | run mode => exact ⟨_, _, .run mode⟩
  | runWith mode hook => exact ⟨_, _, .runWith mode hook⟩
  | pause => exact ⟨_, _, .pause⟩
  | resume => exact ⟨_, _, .resume⟩
  | post es => exact ⟨_, _, .post es⟩
  | runEvents => exact ⟨_, _, .runEvents⟩
  | dispatch e => exact ⟨_, _, .dispatch e⟩
  | matching e => exact ⟨_, _, .matching e⟩
  | valid args => exact ⟨_, _, .valid args⟩
  | hasValid args => exact ⟨_, _, .hasValid args⟩
  | transitionsTo s args => exact (hstate hq).elim fun _ h => ⟨_, _, .transitionsTo h args⟩
  | canTransitionTo s args => exact (hstate hq).elim fun _ h => ⟨_, _, .canTransitionTo h args⟩
  | transitionNamed name args => exact ⟨_, _, .transitionNamed name args⟩
  | transitionById t args => exact (htransition hq).elim fun _ h => ⟨_, _, .transitionById h args⟩
  | transitionTo s args => exact (hstate hq).elim fun _ h => ⟨_, _, .transitionTo h args⟩
  | transitionToNext args => exact ⟨_, _, .transitionToNext args⟩
  | tryTransitionToNext args => exact ⟨_, _, .tryTransitionToNext args⟩
  | transitionIfValid args => exact ⟨_, _, .transitionIfValid args⟩
  | isolate => exact hq.elim
  | setOptions o => exact ⟨_, _, .setOptions o⟩
  | clearHistory => exact ⟨_, _, .clearHistory⟩
  | edit e => exact hq.elim
  | restore s => exact hq.elim
  | consult name s args => exact (hstate hq).elim fun _ h => ⟨_, _, .consult name h args⟩

/-- The sessions ask for the like, as deep and in the same environment. -/
structure Session.Like (k : Correspondence κ) (p p' : Session σ κ) : Prop where
  request : ∀ i, ∃ R, (p.request i).Like k (p'.request i) R
  depth : p'.depth = p.depth
  change : p'.change = p.change

/-- Every session that names nothing but live elements can be asked of an image. -/
theorem Session.like_of_refers (hg : g.Tied) (ho : g.Owned) {p : Session σ κ}
    (hp : ∀ i, (p.request i).Refers g) : ∃ p', p.Like (g.copies g.root) p' := by
  choose request hrequest using fun i => (hp i).like hg ho
  exact ⟨{ p with request }, hrequest, rfl, rfl⟩

/-! ## Sequences of requests -/

namespace Host

variable {h : Host σ κ} (ho : g.Owned) (hw : g.InWalkOrder) (hbodies : h.Nominal)
include ho hw hbodies

/-- A machine and its image answer a request alike, and are a machine and its image after it. -/
theorem mirrors_next (hmirrors : w.Mirrors g old old' w') (k : Nat) {q q' : Request κ}
    {R : q.Answer → q'.Answer → Prop} (hq : q.Like (g.copies g.root) q' R) :
    Likewise R (h.answer k q w) (h.answer k q' w') ∧
      (h.next k q w).Mirrors g old old' (h.next k q' w') := by
  have hagree := h.relates_perform Graph.shows_mirroring (Graph.serves_mirroring ho hw) hbodies id
    k hq w w' hmirrors
  rw [answer, answer, next, next]
  generalize h.perform k q w = o, h.perform k q' w' = o' at hagree
  cases hagree with
  | ok hab hv => exact ⟨.ok hab, hv⟩
  | error _ hv => exact ⟨.error _, hv⟩
  | cut hc => exact hc.elim

theorem mirrors_session (hmirrors : w.Mirrors g old old' w') {p p' : Session σ κ}
    (hp : p.Like (g.copies g.root) p') (now : Nat → Instant) (i : Nat) :
    (h.session p now w i).Mirrors g old old' (h.session p' now w' i) := by
  have houtside {v v' : World σ κ} (hv : v.Mirrors g old old' v') (i : Nat) :
      World.Mirrors g old old'
      { v with env := p.change i v.env, now := now i }
        { v' with env := p'.change i v'.env, now := now i } :=
    ⟨hv.machine, by rw [hp.change, hv.env], rfl, hv.notices, hv.logs⟩
  induction i with
  | zero => exact houtside hmirrors 0
  | succ i ih =>
    obtain ⟨R, hq⟩ := hp.request i
    refine houtside ?_ (i + 1)
    rw [hp.depth]
    exact (mirrors_next ho hw hbodies ih (p.depth i) hq).2

end Host

/-! ## Isolation -/

namespace Machine

variable {m : Machine κ} {c : GraphCopy}

theorem copiedActive_of_copied (h : ∀ s, m.active = some s → ∃ s', c.state? s = some s') :
    m.copiedActive c = .ok (m.active.bind c.state?) := by
  rw [copiedActive]
  cases hs : m.active with
  | none => rfl
  | some s =>
    obtain ⟨s', hs'⟩ := h s hs
    simp only [Option.bind_some, hs']

theorem copiedPending_of_copied
    (h : ∀ p, m.pending = some p → ∃ t, c.transition? p.transition = some t) :
    m.copiedPending c = .ok
      (m.pending.bind fun p => (c.transition? p.transition).map (⟨·, p.args⟩)) := by
  rw [copiedPending]
  cases hp : m.pending with
  | none => rfl
  | some p =>
    obtain ⟨t, ht⟩ := h p hp
    simp only [Option.bind_some, ht, Option.map_some]

/-- The machine on the copy of the root, at the copies of all that it holds. -/
def image (m : Machine κ) : Machine κ :=
  let c := m.graph.copyMap m.graph.root
  { m with
    graph := m.graph.copyOf m.graph.root
    definition := (m.graph.copyOf m.graph.root).root
    active := m.active.bind c.state?
    pending := m.pending.bind fun p => (c.transition? p.transition).map (⟨·, p.args⟩)
    lastTransition := m.lastTransition.bind c.transition? }

section
variable (hg : m.graph.Tied) (ho : m.graph.Owned) (hroot : m.definition = m.graph.root)
  (hactive : ∀ s, m.active = some s → (m.graph.state? s).isSome)
  (hpending : ∀ p, m.pending = some p → (m.graph.transition? p.transition).isSome)
include hg ho hroot hactive hpending

/-- An idle machine of the root that holds nothing but live elements is isolated, and becomes its
image. -/
theorem isolated_eq_image (hidle : m.running = false) :
    m.isolated = .ok (m.image, m.graph.copyMap m.graph.root) := by
  have hcopy : m.graph.copyDefinition m.graph.root =
      .ok (m.graph.copyOf m.graph.root, m.graph.copyMap m.graph.root) :=
    Graph.copyDefinition_eq hg hg.live_root
  have hcopied := copiedActive_of_copied (m := m) fun s hs => Graph.copies_state hg (hactive s hs)
  have hqueued := copiedPending_of_copied (m := m) fun p hp =>
    Graph.copies_transition ho hg (hpending p hp)
  rw [isolated, if_neg (Bool.not_eq_true _ ▸ hidle), hroot, hcopy]
  simp only [hcopied, hqueued]
  rfl

theorem mirrors_image : m.Mirrors m.graph m.image where
  tied := hg
  definition := hroot
  graph' := rfl
  definition' := rfl
  graph := rfl
  id := rfl
  active := rel_of_bind fun s hs => Graph.copies_state hg (hactive s hs)
  pending := by
    rw [image]
    cases hp : m.pending with
    | none => exact .none
    | some p =>
      obtain ⟨t, ht⟩ := Graph.copies_transition ho hg (hpending p hp)
      have ht' : (m.graph.copyMap m.graph.root).transition? p.transition = some t := ht
      dsimp only [Option.bind_some]
      rw [ht']
      exact .some ⟨ht, rfl⟩
  lastTransition := rfl
  events := rfl
  phase := rfl
  running := rfl
  paused := rfl
  firing := rfl
  event := rfl
  trigger := rfl
  history := rfl
  options := rfl

end

end Machine

/-- A machine bound to the root of its graph, with live owners and the order of a walk, is isolated
whenever no run is under way and it holds nothing but live elements. Everything live has a copy of
the same path, and the machine is at the copies of what it was at. From then on it does the like of
what it would have done: whatever of the like is asked of it, as long as bodies depend on the names
of elements, arguments and the environment, it answers, notices and records the like. -/
theorem Host.isolation_unnoticed {h : Host σ κ} {w : World σ κ} {g : Graph κ} (hg : g.Reachable)
    (ho : g.Owned) (hw : g.InWalkOrder) (hgraph : w.machine.graph = g)
    (hroot : w.machine.definition = g.root) (hidle : w.machine.running = false)
    (hactive : ∀ s, w.machine.active = some s → (g.state? s).isSome)
    (hpending : ∀ p, w.machine.pending = some p → (g.transition? p.transition).isSome)
    (hbodies : h.Nominal) :
    ∃ w', (∀ n, h.perform (n + 1) .isolate w = .ok () w') ∧
      g.copyDefinition g.root = .ok (w'.machine.graph, g.copyMap g.root) ∧
      (∀ s, (g.state? s).isSome → ∃ s', (g.copies g.root).state s s' ∧
        w'.machine.graph.pathOfState s' = g.pathOfState s) ∧
      (∀ t, (g.transition? t).isSome → ∃ t', (g.copies g.root).transition t t' ∧
        w'.machine.graph.pathOfTransition t' = g.pathOfTransition t) ∧
      w.Mirrors g w.notices w.notices w' ∧
      (∀ p : Session σ κ, (∀ i, (p.request i).Refers g) → ∃ p', p.Like (g.copies g.root) p') ∧
      ∀ p p' : Session σ κ, p.Like (g.copies g.root) p' → ∀ now i,
        (∃ R, (p.request i).Like (g.copies g.root) (p'.request i) R ∧ Likewise R
          (h.answer (p.depth i) (p.request i) (h.session p now w i))
          (h.answer (p.depth i) (p'.request i) (h.session p' now w' i))) ∧
        (h.session p now w i).Mirrors g w.notices w.notices (h.session p' now w' i) := by
  obtain rfl := hgraph
  have htied := hg.tied
  have himage := Machine.isolated_eq_image htied ho hroot hactive hpending hidle
  have hmirrors := Machine.mirrors_image htied ho hroot hactive hpending
  have hlike := Graph.like_of_mirrors ho hw hmirrors
  let w' : World σ κ := { w with
    machine := w.machine.image
    logs := w.logs.remap w.machine.history
      (·.copied (w.machine.graph.copyMap w.machine.graph.root)) }
  have hworlds : w.Mirrors w.machine.graph w.notices w.notices w' :=
    ⟨hmirrors, rfl, rfl, ⟨[], [], (List.append_nil _).symm, (List.append_nil _).symm, .nil⟩,
      .of_remap _ _ _⟩
  refine ⟨w', fun n => ?_, Graph.copyDefinition_eq htied htied.live_root, fun s hs => ?_,
    fun t ht => ?_, hworlds,
    fun p hp => Session.like_of_refers htied ho hp, fun p p' hp now i => ?_⟩
  · show Engine.isolate w = _
    rw [Engine.isolate_apply, himage]
  · obtain ⟨s', hs'⟩ := Graph.copies_state htied hs
    exact ⟨s', hs', hlike.pathOfState hs'⟩
  · obtain ⟨t', ht'⟩ := Graph.copies_transition ho htied ht
    exact ⟨t', ht', hlike.pathOfTransition ht'⟩
  · have hsession := mirrors_session ho hw hbodies hworlds hp now i
    obtain ⟨R, hq⟩ := hp.request i
    exact ⟨⟨R, hq, (mirrors_next ho hw hbodies hsession (p.depth i) hq).1⟩, hsession⟩

/-! ## Two loops -/

/-- A loop at b that belongs to what is nested in a. -/
def innerLoop : Edit Unit := .addTransition ⟨1⟩ { name := "inner", source := ⟨1⟩, target := ⟨1⟩ }

/-- A loop at b that belongs to the root. -/
def outerLoop : Edit Unit := .addTransition ⟨0⟩ { name := "outer", source := ⟨1⟩, target := ⟨1⟩ }

/-- Two states a and b, one composite and one with a body to run at its entry, and what is added
then. -/
def loops (es : List (Edit Unit)) : Graph Unit := (Graph.new "loops").edited
  ([.addState ⟨0⟩ { name := "a" }, .addState ⟨0⟩ { name := "b", entry := .callback () },
    .attachSubmachine ⟨0⟩ "a"] ++ es)

/-- A machine that was put into b. -/
def looping (es : List (Edit Unit)) : World Unit Unit :=
  Host.silent.next 4 (.goto ⟨1⟩ []) (.fresh (loops es))

theorem reachable_loops (es : List (Edit Unit)) : (loops es).Reachable :=
  (Graph.Reachable.new "loops").edited _

theorem owned_loops {es : List (Edit Unit)}
    (hlive : ∀ i < (loops es).transitions.size,
      ∀ tr ∈ (loops es).transitions.get? i, ((loops es).definition? tr.owner).isSome) :
    (loops es).Owned := by
  refine (reachable_loops es).tied.owned_iff.mpr fun t tr ht hnone => ?_
  have howner := hlive t.index (Graph.transition?_lt ht) tr ht
  rw [hnone] at howner
  cases howner

theorem inWalkOrder_loops : (loops [outerLoop, innerLoop]).InWalkOrder := by
  have hall : ∀ i < (loops [outerLoop, innerLoop]).states.size,
      ∀ st ∈ (loops [outerLoop, innerLoop]).states.get? i,
      st.outgoing.Sublist ((loops [outerLoop, innerLoop]).walkTransitions ⟨0⟩) := by
    decide +kernel
  exact fun s st hs => hall s.index (Graph.state?_lt hs) st hs

theorem Host.nominal_asking {q : Request Unit}
    (hq : ∀ k, ∃ R, q.Like k q R) : (Host.asking q).Nominal := by
  intro k _ _ _ _ _
  obtain ⟨R, hlike⟩ := hq k
  exact .call hlike fun _ _ _ => .ret _

theorem Host.answer_of_answer? {h : Host σ κ} {k : Nat} {q : Request κ} {w : World σ κ}
    {a : q.Answer} (ha : (h.perform k q).answer? w = some a) : h.answer k q w = .ok a := by
  rw [answer, Engine.ok_of_answer? ha]

/-- A machine at b, the entry of which asks for the transitions that may be taken. -/
theorem isolation_unnoticed_loops :
    let h := Host.asking (.valid [])
    let g := loops [outerLoop, innerLoop]
    let w := looping [outerLoop, innerLoop]
    g.Reachable ∧ g.Owned ∧ g.InWalkOrder ∧ w.machine.graph = g ∧ w.machine.definition = g.root ∧
      w.machine.running = false ∧ (∀ s, w.machine.active = some s → (g.state? s).isSome) ∧
      (∀ p, w.machine.pending = some p → (g.transition? p.transition).isSome) ∧ h.Nominal ∧
      ∃ w', (∀ n, h.perform (n + 1) .isolate w = .ok () w') ∧
        g.copyDefinition g.root = .ok (w'.machine.graph, g.copyMap g.root) ∧
        (∀ s, (g.state? s).isSome → ∃ s', (g.copies g.root).state s s' ∧
          w'.machine.graph.pathOfState s' = g.pathOfState s) ∧
        (∀ t, (g.transition? t).isSome → ∃ t', (g.copies g.root).transition t t' ∧
          w'.machine.graph.pathOfTransition t' = g.pathOfTransition t) ∧
        w.Mirrors g w.notices w.notices w' ∧
        (∀ p : Session Unit Unit, (∀ i, (p.request i).Refers g) → ∃ p',
          p.Like (g.copies g.root) p') ∧
        ∀ p p' : Session Unit Unit, p.Like (g.copies g.root) p' → ∀ now i,
          (∃ R, (p.request i).Like (g.copies g.root) (p'.request i) R ∧ Likewise R
            (h.answer (p.depth i) (p.request i) (h.session p now w i))
            (h.answer (p.depth i) (p'.request i) (h.session p' now w' i))) ∧
          (h.session p now w i).Mirrors g w.notices w.notices (h.session p' now w' i) := by
  intro h g w
  have howned : g.Owned := owned_loops (by decide +kernel)
  have hactive : ∀ s, w.machine.active = some s → (g.state? s).isSome := by
    intro s hs
    obtain rfl : ⟨1⟩ = s :=
      Option.some.inj ((show w.machine.active = some ⟨1⟩ by decide +kernel).symm.trans hs)
    decide +kernel
  have hpending : ∀ p, w.machine.pending = some p → (g.transition? p.transition).isSome := by
    intro p hp
    rw [show w.machine.pending = none by decide +kernel] at hp
    cases hp
  have hbodies : h.Nominal := Host.nominal_asking fun _ => ⟨_, .valid []⟩
  exact ⟨reachable_loops _, howned, inWalkOrder_loops, rfl, rfl, rfl, hactive, hpending, hbodies,
    Host.isolation_unnoticed (reachable_loops _) howned inWalkOrder_loops rfl rfl rfl
      hactive hpending hbodies⟩

/-- With the inner loop added first, b lists it first. After isolation the outer one is first to be
found and first to be asked for its guard, as the copy has the transitions of the root before those
of what is nested. -/
theorem not_unnoticed_reordered :
    let h := Host.silent
    let g := loops [innerLoop, outerLoop]
    let w := looping [innerLoop, outerLoop]
    let w' := h.next 4 .isolate w
    g.Reachable ∧ g.Owned ∧ ¬ g.InWalkOrder ∧ w.machine.graph = g ∧ w.machine.definition = g.root ∧
      w.machine.running = false ∧ w.machine.active = some ⟨1⟩ ∧ (g.state? ⟨1⟩).isSome ∧
      w.machine.pending = none ∧
      h.Nominal ∧ h.completes 4 .isolate w = true ∧
      h.answer 4 (.valid []) w = .ok [⟨0⟩, ⟨1⟩] ∧
      w.machine.transitionPaths [⟨0⟩, ⟨1⟩] = ["a::inner", "outer"] ∧
      h.answer 4 (.valid []) w' = .ok [⟨0⟩, ⟨1⟩] ∧
      w'.machine.transitionPaths [⟨0⟩, ⟨1⟩] = ["outer", "a::inner"] ∧
      ¬ Likewise (List.Forall₂ (g.copies g.root).transition) (h.answer 4 (.valid []) w)
        (h.answer 4 (.valid []) w') := by
  intro h g w w'
  have hanswer : h.answer 4 (.valid []) w = .ok [⟨0⟩, ⟨1⟩] :=
    Host.answer_of_answer? (by decide +kernel)
  have hanswer' : h.answer 4 (.valid []) w' = .ok [⟨0⟩, ⟨1⟩] :=
    Host.answer_of_answer? (by decide +kernel)
  have howned : g.Owned := owned_loops (by decide +kernel)
  have hbodies : h.Nominal := fun _ _ _ _ _ _ => .ret _
  refine ⟨reachable_loops _, howned, fun hw => ?_, rfl, rfl, rfl,
    by decide +kernel, by decide +kernel, by decide +kernel,
    hbodies, by decide +kernel, hanswer, by decide +kernel, hanswer', by decide +kernel,
    fun hlike => ?_⟩
  · have hlisted : ∃ st ∈ g.state? ⟨1⟩,
      ¬ st.outgoing.Sublist (g.walkTransitions g.root) := by decide +kernel
    obtain ⟨st, hst, hnot⟩ := hlisted
    exact hnot (hw ⟨1⟩ st hst)
  · rw [hanswer, hanswer'] at hlike
    cases hlike with
    | ok hfound =>
      cases hfound with
      | cons hfirst _ =>
        have hcopy : (g.copyMap g.root).transition? ⟨0⟩ = some ⟨1⟩ := by decide +kernel
        cases hcopy.symm.trans hfirst

end Statechart
