import Statechart.Proofs.Machine.Cutoff
import Statechart.Proofs.Machine.Rollback
import Statechart.Proofs.Machine.Scope

/-!
# The stations of a move

Firing a transition runs its effect, the exits of the states that it leaves, the entries of those
that it enters and the activity of the state reached, and tells of each before it is run. With
bodies that make no requests these are all the behaviors that are run, and the first one that fails
is the last.
-/

namespace Statechart

open Json

variable {σ κ α : Type}

/-- A behavior that a move runs. -/
inductive Station where
  | effect (t : TransitionId)
  | exit (s : StateId)
  | entry (s : StateId)
  | activity (s : StateId)
  deriving DecidableEq, Repr

namespace Station

/-- What is told before the behavior is run. -/
def notice : Station → Notice
  | .effect t => .effectInvoked t
  | .exit s => .stateExited s
  | .entry s => .stateEntered s
  | .activity s => .activityInvoked s

/-- The phase in which the behavior is run. -/
def phase : Station → Operation
  | .effect _ => .effect
  | .exit _ => .exit
  | .entry _ => .entry
  | .activity _ => .doActivity

def isEffect : Station → Bool
  | .effect _ => true
  | _ => false

def run (r : Responder σ κ) (args : List Value) : Station → Engine σ κ (Option Bool)
  | .effect t => Engine.invoke r .effect (.transition t) args
  | .exit s => Engine.invoke r .exit (.state s) args
  | .entry s => Engine.invoke r .entry (.state s) args
  | .activity s => Engine.invoke r .doActivity (.state s) args

/-- The behavior is told of and run. -/
def visit (r : Responder σ κ) (args : List Value) (st : Station) : Engine σ κ Unit := do
  Engine.notify st.notice
  let _ ← st.run r args

end Station

namespace Machine

/-- The machine as the behaviors of a move to `new` see it. -/
def amid (m : Machine κ) (via : Option TransitionId) (new : StateId) (st : Station) : Machine κ :=
  let phase := Engine.setPhaseFlag m.phase st.phase true
  match st with
  | .effect _ | .exit _ => { m with phase }
  | .entry _ => { m with phase, active := some new }
  | .activity _ => { m with phase, active := some new, lastTransition := via, firing := none }

/-- A state and its superstates inside the machine's definition, innermost first. -/
def levels (m : Machine κ) (s : StateId) : List StateId := (m.graph.ancestors s).filter m.covers

/-- What a move from the one state to the other comes to, if it crosses states. -/
def crossing (m : Machine κ) (old new : StateId) : List Station :=
  ((m.levels old).filter (· ∉ m.levels new)).map .exit ++
    ((m.levels new).filter (· ∉ m.levels old)).reverse.map .entry

/-- What firing a transition of a kind from the one state to the other comes to. -/
def route (m : Machine κ) (t : TransitionId) (kind : TransitionKind)
    (old new : StateId) : List Station :=
  .effect t :: ((if kind = .external ∧ new ≠ old then m.crossing old new else []) ++
    [.activity new])

/-- What a move comes to. -/
def stations (m : Machine κ) (external : Bool) (old : Option StateId)
    (new : StateId) : List Station :=
  (m.leaving external old new).map .exit ++
    ((m.entering external old new).map .entry ++ [.activity new])

theorem stations_eq {m : Machine κ} (hg : m.graph.Nested) (t : TransitionId) (kind : TransitionKind)
    (old new : StateId) :
    .effect t :: m.stations (decide (kind = .external)) (some old) new =
      m.route t kind old new := by
  have hlevels (s : StateId) : m.scopedAncestors s = m.levels s := scopedAncestors_eq_filter hg s
  have hmem (xs : List StateId) : (fun s => !xs.contains s) = fun s => decide (s ∉ xs) := by
    funext s
    rw [List.contains_eq_mem, decide_not]
  rw [stations, leaving, entering, route]
  by_cases hcrosses : kind = .external ∧ new ≠ old
  · have hb : (decide (kind = .external) && some old != some new) = true := by
      rw [Bool.and_eq_true, decide_eq_true_iff, bne_iff_ne]
      exact ⟨hcrosses.1, fun heq => hcrosses.2 (Option.some.inj heq).symm⟩
    rw [if_pos hb, if_pos hb, if_pos hcrosses, crossing, Option.map_some, Option.getD_some,
      hlevels, hlevels, hmem, hmem, List.filter_reverse, List.append_assoc]
  · have hb : ¬ (decide (kind = .external) && some old != some new) = true := by
      rw [Bool.and_eq_true, decide_eq_true_iff, bne_iff_ne]
      exact fun h => hcrosses ⟨h.1, fun heq => h.2 (congrArg some heq.symm)⟩
    rw [if_neg hb, if_neg hb, if_neg hcrosses]
    rfl

end Machine

namespace World

variable (r : Responder σ κ) (args : List Value) (see : Station → Machine κ) (w : World σ κ)

/-- The world once some stations have been told of, with the machine and the environment as they are
by then. -/
def reaching (m : Machine κ) (told : List Station) (env : σ) : World σ κ :=
  { w with machine := m, notices := w.notices ++ told.map Station.notice, env }

/-- The behaviors of some stations are run one after the other and succeed. `see` is the machine
that each sees, and the environment what they leave. -/
inductive Passed : List Station → σ → Prop
  | start : Passed [] w.env
  | next {done : List Station} {st : Station} {env : σ} {answer : Option Bool} {v : World σ κ}
    (h : Passed done env)
    (hrun : st.run r args (w.reaching (see st) (done ++ [st]) env) = .ok answer v) :
    Passed (done ++ [st]) v.env

/-- The world once a move of the given machine has failed, with the machine back where it was. -/
def rolledBack (w : World σ κ) (m : Machine κ) : World σ κ :=
  ((w.mapMachine ({ · with phase := m.phase })).mapMachine ({ · with active := m.active })).notify
    (.rolledBack m.active)

/-- The stations have been passed, and the machine is the given one. -/
def EnRoute (done : List Station) (m : Machine κ) (v : World σ κ) : Prop :=
  ∃ env, w.Passed r args see done env ∧ v = w.reaching m done env

/-- A behavior on the route, an effect or not, has failed in the given world after those before it
succeeded. -/
def Stranded (route : List Station) (effect : Bool) (e : Stop) (v : World σ κ) : Prop :=
  ∃ done st rest env, route = done ++ st :: rest ∧ st.isEffect = effect ∧
    w.Passed r args see done env ∧
    st.run r args (w.reaching (see st) (done ++ [st]) env) = .error e v

end World

namespace Engine

/-- Whatever is run leaves all but the environment alone. -/
theorem aloof_run {r : Responder σ κ} (hr : r.Aloof) (st : Station) (args : List Value)
    (w : World σ κ) :
    Triple (fun v => v = w) (st.run r args) (fun _ v => v = { w with env := v.env })
      fun _ v => v = { w with env := v.env } := by
  have hI : World.Indifferent fun v : World σ κ => v = { w with env := v.env } := by
    intro v env hv
    rw [hv]
  have hkeeps : Keeps (fun v => v = { w with env := v.env }) (st.run r args) := by
    cases st <;> exact keeps_invoke (hr _ hI) _ _ _
  exact hkeeps.mono_pre fun v hv => by rw [hv]

variable {r : Responder σ κ} {args : List Value} {see : Station → Machine κ} {w : World σ κ}
  {route done rest : List Station} {m : Machine κ} {effect : Bool}

section
variable (hr : r.Aloof) {told : List Station} {st : Station} {env : σ} {e : Stop} {v : World σ κ}
include hr

/-- The world in which a behavior has failed. -/
theorem reaching_of_error (h : st.run r args (w.reaching m told env) = .error e v) :
    v = w.reaching m told v.env := by
  have hrun := aloof_run hr st args (w.reaching m told env) _ rfl
  rw [h] at hrun
  exact hrun

theorem notices_of_error (h : st.run r args (w.reaching m told env) = .error e v) :
    v.notices = w.notices ++ told.map Station.notice :=
  congrArg World.notices (reaching_of_error hr h)

end

theorem tracks_at : Tracks fun m => World.EnRoute r args see w done m where
  machine := by
    rintro m v ⟨env, -, rfl⟩
    rfl
  map := by
    rintro m v f ⟨env, hpassed, rfl⟩
    exact ⟨env, hpassed, rfl⟩

section
variable (hr : r.Aloof)
include hr

/-- A behavior is passed, or the move is stranded there. -/
theorem at_visit {st : Station} (hroute : route = done ++ st :: rest)
    (heffect : st.isEffect = effect) :
    Triple (w.EnRoute r args see done (see st)) (st.visit r args)
      (fun _ => w.EnRoute r args see (done ++ [st]) (see st))
      (w.Stranded r args see route effect) := by
  rintro _ ⟨env, hpassed, rfl⟩
  have htold : (w.reaching (see st) done env).notify st.notice =
      w.reaching (see st) (done ++ [st]) env := by
    rw [World.notify, World.reaching, World.reaching, List.map_append, ← List.append_assoc]
    rfl
  have hrun := aloof_run hr st args (w.reaching (see st) (done ++ [st]) env) _ rfl
  have hvisit : st.visit r args (w.reaching (see st) done env) =
      (do let _ ← st.run r args) (w.reaching (see st) (done ++ [st]) env) := by
    rw [← htold]
    rfl
  rw [hvisit]
  cases hst : st.run r args (w.reaching (see st) (done ++ [st]) env) with
  | ok answer v =>
    rw [hst] at hrun
    rw [bind_of_ok hst]
    exact ⟨v.env, .next hpassed hst, hrun⟩
  | error e v =>
    rw [bind_of_error hst]
    exact ⟨done, st, rest, env, hroute, heffect, hpassed, hst⟩

/-- States that are left or entered one after the other. -/
theorem at_forM {f : StateId → Station} (hf : ∀ s, (f s).isEffect = effect)
    (hsee : ∀ s, see (f s) = m) {ss : List StateId} (hroute : route = done ++ (ss.map f ++ rest)) :
    Triple (w.EnRoute r args see done m) (ss.forM fun s => (f s).visit r args)
      (fun _ => w.EnRoute r args see (done ++ ss.map f) m)
        (w.Stranded r args see route effect) := by
  induction ss generalizing done with
  | nil =>
    rw [List.map_nil, List.append_nil]
    exact fun _ hv => hv
  | cons s ss ih =>
    have hfirst : Triple (w.EnRoute r args see done (see (f s))) ((f s).visit r args) _ _ :=
      at_visit hr hroute (hf s)
    rw [hsee] at hfirst
    have hlater : route = (done ++ [f s]) ++ (ss.map f ++ rest) := by
      rw [hroute, List.append_assoc]
      rfl
    have hrest := ih hlater
    rw [List.append_assoc] at hrest
    exact .bind hfirst fun _ => hrest

/-! ## Moves -/

variable (hphase : m.phase = .idle)
include hphase

theorem at_leave {via : Option TransitionId} {new : StateId} {ss : List StateId}
    (hroute : route = done ++ (ss.map .exit ++ rest)) :
    Triple (w.EnRoute r args (m.amid via new) done m) (leave r args ss)
      (fun _ => w.EnRoute r args (m.amid via new) (done ++ ss.map .exit) m)
      (w.Stranded r args (m.amid via new) route false) := by
  have hflag := phaseFlag_of_idle hphase .exit
  exact .bind (tracks_at.beginPhase hflag) fun _ =>
    .bind (at_forM (f := .exit) hr (fun _ => rfl) (fun _ => rfl) hroute) fun _ =>
      tracks_at.endPhase hflag

theorem at_enterAll {via : Option TransitionId} {new : StateId} {ss : List StateId}
    (hroute : route = done ++ (ss.map .entry ++ rest)) :
    Triple (w.EnRoute r args (m.amid via new) done { m with active := some new })
      (enterAll r args ss)
      (fun _ => w.EnRoute r args (m.amid via new) (done ++ ss.map .entry)
        { m with active := some new })
      (w.Stranded r args (m.amid via new) route false) := by
  have hflag : phaseFlag ({ m with active := some new } : Machine κ).phase .entry = false :=
    phaseFlag_of_idle hphase _
  exact .bind (tracks_at.beginPhase hflag) fun _ =>
    .bind (at_forM (f := .entry) hr (fun _ => rfl) (fun _ => rfl) hroute) fun _ =>
      tracks_at.endPhase hflag

theorem at_settle {via : Option TransitionId} {new : StateId}
    (hroute : route = done ++ .activity new :: rest) :
    Triple (w.EnRoute r args (m.amid via new) done { m with active := some new })
      (settle r args via new)
      (fun _ => w.EnRoute r args (m.amid via new) (done ++ [.activity new])
        { m with active := some new, lastTransition := via, firing := none })
      (w.Stranded r args (m.amid via new) route false) := by
  have hflag : phaseFlag
      ({ m with active := some new, lastTransition := via, firing := none } : Machine κ).phase
      .doActivity = false := phaseFlag_of_idle hphase _
  rw [settle_eq]
  refine .seq tracks_at.update (.seq (tracks_at.beginPhase hflag) ?_)
  exact .seq (at_visit hr hroute rfl) (tracks_at.endPhase hflag)

/-- A move passes its stations, or is stranded on the way. -/
theorem at_cascade {old : Option StateId} {target new : StateId} {via : Option TransitionId}
    {external : Bool} (hexternal : isExternal m.graph via = .ok external)
    (hnew : m.graph.resolveEntryTarget target = new)
    (hroute : route = done ++ m.stations external old new) :
    Triple (w.EnRoute r args (m.amid via new) done m) (cascade r old target via args)
      (fun s v => s = new ∧
        w.EnRoute r args (m.amid via new) route
          { m with active := some new, lastTransition := via, firing := none } v)
      (w.Stranded r args (m.amid via new) route false) := by
  subst hnew
  rw [Machine.stations] at hroute
  have hentries := hroute
  rw [← List.append_assoc] at hentries
  have hactivity := hentries
  rw [← List.append_assoc] at hactivity
  rw [cascade_eq]
  refine tracks_at.machine_bind ?_
  rw [hexternal]
  simp only [ofGraph, pure_bind]
  refine .bind (at_leave hr hphase hroute) fun _ => .bind tracks_at.update fun _ => ?_
  refine .bind (at_enterAll hr hphase hentries) fun _ =>
    .bind (at_settle hr hphase hactivity) fun _ v hv => ?_
  rw [← hactivity] at hv
  exact ⟨rfl, hv⟩

/-- A move that is stranded leaves the machine in the state and the phases of before. -/
theorem at_enter {target new : StateId} {via : Option TransitionId} {external : Bool}
    (hexternal : isExternal m.graph via = .ok external)
    (hnew : m.graph.resolveEntryTarget target = new)
    (hroute : route = done ++ m.stations external m.active new) :
    Triple (w.EnRoute r args (m.amid via new) done m) (enter r target via args)
      (fun s v => s = new ∧
        w.EnRoute r args (m.amid via new) route
          { m with active := some new, lastTransition := via, firing := none } v)
      fun e v => ∃ u, w.Stranded r args (m.amid via new) route false e u ∧ v = u.rolledBack m := by
  refine tracks_at.machine_bind (.onFailure (.thenAlways ?_))
  refine (at_cascade hr hphase hexternal hnew hroute).mono_post ?_ fun e u hu => ⟨u, hu, rfl⟩
  exact fun s v hv => ⟨hv.1, tracks_at.map ({ · with phase := m.phase }) hv.2⟩

/-! ## Firing -/

omit hr hphase in
theorem fireTransition_eq {p : Pending} {tr : Transition κ} (hfiring : w.machine.firing = none)
    (ht : w.machine.graph.transition? p.transition = some tr) : fireTransition r p w =
      (fire r p.transition tr.target w.machine.active p.args).thenAlways
        (·.mapMachine fun m => { m with firing := none, phase := { m.phase with effect := false } })
        (w.mapMachine ({ · with firing := some p.transition })) := by
  rw [fireTransition, machine_bind, hfiring, Graph.transition_ok_iff.mpr ht]
  rfl

/-- A firing passes its stations, or is stranded on the way. Only if it is stranded in the effect it
has not begun to move. -/
theorem at_fire {t : TransitionId} {tr : Transition κ} {new : StateId}
    (ht : m.graph.transition? t = some tr) (hnew : m.graph.resolveEntryTarget tr.target = new)
    (hroute : route = .effect t :: m.stations (decide (tr.kind = .external)) m.active new) :
    Triple (w.EnRoute r args (m.amid (some t) new) [] m) (fire r t tr.target m.active args)
      (fun _ v => w.Passed r args (m.amid (some t) new) route v.env ∧
        v.notices = w.notices ++ route.map Station.notice ++ [.transitionFired t m.active new])
      fun e v => w.Stranded r args (m.amid (some t) new) route true e v ∨
        ∃ u, w.Stranded r args (m.amid (some t) new) route false e u ∧ v = u.rolledBack m := by
  have hflag := phaseFlag_of_idle hphase .effect
  have hexternal : isExternal m.graph (some t) = .ok (decide (tr.kind = .external)) := by
    rw [isExternal, Graph.transition_ok_iff.mpr ht]
    rfl
  have hfire : fire r t tr.target m.active args = (do
      beginPhase .effect
      (Station.effect t).visit r args
      endPhase .effect
      let new ← enter r tr.target (some t) args
      recordHistory m.active (some t) new
      notify (.transitionFired t m.active new)) := by
    simp only [fire, Station.visit, Station.run, Station.notice, bind_assoc, pure_bind]
  rw [hfire]
  refine .bind (tracks_at.beginPhase hflag) fun _ => ?_
  have hfirst : route = [] ++ .effect t :: m.stations (decide (tr.kind = .external))
    m.active new := hroute
  have hmove : route = [.effect t] ++ m.stations (decide (tr.kind = .external))
    m.active new := hroute
  refine .bind ((at_visit hr hfirst rfl).mono_error fun _ _ => .inl) fun _ => ?_
  refine .bind (tracks_at.endPhase hflag) fun _ => ?_
  refine .bind ((at_enter hr hphase hexternal hnew hmove).mono_error fun _ _ => .inr) fun s => ?_
  rintro _ ⟨rfl, env, hpassed, rfl⟩
  obtain ⟨logs, hlogs⟩ := recordHistory_ok m.active t s
    (w.reaching { m with active := some s, lastTransition := some t, firing := none } route env)
  rw [bind_of_ok hlogs]
  exact ⟨hpassed, rfl⟩

end

end Engine

/-- With bodies that make no requests, a transition that is fired while nothing else is under way
comes to the stations of its route, one after the other. Either all their behaviors succeed, and
each has been told of before the firing is; or one fails, with the error of the firing. Then what
has been told ends with that one and, unless it is the effect, with the machine being rolled back,
and what bodies keep is as that one left it, for none is run after it. -/
theorem Host.firing_traced {h : Host σ κ} {w : World σ κ} {p : Pending} {tr : Transition κ}
    {old new : StateId} (hreachable : w.machine.graph.Reachable) (hbodies : h.Makes fun _ => False)
    (hphase : w.machine.phase = .idle) (hfiring : w.machine.firing = none)
    (hactive : w.machine.active = some old)
    (ht : w.machine.graph.transition? p.transition = some tr)
    (hnew : w.machine.graph.resolveEntryTarget tr.target = new) (n : Nat) :
    let r := h.responder (h.perform n)
    let see := ({ w.machine with firing := some p.transition } : Machine κ).amid
      (some p.transition) new
    let route := w.machine.route p.transition tr.kind old new
    (∃ w', Engine.fireTransition r p w = .ok () w' ∧ w.Passed r p.args see route w'.env ∧
      w'.notices = w.notices ++ route.map Station.notice ++
        [.transitionFired p.transition (some old) new]) ∨
    ∃ done st rest env e v w', route = done ++ st :: rest ∧ w.Passed r p.args see done env ∧
      st.run r p.args (w.reaching (see st) (done ++ [st]) env) = .error e v ∧
      Engine.fireTransition r p w = .error e w' ∧ w'.env = v.env ∧
      w'.notices = w.notices ++ (done ++ [st]).map Station.notice ++
        if st.isEffect then [] else [.rolledBack (some old)] := by
  intro r see route
  let m : Machine κ := { w.machine with firing := some p.transition }
  have hr : r.Aloof := h.aloof_responder hbodies (h.perform n)
  have hroute : route = .effect p.transition :: m.stations (decide (tr.kind = .external))
      m.active new := by
    have hstations := Machine.stations_eq (m := m) hreachable.tied.nested
      p.transition tr.kind old new
    rw [← hactive] at hstations
    exact hstations.symm
  have hbegun : w.EnRoute r p.args see [] m
      (w.mapMachine ({ · with firing := some p.transition })) := by
    refine ⟨w.env, .start, ?_⟩
    rw [World.reaching, List.map_nil, List.append_nil]
    rfl
  have hfired := Engine.at_fire (m := m) hr hphase ht hnew hroute _ hbegun
  rw [Engine.fireTransition_eq hfiring ht, Engine.thenAlways]
  cases ho : Engine.fire r p.transition tr.target m.active p.args
      (w.mapMachine ({ · with firing := some p.transition })) with
  | ok _ v =>
    rw [ho, hactive] at hfired
    exact .inl ⟨_, rfl, hfired⟩
  | error e v =>
    rw [ho] at hfired
    right
    rcases hfired with ⟨done, st, rest, env, hsplit, heffect, hpassed, hst⟩ |
      ⟨u, ⟨done, st, rest, env, hsplit, heffect, hpassed, hst⟩, rfl⟩
    · have htold := Engine.notices_of_error hr hst
      refine ⟨done, st, rest, env, e, v, _, hsplit, hpassed, hst, rfl, rfl, ?_⟩
      rw [heffect, if_pos rfl, List.append_nil]
      exact htold
    · have htold := Engine.notices_of_error hr hst
      refine ⟨done, st, rest, env, e, u, _, hsplit, hpassed, hst, rfl, rfl, ?_⟩
      rw [heffect, if_neg Bool.false_ne_true, ← hactive]
      exact congrArg (· ++ [Notice.rolledBack m.active]) htold

/-! ## An exit that fails on the way -/

/-- A hall, and a flat with a parlour and a study. The flat cannot be left. -/
def trapEdits : List (Edit Unit) :=
  [.addState ⟨0⟩ { name := "hall" }, .addState ⟨0⟩ { name := "flat", exit := .callback () },
    .attachSubmachine ⟨1⟩ "rooms", .addState ⟨1⟩ { name := "parlour" },
    .addState ⟨1⟩ { name := "study" },
    .addTransition ⟨0⟩ { name := "leave", source := ⟨1⟩, target := ⟨0⟩ }]

/-- A machine in the study. -/
def trapped : World Unit Unit :=
  let w := World.fresh ((Graph.new "trap").edited trapEdits)
  w.mapMachine ({ · with active := some ⟨3⟩ })

def leaving : Transition Unit := ⟨{ name := "leave", source := ⟨1⟩, target := ⟨0⟩ }, ⟨0⟩⟩

theorem firing_traced_trapped :
    let r := Host.full.responder (Host.full.perform 0)
    let see := ({ trapped.machine with firing := some ⟨0⟩ } : Machine Unit).amid (some ⟨0⟩) ⟨0⟩
    let route := trapped.machine.route ⟨0⟩ .external ⟨3⟩ ⟨0⟩
    trapped.machine.graph.Reachable ∧ Host.full.Makes (fun _ => False) ∧
    trapped.machine.phase = .idle ∧
      trapped.machine.firing = none ∧ trapped.machine.active = some ⟨3⟩ ∧
      trapped.machine.graph.transition? ⟨0⟩ = some leaving ∧
      trapped.machine.graph.resolveEntryTarget ⟨0⟩ = ⟨0⟩ ∧
      ((∃ w', Engine.fireTransition r ⟨⟨0⟩, []⟩ trapped = .ok () w' ∧
        trapped.Passed r [] see route w'.env ∧
        w'.notices = trapped.notices ++ route.map Station.notice ++
          [.transitionFired ⟨0⟩ (some ⟨3⟩) ⟨0⟩]) ∨
      ∃ done st rest env e v w', route = done ++ st :: rest ∧ trapped.Passed r [] see done env ∧
        st.run r [] (trapped.reaching (see st) (done ++ [st]) env) = .error e v ∧
        Engine.fireTransition r ⟨⟨0⟩, []⟩ trapped = .error e w' ∧ w'.env = v.env ∧
        w'.notices = trapped.notices ++ (done ++ [st]).map Station.notice ++
          if st.isEffect then [] else [.rolledBack (some ⟨3⟩)]) := by
  intro r see route
  have hreachable : trapped.machine.graph.Reachable := (Graph.Reachable.new "trap").edited trapEdits
  have hbodies : Host.full.Makes fun _ => False := fun _ _ _ => trivial
  have ht : trapped.machine.graph.transition? ⟨0⟩ = some leaving := by rfl
  have hnew : trapped.machine.graph.resolveEntryTarget ⟨0⟩ = ⟨0⟩ := by decide +kernel
  exact ⟨hreachable, hbodies, rfl, rfl, rfl, ht, hnew,
    Host.firing_traced (p := ⟨⟨0⟩, []⟩) hreachable hbodies rfl rfl rfl ht hnew 0⟩

/-- The study is left, but not the flat. -/
example :
    (Engine.after (Engine.fireTransition (Host.full.responder (Host.full.perform 0)) ⟨⟨0⟩, []⟩)
    trapped).notices =
      [.effectInvoked ⟨0⟩, .stateExited ⟨3⟩, .stateExited ⟨1⟩, .rolledBack (some ⟨3⟩)] := by
  decide +kernel

end Statechart
