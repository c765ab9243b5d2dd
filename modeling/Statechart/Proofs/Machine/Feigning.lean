import Statechart.Proofs.Machine.Isolation
import Statechart.Proofs.Machine.Reentry

/-!
# Isolation amid an operation

A behavior may ask for isolation while the machine is on a move. As long as it is refused, which it
is during runs, the operation goes on as if the behavior had only been told the answer. Outside of
runs it is granted, and the rest of the move is made with handles of a graph that the machine no
longer works on.
-/

namespace Statechart

open Json

variable {σ κ α : Type}

/-- What a request is answered, if it is one for isolation. -/
def Request.isolating? : (q : Request κ) → Option (Machine κ → Except MachineError q.Answer)
  | .isolate => some fun m => m.isolated.map fun _ => ()
  | _ => none

/-- The program without its requests for isolation, which are only answered. -/
def Program.feigned : Program σ κ α → Program σ κ α
  | .ret a => .ret a
  | .look next => .look fun v => (next v).feigned
  | .write env next => .write env next.feigned
  | .call q next =>
    match q.isolating? with
    | some answer => .look fun v => (next (answer v.machine)).feigned
    | none => .call q fun o => (next o).feigned

namespace Host

/-- Behaviors that have the machine isolated no more, though they are told that it is or why not. -/
def feigning (h : Host σ κ) : Host σ κ where
  handlers := h.handlers
  body key element args := (h.body key element args).feigned

/-- Carries out a request, cut off where a behavior has the machine isolated. -/
def staying (h : Host σ κ) : Nat → (q : Request κ) → Engine σ κ q.Answer
  | 0, _ => throw .exhausted
  | n + 1, q =>
    let stays (q : Request κ) : Engine σ κ q.Answer := do
      if ((← Engine.machine).relocation? q).isSome then throw .exhausted
      h.staying n q
    Engine.carryOut (h.responder stays) (fun key => do let _ ← h.runBody stays key none []) n q

variable {h : Host σ κ}

/-- A request of a behavior. -/
def stays (h : Host σ κ) (n : Nat) (q : Request κ) : Engine σ κ q.Answer := do
  if ((← Engine.machine).relocation? q).isSome then throw .exhausted
  h.staying n q

def stayingHook (h : Host σ κ) (n : Nat) (key : κ) : Engine σ κ Unit := do
  let _ ← h.runBody (h.stays n) key none []

/-- Unless isolation is granted, a request of a behavior is carried out. -/
theorem stays_eq (n : Nat) (q : Request κ) (w : World σ κ) : h.stays n q w = .error .exhausted w ∨
    w.machine.relocation? q = none ∧ h.stays n q w = h.staying n q w := by
  rw [stays, Engine.machine_bind]
  cases hc : w.machine.relocation? q with
  | some c => exact .inl rfl
  | none => exact .inr ⟨rfl, rfl⟩

/-- A request for isolation that is not granted gives its answer and changes nothing. -/
theorem attempt_stays {q : Request κ} {answer : Machine κ → Except MachineError q.Answer}
    (hq : q.isolating? = some answer) (n : Nat) (w : World σ κ) :
    Engine.attempt (h.stays n q) w = .error .exhausted w ∨
      Engine.attempt (h.stays n q) w = .ok (answer w.machine) w := by
  rcases h.stays_eq n q w with hcut | ⟨hnone, hsame⟩
  · rw [Engine.attempt, hcut]
    exact .inl rfl
  rw [Engine.attempt, hsame]
  cases n with
  | zero => exact .inl rfl
  | succ n =>
    right
    cases q with
    | isolate =>
      obtain rfl := Option.some.inj hq
      rw [Machine.relocation?] at hnone
      show Engine.attempt Engine.isolate w = .ok (w.machine.isolated.map fun _ => ()) w
      rw [Engine.attempt, Engine.isolate_apply]
      cases hm : w.machine.isolated with
      | ok mc =>
        rw [hm] at hnone
        cases hnone
      | error e => rfl
    | _ => cases hq

/-! ## What is not granted might as well be feigned -/

theorem matches_feigned {perform : (q : Request κ) → Engine σ κ q.Answer} {n : Nat}
    (hperform : ∀ q, Engine.Matches (.upTo fun _ => True) (h.stays n q) (perform q))
    (p : Program σ κ α) :
    Engine.Matches (.upTo fun _ => True) (p.runWith (h.stays n)) (p.feigned.runWith perform) := by
  induction p with
  | ret a => exact .pure
  | look next ih =>
    refine .get_bind fun w w' hw => ?_
    rw [hw.1]
    exact ih _
  | write env next ih => exact .bind (.modify fun w w' hw => ⟨by rw [hw.1], trivial⟩) fun _ => ih
  | call q next ih =>
    rw [Program.feigned]
    cases hq : q.isolating? with
    | none => exact .bind (.attempt (hperform q)) fun o => ih o
    | some answer =>
      rintro _ w ⟨rfl, -⟩
      show (Comparison.upTo _).Agree
        ((Engine.attempt (h.stays n q) >>= fun o => (next o).runWith (h.stays n)) w) _
      rcases attempt_stays (h := h) hq n w with hcut | hanswered
      · rw [Engine.bind_of_error hcut]
        exact .cut trivial
      · rw [Engine.bind_of_ok hanswered]
        exact ih _ _ _ ⟨rfl, trivial⟩

theorem matches_feigning (n : Nat) (q : Request κ) :
    Engine.Matches (.upTo fun _ => True) (h.staying n q) (h.feigning.perform n q) := by
  induction n generalizing q with
  | zero => exact .cut trivial
  | succ n ih =>
    have hstays (q : Request κ) : Engine.Matches (.upTo fun _ => True) (h.stays n q)
        (h.feigning.perform n q) := by
      rintro _ w ⟨rfl, hw⟩
      rcases h.stays_eq n q w with hcut | ⟨-, hsame⟩
      · rw [hcut]
        exact .cut trivial
      · rw [hsame]
        exact ih q _ _ ⟨rfl, hw⟩
    have hbody (key : κ) (element : Option (Element κ)) (args : List Value) :
        Engine.Matches (.upTo fun _ => True) (h.runBody (h.stays n) key element args)
          (h.feigning.runBody (h.feigning.perform n) key element args) :=
      .bind (matches_feigned hstays _) fun _ => .ofExcept
    have hr : (h.responder (h.stays n)).Matches (.upTo fun _ => True)
        (h.feigning.responder (h.feigning.perform n)) :=
      responder_matches (fun hw => by rw [hw.1]; rfl) hbody
    exact Engine.matches_carryOut_of_serves hr (fun key => .bind (hbody key none []) fun _ => .pure)
      Comparison.serves_upTo n q

theorem matches_staying (n : Nat) (q : Request κ) :
    Engine.Matches (.upTo fun _ => True) (h.staying n q) (h.perform n q) := by
  have hshows := Comparison.shows_upTo (σ := σ) (κ := κ) (I := fun _ => True) fun _ _ _ => trivial
  induction n generalizing q with
  | zero => exact .cut trivial
  | succ n ih =>
    have hstays (q : Request κ) (_ : True) :
        Engine.Matches (.upTo fun _ => True) (h.stays n q) (h.perform n q) := by
      rintro _ w ⟨rfl, hw⟩
      rcases h.stays_eq n q w with hcut | ⟨-, hsame⟩
      · rw [hcut]
        exact .cut trivial
      · rw [hsame]
        exact ih q _ _ ⟨rfl, hw⟩
    have hr := matches_responder hshows hstays h.blind_eq
    have hhook (key : κ) :
        Engine.Matches (.upTo fun _ => True) (h.stayingHook n key) (h.hook n key) :=
      .bind (matches_runBody hshows hstays h.blind_eq key none []) fun _ => .pure
    exact Engine.matches_carryOut_of_serves hr hhook Comparison.serves_upTo n q

end Host

/-! ## During a run nothing is granted -/

/-- A run is under way. -/
def World.OnRun (w : World σ κ) : Prop := w.machine.running = true

theorem World.heedless_onRun : World.Heedless (OnRun (σ := σ) (κ := κ)) where
  machine hrunning h := hrunning.trans h
  logs _ h := h
  notify _ h := h

namespace Engine

variable {x y : Engine σ κ α} {I : World σ κ → Prop} {r r' : Responder σ κ} {w : World σ κ}

theorem Matches.eq_of_within (h : Matches (.within I) x y) (hw : I w) : x w = y w := by
  have hxy := h w w ⟨rfl, hw⟩
  generalize x w = o, y w = o' at hxy
  cases hxy with
  | ok hv => rw [hv.1]
  | error _ hv => rw [hv.1]
  | cut hc => exact hc.elim

theorem Matches.thenAlways_eq (h : Matches (.within I) x y) (hw : I w) (f : World σ κ → World σ κ) :
    Engine.thenAlways x f w = Engine.thenAlways y f w := by
  rw [Engine.thenAlways, Engine.thenAlways, h.eq_of_within hw]

variable (hr : r.Matches (.within World.OnRun) r')
include hr

theorem onRun_fireTransition (p : Pending) :
    Matches (.within World.OnRun) (fireTransition r p) (fireTransition r' p) :=
  matches_fireTransition (Comparison.fires_heedless World.heedless_onRun) hr p fun _ _ =>
    Comparison.records_heedless World.heedless_onRun _ _ _

/-- What is the same while a run is under way makes for the same run. -/
theorem run_congr {hook hook' : Option (Engine σ κ Unit)}
    (hhook : Matches (.within World.OnRun) (hook.forM id) (hook'.forM id)) (n : Nat)
    (mode : RunMode) : run r n mode hook = run r' n mode hook' := by
  have hprocess := matches_processTransitions
    (Comparison.queues_heedless World.heedless_onRun).takes
    (fun p _ => onRun_fireTransition hr p) hhook
      (Comparison.handles_heedless World.heedless_onRun).toSteers n mode
  funext w
  cases hrunning : w.machine.running with
  | true => rw [run, run, asRun_running hrunning, asRun_running hrunning]
  | false =>
    have hsame :=
      hprocess.thenAlways_eq (w := w.mapMachine ({ · with running := true, paused := false })) rfl
      (·.mapMachine ({ · with running := false, paused := false }))
    rw [run, run, asRun_idle hrunning, asRun_idle hrunning]
    simp only [Bind.bind, EStateM.bind, hsame]

theorem runEvents_congr (n : Nat) : runEvents r n = runEvents r' n := by
  have hqueues := Comparison.queues_heedless (World.heedless_onRun (σ := σ) (κ := κ))
  have hprocess := matches_processEvents hqueues.takes (fun p _ => onRun_fireTransition hr p)
    (Comparison.handles_heedless World.heedless_onRun) hr (matches_queueTransition hqueues) n 0
  funext w
  cases hrunning : w.machine.running with
  | true => rw [runEvents_running hrunning, runEvents_running hrunning]
  | false =>
    have hsame :=
      hprocess.thenAlways_eq (w := w.mapMachine ({ · with running := true, paused := false })) rfl
      (·.mapMachine ({ · with running := false, paused := false, event := none, trigger := none }))
    rw [runEvents_idle hrunning, runEvents_idle hrunning]
    simp only [Bind.bind, EStateM.bind, hsame]

end Engine

namespace Host

variable {h : Host σ κ}

theorem shows_onRun :
    (Comparison.within (σ := σ) (κ := κ) World.OnRun).Shows fun v v' => v' = v where
  env h := by rw [h.1]
  setEnv _ h := ⟨by rw [h.1], h.2⟩
  view h := by rw [h.1]

theorem amid_stays_of {n : Nat}
    (hstaying : ∀ q, Engine.Matches (.within World.OnRun) (h.perform n q) (h.staying n q))
    (q : Request κ) : Engine.Matches (.within World.OnRun) (h.perform n q) (h.stays n q) := by
  rintro _ w ⟨rfl, hw⟩
  have hnone : w.machine.relocation? q = none := by
    cases q with
    | isolate => rw [Machine.relocation?, Machine.isolated_of_running hw]
    | _ => rfl
  have hsame : h.stays n q w = h.staying n q w := by
    rw [stays, Engine.machine_bind, hnone]
    rfl
  rw [hsame]
  exact hstaying q _ _ ⟨rfl, hw⟩

/-- While a run is under way, nothing is cut off. -/
theorem amid_staying (n : Nat) (q : Request κ) :
    Engine.Matches (.within World.OnRun) (h.perform n q) (h.staying n q) := by
  induction n generalizing q with
  | zero => exact .exhausted trivial
  | succ n ih =>
    have hr := matches_responder shows_onRun (fun q (_ : True) => amid_stays_of ih q) h.blind_eq
    have hqueue := Engine.matches_queueTransition
      (Comparison.queues_heedless (World.heedless_onRun (σ := σ) (κ := κ)))
    exact Engine.matches_notes (D := fun running _ => running = true) hr n fun hruns =>
      Engine.matches_amid (Comparison.handles_heedless World.heedless_onRun).toSteers
        (fun {w w'} hw => hw.2) hr hqueue (fun _ hw => ⟨by rw [hw.1], hw.2⟩) n hruns

theorem amid_stays (n : Nat) (q : Request κ) :
    Engine.Matches (.within World.OnRun) (h.perform n q) (h.stays n q) :=
  amid_stays_of (amid_staying n) q

/-- In the course of a run, nothing is cut off. -/
theorem staying_of_asksToRun {q : Request κ} (hq : q.AsksToRun) (n : Nat) :
    h.perform n q = h.staying n q := by
  cases n with
  | zero => rfl
  | succ n =>
    have hstays := fun q (_ : True) => amid_stays (h := h) n q
    have hr := matches_responder shows_onRun hstays h.blind_eq
    have hhook (key : κ) : Engine.Matches (.within World.OnRun) ((some (h.hook n key)).forM id)
        ((some (h.stayingHook n key)).forM id) :=
      .bind (matches_runBody shows_onRun hstays h.blind_eq key none []) fun _ => .pure
    cases q with
    | run mode => exact Engine.run_congr hr .pure n mode
    | runWith mode key => exact Engine.run_congr hr (hhook key) n mode
    | runEvents => exact Engine.runEvents_congr hr n
    | _ => exact hq.elim

end Host

/-! ## What comes of isolation amid an operation -/

namespace Engine

variable {x y : Engine σ κ α} {w w' : World σ κ} {o : Except MachineError α}

/-- Work that is followed to its end gives what the work itself gives. -/
theorem Matches.attempt_of_upTo (h : Matches (.upTo fun _ => True) x y)
    (hx : Engine.attempt x w = .ok o w') : Engine.attempt y w = .ok o w' := by
  have hxy := h.attempt w w ⟨rfl, trivial⟩
  rw [hx] at hxy
  generalize ho : Engine.attempt y w = o' at hxy
  cases hxy with
  | ok hv => rw [hv.1]

end Engine

/-- What came of a call that asks for isolation. -/
def Call.isolation? : Call σ κ → Option (Except MachineError Unit)
  | ⟨.isolate, _, o, _⟩ => some o
  | _ => none

namespace Host

variable {h : Host σ κ} {n : Nat} {q : Request κ} {w w' : World σ κ}

/-- A call for isolation that is refused changes nothing, and while a run is under way it is
refused. -/
theorem refused_isolation {c : Call σ κ} (hc : c ∈ h.calls n q w) {o : Except MachineError Unit}
    (ho : c.isolation? = some o) : (∀ e, o = .error e → c.after = c.before) ∧
      (c.before.machine.running = true → o = .error (.unexpectedRecursion .isolate)) := by
  obtain ⟨k, hk⟩ := carryOut_of_mem_calls hc
  obtain ⟨q, before, outcome, after⟩ := c
  cases q with
  | isolate =>
    obtain rfl := Option.some.inj ho
    have happly := Engine.isolate_apply before
    rw [Engine.carryOut, Engine.attempt, happly] at hk
    cases hm : before.machine.isolated with
    | error e =>
      rw [hm] at hk
      obtain ⟨houtcome, hafter⟩ := EStateM.Result.ok.inj hk
      refine ⟨fun _ _ => hafter.symm, fun hrunning => ?_⟩
      rw [Machine.isolated_of_running hrunning] at hm
      exact houtcome.symm.trans (Except.error.inj hm ▸ rfl)
    | ok mc =>
      rw [hm] at hk
      obtain ⟨houtcome, -⟩ := EStateM.Result.ok.inj hk
      refine ⟨fun e he => ?_, fun hrunning => ?_⟩
      · cases houtcome.trans he
      · rw [Machine.isolated_of_running hrunning] at hm
        cases hm
  | _ => cases ho

/-- Behaviors may ask for isolation amid an operation. As long as none is granted it, and so in
every run and in whatever is asked while a run is under way, the operation ends as it would if they
had been given the answer only: with the same result, the same machine, the same records and the
same notices. -/
theorem as_if_feigned {o : Except MachineError q.Answer} :
    (Engine.attempt (h.staying n q) w = .ok o w' → Engine.attempt (h.perform n q) w = .ok o w' ∧
      Engine.attempt (h.feigning.perform n q) w = .ok o w') ∧
    (q.AsksToRun ∨ w.machine.running = true → Engine.attempt (h.perform n q) w = .ok o w' →
      Engine.attempt (h.feigning.perform n q) w = .ok o w') ∧
    ∀ c ∈ h.calls n q w, ∀ o, c.isolation? = some o → (∀ e, o = .error e → c.after = c.before) ∧
      (c.before.machine.running = true → o = .error (.unexpectedRecursion .isolate)) := by
  refine ⟨fun ho => ⟨(matches_staying n q).attempt_of_upTo ho,
    (matches_feigning n q).attempt_of_upTo ho⟩,
    fun hruns ho => (matches_feigning n q).attempt_of_upTo ?_, fun c hc o ho =>
      refused_isolation hc ho⟩
  rcases hruns with hq | hrunning
  · exact staying_of_asksToRun hq n ▸ ho
  · rw [Engine.attempt, ← (amid_staying n q).eq_of_within hrunning]
    exact ho

end Host

theorem Engine.attempt_after {x : Engine σ κ α} {w : World σ κ} (ha : (x.answer? w).isSome) :
    ∃ a, attempt x w = .ok (.ok a) (x.after w) := by
  obtain ⟨a, ha⟩ := Option.isSome_iff_exists.mp ha
  exact ⟨a, attempt_of_ok (ok_of_answer? ha)⟩

/-- The activity that a run comes to asks for isolation, and the run goes on as if it had only been
refused. -/
theorem as_if_feigned_relay :
    let h := Host.asking .isolate
    let w := h.worlds 4 legs relay 2
    (h.calls 4 .runEvents w).any (·.isolation?.isSome) = true ∧
    (∃ o, Engine.attempt (h.staying 4 .runEvents) w = .ok o ((h.staying 4 .runEvents).after w) ∧
      Engine.attempt (h.feigning.perform 4 .runEvents) w =
        .ok o ((h.staying 4 .runEvents).after w)) ∧
    ∃ o, Engine.attempt (h.perform 4 .runEvents) w = .ok o ((h.perform 4 .runEvents).after w) ∧
      Engine.attempt (h.feigning.perform 4 .runEvents) w =
        .ok o ((h.perform 4 .runEvents).after w) := by
  intro h w
  obtain ⟨a, ha⟩ := Engine.attempt_after (x := h.staying 4 .runEvents) (w := w) (by decide +kernel)
  obtain ⟨b, hb⟩ := Engine.attempt_after (x := h.perform 4 .runEvents) (w := w) (by decide +kernel)
  exact ⟨by decide +kernel, ⟨.ok a, ha, (Host.as_if_feigned.1 ha).2⟩, .ok b, hb,
    Host.as_if_feigned.2.1 (.inl trivial) hb⟩

/-- As `betweenEdits`, and a runs a body on the way out. -/
def astrayEdits : List (Edit Unit) := betweenEdits ++ [.setStateBehavior ⟨0⟩ .exit (.callback ())]

/-- A machine in a. -/
def astray : World Unit Unit :=
  (Host.asking .isolate).next 4 (.goto ⟨0⟩ []) (.fresh ((Graph.new "astray").edited astrayEdits))

/-- Put into c, the machine leaves a, is isolated there, and ends in b::x, whose handle on the copy
is that of c. -/
theorem not_feigned_astray :
    let h := Host.asking .isolate
    let w := h.next 4 (.goto ⟨2⟩ []) astray
    let w' := h.feigning.next 4 (.goto ⟨2⟩ []) astray
    astray.machine.active = some ⟨0⟩ ∧ h.completes 4 (.goto ⟨2⟩ []) astray = true ∧
    h.feigning.completes 4 (.goto ⟨2⟩ []) astray = true ∧
    w.machine.active.map w.machine.names = some ["b", "x"] ∧
    w'.machine.active.map w'.machine.names = some ["c"] ∧
    w.records.map (fun x => w.machine.names x.new) = [["b", "x"]] ∧
    w'.records.map (fun x => w'.machine.names x.new) = [["c"]] :=
  ⟨by decide +kernel,
    by decide +kernel, by decide +kernel, by decide +kernel, by decide +kernel, by decide +kernel,
    by decide +kernel⟩

end Statechart
