import Statechart.Proofs.Machine.Books
import Statechart.Proofs.Machine.Resting

/-!
# Where records come from

A record of a fired transition carries the event that selected it, with the label of the first
trigger of the transition that accepts the event, and neither if the transition was queued by a
request. That is so as long as no behavior dispatches an event while a run or another event is under
way, or begins a run while an event is.
-/

namespace Statechart

open Json

variable {σ κ : Type}

/-! ## Behaviors that do not meddle -/

namespace Host

variable {h : Host σ κ}

/-- Carries out a request, cut off where a behavior makes one that meddles. -/
def heedfully (h : Host σ κ) : Nat → (q : Request κ) → Engine σ κ q.Answer
  | 0, _ => throw .exhausted
  | n + 1, q =>
    let heeding (q : Request κ) : Engine σ κ q.Answer := do
      if q.Meddles (← Engine.machine).books then throw .exhausted
      h.heedfully n q
    Engine.carryOut (h.responder heeding) (fun key => do let _ ← h.runBody heeding key none []) n q

/-- A request of a behavior. -/
def heeding (h : Host σ κ) (n : Nat) (q : Request κ) : Engine σ κ q.Answer := do
  if q.Meddles (← Engine.machine).books then throw .exhausted
  h.heedfully n q

def heedingHook (h : Host σ κ) (n : Nat) (key : κ) : Engine σ κ Unit := do
  let _ ← h.runBody (h.heeding n) key none []

theorem heedfully_succ (n : Nat) (q : Request κ) :
    h.heedfully (n + 1) q = Engine.carryOut (h.responder (h.heeding n)) (h.heedingHook n) n q := rfl

/-- An operation on a machine succeeds or fails, and no behavior makes a request that meddles on the
way. Before it, what the behaviors keep and the time may have become anything. -/
def Heedful (h : Host σ κ) (q : Request κ) (w w' : World σ κ) : Prop :=
  ∃ n env now, (h.heedfully n q).Leads { w with env, now } w'

theorem matches_heedfully (n : Nat) (q : Request κ) :
    Engine.Matches (.upTo fun _ => True) (h.heedfully n q) (h.perform n q) := by
  have hshows := Comparison.shows_upTo (σ := σ) (κ := κ) (I := fun _ => True) fun _ _ _ => trivial
  induction n generalizing q with
  | zero => exact .cut trivial
  | succ n ih =>
    have hheeding (q : Request κ) (_ : True) :
        Engine.Matches (.upTo fun _ => True) (h.heeding n q) (h.perform n q) := by
      rintro w _ ⟨rfl, hw⟩
      rw [heeding, Engine.machine_bind]
      split
      · exact .cut trivial
      · exact ih q _ _ ⟨rfl, hw⟩
    have hr := matches_responder hshows hheeding h.blind_eq
    have hhook (key : κ) :
        Engine.Matches (.upTo fun _ => True) (h.heedingHook n key) (h.hook n key) :=
      .bind (matches_runBody hshows hheeding h.blind_eq key none []) fun _ => .pure
    exact Engine.matches_carryOut_of_serves hr hhook Comparison.serves_upTo n q

theorem heedful_after {k : Nat} {q : Request κ} {w : World σ κ}
    (ha : ((h.heedfully k q).answer? w).isSome) : h.Heedful q w ((h.heedfully k q).after w) :=
  ⟨k, w.env, w.now, Engine.leads_after ha⟩

/-- An operation in which no behavior meddles is an operation. -/
theorem Heedful.step {q : Request κ} {w w' : World σ κ}
    (hs : h.Heedful q w w') : h.Step q w w' := by
  obtain ⟨n, env, now, hn⟩ := hs
  exact ⟨n, env, now, (matches_heedfully n q).leads trivial hn⟩

end Host

/-- Requests of a kind put into the slot only what the ledger has, and edit its graphs into such. -/
structure Ledger.Bears (L : Ledger κ) (B : Request κ → Prop) : Prop where
  puts : ∀ q args, B q → q.Puts args → L.args args
  edits : ∀ e g, B (.edit e) → L.graphs g → L.graphs (e.after g)

/-- What requests of a kind ask for keeps the books and the ledger, as long as bodies make no others
and do not meddle. -/
theorem Host.kept_of_heeding {h : Host σ κ} {B : Request κ → Prop} {L : Ledger κ} {n : Nat}
    (hbodies : h.Makes B)
    (hheeding : ∀ {b}, L.Admits b → ∀ q, B q →
      Engine.Matches (.upTo (World.Fits L b)) (h.heeding n q) (h.heeding n q)) :
    L.Kept (h.responder (h.heeding n)) (h.heedingHook n) where
  responder hb := matches_responder (Comparison.shows_upTo World.indifferent_fits)
    (hheeding hb) hbodies.blind
  hook hb key :=
    .bind (matches_runBody (Comparison.shows_upTo World.indifferent_fits)
    (hheeding hb) hbodies.blind key none []) fun _ => .pure

theorem Host.matches_heeding {h : Host σ κ} {B : Request κ → Prop} {L : Ledger κ}
    (hbodies : h.Makes B) (hL : L.Bears B) (n : Nat) {b : Books} (hb : L.Admits b) (q : Request κ)
    (hq : B q) : Engine.Matches (.upTo (World.Fits L b)) (h.heeding n q) (h.heeding n q) := by
  -- On how deep requests may go. The books may differ from one depth to the next, so they are not
  -- fixed.
  induction n generalizing b q with
  | zero =>
    intro w w' _
    rw [heeding, Engine.machine_bind]
    split <;> exact .cut trivial
  | succ n ih =>
    rintro _ w ⟨rfl, hw⟩
    rw [heeding, Engine.machine_bind, hw.books]
    split
    · exact .cut trivial
    · rename_i hmeddles
      have hkept := kept_of_heeding hbodies fun hb q hq => ih hb q hq
      rw [heedfully_succ]
      refine Engine.matches_carryOut_fits hkept hb (Bool.eq_false_iff.mpr hmeddles)
        (fun args => hL.puts q args hq) ?_ n w w ⟨rfl, hw⟩
      rintro e rfl g
      exact hL.edits e g hq

/-- Bodies that do not meddle keep the books and the ledger. -/
theorem Host.kept {h : Host σ κ} {B : Request κ → Prop} {L : Ledger κ} (hbodies : h.Makes B)
    (hL : L.Bears B) (n : Nat) : L.Kept (h.responder (h.heeding n)) (h.heedingHook n) :=
  kept_of_heeding hbodies fun hb q hq => matches_heeding hbodies hL n hb q hq

/-! ## What operations add to the records -/

namespace World

/-- The records of moves by transitions are old ones but for some of the given kind. -/
def Adds (P : HistoryRecord → Prop) (w w' : World σ κ) : Prop :=
  ∀ x ∈ w'.records, x.isSeed = false → x ∈ w.records ∨ P x

/-- The record is of a transition that the event selects, in the graph as it is or as bodies may
edit it. -/
def Selects (B : Request κ → Prop) (w : World σ κ) (e : Event) (x : HistoryRecord) : Prop :=
  ∃ g, w.machine.graph.EditedBy (fun e => B (.edit e)) g ∧ x.Selected g e

/-- What may be found from now on, if bodies make requests of a kind. -/
def ledger (B : Request κ → Prop) (args : List Value → Prop) (P : HistoryRecord → Prop)
    (w : World σ κ) : Ledger κ where
  graphs := w.machine.graph.EditedBy fun e => B (.edit e)
  args
  records x := x ∈ w.records ∨ P x

variable {B : Request κ → Prop} {C : List Value → Prop} {P : HistoryRecord → Prop} {w : World σ κ}

theorem bears_ledger (hC : ∀ q args, B q → q.Puts args → C args) : (w.ledger B C P).Bears B where
  puts := hC
  edits _ _ he hg := hg.after he

end World

namespace Host

/-- An event of the queue is handled, and what that adds to the records is of a transition that the
event selects. -/
def Handles (h : Host σ κ) (B : Request κ → Prop) (e : Event) (w w' : World σ κ) : Prop :=
  (∃ n k, (Engine.handleEvent (h.responder (h.heeding n)) k e).Leads w w') ∧
    w.Adds (w.Selects B e) w'

/-- What an operation adds to the records. -/
def Accounts (h : Host σ κ) (B : Request κ → Prop) (w w' : World σ κ) : Request κ → Prop
  | .dispatch e => w.Adds (w.Selects B e) w'
  | .run _ | .runWith .. => w.Adds HistoryRecord.Plain w'
  | .runEvents => ∃ env now v,
    Handlings (h.Handles B)
      (({ w with env, now }).mapMachine ({ · with running := true, paused := false })) v ∧
    w' = v.mapMachine ({ · with running := false, paused := false, event := none, trigger := none })
  | .edit _ => w'.records = w.records
  | .isolate =>
    w'.records = w.records ∨ ∃ g c,
      w.machine.graph.copyDefinition w.machine.definition = .ok (g, c) ∧
    w'.machine.graph = g ∧ w'.records = w.records.filterMap (·.copied c)
  | _ => w.Adds (fun x => x.Plain ∨ ∃ e, w.Selects B e x) w'

end Host

theorem Machine.args_of_copiedPending {m : Machine κ} {c : GraphCopy} {p : Pending}
    (h : m.copiedPending c = .ok (some p)) : ∃ p', m.pending = some p' ∧ p'.args = p.args := by
  rw [copiedPending] at h
  cases hp : m.pending with
  | none =>
    rw [hp] at h
    cases h
  | some p' =>
    rw [hp] at h
    dsimp only at h
    split at h
    · cases h
      exact ⟨p', rfl, rfl⟩
    · cases h

namespace World

variable {B : Request κ → Prop} {C : List Value → Prop} {P : HistoryRecord → Prop} {b : Books}
  {w w' : World σ κ}

/-- Nothing is noted on the machine, and what waits in its slot came with arguments of a kind. -/
structure Rests (C : List Value → Prop) (w : World σ κ) : Prop where
  clear : w.machine.Clear
  slot : ∀ p, w.machine.pending = some p → C p.args

theorem fits_ledger (hbooks : w.machine.books = b)
    (hslot : ∀ p, w.machine.pending = some p → C p.args) : w.Fits (w.ledger B C P) b :=
  ⟨hbooks, .refl, fun _ hx _ => .inl hx, hslot⟩

theorem Fits.rests (h : w'.Fits (w.ledger B C P) {}) : w'.Rests C ∧ w.Adds P w' :=
  ⟨⟨h.books, h.slot⟩, h.records⟩

end World

namespace Host

variable {h : Host σ κ} {B : Request κ → Prop} {C : List Value → Prop} {q : Request κ}
  {w w' : World σ κ} (hbodies : h.Makes B) (hC : ∀ q args, B q → q.Puts args → C args)
include hbodies hC

/-- One event after the other is handled. -/
theorem handlings_of_runEvents (hw : w.Rests C) (n k : Nat)
    (hrun : (Engine.runEvents (h.responder (h.heeding n)) k).Leads w w') :
    w'.Rests C ∧ ∃ v,
      Handlings (h.Handles B) (w.mapMachine ({ · with running := true, paused := false })) v ∧
      w' = v.mapMachine
        ({ · with running := false, paused := false, event := none, trigger := none }) := by
  -- From one event to the next only the slot is followed. What an event adds to the records is told
  -- by a ledger of its own, of the world in which it is taken from the queue.
  let L : Ledger κ := ⟨fun _ => True, C, fun _ => True⟩
  have hhandle (k : Nat) (e : Event) (v : World σ κ) (hv : v.Fits L { running := true }) :
      Engine.Triple (· = v) (Engine.handleEvent (h.responder (h.heeding n)) k e)
        (fun _ u => u.Fits L { running := true } ∧ h.Handles B e v u)
        (Engine.unlessCut fun u => (∃ b, u.Fits L b) ∧ h.Handles B e v u) := by
    have hkept := kept hbodies (World.bears_ledger (w := v) (P := v.Selects B e) hC) n
    have hfits := Engine.fits_handleEvent hkept (fun _ => .inr) k v
      (World.fits_ledger hv.books hv.slot)
    rintro v rfl
    cases hstep : Engine.handleEvent (h.responder (h.heeding n)) k e v with
    | ok m u =>
      rw [hstep] at hfits
      exact ⟨⟨hfits.books, trivial, fun _ _ _ => trivial, hfits.slot⟩,
        ⟨n, k, .inl ⟨m, hstep⟩⟩, hfits.records⟩
    | error err u =>
      rw [hstep] at hfits
      cases err with
      | exhausted => exact .inl rfl
      | fault err =>
        obtain ⟨b, hu⟩ := hfits.resolve_left nofun
        exact .inr ⟨⟨b, hu.books, trivial, fun _ _ _ => trivial, hu.slot⟩,
          ⟨n, k, .inr ⟨err, hstep⟩⟩, hu.records⟩
  have hfits : w.Fits L {} := ⟨hw.clear, trivial, fun _ _ _ => trivial, hw.slot⟩
  obtain ⟨hrests, u, hu⟩ := (Engine.handlings_runEvents hhandle k hfits).leads rfl hrun
  exact ⟨⟨hrests.books, hrests.slot⟩, u, hu⟩

theorem Heedful.accounts (hq : ∀ args, q.Puts args → C args) (hw : w.Rests C)
    (hs : h.Heedful q w w') : w'.Rests C ∧ h.Accounts B w w' q := by
  obtain ⟨n, env, now, hn⟩ := hs
  cases n with
  | zero =>
    rcases hn with ⟨a, ha⟩ | ⟨e, he⟩
    · cases ha
    · cases he
  | succ n =>
  rw [heedfully_succ] at hn
  have hkept (P : HistoryRecord → Prop) := kept hbodies (World.bears_ledger (w := w) (P := P) hC) n
  have hwork {P : HistoryRecord → Prop}
      (hx : Engine.Triple (World.Fits (w.ledger B C P) {})
        (Engine.carryOut (h.responder (h.heeding n)) (h.heedingHook n) n q)
        (fun _ => World.Fits (w.ledger B C P) {})
          (Engine.unlessCut (World.Fits (w.ledger B C P) {}))) :
      w'.Rests C ∧ w.Adds P w' :=
    (hx.leads (w := { w with env, now }) ⟨hw.clear, .refl, fun _ hx _ => .inl hx, hw.slot⟩ hn).rests
  have hother (hmeddles : q.Meddles {} = false) (hedit : ∀ e, q ≠ .edit e) :
      w'.Rests C ∧ w.Adds (fun x => x.Plain ∨ ∃ e, w.Selects B e x) w' := by
    refine hwork (Engine.matches_upTo_iff.mp
      (Engine.matches_carryOut_fits (hkept _) (fun _ _ => ?_) hmeddles hq
      (fun e he => (hedit e he).elim) n))
    exact ⟨rfl, fun _ hx => .inr (.inl hx), fun e _ hx => .inr (.inr ⟨e, hx⟩)⟩
  cases q with
  | dispatch e => exact hwork (Engine.fits_dispatch (hkept _) (fun _ => .inr) n)
  | run mode => exact hwork (Engine.fits_run (hkept _) (fun _ => .inr) .pure n mode)
  | runWith mode key => exact hwork (Engine.fits_runWith (hkept _) (fun _ => .inr) n mode key)
  | runEvents =>
    have hbegun : World.Rests C { w with env, now } := ⟨hw.clear, hw.slot⟩
    have ⟨hrests, hhandled⟩ := handlings_of_runEvents hbodies hC hbegun n n hn
    exact ⟨hrests, env, now, hhandled⟩
  | edit e =>
    obtain rfl := hn.unique (Engine.leads_edit e _)
    exact ⟨⟨hw.clear, hw.slot⟩, rfl⟩
  | isolate =>
    rcases Engine.leads_isolate { w with env, now } with hsame | ⟨g, c, active, pending,
      hcopy, hpending, hleads⟩
    · obtain rfl := hn.unique hsame
      exact ⟨⟨hw.clear, hw.slot⟩, .inl rfl⟩
    · obtain rfl := hn.unique hleads
      refine ⟨⟨hw.clear, fun p hp => ?_⟩, .inr ⟨g, c, hcopy, rfl, LogStore.records_remap _⟩⟩
      obtain rfl : pending = some p := hp
      obtain ⟨p', hp', hargs⟩ := Machine.args_of_copiedPending hpending
      exact hargs ▸ hw.slot p' hp'
  | _ => exact hother rfl fun _ he => by cases he

omit hbodies hC in
/-- Of a sequence of operations on a machine that starts with nothing noted and nothing in its slot:
at rest no run is under way and no event is at hand. If no behavior meddles on the way, at rest
nothing is noted at all, what waits in the slot came with the arguments of a request that queues,
and each operation accounts for what it adds to the records. -/
theorem accounts_of_steps {w : Nat → World σ κ} {q : Nat → Request κ} {n : Nat}
    (hbodies : h.Makes B) (hclear : (w 0).machine.Clear) (hempty : (w 0).machine.pending = none)
    (hsteps : ∀ i < n, h.Step (q i) (w i) (w (i + 1))) :
    (∀ i ≤ n, (w i).machine.running = false ∧ (w i).machine.event = none) ∧
    ((∀ i < n, h.Heedful (q i) (w i) (w (i + 1))) →
      (∀ i ≤ n, (w i).machine.Clear ∧ ∀ p, (w i).machine.pending = some p →
        ∃ q', (B q' ∨ ∃ j < i, q j = q') ∧ q'.Puts p.args) ∧
      ∀ i < n, h.Accounts B (w i) (w (i + 1)) (q i)) := by
  have hidle : ∀ i ≤ n, (w i).Idle none := by
    intro i
    induction i with
    | zero => exact fun _ => ⟨congrArg Books.running hclear, .inl (congrArg Books.event hclear)⟩
    | succ i ih => exact fun hi => (hsteps i hi).idle (ih (Nat.le_of_succ_le hi))
  refine ⟨fun i hi => ⟨(hidle i hi).1, (hidle i hi).2.elim id id⟩, fun hheedful => ?_⟩
  -- What may wait in the slot grows with the requests made so far.
  let C (i : Nat) (args : List Value) : Prop := ∃ q', (B q' ∨ ∃ j < i, q j = q') ∧ q'.Puts args
  have hstep {i : Nat} (hi : i < n) (hw : (w i).Rests (C i)) :
      (w (i + 1)).Rests (C (i + 1)) ∧ h.Accounts B (w i) (w (i + 1)) (q i) := by
    refine (hheedful i hi).accounts hbodies
      (fun q' args hq' hputs => ⟨q', .inl hq', hputs⟩) ?_ ⟨hw.clear, ?_⟩
    · exact fun args hputs => ⟨q i, .inr ⟨i, Nat.lt_succ_self i, rfl⟩, hputs⟩
    · intro p hp
      obtain ⟨q', hq', hputs⟩ := hw.slot p hp
      exact ⟨q', hq'.imp_right fun ⟨j, hj, hqj⟩ => ⟨j, Nat.lt_succ_of_lt hj, hqj⟩, hputs⟩
  have hall : ∀ i ≤ n, (w i).Rests (C i) := by
    intro i
    induction i with
    | zero => exact fun _ => ⟨hclear, fun p hp => nomatch hempty.symm.trans hp⟩
    | succ i ih => exact fun hi => (hstep hi (ih (Nat.le_of_succ_le hi))).1
  exact ⟨fun i hi => ⟨(hall i hi).clear, (hall i hi).slot⟩,
    fun i hi => (hstep hi (hall i (Nat.le_of_lt hi))).2⟩

end Host

/-! ## A relay -/

/-- Three states in a row, the second with an activity. -/
def relayEdits : List (Edit Unit) :=
  [.addState ⟨0⟩ { name := "a" }, .addState ⟨0⟩ { name := "b", doActivity := .callback () },
    .addState ⟨0⟩ { name := "c" },
    .addTransition ⟨0⟩ { name := "a->b", source := ⟨0⟩, target := ⟨1⟩, triggers := [.tag "send"] },
    .addTransition ⟨0⟩ { name := "b->c", source := ⟨1⟩, target := ⟨2⟩, triggers := [.tag "go"] },
    .setStart ⟨0⟩ (some ⟨0⟩), .setFinal ⟨0⟩ (some ⟨2⟩)]

def relay : World Unit Unit := .fresh ((Graph.new "relay").edited relayEdits)

/-- The activity makes a request. -/
def Host.asking (q : Request Unit) : Host Unit Unit where
  handlers _ := .empty
  body _ _ _ := .call q fun _ => .ret (.ok none)

/-- By an event of the queue and by a run to the end, and the same by an event that is
dispatched. -/
def legs : Nat → Request Unit
  | 0 => .start []
  | 1 => .post [⟨"send", []⟩]
  | 2 => .runEvents
  | 3 => .run .continuous
  | 4 => .start []
  | 5 => .dispatch ⟨"send", []⟩
  | _ => .run .continuous

/-- The activity queues the transition to the end. -/
def relayed : Nat → World Unit Unit
  | 0 => relay
  | i + 1 => ((Host.asking (.queue ⟨1⟩ [])).heedfully 4 (legs i)).after (relayed i)

theorem accounts_relay :
    (Host.asking (.queue ⟨1⟩ [])).Makes (· = .queue ⟨1⟩ []) ∧ (relayed 0).machine.Clear ∧
    (relayed 0).machine.pending = none ∧
    (∀ i < 7, (Host.asking (.queue ⟨1⟩ [])).Step (legs i) (relayed i) (relayed (i + 1))) ∧
    (∀ i < 7, (Host.asking (.queue ⟨1⟩ [])).Heedful (legs i) (relayed i) (relayed (i + 1))) ∧
    (∀ i ≤ 7, (relayed i).machine.running = false ∧ (relayed i).machine.event = none) ∧
    (∀ i ≤ 7, (relayed i).machine.Clear ∧ ∀ p, (relayed i).machine.pending = some p →
      ∃ q', (q' = .queue ⟨1⟩ [] ∨ ∃ j < i, legs j = q') ∧ q'.Puts p.args) ∧
    ∀ i < 7, (Host.asking (.queue ⟨1⟩ [])).Accounts (· = .queue ⟨1⟩ []) (relayed i)
      (relayed (i + 1)) (legs i) := by
  have hbodies : (Host.asking (.queue ⟨1⟩ [])).Makes (· = .queue ⟨1⟩ []) :=
    fun _ _ _ => ⟨rfl, fun _ => trivial⟩
  have hheedful : ∀ i < 7,
      (Host.asking (.queue ⟨1⟩ [])).Heedful (legs i) (relayed i) (relayed (i + 1)) := by
    have hall : ∀ i < 7,
        (((Host.asking (.queue ⟨1⟩ [])).heedfully 4 (legs i)).answer? (relayed i)).isSome := by
      decide +kernel
    exact fun i hi => Host.heedful_after (hall i hi)
  have hsteps : ∀ i < 7,
      (Host.asking (.queue ⟨1⟩ [])).Step (legs i) (relayed i) (relayed (i + 1)) :=
    fun i hi => (hheedful i hi).step
  obtain ⟨hidle, haccounts⟩ := Host.accounts_of_steps (w := relayed) hbodies rfl rfl hsteps
  exact ⟨hbodies, rfl, rfl, hsteps, hheedful, hidle, haccounts hheedful⟩

/-- What the records carry by the end: nothing, as the last leg is a run. -/
example :
    (relayed 7).records.map (fun x => (x.transition, x.event.map (·.name), x.trigger)) =
    [(none, none, none), (some ⟨0⟩, some "send", some "send"), (some ⟨1⟩, none, none)] := by
  decide +kernel

/-- The first transition is queued and run, and the activity dispatches an event. -/
def stray : Nat → Request Unit
  | 0 => .start []
  | 1 => .queue ⟨0⟩ []
  | _ => .run .continuous

def strayed : Nat → World Unit Unit := (Host.asking (.dispatch ⟨"go", []⟩)).worlds 4 stray relay

/-- The label stays noted, is on the record of the transition queued before, and is without its
event on the record of the one that the event selected. -/
theorem not_clear_strayed :
    (∀ i < 3, (Host.asking (.dispatch ⟨"go", []⟩)).Step (stray i) (strayed i) (strayed (i + 1))) ∧
    ¬ (strayed 3).machine.Clear ∧
    (strayed 3).records.map (fun x => (x.transition, x.event.map (·.name), x.trigger)) =
      [(none, none, none), (some ⟨0⟩, none, some "go"), (some ⟨1⟩, none, some "go")] := by
  have hall : ∀ i < 3, (Host.asking (.dispatch ⟨"go", []⟩)).completes 4 (stray i)
      (strayed i) = true := by
    decide +kernel
  have htrigger : (strayed 3).machine.trigger = some "go" := by decide +kernel
  refine ⟨fun i hi => Host.step_next (hall i hi), fun hclear => ?_, by decide +kernel⟩
  cases htrigger.symm.trans (congrArg Books.trigger hclear)

end Statechart
