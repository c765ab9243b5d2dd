import Statechart.Proofs.Graph.Ownership
import Statechart.Proofs.Machine.Cutoff

/-!
# What is noted and what is recorded

The event at hand and the label of the trigger that accepts it are noted on the machine while a
transition is selected and fired, and every record made meanwhile takes them over. So it depends on
what bodies ask for at which moment whether a record carries what it should.
-/

namespace Statechart

open Json

variable {σ κ α : Type}

/-! ## Logs -/

namespace LogStore

variable {st : LogStore} {l : HistoryLog} {r x : HistoryRecord}

theorem recordsAt_update (st : LogStore) (n m : Nat) (f : List HistoryRecord → List HistoryRecord) :
    (st.update n f).recordsAt m = if n = m then (st.logs[m]?.map f).getD []
      else st.recordsAt m := by
  rw [recordsAt, recordsAt, update, Array.getElem?_modify]
  split <;> rfl

theorem records_clear : (st.clear l).records l = [] := by
  rw [records, clear, recordsAt_update, if_pos rfl]
  cases st.logs[l.own]? <;> rfl

theorem records_remap (f : HistoryRecord → Option HistoryRecord) :
    (st.remap l f).records l = (st.records l).filterMap f := by
  rw [records, remap, recordsAt_update, if_pos rfl, records, recordsAt]
  cases st.logs[l.own]? <;> rfl

theorem mem_recordsAt_snoc {n m : Nat} (h : x ∈ (st.update n (· ++ [r])).recordsAt m) :
    x ∈ st.recordsAt m ∨ x = r := by
  rw [recordsAt_update] at h
  split at h
  · rw [recordsAt]
    cases hlog : st.logs[m]? with
    | none =>
      rw [hlog] at h
      exact (List.not_mem_nil h).elim
    | some rs =>
      rw [hlog] at h
      exact (List.mem_append.mp h).imp_right List.mem_singleton.mp
  · exact .inl h

theorem mem_records_append (h : x ∈ (st.append l r).records l) : x ∈ st.records l ∨ x = r := by
  rw [append, records] at h
  cases hparent : l.parent with
  | none =>
    rw [hparent] at h
    exact mem_recordsAt_snoc h
  | some n =>
    rw [hparent] at h
    rcases mem_recordsAt_snoc h with hbefore | hnew
    · exact mem_recordsAt_snoc hbefore
    · exact .inr hnew

end LogStore

/-! ## What records carry -/

namespace Graph

/-- The label of the first trigger of a transition that accepts the event. -/
def label? (g : Graph κ) (e : Event) (t : TransitionId) : Option String :=
  ((g.transition? t).bind (·.matchingTrigger e)).map (·.label)

/-- The second graph comes from the first by edits of some kind. -/
def EditedBy (E : Edit κ → Prop) (g g' : Graph κ) : Prop := ∃ es, (∀ e ∈ es, E e) ∧ g' = g.edited es

variable {E : Edit κ → Prop} {g g' : Graph κ}

theorem EditedBy.refl : g.EditedBy E g := ⟨[], nofun, rfl⟩

theorem EditedBy.after (h : g.EditedBy E g') {e : Edit κ} (he : E e) :
    g.EditedBy E (e.after g') := by
  obtain ⟨es, hes, rfl⟩ := h
  refine ⟨es ++ [e], fun e' hmem => ?_, (edited_concat g es e).symm⟩
  rcases List.mem_append.mp hmem with hmem | hmem
  · exact hes e' hmem
  · exact List.mem_singleton.mp hmem ▸ he

end Graph

namespace HistoryRecord

/-- The record carries neither an event nor the label of a trigger. -/
def Plain (x : HistoryRecord) : Prop := x.event = none ∧ x.trigger = none

/-- The record carries the event and the label of the first trigger of its transition that accepts
it. -/
def Selected (x : HistoryRecord) (g : Graph κ) (e : Event) : Prop :=
  ∃ t label, x.transition = some t ∧ g.label? e t = some label ∧ x.event = some e ∧
    x.trigger = some label

end HistoryRecord

namespace Engine

variable {r : Responder σ κ} {w w' : World σ κ} {e : Event}

theorem exists_of_mem_filterMapM {β : Type} {f : α → Engine σ κ (Option β)} {xs : List α}
    {ys : List β} (h : xs.filterMapM f w = .ok ys w') {y : β} (hy : y ∈ ys) :
    ∃ x ∈ xs, ∃ u u', f x u = .ok (some y) u' := by
  induction xs generalizing w ys with
  | nil =>
    cases h
    exact (List.not_mem_nil hy).elim
  | cons x xs ih =>
    rw [List.filterMapM_cons] at h
    obtain ⟨o, v, hx, hrest⟩ := exists_of_bind_ok h
    cases o with
    | none =>
      obtain ⟨x', hx', hf⟩ := ih hrest hy
      exact ⟨x', List.mem_cons_of_mem _ hx', hf⟩
    | some z =>
      obtain ⟨zs, v', hxs, hpure⟩ := exists_of_bind_ok hrest
      cases hpure
      rcases List.mem_cons.mp hy with rfl | hzs
      · exact ⟨x, List.mem_cons_self, w, v, hx⟩
      · obtain ⟨x', hx', hf⟩ := ih hxs hzs
        exact ⟨x', List.mem_cons_of_mem _ hx', hf⟩

/-- What an event selects has a trigger that accepts it, and is listed with the label of the
first. -/
theorem label?_of_transitionsMatching {ts : List (TransitionId × String)}
    (h : transitionsMatching r e w = .ok ts w') {t : TransitionId} {label : String}
    (ht : (t, label) ∈ ts) : w.machine.graph.label? e t = some label := by
  rw [transitionsMatching, machine_bind] at h
  obtain ⟨candidates, v, -, hts⟩ := exists_of_bind_ok h
  obtain ⟨u, -, v, v', hu⟩ := exists_of_mem_filterMapM hts ht
  cases htr : w.machine.graph.transition u with
  | error e =>
    rw [htr] at hu
    cases hu
  | ok tr =>
    rw [htr] at hu
    simp only [ofGraph, pure_bind] at hu
    cases htrigger : tr.matchingTrigger e with
    | none =>
      rw [htrigger] at hu
      cases hu
    | some trigger =>
      rw [htrigger] at hu
      obtain ⟨passed, v'', -, hpassed⟩ := exists_of_bind_ok hu
      cases passed with
      | false => cases hpassed
      | true =>
        cases hpassed
        rw [Graph.label?, Graph.transition_ok_iff.mp htr]
        exact congrArg (Option.map Trigger.label) htrigger

end Engine

/-! ## What a machine notes -/

/-- What is noted on a machine of the work under way: whether it is a run, and the event at hand
with the label of the trigger that accepts it. -/
structure Books where
  running : Bool := false
  event : Option Event := none
  trigger : Option String := none

namespace Machine

def books (m : Machine κ) : Books := ⟨m.running, m.event, m.trigger⟩

/-- Nothing is noted. -/
def Clear (m : Machine κ) : Prop := m.books = {}

end Machine

/-- A request that a behavior had better not make: of an event while there is a run or another event
under way, of a run while there is an event, and of a graph of its own for the machine. -/
def Request.Meddles (b : Books) : Request κ → Bool
  | .dispatch _ => b.running || b.event.isSome
  | .run _ | .runWith .. | .runEvents => !b.running && b.event.isSome
  | .isolate => !b.running
  | _ => false

/-- What may be found in a world: its graph, the arguments of what waits in the slot, and the
records of moves by transitions. -/
structure Ledger (κ : Type) where
  graphs : Graph κ → Prop
  args : List Value → Prop
  records : HistoryRecord → Prop

namespace Ledger

variable (L : Ledger κ)

/-- The record is of a transition that the event selects in some graph. -/
def Selects (e : Event) (x : HistoryRecord) : Prop := ∃ g, L.graphs g ∧ x.Selected g e

/-- Records of the transition may be made with this event and this label. -/
def Allows (t : TransitionId) (event : Option Event) (trigger : Option String) : Prop :=
  ∀ x : HistoryRecord, x.transition = some t → x.event = event → x.trigger = trigger → L.records x

/-- Where nothing is noted, behaviors may both run the machine and dispatch events. -/
def Admits (b : Books) : Prop :=
  b.running = false → b.event = none →
    b.trigger = none ∧ (∀ x : HistoryRecord, x.Plain → L.records x) ∧ ∀ e x,
    L.Selects e x → L.records x

end Ledger

/-- The books are those given, and the rest is in the ledger. -/
structure World.Fits (L : Ledger κ) (b : Books) (w : World σ κ) : Prop where
  books : w.machine.books = b
  graph : L.graphs w.machine.graph
  records : ∀ x ∈ w.records, x.isSeed = false → L.records x
  slot : ∀ p, w.machine.pending = some p → L.args p.args

/-- The transition waits to be fired at once, and without it the world fits. -/
structure World.Loaded (L : Ledger κ) (b : Books) (p : Pending) (w : World σ κ) : Prop where
  pending : w.machine.pending = some p
  atEnd : w.machine.atEnd = false
  fits : (w.mapMachine ({ · with pending := none })).Fits L b

namespace World

variable {L : Ledger κ} {b : Books} {p : Pending} {w : World σ κ}

theorem indifferent_fits : World.Indifferent (Fits (σ := σ) L b) :=
  fun _ _ h => ⟨h.books, h.graph, h.records, h.slot⟩

theorem Fits.running (h : w.Fits L b) : w.machine.running = b.running :=
  congrArg Books.running h.books

theorem Fits.setRunning (h : w.Fits L b) (running paused : Bool) :
    (w.mapMachine ({ · with running, paused })).Fits L { b with running } :=
  ⟨congrArg ({ · with running }) h.books, h.graph, h.records, h.slot⟩

theorem Fits.setEvent (h : w.Fits L b) (event : Option Event) :
    (w.mapMachine ({ · with event })).Fits L { b with event } :=
  ⟨congrArg ({ · with event }) h.books, h.graph, h.records, h.slot⟩

theorem Fits.setTrigger (h : w.Fits L b) (trigger : Option String) :
    (w.mapMachine ({ · with trigger })).Fits L { b with trigger } :=
  ⟨congrArg ({ · with trigger }) h.books, h.graph, h.records, h.slot⟩

theorem Fits.setCurrent (h : w.Fits L b) (event : Option Event) (trigger : Option String) :
    (w.mapMachine ({ · with event, trigger })).Fits L { b with event, trigger } :=
  (h.setEvent event).setTrigger trigger

/-- What waits is fired by the time that anything else is looked at, or came with arguments that may
wait. -/
theorem Loaded.fits_of_args (h : w.Loaded L b p) (hp : L.args p.args) : w.Fits L b := by
  refine ⟨h.fits.books, h.fits.graph, h.fits.records, fun p' hp' => ?_⟩
  obtain rfl := Option.some.inj (h.pending.symm.trans hp')
  exact hp

end World

namespace Comparison

variable {L : Ledger κ} {b : Books}

theorem posts_fits : (upTo (World.Fits L b) : Comparison σ σ κ).Posts .same where
  like h := World.like_of_eq h.1
  guarded | _, rfl, h => ⟨by rw [h.1], h.2.books, h.2.graph, h.2.records, h.2.slot⟩
  starves := trivial
  running h := by rw [h.1]
  paused h := by rw [h.1]
  events h := by rw [h.1]
  setPaused _ h := ⟨by rw [h.1], h.2.books, h.2.graph, h.2.records, h.2.slot⟩
  setEvents _ h := ⟨by rw [h.1], h.2.books, h.2.graph, h.2.records, h.2.slot⟩
  stopped h := ⟨by rw [h.1], h.2.books, h.2.graph, h.2.records, h.2.slot⟩
  resumed h := ⟨by rw [h.1], h.2.books, h.2.graph, h.2.records, h.2.slot⟩
  dequeued _ h := ⟨by rw [h.1], h.2.books, h.2.graph, h.2.records, h.2.slot⟩

theorem takes_fits :
    (upTo (World.Fits L b) : Comparison σ σ κ).Takes .same fun p => L.args p.args :=
  takes_of (c := upTo (World.Fits L b)) (fun h => ⟨by rw [h.1], h.2.slot⟩)
    fun h => ⟨by rw [h.1], h.2.books, h.2.graph, h.2.records, nofun⟩

end Comparison

namespace Engine

variable {L : Ledger κ} {b : Books} {E : Stop → World σ κ → Prop}

/-- A record that the ledger allows is made. -/
theorem fits_recordHistory (previous : Option StateId) (t : Option TransitionId) (new : StateId)
    (hrecords : ∀ x : HistoryRecord, x.transition = t → x.event = b.event → x.trigger = b.trigger →
      x.isSeed = false → L.records x) :
    Triple (World.Fits L b) (recordHistory previous t new)
      (fun _ => World.Fits (σ := σ) L b) E := by
  refine .modify fun w hw => ?_
  split
  · refine ⟨hw.books, hw.graph, fun x hx hseed => ?_, hw.slot⟩
    rcases LogStore.mem_records_append hx with hbefore | rfl
    · exact hw.records x hbefore hseed
    · exact hrecords _ rfl (congrArg Books.event hw.books) (congrArg Books.trigger hw.books) hseed
  · exact hw

theorem fits_clearHistory :
    Triple (World.Fits L b) clearHistory (fun _ => World.Fits (σ := σ) L b) E := by
  refine .modify fun w hw => ⟨hw.books, hw.graph, fun x hx _ => ?_, hw.slot⟩
  rw [World.records, LogStore.records_clear] at hx
  exact (List.not_mem_nil hx).elim

end Engine

theorem Comparison.fires_fits {L : Ledger κ} {b : Books} :
    (upTo (World.Fits L b) : Comparison σ σ κ).Fires .same where
  toSelects := posts_fits.toSelects
  phase h := by rw [h.1]
  setPhase _ h := ⟨by rw [h.1], h.2.books, h.2.graph, h.2.records, h.2.slot⟩
  setActive hs h := ⟨by rw [h.1, eq_of_optionRel hs], h.2.books, h.2.graph, h.2.records, h.2.slot⟩
  setLast hvia h := ⟨by rw [h.1, eq_of_optionRel hvia], h.2.books, h.2.graph, h.2.records, h.2.slot⟩
  exited | rfl, h => ⟨by rw [h.1], h.2.books, h.2.graph, h.2.records, h.2.slot⟩
  started | rfl, h => ⟨by rw [h.1], h.2.books, h.2.graph, h.2.records, h.2.slot⟩
  moving _ hlike h := ⟨by rw [h.1, hlike.eq], h.2.books, h.2.graph, h.2.records, h.2.slot⟩
  seeded hnew := by
    obtain rfl : _ = _ := hnew
    refine (Engine.matches_upTo_iff.mpr ?_).relates
    refine Engine.fits_recordHistory none none _ fun x hx _ _ hseed => ?_
    rw [HistoryRecord.isSeed, hx] at hseed
    cases hseed
  clear := (Engine.matches_upTo_iff.mpr Engine.fits_clearHistory).relates
  firing h := by rw [h.1]
  setFiring ht h := ⟨by rw [h.1, eq_of_optionRel ht], h.2.books, h.2.graph, h.2.records, h.2.slot⟩
  effect | rfl, h => ⟨by rw [h.1], h.2.books, h.2.graph, h.2.records, h.2.slot⟩
  fired
    | rfl, hsource, rfl, h =>
      ⟨by rw [h.1, eq_of_optionRel hsource], h.2.books, h.2.graph, h.2.records, h.2.slot⟩

/-! ## Work on the books -/

/-- Behaviors keep the books and the ledger wherever they are admitted. -/
structure Ledger.Kept (L : Ledger κ) (r : Responder σ κ) (hook : κ → Engine σ κ Unit) : Prop where
  responder : ∀ {b}, L.Admits b → r.Matches (.upTo (World.Fits L b)) r
  hook : ∀ {b}, L.Admits b → ∀ key, Engine.Matches (.upTo (World.Fits L b)) (hook key) (hook key)

namespace Engine

variable {L : Ledger κ} {b : Books} {r : Responder σ κ} {hook : κ → Engine σ κ Unit} {p : Pending}
  {e : Event} {t : TransitionId} {label : String}

theorem fits_queueTransition (t : TransitionId) (args : List Value) :
    Triple (World.Fits L b)
    (queueTransition t args : Engine σ κ Unit) (fun _ => World.Loaded L b ⟨t, args⟩) fun _ =>
      World.Fits L b := by
  intro w hw
  rcases queueTransition_cases t args w with ⟨e, he⟩ | ⟨s, ts, hempty, -, hend, -, -, hok⟩
  · rw [he]
    exact hw
  · rw [hok]
    exact ⟨rfl, hend, hw.books, hw.graph, hw.records, nofun⟩

theorem matches_queueTransition_fits {args : List Value} (hargs : L.args args) (t : TransitionId) :
    Matches (.upTo (World.Fits L b)) (queueTransition t args)
      (queueTransition t args : Engine σ κ Unit) :=
  matches_upTo_iff.mpr ((fits_queueTransition t args).mono_post
    (fun _ _ hw => hw.fits_of_args hargs) fun _ _ => .inr)

/-- Work that keeps the books of a run keeps those of an idle machine as a run of its own. -/
theorem fits_asRun {I J : World σ κ → Prop} {event : Option Event} {trigger : Option String}
    {work : Engine σ κ (Nat × StopReason)} (hidle : ∀ w, I w → w.machine.running = false)
    (hbegun : ∀ w, I w → J (w.mapMachine ({ · with running := true, paused := false })))
    (hwork : Triple J work (fun _ => World.Fits L ⟨true, event, trigger⟩)
      (unlessCut (World.Fits L ⟨true, event, trigger⟩))) :
    Triple I (asRun work) (fun _ => World.Fits L ⟨false, event, trigger⟩)
      (unlessCut (World.Fits L ⟨false, event, trigger⟩)) := by
  have hended {w : World σ κ} (hw : w.Fits L ⟨true, event, trigger⟩) :
      (w.mapMachine ({ · with running := false, paused := false })).Fits L ⟨false,
        event, trigger⟩ :=
    hw.setRunning false false
  exact .asRun hidle hbegun (hwork.mono_post (fun _ _ => hended) fun _ _ he => he.imp_right hended)

variable (hkept : L.Kept r hook)
include hkept

theorem matches_fireTransition_fits (hb : L.Admits b)
    (hallows : L.Allows p.transition b.event b.trigger) :
    Matches (.upTo (World.Fits L b)) (fireTransition r p) (fireTransition r p) :=
  matches_fireTransition Comparison.fires_fits (hkept.responder hb) p fun previous new =>
    matches_upTo_iff.mpr (fits_recordHistory previous _ new fun x ht he hl _ => hallows x ht he hl)

/-- What waits is fired at once. -/
theorem loaded_processTransitions (hb : L.Admits b)
    (hallows : L.Allows p.transition b.event b.trigger) (n : Nat) :
    Triple (World.Loaded L b p) (processTransitions r n .single none) (fun _ => World.Fits L b)
      (unlessCut (World.Fits L b)) := by
  have hfire := matches_upTo_iff.mp (matches_fireTransition_fits hkept hb hallows)
  intro w hw
  rw [processTransitions_single hw.atEnd hw.pending]
  exact Triple.bind hfire (fun _ _ hv => hv) _ hw.fits

/-! ### Runs -/

theorem fits_run {hook' : Option (Engine σ κ Unit)}
    (hplain : ∀ x : HistoryRecord, x.Plain → L.records x)
    (hhook : Matches (.upTo (World.Fits L { running := true })) (hook'.forM id) (hook'.forM id))
    (n : Nat) (mode : RunMode) :
    Triple (World.Fits L {}) (run r n mode hook') (fun _ => World.Fits L {})
      (unlessCut (World.Fits L {})) := by
  have hfire (p : Pending) (_ : L.args p.args) :
      Matches (.upTo (World.Fits L { running := true })) (fireTransition r p)
        (fireTransition r p) :=
    matches_fireTransition_fits hkept nofun fun x _ he hl => hplain x ⟨he, hl⟩
  exact fits_asRun (fun _ hw => hw.running) (fun _ hw => hw.setRunning true false)
    (matches_upTo_iff.mp
    (matches_processTransitions Comparison.takes_fits hfire hhook
      Comparison.posts_fits.toSteers n mode))

theorem fits_runWith (hplain : ∀ x : HistoryRecord, x.Plain → L.records x) (n : Nat)
    (mode : RunMode) (key : κ) :
    Triple (World.Fits L {}) (run r n mode (some (hook key))) (fun _ => World.Fits L {})
      (unlessCut (World.Fits L {})) := by
  have hkey : Matches (.upTo (World.Fits L { running := true })) ((some (hook key)).forM id)
      ((some (hook key)).forM id) := hkept.hook (b := { running := true }) nofun key
  exact fits_run hkept hplain hkey n mode

/-! ### Events -/

/-- What an event selects may go into the records with the event and the label of its trigger. -/
theorem fits_transitionsMatching (hb : L.Admits b) (hselects : ∀ x, L.Selects e x → L.records x) :
    Triple (World.Fits L b) (transitionsMatching r e)
      (fun ts w => (∀ t label, (t, label) ∈ ts → L.Allows t (some e) (some label)) ∧
        World.Fits L b w)
      (unlessCut (World.Fits L b)) := by
  intro w hw
  have hfits := matches_upTo_iff.mp
    (matches_transitionsMatching Comparison.posts_fits.toSelects (hkept.responder hb) e) w hw
  cases hts : transitionsMatching r e w with
  | error err v =>
    rw [hts] at hfits
    exact hfits
  | ok ts v =>
    rw [hts] at hfits
    refine ⟨fun t label ht x hx he hl => ?_, hfits⟩
    exact hselects x ⟨w.machine.graph, hw.graph, t, label, hx,
      label?_of_transitionsMatching hts ht, he, hl⟩

theorem fits_fireSelected (hallows : L.Allows t (some e) (some label)) (n : Nat) :
    Triple (World.Fits L { event := some e }) (fireSelected r n e t label)
      (fun _ => World.Fits L ⟨false, some e, some label⟩)
      (unlessCut (World.Fits L ⟨false, some e, some label⟩)) := by
  have hprocess := loaded_processTransitions (b := ⟨true, some e, some label⟩)
    (p := ⟨t, e.args⟩) hkept nofun hallows n
  refine .bind (.update fun w hw => hw.setTrigger (some label)) fun _ => ?_
  refine .bind ((fits_queueTransition t e.args).mono_error fun _ _ => .inr) fun _ => ?_
  refine .bind (fits_asRun (fun _ hw => hw.fits.running) (fun _ hw => ?_) hprocess) fun _ _ hw => hw
  exact ⟨hw.pending, hw.atEnd, hw.fits.setRunning true false⟩

theorem fits_handleSelected (hallows : L.Allows t (some e) (some label)) (n : Nat) :
    Triple (World.Fits L ⟨true, some e, none⟩) (handleSelected r n e t label)
      (fun _ => World.Fits L { running := true })
        (unlessCut (World.Fits L ⟨true, some e, some label⟩)) := by
  have hprocess := loaded_processTransitions (b := ⟨true, some e, some label⟩)
    (p := ⟨t, e.args⟩) hkept nofun hallows n
  refine .bind (.update fun w hw => hw.setTrigger (some label)) fun _ => ?_
  refine .bind ((fits_queueTransition t e.args).mono_error fun _ _ => .inr) fun _ =>
    .bind hprocess fun _ => ?_
  exact .bind (.update fun w hw => hw.setCurrent none none) fun _ _ hw => hw

theorem fits_dispatch (hselects : ∀ x, L.Selects e x → L.records x) (n : Nat) :
    Triple (World.Fits L {}) (dispatch r n e) (fun _ => World.Fits L {})
      (unlessCut (World.Fits L {})) := by
  -- Whether a label is noted by the end depends on how far the event got.
  let J (w : World σ κ) : Prop := ∃ label, w.Fits L ⟨false, some e, label⟩
  have hnow : Triple (World.Fits L { event := some e }) (dispatchNow r n e)
      (fun _ => J) (unlessCut J) := by
    rw [dispatchNow_eq]
    have hmatching := fits_transitionsMatching (b := { event := some e }) hkept nofun hselects
    refine .bind (hmatching.mono_error fun _ _ he => he.imp_right fun hw => ⟨none, hw⟩) fun ts =>
      .of_and fun hts => ?_
    match ts with
    | [] => exact fun _ hw => ⟨none, hw⟩
    | [(t, label)] =>
      exact (fits_fireSelected hkept (hts t label List.mem_cons_self) n).mono_post
        (fun _ _ hw => ⟨_, hw⟩) fun _ _ he => he.imp_right fun hw => ⟨_, hw⟩
    | _ :: _ :: _ => exact fun _ hw => ⟨none, hw⟩
  have hended {w : World σ κ} (hw : J w) :
      (w.mapMachine ({ · with event := none, trigger := none })).Fits L {} := by
    obtain ⟨label, hw⟩ := hw
    exact hw.setCurrent none none
  intro w hw
  rw [dispatch_idle hw.running]
  exact Triple.thenAlways (hnow.mono_post (fun _ _ => hended) fun _ _ he => he.imp_right hended) _
    (hw.setEvent (some e))

theorem fits_handleEvent (hselects : ∀ x, L.Selects e x → L.records x) (n : Nat) :
    Triple (World.Fits L { running := true }) (handleEvent r n e)
      (fun _ => World.Fits L { running := true })
      (unlessCut fun w => ∃ b, w.Fits L b) := by
  have hselect : Triple (World.Fits L ⟨true, some e, none⟩) (selectOne r e)
      (fun s w => L.Allows s.1 (some e) (some s.2) ∧ World.Fits L ⟨true, some e, none⟩ w)
      (unlessCut (World.Fits L ⟨true, some e, none⟩)) := by
    refine .bind (fits_transitionsMatching hkept nofun hselects) fun ts => .of_and fun hts => ?_
    match ts with
    | [] => exact fun _ hw => .inr hw
    | [s] => exact fun _ hw => ⟨hts s.1 s.2 List.mem_cons_self, hw⟩
    | _ :: _ :: _ => exact fun _ hw => .inr hw
  intro w hw
  rw [handleEvent_eq]
  refine Triple.bind (hselect.mono_error fun _ _ he => he.imp_right fun hv => ⟨_, hv⟩)
    (fun s => .of_and fun hs => ?_) _
    ((⟨hw.books, hw.graph, hw.records, hw.slot⟩ : (w.notify (.eventDequeued e.name)).Fits L
      _).setEvent (some e))
  exact (fits_handleSelected hkept hs n).mono_error fun _ _ he => he.imp_right fun hv => ⟨_, hv⟩

end Engine

/-- Events of the queue are handled one after the other. -/
inductive Handlings (P : Event → World σ κ → World σ κ → Prop) : World σ κ → World σ κ → Prop
  | done (w : World σ κ) : Handlings P w w
  | event {e : Event} {rest : List Event} {w v w' : World σ κ}
    (hevents : w.machine.events = e :: rest)
    (he : P e (w.mapMachine ({ · with events := rest })) v) (hrest : Handlings P v w') :
    Handlings P w w'

namespace Engine

variable {L : Ledger κ} {b : Books} {r : Responder σ κ} {hook : κ → Engine σ κ Unit}

/-- What handling an event does as long as the books of the run are kept, a run does for one event
after the other. -/
theorem handlings_processEvents {P : Event → World σ κ → World σ κ → Prop}
    (hhandle : ∀ n e w, w.Fits L { running := true } → Triple (· = w) (handleEvent r n e)
      (fun _ v => v.Fits L { running := true } ∧ P e w v)
        (unlessCut fun v => (∃ b, v.Fits L b) ∧ P e w v))
    (n fired : Nat) {w : World σ κ} (hw : w.Fits L { running := true }) :
    Triple (· = w) (processEvents r n fired)
      (fun _ v => v.Fits L { running := true } ∧ Handlings P w v)
      (unlessCut fun v => (∃ b, v.Fits L b) ∧ Handlings P w v) := by
  induction n generalizing fired w with
  | zero => exact fun _ _ => .inl rfl
  | succ n ih =>
    rintro w rfl
    cases hpaused : w.machine.paused with
    | true =>
      rw [processEvents, machine_bind, hpaused]
      exact ⟨hw, .done w⟩
    | false =>
    cases hevents : w.machine.events with
    | nil =>
      rw [processEvents_nil hpaused hevents]
      exact ⟨hw, .done w⟩
    | cons e rest =>
      rw [processEvents_cons hpaused hevents]
      have htaken : (w.mapMachine ({ · with events := rest })).Fits L { running := true } :=
        ⟨hw.books, hw.graph, hw.records, hw.slot⟩
      refine Triple.bind (R := fun _ v => v.Fits L { running := true } ∧ Handlings P w v)
        ((hhandle (n + 1) e _ htaken).mono_error fun _ v he => ?_) (fun more v hv => ?_) _ rfl
      · exact he.imp_right fun hv => ⟨hv.1, .event hevents hv.2 (.done v)⟩
      refine Triple.mono_post (ih (fired + more) hv.1) (fun _ _ hu => ?_) (fun _ _ he => ?_) v rfl
      · exact ⟨hu.1, .event hevents hv.2 hu.2⟩
      · exact he.imp_right fun hu => ⟨hu.1, .event hevents hv.2 hu.2⟩

/-- An event run handles events from where it begins, and closes the books. -/
theorem handlings_runEvents {P : Event → World σ κ → World σ κ → Prop}
    (hhandle : ∀ n e w, w.Fits L { running := true } → Triple (· = w) (handleEvent r n e)
      (fun _ v => v.Fits L { running := true } ∧ P e w v)
        (unlessCut fun v => (∃ b, v.Fits L b) ∧ P e w v))
    (n : Nat) {w : World σ κ} (hw : w.Fits L {}) :
    let J (v : World σ κ) : Prop := v.Fits L {} ∧ ∃ u,
      Handlings P (w.mapMachine ({ · with running := true, paused := false })) u ∧
      v = u.mapMachine
        ({ · with running := false, paused := false, event := none, trigger := none })
    Triple (· = w) (runEvents r n) (fun _ => J) (unlessCut J) := by
  intro J
  have hended {u : World σ κ} (hu : (∃ b, u.Fits L b) ∧ Handlings P (w.mapMachine
      ({ · with running := true, paused := false })) u) : J (u.mapMachine
        ({ · with running := false, paused := false, event := none, trigger := none })) := by
    obtain ⟨⟨b, hb⟩, hu⟩ := hu
    exact ⟨⟨rfl, hb.graph, hb.records, hb.slot⟩, u, hu, rfl⟩
  refine .runEvents (fun _ hv => hv ▸ hw.running) (fun _ hv => hv ▸ rfl)
    (Triple.mono_post (handlings_processEvents hhandle n 0 (hw.setRunning true false)) ?_ ?_)
  · exact fun _ _ hu => hended ⟨⟨_, hu.1⟩, hu.2⟩
  · exact fun _ _ he => he.imp_right hended

variable (hkept : L.Kept r hook)
include hkept

theorem fits_runEvents (hselects : ∀ e x, L.Selects e x → L.records x) (n : Nat) :
    Triple (World.Fits L {}) (runEvents r n) (fun _ => World.Fits L {})
      (unlessCut (World.Fits L {})) := by
  have hhandle (n : Nat) (e : Event) (w : World σ κ) (hw : w.Fits L { running := true }) :
      Triple (· = w) (handleEvent r n e) (fun _ v => v.Fits L { running := true } ∧ True)
        (unlessCut fun v => (∃ b, v.Fits L b) ∧ True) := by
    refine Triple.mono (fits_handleEvent hkept (hselects e) n) ?_ (fun _ _ hv => ⟨hv, trivial⟩)
      fun _ _ he => ?_
    · rintro _ rfl
      exact hw
    · exact he.imp_right fun hv => ⟨hv, trivial⟩
  intro w hw
  exact Triple.mono_post (handlings_runEvents hhandle n hw) (fun _ _ hv => hv.1)
    (fun _ _ he => he.imp_right And.left) w rfl

/-! ### Requests -/

omit hkept in
theorem fits_edit {e : Edit κ} (he : ∀ g, L.graphs g → L.graphs (e.after g)) :
    Keeps (World.Fits L b) (edit e : Engine σ κ e.Answer) :=
  keeps_of_leads fun w hw => ⟨_, leads_edit e w, hw.books, he _ hw.graph, hw.records, hw.slot⟩

omit hkept in
theorem fits_restore {s : Snapshot} (hs : ∀ p ∈ s.transitionQueue, L.args p.args) :
    Keeps (World.Fits L b) (restore s : Engine σ κ (Except SnapshotError Unit)) := by
  refine keeps_of_leads fun w hw => ?_
  rcases leads_restore s w with hsame | ⟨active, pending, hpending, hleads⟩
  · exact ⟨w, hsame, hw⟩
  refine ⟨_, hleads, hw.books, hw.graph, hw.records, fun p hp => ?_⟩
  obtain rfl : pending = some p := hp
  obtain ⟨queued, hmem, hargs⟩ := Snapshot.exists_of_resolvePending hpending
  exact hargs ▸ hs queued hmem

omit hkept in
/-- While a run is under way, a request to run the machine does no more than to resume it. -/
theorem matches_reenter_fits (hb : b.running = true) {x : Engine σ κ RunOutcome}
    (hx : ∀ w, w.machine.running = true → x w = reenter w) :
    Matches (.upTo (World.Fits L b)) x x := by
  rintro _ w ⟨rfl, hw⟩
  rw [hx w (hw.running.trans hb)]
  exact matches_reenter Comparison.posts_fits.toSteers w w ⟨rfl, hw⟩

variable {q : Request κ} (hb : L.Admits b) (hq : q.Meddles b = false)
include hb hq

theorem matches_runs_fits (hruns : q.Runs) (n : Nat) :
    Matches (.upTo (World.Fits L b)) (carryOut r hook n q) (carryOut r hook n q) := by
  -- A run to speak of begins only where nothing is noted: where there is a run already it is that
  -- run that goes on, and where only an event is at hand the request meddles.
  obtain ⟨running, event, trigger⟩ := b
  cases running with
  | true =>
    cases q with
    | run mode => exact matches_reenter_fits rfl fun w => asRun_running
    | runWith mode key => exact matches_reenter_fits rfl fun w => asRun_running
    | runEvents => exact matches_reenter_fits rfl fun w => runEvents_running
    | dispatch e => cases hq
    | _ => exact hruns.elim
  | false =>
  cases event with
  | some e =>
    cases q with
    | run mode => cases hq
    | runWith mode key => cases hq
    | runEvents => cases hq
    | dispatch e => cases hq
    | _ => exact hruns.elim
  | none =>
    obtain ⟨rfl, hplain, hselects⟩ := hb rfl rfl
    refine matches_upTo_iff.mpr ?_
    cases q with
    | run mode => exact fits_run hkept hplain .pure n mode
    | runWith mode key => exact fits_runWith hkept hplain n mode key
    | runEvents => exact fits_runEvents hkept hselects n
    | dispatch e => exact fits_dispatch hkept (hselects e) n
    | _ => exact hruns.elim

variable (hputs : ∀ args, q.Puts args → L.args args)
  (hedits : ∀ e, q = .edit e → ∀ g, L.graphs g → L.graphs (e.after g))
include hputs hedits

theorem matches_replaces_fits (hreplaces : q.Replaces) (n : Nat) :
    Matches (.upTo (World.Fits L b)) (carryOut r hook n q) (carryOut r hook n q) := by
  have hr := hkept.responder hb
  have hkeeps {α : Type} {x : Engine σ κ α} (hx : Keeps (World.Fits L b) x) :
      Matches (.upTo (World.Fits L b)) x x :=
    matches_upTo_iff.mpr (hx.mono_error fun _ _ => .inr)
  cases q with
  | start args => exact matches_start Comparison.fires_fits.toEnters hr args
  | goto s args => exact matches_goto Comparison.fires_fits.toEnters hr s args
  | isolate =>
    refine hkeeps fun w hw => ?_
    rw [carryOut, isolate_running (hw.running.trans (Bool.not_inj hq))]
    exact hw
  | setOptions o => exact hkeeps (.update fun w hw => ⟨hw.books, hw.graph, hw.records, hw.slot⟩)
  | clearHistory => exact matches_clearHistory Comparison.fires_fits.toEnters
  | edit e => exact hkeeps (fits_edit (hedits e rfl))
  | restore s => exact hkeeps (fits_restore fun p hp => hputs p.args ⟨p, hp, rfl⟩)
  | _ => exact hreplaces.elim

/-- A request that does not meddle keeps the books and the ledger. -/
theorem matches_carryOut_fits (n : Nat) :
    Matches (.upTo (World.Fits L b)) (carryOut r hook n q) (carryOut r hook n q) :=
  matches_carryOut_of_posts Comparison.posts_fits (hkept.responder hb) n
    (fun args hargs => matches_queueTransition_fits (hputs args hargs))
    (fun hruns => matches_runs_fits hkept hb hq hruns n)
    fun hreplaces => matches_replaces_fits hkept hb hq hputs hedits hreplaces n

end Engine

end Statechart
