import Statechart.Proofs.Machine.Outlasting

/-!
# What a machine does to the logs

Of a store of logs a machine changes only its own log and the one that this passes its records on
to. Whatever is asked of the machine comes to a list of changes of its log: records are appended,
the log is emptied, or it is mapped in place. Every record appended is of a state that the machine
has told to be in.
-/

namespace Statechart

open Json

variable {σ κ α : Type}

/-- What a machine may do to its log. -/
inductive LogChange where
  | append (x : HistoryRecord)
  | clear
  | remap (f : HistoryRecord → Option HistoryRecord)

namespace LogChange

/-- What becomes of the records of the log. -/
def revise : LogChange → List HistoryRecord → List HistoryRecord
  | .append x, records => records ++ [x]
  | .clear, _ => []
  | .remap f, records => records.filterMap f

def appended? : LogChange → Option HistoryRecord
  | .append x => some x
  | _ => none

/-- The records that changes append, in order. -/
def appended (cs : List LogChange) : List HistoryRecord := cs.filterMap appended?

theorem appended_append (cs ds : List LogChange) :
    appended (cs ++ ds) = appended cs ++ appended ds :=
  List.filterMap_append

end LogChange

namespace LogStore

variable {st : LogStore} {l : HistoryLog} {c : LogChange} {cs : List LogChange} {n : Nat}

def change (st : LogStore) (l : HistoryLog) : LogChange → LogStore
  | .append x => st.append l x
  | .clear => st.clear l
  | .remap f => st.remap l f

/-- Changes of one log, one after the other. -/
def replay (st : LogStore) (l : HistoryLog) (cs : List LogChange) : LogStore :=
  cs.foldl (·.change l ·) st

theorem replay_append (cs ds : List LogChange) :
    st.replay l (cs ++ ds) = (st.replay l cs).replay l ds :=
  List.foldl_append

/-! ## One change -/

theorem size_change (c : LogChange) : (st.change l c).logs.size = st.logs.size := by
  cases c with
  | append x => exact size_append x
  | clear => exact size_update ..
  | remap f => exact size_update ..

theorem records_change (hparent : l.parent ≠ some l.own) (hstored : l.own < st.logs.size)
    (c : LogChange) : (st.change l c).records l = c.revise (st.records l) := by
  cases c with
  | append x => exact records_append hparent hstored x
  | clear => exact records_clear
  | remap f => exact records_remap f

theorem recordsAt_update_of_ne {m : Nat} (h : n ≠ m) (f : List HistoryRecord → List HistoryRecord) :
    (st.update n f).recordsAt m = st.recordsAt m := by
  rw [recordsAt_update, if_neg h]

/-- The log that a log passes its records on to gets what is appended, and nothing else happens to
it. -/
theorem recordsAt_change_of_parent (hparent : l.parent = some n) (hown : n ≠ l.own)
    (hstored : n < st.logs.size) (c : LogChange) :
    (st.change l c).recordsAt n = st.recordsAt n ++ c.appended?.toList := by
  cases c with
  | append x =>
    rw [change, append, hparent]
    refine (recordsAt_update_of_ne hown.symm _).trans ?_
    rw [recordsAt_update, if_pos rfl, recordsAt, Array.getElem?_eq_getElem hstored]
    rfl
  | clear => exact (recordsAt_update_of_ne hown.symm _).trans (List.append_nil _).symm
  | remap f => exact (recordsAt_update_of_ne hown.symm _).trans (List.append_nil _).symm

/-- A log further up gets nothing, nor does any other. -/
theorem recordsAt_change_of_ne (hown : n ≠ l.own) (hparent : l.parent ≠ some n) (c : LogChange) :
    (st.change l c).recordsAt n = st.recordsAt n := by
  cases c with
  | append x =>
    rw [change, append]
    cases hp : l.parent with
    | none => exact recordsAt_update_of_ne hown.symm _
    | some p =>
      have hne : p ≠ n := fun heq => hparent (heq ▸ hp)
      exact (recordsAt_update_of_ne hown.symm _).trans (recordsAt_update_of_ne hne _)
  | clear => exact recordsAt_update_of_ne hown.symm _
  | remap f => exact recordsAt_update_of_ne hown.symm _

/-! ## Many changes -/

theorem size_replay (cs : List LogChange) : (st.replay l cs).logs.size = st.logs.size := by
  induction cs generalizing st with
  | nil => rfl
  | cons c cs ih => exact ih.trans (size_change c)

theorem records_replay (hparent : l.parent ≠ some l.own) (hstored : l.own < st.logs.size)
    (cs : List LogChange) :
    (st.replay l cs).records l = cs.foldl (fun records c => c.revise records) (st.records l) := by
  induction cs generalizing st with
  | nil => rfl
  | cons c cs ih =>
    have hsize : l.own < (st.change l c).logs.size := by
      rw [size_change]
      exact hstored
    refine (ih hsize).trans ?_
    rw [records_change hparent hstored, List.foldl_cons]

theorem recordsAt_replay_of_parent (hparent : l.parent = some n) (hown : n ≠ l.own)
    (hstored : n < st.logs.size) (cs : List LogChange) :
    (st.replay l cs).recordsAt n = st.recordsAt n ++ LogChange.appended cs := by
  induction cs generalizing st with
  | nil => exact (List.append_nil _).symm
  | cons c cs ih =>
    have hsize : n < (st.change l c).logs.size := by
      rw [size_change]
      exact hstored
    have hrest := ih hsize
    rw [recordsAt_change_of_parent hparent hown hstored, List.append_assoc] at hrest
    refine hrest.trans (congrArg _ ?_)
    cases c <;> rfl

theorem recordsAt_replay_of_ne (hown : n ≠ l.own) (hparent : l.parent ≠ some n)
    (cs : List LogChange) : (st.replay l cs).recordsAt n = st.recordsAt n := by
  induction cs generalizing st with
  | nil => rfl
  | cons c cs ih => exact ih.trans (recordsAt_change_of_ne hown hparent c)

end LogStore

/-! ## Machines -/

namespace World

variable {l : HistoryLog} {st : LogStore} {since : Nat} {w : World σ κ}

/-- Since the logs were as given, the machine has changed nothing but its log, by changes that
append only records of states that it has told to be in. -/
structure Journals (l : HistoryLog) (st : LogStore) (since : Nat) (w : World σ κ) : Prop where
  history : w.machine.history = l
  begun : since ≤ w.notices.length
  changes : ∃ cs, w.logs = st.replay l cs ∧ ∀ x ∈ LogChange.appended cs, w.Reaches since x.new

theorem journals_self (w : World σ κ) : w.Journals w.machine.history w.logs w.notices.length :=
  ⟨rfl, Nat.le_refl _, [], rfl, nofun⟩

theorem Journals.map (h : w.Journals l st since) {f : Machine κ → Machine κ}
    (hhistory : (f w.machine).history = w.machine.history) : (w.mapMachine f).Journals l st since :=
  ⟨hhistory.trans h.history, h.begun, h.changes⟩

theorem Journals.setEnv {τ : Type} (h : w.Journals l st since) (env : τ) (now : Instant) :
    ({ w with env, now } : World τ κ).Journals l st since :=
  ⟨h.history, h.begun, h.changes⟩

theorem Journals.notify (h : w.Journals l st since) (n : Notice) :
    (w.notify n).Journals l st since := by
  obtain ⟨cs, hlogs, htold⟩ := h.changes
  exact ⟨h.history, le_length_notify h.begun n, cs, hlogs, fun x hx => (htold x hx).notify n⟩

/-- A record may be appended of a state that the machine has told to be in. -/
theorem Journals.change (h : w.Journals l st since) (c : LogChange)
    (hc : ∀ x ∈ c.appended?, w.Reaches since x.new) :
    ({ w with logs := w.logs.change w.machine.history c } : World σ κ).Journals l st since := by
  obtain ⟨cs, hlogs, htold⟩ := h.changes
  refine ⟨h.history, h.begun, cs ++ [c], ?_, fun x hx => ?_⟩
  · show w.logs.change w.machine.history c = _
    rw [LogStore.replay_append, hlogs, h.history]
    rfl
  · rw [LogChange.appended_append] at hx
    rcases List.mem_append.mp hx with hx | hx
    · exact htold x hx
    · obtain ⟨d, hd, hx⟩ := List.mem_filterMap.mp hx
      exact hc x (List.mem_singleton.mp hd ▸ hx)

end World

namespace Engine

variable {l : HistoryLog} {st : LogStore} {since : Nat} {r : Responder σ κ}

theorem outlasts_journals : Outlasts (World.Journals (σ := σ) (κ := κ) l st since) :=
  ⟨fun _ hf _ h => h.map hf, fun {_ n} _ h => h.notify n⟩

theorem journals_recordHistory (previous : Option StateId) (t : Option TransitionId) (s : StateId) :
    Triple (fun w : World σ κ => w.Journals l st since ∧ w.Reaches since s)
      (recordHistory previous t s)
      (fun _ => World.Journals l st since) fun _ => World.Journals l st since := by
  refine .modify fun w hw => ?_
  split
  · exact hw.1.change (.append (recordOf w previous t s)) fun x hx => Option.some.inj hx ▸ hw.2
  · exact hw.1

theorem journals_clearHistory : Keeps (World.Journals (σ := σ) (κ := κ) l st since) clearHistory :=
  .modify fun _ hw => hw.change .clear nofun

theorem journals_isolate : Keeps (World.Journals (σ := σ) (κ := κ) l st since) isolate := by
  refine keeps_of_leads fun w hw => ?_
  rcases leads_isolate w with hsame | ⟨g, c, active, pending, -, -, hleads⟩
  · exact ⟨w, hsame, hw⟩
  · exact ⟨_, hleads, (hw.change (.remap (·.copied c)) nofun).map rfl⟩

section
variable (hr : r.Keeps (World.Journals l st since)) (hgrow : ∀ s, r.Keeps (World.Reaches since s))
include hr hgrow

theorem journals_fireTransition (p : Pending) :
    Keeps (World.Journals l st since) (fireTransition r p) :=
  outlasts_journals.fireTransition hr hgrow (fun _ hw => hw.begun)
    (fun previous t new => .bind (journals_recordHistory previous (some t) new) fun _ =>
      .notify fun _ hw => hw.notify _) p

/-- Whatever is asked of a machine changes nothing but its log. -/
theorem journals_carryOut {hook : κ → Engine σ κ Unit}
    (hhook : ∀ key, Keeps (World.Journals l st since) (hook key)) (n : Nat) (q : Request κ) :
    Keeps (World.Journals l st since) (carryOut r hook n q) := by
  have hI : Outlasts (World.Journals (σ := σ) (κ := κ) l st since) := outlasts_journals
  have hseed (s : StateId) : Triple (fun w : World σ κ => w.Journals l st since ∧ w.Reaches since s)
      (do clearHistory; recordHistory none none s) (fun _ => World.Journals l st since)
      fun _ => World.Journals l st since := by
    refine .bind (Q := fun _ w => w.Journals l st since ∧ w.Reaches since s) ?_ fun _ => ?_
    · exact .modify fun _ hw => ⟨hw.1.change .clear nofun, hw.2⟩
    · exact journals_recordHistory none none s
  refine hI.carryOut hr (journals_fireTransition hr hgrow) hhook n q fun hwrites => ?_
  cases q with
  | start args => exact hI.start hr hgrow (fun _ hw => hw.begun) hseed (fun _ => hI) args
  | goto s args => exact hI.goto hr hgrow (fun _ hw => hw.begun) hseed s args
  | isolate => exact journals_isolate
  | setOptions o => exact .update fun _ hw => hw.map rfl
  | clearHistory => exact journals_clearHistory
  | _ => exact hwrites.elim

end

end Engine

namespace Host

variable (h : Host σ κ) {l : HistoryLog} {st : LogStore} {since : Nat} {q : Request κ}
  {w w' : World σ κ}

/-- What a machine has told is not taken back. -/
theorem keeps_reaches (s : StateId) (n : Nat) (q : Request κ) :
    Engine.Keeps (World.Reaches since s) (h.perform n q) :=
  keeps_heedless ⟨fun _ h => h, fun _ h => h, fun n h => h.notify n⟩ (fun h => h)
    (fun _ _ h => h) h n q

/-- Whatever is asked of a machine, and whatever the bodies that it runs into ask for in turn,
changes nothing but its log. -/
theorem keeps_journals (n : Nat) (q : Request κ) :
    Engine.Keeps (World.Journals l st since) (h.perform n q) := by
  refine keeps_perform (C := fun r _ => ∀ s, r.Keeps (World.Reaches since s)) (A := fun _ => True)
    (fun _ _ h => h.setEnv _ _) h.makes_any (fun n s => ?_)
      (fun r hook n q hgrow hr hhook _ => ?_) n trivial
  · exact keeps_responder (A := fun _ => True) (fun _ _ h => h) h.makes_any fun q _ =>
      h.keeps_reaches s n q
  · exact Engine.journals_carryOut hr hgrow hhook n q

theorem Step.journals {h : Host σ κ} (hs : h.Step q w w')
    (hw : w.Journals l st since) : w'.Journals l st since := by
  obtain ⟨n, env, now, hn⟩ := hs
  exact (h.keeps_journals n q).leads (hw.setEnv env now) hn

end Host

end Statechart
