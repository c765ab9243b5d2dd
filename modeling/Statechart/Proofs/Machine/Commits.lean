import Statechart.Proofs.Machine.Calls
import Statechart.Proofs.Machine.Journal

/-!
# Commits

As long as a machine goes on recording and is not isolated, what it does to its history comes to
commits. One is made for every transition that is told to have fired, one for every start and for
every state that the machine is put into, and one whenever the history is emptied, and no others.
-/

namespace Statechart

open Json

variable {σ κ : Type}

/-- Where the record says that the machine went. -/
def HistoryRecord.move (x : HistoryRecord) : Move := (x.previous, x.transition, x.new)

/-- What a machine does to its history at once. -/
inductive Commit where
  /-- A transition has fired. -/
  | fired (x : HistoryRecord)
  /-- The machine has been put into a state, with which the history begins anew. -/
  | seeded (x : HistoryRecord)
  /-- The history has been emptied. -/
  | cleared

namespace Commit

def record? : Commit → Option HistoryRecord
  | .fired x | .seeded x => some x
  | .cleared => none

/-- The history begins anew. -/
def Renews : Commit → Prop
  | .fired _ => False
  | _ => True

/-- What becomes of the history. -/
def revise : Commit → List HistoryRecord → List HistoryRecord
  | .fired x, records => records ++ [x]
  | .seeded x, _ => [x]
  | .cleared, _ => []

/-- What is done to the log. -/
def changes : Commit → List LogChange
  | .fired x => [.append x]
  | .seeded x => [.clear, .append x]
  | .cleared => [.clear]

def fired? : Commit → Option Move
  | .fired x => some x.move
  | _ => none

/-- The move that the history begins anew with, if there is one. -/
def renewed? : Commit → Option (Option Move)
  | .fired _ => none
  | .seeded x => some (some x.move)
  | .cleared => some none

theorem revise_of_renews {c : Commit} (hc : c.Renews) (records : List HistoryRecord) :
    c.revise records = c.record?.toList := by
  cases c with
  | fired x => exact hc.elim
  | seeded x => rfl
  | cleared => rfl

theorem revise_of_not_renews {c : Commit} (hc : ¬ c.Renews) (records : List HistoryRecord) :
    c.revise records = records ++ c.record?.toList := by
  cases c with
  | fired x => rfl
  | seeded x => exact absurd trivial hc
  | cleared => exact absurd trivial hc

theorem foldl_changes (cs : List Commit) (records : List HistoryRecord) :
    (cs.flatMap changes).foldl (fun records c => c.revise records) records =
      cs.foldl (fun records c => c.revise records) records := by
  induction cs generalizing records with
  | nil => rfl
  | cons c cs ih =>
    rw [List.flatMap_cons, List.foldl_append, ih, List.foldl_cons]
    congr 1
    cases c <;> rfl

theorem appended_changes (cs : List Commit) :
    LogChange.appended (cs.flatMap changes) = cs.filterMap record? := by
  induction cs with
  | nil => rfl
  | cons c cs ih =>
    rw [List.flatMap_cons, LogChange.appended_append, ih]
    cases c <;> rfl

end Commit

namespace Request

/-- The request leaves the records of the machine what they are and the machine recording. -/
def Recording : Request κ → Prop
  | .isolate => False
  | .setOptions o => o.recordHistory = true
  | _ => True

/-- What the history begins anew with when the request succeeds, if it does begin anew. -/
def renewed? : (q : Request κ) → q.Answer → Option (Option Move)
  | .start _, s => some (some (none, none, s))
  | .goto .., s => some (some (none, none, s))
  | .clearHistory, _ => some none
  | _, _ => none

end Request

/-- What the history begins anew with once the call has been made. -/
def Call.renewed? (c : Call σ κ) : Option (Option Move) :=
  c.outcome.toOption.bind c.request.renewed?

namespace World

variable {l : HistoryLog} {st : LogStore} {since : Nat} {w v : World (Diary σ κ) κ}
  {due : List (Option Move)}

/-- All calls made so far leave the machine recording. -/
def Recorded (w : World (Diary σ κ) κ) : Prop := ∀ c ∈ w.env.calls, c.request.Recording

/-- Since the logs were as given, the machine has made these commits: one for every transition told
to have fired, and one for every time that the history has been begun anew by a call, or is about to
have been. -/
structure Committed (l : HistoryLog) (st : LogStore) (since : Nat) (cs : List Commit)
    (due : List (Option Move)) (w : World (Diary σ κ) κ) : Prop where
  history : w.machine.history = l
  recording : w.machine.options.recordHistory = true
  logs : w.logs = st.replay l (cs.flatMap Commit.changes)
  fired : cs.filterMap Commit.fired? = (w.notices.drop since).filterMap Notice.move?
  renewed : cs.filterMap Commit.renewed? = w.env.calls.filterMap Call.renewed? ++ due

/-- As long as all calls leave the machine recording, it makes commits. -/
structure Commits (l : HistoryLog) (st : LogStore) (since : Nat) (due : List (Option Move))
    (w : World (Diary σ κ) κ) : Prop where
  begun : since ≤ w.notices.length
  made : w.Recorded → ∃ cs, w.Committed l st since cs due

theorem commits_opened {w : World σ κ} (hrecording : w.machine.options.recordHistory = true) :
    w.opened.Commits w.machine.history w.logs w.notices.length [] := by
  refine ⟨Nat.le_refl _, fun _ => ⟨[], rfl, hrecording, rfl, ?_, rfl⟩⟩
  show _ = (w.notices.drop w.notices.length).filterMap Notice.move?
  rw [List.drop_length]
  rfl

theorem Commits.map (h : w.Commits l st since due) {f : Machine κ → Machine κ}
    (hhistory : (f w.machine).history = w.machine.history)
    (hrecording : w.machine.options.recordHistory = true →
      (f w.machine).options.recordHistory = true) : (w.mapMachine f).Commits l st since due := by
  refine ⟨h.begun, fun hcalls => ?_⟩
  obtain ⟨cs, hcs⟩ := h.made hcalls
  exact ⟨cs, hhistory.trans hcs.history, hrecording hcs.recording, hcs.logs, hcs.fired, hcs.renewed⟩

theorem Commits.notify (h : w.Commits l st since due) {n : Notice} (hn : n.move? = none) :
    (w.notify n).Commits l st since due := by
  refine ⟨le_length_notify h.begun n, fun hcalls => ?_⟩
  obtain ⟨cs, hcs⟩ := h.made hcalls
  refine ⟨cs, hcs.history, hcs.recording, hcs.logs, hcs.fired.trans ?_, hcs.renewed⟩
  rw [World.notify, List.drop_append_of_le_length h.begun, List.filterMap_append,
    List.filterMap_cons_none hn]
  exact (List.append_nil _).symm

/-- The machine makes a commit. -/
theorem Commits.concat (h : w.Commits l st since due) {c : Commit} {ns : List Notice}
    (hmachine : v.machine = w.machine) (hcalls : v.env.calls = w.env.calls)
    (hnotices : v.notices = w.notices ++ ns)
    (hlogs : w.machine.options.recordHistory = true →
      v.logs = w.logs.replay w.machine.history c.changes)
    (hfired : c.fired?.toList = ns.filterMap Notice.move?) :
    v.Commits l st since (due ++ c.renewed?.toList) := by
  have hbegun : since ≤ v.notices.length := by
    rw [hnotices, List.length_append]
    exact Nat.le_add_right_of_le h.begun
  refine ⟨hbegun, fun hrecorded => ?_⟩
  rw [Recorded, hcalls] at hrecorded
  obtain ⟨cs, hcs⟩ := h.made hrecorded
  have hone {α : Type} (f : Commit → Option α) : (cs ++ [c]).filterMap f =
      cs.filterMap f ++ (f c).toList :=
    List.filterMap_append
  refine ⟨cs ++ [c], by rw [hmachine, hcs.history], by rw [hmachine, hcs.recording], ?_, ?_, ?_⟩
  · rw [hlogs hcs.recording, hcs.logs, hcs.history, List.flatMap_append, LogStore.replay_append,
      List.flatMap_singleton]
  · rw [hone, hcs.fired, hfired, hnotices, List.drop_append_of_le_length h.begun,
      List.filterMap_append]
  · rw [hone, hcs.renewed, hcalls, List.append_assoc]

/-- The call that was about to have begun the history anew has been made. -/
theorem Commits.log {c : Call σ κ} (h : w.Commits l st since c.renewed?.toList) :
    (w.log c).Commits l st since [] := by
  refine ⟨h.begun, fun hcalls => ?_⟩
  obtain ⟨cs, hcs⟩ := h.made fun k hk => hcalls k (List.mem_append_left _ hk)
  refine ⟨cs, hcs.history, hcs.recording, hcs.logs, hcs.fired, hcs.renewed.trans ?_⟩
  rw [World.log, List.filterMap_append, List.append_nil]
  rfl

/-- Of a machine that has been called for anything else nothing is said. -/
theorem commits_log {c : Call σ κ} (hsince : since ≤ w.notices.length)
    (hc : ¬ c.request.Recording) :
    (w.log c).Commits l st since [] :=
  ⟨hsince, fun hcalls => absurd (hcalls c (List.mem_append_right _ List.mem_cons_self)) hc⟩

end World

namespace Engine

variable {l : HistoryLog} {st : LogStore} {since : Nat} {due : List (Option Move)}
  {r : Responder (Diary σ κ) κ} {hook : κ → Engine (Diary σ κ) κ Unit}

theorem outlasts_commits : Outlasts (World.Commits (σ := σ) (κ := κ) l st since due) :=
  ⟨fun _ hf hf' h => h.map hf fun hrecording => hf' ▸ hrecording, fun hn h => h.notify hn⟩

theorem recordHistory_cases (previous : Option StateId) (t : Option TransitionId) (new : StateId)
    (w : World σ κ) :
    ∃ logs, recordHistory previous t new w = .ok () { w with logs } ∧
      (w.machine.options.recordHistory = true →
      logs = w.logs.append w.machine.history (recordOf w previous t new)) := by
  by_cases hrecording : w.machine.options.recordHistory = true
  · refine ⟨_, ?_, fun _ => rfl⟩
    show EStateM.Result.ok () (if _ then _ else _) = _
    rw [if_pos hrecording]
  · refine ⟨w.logs, ?_, fun h => absurd h hrecording⟩
    show EStateM.Result.ok () (if _ then _ else _) = _
    rw [if_neg hrecording]

/-- A firing that is told of is recorded. -/
theorem commits_fired (previous : Option StateId) (t : TransitionId) (new : StateId) :
    Keeps (World.Commits (σ := σ) (κ := κ) l st since [])
      (do recordHistory previous (some t) new; notify (.transitionFired t previous new)) := by
  intro w hw
  obtain ⟨logs, hrecord, hlogs⟩ := recordHistory_cases previous (some t) new w
  rw [bind_of_ok hrecord]
  exact hw.concat (c := .fired (recordOf w previous (some t) new)) rfl rfl rfl hlogs rfl

/-- A state that the machine is put into is recorded, and nothing before. -/
theorem commits_seeded (s : StateId) :
    Triple (World.Commits (σ := σ) (κ := κ) l st since []) (do
        clearHistory
        recordHistory none none s)
      (fun _ => World.Commits l st since [some (none, none, s)])
      fun _ => World.Commits l st since [] := by
  intro w hw
  obtain ⟨logs, hrecord, hlogs⟩ :=
    recordHistory_cases none none s { w with logs := w.logs.clear w.machine.history }
  have hdone :
      (do clearHistory; recordHistory none none s : Engine (Diary σ κ) κ Unit) w =
        .ok () { w with logs } := hrecord
  rw [hdone]
  exact hw.concat (c := .seeded (recordOf w none none s)) rfl rfl (List.append_nil _).symm hlogs rfl

theorem commits_cleared : Triple (World.Commits (σ := σ) (κ := κ) l st since []) clearHistory
    (fun _ => World.Commits l st since [none]) fun _ => World.Commits l st since [] :=
  .modify fun _ hw => hw.concat (c := .cleared) rfl rfl (List.append_nil _).symm (fun _ => rfl) rfl

section
variable (hr : r.Keeps (World.Commits l st since [])) (hgrow : ∀ s, r.Keeps (World.Reaches since s))
  (hhook : ∀ key, Keeps (World.Commits l st since []) (hook key))
include hr hgrow hhook

/-- A request that leaves the machine recording makes the commits that there are to make. -/
theorem commits_carryOut (n : Nat) {q : Request κ} (hq : q.Recording) :
    Triple (World.Commits l st since []) (carryOut r hook n q)
      (fun a => World.Commits l st since (q.renewed? a).toList) fun _ =>
        World.Commits l st since [] := by
  have hI : Outlasts (World.Commits (σ := σ) (κ := κ) l st since []) := outlasts_commits
  have hsince (w : World (Diary σ κ) κ) (hw : w.Commits l st since []) : since ≤
    w.notices.length := hw.begun
  have hseed (s : StateId) :
      Triple (fun w : World (Diary σ κ) κ => w.Commits l st since [] ∧ w.Reaches since s)
        (do clearHistory; recordHistory none none s)
        (fun _ => World.Commits l st since [some (none, none, s)])
        fun _ => World.Commits l st since [] :=
    (commits_seeded s).mono_pre fun _ hw => hw.1
  have hfire := hI.fireTransition hr hgrow hsince fun previous t new =>
    (commits_fired previous t new).mono_pre fun _ hw => hw.1
  cases q with
  | start args => exact hI.start hr hgrow hsince hseed (fun _ => outlasts_commits) args
  | goto s args => exact hI.goto hr hgrow hsince hseed s args
  | clearHistory => exact commits_cleared
  | setOptions o => exact Triple.update fun _ hw => hw.map rfl fun _ => hq
  | isolate => exact hq.elim
  | _ => exact hI.carryOut hr hfire hhook n _ False.elim

end

end Engine

namespace Host

variable {h : Host σ κ} {l : HistoryLog} {st : LogStore} {since n : Nat} {q : Request κ}
  {w w' : World σ κ} {o : Except MachineError q.Answer}

/-- What has been told stays told. -/
theorem keeps_told (h : Host σ κ) (n : Nat) (q : Request κ) :
    Engine.Keeps (fun w => since ≤ w.notices.length) (h.perform n q) := by
  have hheedless : World.Heedless fun w : World σ κ => since ≤ w.notices.length :=
    ⟨fun _ hw => hw, fun _ hw => hw, fun n hw => World.le_length_notify hw n⟩
  exact keeps_heedless hheedless (fun hw => hw) (fun _ _ hw => hw) h n q

/-- A request noted as a call keeps the account of the commits. -/
theorem commits_noted {q : Request κ} {x : Engine (Diary σ κ) κ q.Answer}
    (hx : q.Recording → Engine.Triple (World.Commits l st since []) x
      (fun a => World.Commits l st since (q.renewed? a).toList) fun _ =>
        World.Commits l st since [])
    (hsince : Engine.Keeps (fun w => since ≤ w.notices.length) x)
    (hcut : ¬ q.Recording → ∀ w v, x w = .error .exhausted v → v = w) :
    Engine.Keeps (World.Commits l st since []) (Engine.noted q x) := by
  refine Engine.keeps_noted (fun w hw o v hv => ?_) fun w hw v hv => ?_
  · by_cases hq : q.Recording
    · have hended := hx hq w hw
      rcases Engine.of_attempt hv with ⟨a, rfl, ha⟩ | ⟨e, rfl, he⟩
      · rw [ha] at hended
        exact World.Commits.log hended
      · rw [he] at hended
        exact World.Commits.log hended
    · have hlater := hsince.attempt w hw.begun
      rw [hv] at hlater
      exact World.commits_log hlater hq
  · by_cases hq : q.Recording
    · have hended := hx hq w hw
      rw [hv] at hended
      exact hended
    · exact hcut hq w v hv ▸ hw

/-- A request that does not leave the machine recording runs no bodies, and is not cut off by
them. -/
theorem noting_not_recording (hq : ¬ q.Recording) {v v' : World (Diary σ κ) κ}
    (hcut : h.noting n q v = .error .exhausted v') : v' = v := by
  cases n with
  | zero =>
    cases hcut
    rfl
  | succ n =>
    cases q with
    | isolate =>
      have hcut : Engine.isolate v = .error .exhausted v' := hcut
      obtain ⟨u, ⟨a, ha⟩ | ⟨e, he⟩⟩ : ∃ u, Engine.isolate.Leads v u := by
        rcases Engine.leads_isolate v with hsame | ⟨g, c, active, pending, -, -, hisolated⟩
        · exact ⟨v, hsame⟩
        · exact ⟨_, hisolated⟩
      · cases hcut.symm.trans ha
      · cases hcut.symm.trans he
    | setOptions o => cases hcut
    | _ => exact absurd trivial hq

theorem commits_noting (h : Host σ κ) (n : Nat) (q : Request κ) (hq : q.Recording) :
    Engine.Triple (World.Commits l st since []) (h.noting n q)
      (fun a => World.Commits l st since (q.renewed? a).toList) fun _ =>
        World.Commits l st since [] := by
  induction n generalizing q with
  | zero => exact fun _ hw => hw
  | succ n ih =>
    have hsince (q : Request κ) : Engine.Keeps (fun w => since ≤ w.notices.length) (h.noting n q) :=
      (forgetting_noting n q).keeps_of_forgetting (h.keeps_told n q)
    have hcall (q : Request κ) : Engine.Keeps (World.Commits l st since []) (h.calling n q) :=
      commits_noted (ih q) (hsince q) fun hq w v hv => noting_not_recording hq hv
    have hprivate : World.Private (World.Commits (σ := σ) (κ := κ) l st since []) := fun w env hw =>
      ⟨hw.begun, fun hrecorded => (hw.made hrecorded).imp fun cs hcs =>
        ⟨hcs.history, hcs.recording, hcs.logs, hcs.fired, hcs.renewed⟩⟩
    refine Engine.commits_carryOut (keeps_diarist hprivate hcall)
      (fun s => ?_) (keeps_callingHook hprivate hcall) n hq
    exact (forgetting_diarist n).keeps_of_forgetting
      (keeps_responder (fun _ _ h => h) h.makes_any fun q _ => h.keeps_reaches s n q)

/-- What is asked for in the course of a request, which comes last. -/
def asked (h : Host σ κ) (n : Nat) (q : Request κ) (w : World σ κ)
    (o : Except MachineError q.Answer) (w' : World σ κ) : List (Call σ κ) :=
  h.calls n q w ++ [⟨q, w, o, w'⟩]

/-- As long as all that is asked for leaves the machine recording, an operation comes to commits,
and the machine goes on recording in the same log. -/
theorem commits_of_attempt (hrecording : w.machine.options.recordHistory = true)
    (hended : Engine.attempt (h.perform n q) w = .ok o w')
    (hasked : ∀ c ∈ h.asked n q w o w', c.request.Recording) :
    w'.machine.history = w.machine.history ∧ w'.machine.options.recordHistory = true ∧
      ∃ cs : List Commit,
      w'.logs = w.logs.replay w.machine.history (cs.flatMap Commit.changes) ∧
      cs.filterMap Commit.fired? = (w'.notices.drop w.notices.length).filterMap Notice.move? ∧
      cs.filterMap Commit.renewed? = (h.asked n q w o w').filterMap Call.renewed? := by
  obtain ⟨v, hv, rfl, hcalls⟩ := noting_of_attempt hended
  have hq : q.Recording := hasked _ (List.mem_append_right _ List.mem_cons_self)
  have hlater : v.Commits w.machine.history w.logs w.notices.length
      (Call.renewed? ⟨q, w, o, v.plain⟩ : Option (Option Move)).toList := by
    have hnoted := h.commits_noting n q hq w.opened (World.commits_opened hrecording)
    rcases Engine.of_attempt hv with ⟨a, rfl, ha⟩ | ⟨e, rfl, he⟩
    · rw [ha] at hnoted
      exact hnoted
    · rw [he] at hnoted
      exact hnoted
  obtain ⟨cs, hcs⟩ := hlater.made fun c hc => hasked c (List.mem_append_left _ (hcalls ▸ hc))
  refine ⟨hcs.history, hcs.recording, cs, hcs.logs, hcs.fired, hcs.renewed.trans ?_⟩
  rw [asked, hcalls, List.filterMap_append]
  rfl

end Host

end Statechart
