import Statechart.Proofs.Machine.Commits
import Statechart.Proofs.Machine.Lineage

/-!
# Machines that share a history

A clan is a machine with all that come from it: machines spawned from members so that they pass
their records on, and forks of members. Whatever is asked of them, and in whatever order, their
histories are told by the commits that they make. A member's history is begun anew by itself alone,
and since then it is what the member itself, the machines spawned from it and the forks of these
have recorded, all in the order in which they did, each record once.
-/

namespace Statechart

variable {κ : Type}

/-- A machine among those that come from one. -/
structure Member (κ : Type) where
  machine : Machine κ
  /-- The number of the member that it was spawned from, or if it is a fork, that the first of its
  line was. -/
  parent : Option Nat
  /-- The records that its history has begun with. -/
  birth : List HistoryRecord

structure Clan (κ : Type) where
  members : List (Member κ)
  logs : LogStore

/-- A commit, with the number of the member that makes it. -/
structure Deed where
  actor : Nat
  commit : Commit

namespace Deed

variable {parent? : Nat → Option Nat} {p i : Nat} {records : List HistoryRecord} {ds : List Deed}

/-- What a deed makes of the history of the member numbered `p`. -/
def bear (parent? : Nat → Option Nat) (p : Nat) (records : List HistoryRecord)
    (d : Deed) : List HistoryRecord :=
  if d.actor = p then d.commit.revise records
  else if parent? d.actor = some p then records ++ d.commit.record?.toList
  else records

theorem foldl_bear_own (cs : List Commit) : (cs.map (⟨p, ·⟩)).foldl (bear parent? p) records =
    cs.foldl (fun records c => c.revise records) records := by
  rw [List.foldl_map]
  congr 1
  funext records c
  exact if_pos rfl

theorem foldl_bear_passed (hip : i ≠ p) (hparent : parent? i = some p) (cs : List Commit) :
    (cs.map (⟨i, ·⟩)).foldl (bear parent? p) records = records ++ cs.filterMap Commit.record? := by
  induction cs generalizing records with
  | nil => exact (List.append_nil _).symm
  | cons c cs ih =>
    rw [List.map_cons, List.foldl_cons, ih, bear, if_neg hip, if_pos hparent, List.append_assoc]
    congr 1
    cases c <;> rfl

theorem foldl_bear_congr {parent?' : Nat → Option Nat}
    (h : ∀ d ∈ ds, parent? d.actor = parent?' d.actor) (records : List HistoryRecord) :
    ds.foldl (bear parent? p) records = ds.foldl (bear parent?' p) records := by
  induction ds generalizing records with
  | nil => rfl
  | cons d ds ih =>
    rw [List.foldl_cons, List.foldl_cons,
      ih (fun d hd => h d (List.mem_cons_of_mem _ hd)), bear, bear,
      h d List.mem_cons_self]

/-- Deeds of others do not bear on a history. -/
theorem foldl_bear_of_others (h : ∀ d ∈ ds, d.actor ≠ p ∧ parent? d.actor ≠ some p)
    (records : List HistoryRecord) : ds.foldl (bear parent? p) records = records := by
  induction ds with
  | nil => rfl
  | cons d ds ih =>
    have hd := h d List.mem_cons_self
    rw [List.foldl_cons, bear, if_neg hd.1, if_neg hd.2,
      ih fun d hd => h d (List.mem_cons_of_mem _ hd)]

theorem foldl_bear_other (hip : i ≠ p) (hparent : parent? i ≠ some p) (cs : List Commit) :
    (cs.map (⟨i, ·⟩)).foldl (bear parent? p) records = records := by
  refine foldl_bear_of_others (fun d hd => ?_) records
  obtain ⟨c, -, rfl⟩ := List.mem_map.mp hd
  exact ⟨hip, hparent⟩

end Deed

namespace LogStore

variable {st : LogStore} {l : HistoryLog}

theorem records_allocate (records : List HistoryRecord) (parent : Option Nat) :
    (st.allocate records parent).2.records (st.allocate records parent).1 = records := by
  rw [LogStore.records, recordsAt, allocate, Array.getElem?_push_size]
  rfl

theorem records_allocate_of_stored (hl : l.own < st.logs.size) (records : List HistoryRecord)
    (parent : Option Nat) : (st.allocate records parent).2.records l = st.records l := by
  rw [LogStore.records, LogStore.records, recordsAt, recordsAt, allocate, Array.getElem?_push_lt hl,
    Array.getElem?_eq_getElem hl]

end LogStore

namespace Clan

/-- What is done next: a member is asked for something, with what is then told and what its history
is begun anew with, or another machine is made from a member. -/
inductive Turn where
  | work (actor : Nat) (told : List Notice) (renewed : List (Option Move))
  | spawn (actor : Nat)
  | fork (actor : Nat)

namespace Turn

def actor : Turn → Nat
  | .work i _ _ | .spawn i | .fork i => i

/-- The commits are those that there are to make: one for every transition told to have fired, and
one for every time that the history is begun anew. -/
def Comprises : Turn → List Commit → Prop
  | .work _ told renewed, cs =>
    cs.filterMap Commit.fired? = told.filterMap Notice.move? ∧
      cs.filterMap Commit.renewed? = renewed
  | _, cs => cs = []

end Turn

variable {c c' : Clan κ} {t : Turn} {m m' : Member κ} {p : Nat} {cs : List Commit} {ds : List Deed}

theorem lt_of_member (hm : c.members[p]? = some m) : p < c.members.length :=
  (List.getElem?_eq_some_iff.mp hm).1

/-- A clan of one. -/
def founded (m : Machine κ) (st : LogStore) : Clan κ := ⟨[⟨m, none, st.records m.history⟩], st⟩

/-- The member numbered `i` has been worked on. -/
def worked (c : Clan κ) (i : Nat) (m : Member κ) (machine : Machine κ) (logs : LogStore) : Clan κ :=
  ⟨c.members.set i { m with machine }, logs⟩

/-- One turn. What is asked of a member leaves the machine recording, and so does all that bodies
ask for in its course. -/
inductive Takes : Clan κ → Turn → Clan κ → Prop
  | work {σ : Type} {h : Host σ κ} {n : Nat} {q : Request κ} {w w' : World σ κ}
    {o : Except MachineError q.Answer}
    {c : Clan κ} {i : Nat} {m : Member κ} (hm : c.members[i]? = some m)
      (hmachine : w.machine = m.machine)
    (hlogs : w.logs = c.logs) (hended : Engine.attempt (h.perform n q) w = .ok o w')
    (hasked : ∀ k ∈ h.asked n q w o w', k.request.Recording) :
    Takes c (.work i (w'.notices.drop w.notices.length)
      ((h.asked n q w o w').filterMap Call.renewed?)) (c.worked i m w'.machine w'.logs)
  | spawn {c : Clan κ} {i : Nat} {m : Member κ} {s : StateId} {id : Uuid}
    {machine : Machine κ} {st : LogStore}
    (hm : c.members[i]? = some m) (hpropagates : m.machine.options.propagateHistory = true)
    (hspawn : m.machine.spawnSubmachine s id c.logs = .ok (machine, st)) :
    Takes c (.spawn i) ⟨c.members ++ [⟨machine, some i, []⟩], st⟩
  | fork {c : Clan κ} {i : Nat} {m : Member κ} {id : Uuid} (hm : c.members[i]? = some m) :
    Takes c (.fork i)
      ⟨c.members ++ [⟨(m.machine.fork id c.logs).1, m.parent, c.logs.records m.machine.history⟩],
        (m.machine.fork id c.logs).2⟩

/-- The number of the member that a member passes its records on to. -/
def parent? (c : Clan κ) (j : Nat) : Option Nat := c.members[j]?.bind (·.parent)

/-- The members have logs of their own and record in them. They pass their records on to their
parents alone. -/
structure Sound (c : Clan κ) : Prop where
  recording : ∀ {j : Nat} {m : Member κ}, c.members[j]? = some m →
    m.machine.options.recordHistory = true
  holds : ∀ {j : Nat} {m : Member κ}, c.members[j]? = some m → c.logs.Holds m.machine.history
  distinct : ∀ {j k : Nat} {m m' : Member κ}, c.members[j]? = some m → c.members[k]? = some m' →
    m.machine.history.own = m'.machine.history.own → j = k
  older : ∀ {j p : Nat} {m : Member κ}, c.members[j]? = some m → m.parent = some p → p < j
  passes : ∀ {j k : Nat} {m m' : Member κ}, c.members[j]? = some m → c.members[k]? = some m' →
    (m.machine.history.parent = some m'.machine.history.own ↔ m.parent = some k)

/-- What a turn comes to: the members stay, with what the commits have made of their histories, and
one may be born. -/
structure Becomes (c : Clan κ) (i : Nat) (cs : List Commit) (c' : Clan κ) : Prop where
  sound : c'.Sound
  actor : i < c.members.length
  kept : ∀ {p : Nat} {m : Member κ}, c.members[p]? = some m → ∃ m' : Member κ,
    c'.members[p]? = some m' ∧
    m'.parent = m.parent ∧ m'.birth = m.birth ∧ c'.logs.records m'.machine.history =
      (cs.map (⟨i, ·⟩)).foldl (Deed.bear c.parent? p) (c.logs.records m.machine.history)
  born : ∀ {p : Nat} {m' : Member κ}, c'.members[p]? = some m' → p < c.members.length ∨
    cs = [] ∧ c'.logs.records m'.machine.history = m'.birth

theorem eq_of_founded {m : Machine κ} {st : LogStore} {j : Nat}
    (hm : (founded m st).members[j]? = some m') : j = 0 ∧ m' = ⟨m, none, st.records m.history⟩ := by
  cases j with
  | zero => exact ⟨rfl, (Option.some.inj hm).symm⟩
  | succ j => cases hm

theorem sound_founded {m : Machine κ} {st : LogStore} (hholds : st.Holds m.history)
    (hrecords : m.options.recordHistory = true) : (founded m st).Sound where
  recording hj := (eq_of_founded hj).2 ▸ hrecords
  holds hj := (eq_of_founded hj).2 ▸ hholds
  distinct hj hk _ := (eq_of_founded hj).1.trans (eq_of_founded hk).1.symm
  older hj hp := by
    rw [(eq_of_founded hj).2] at hp
    cases hp
  passes hj hk := by
    obtain ⟨-, rfl⟩ := eq_of_founded hj
    obtain ⟨-, rfl⟩ := eq_of_founded hk
    exact ⟨fun hp => absurd hp hholds.parent_ne, nofun⟩

/-! ### Work -/

section
variable {i : Nat} {machine : Machine κ} {logs : LogStore} (hm : c.members[i]? = some m)
include hm

theorem exists_of_worked (hhistory : machine.history = m.machine.history) {j : Nat}
    (hm' : (c.worked i m machine logs).members[j]? = some m') : ∃ m₀, c.members[j]? = some m₀ ∧
      m'.parent = m₀.parent ∧ m'.birth = m₀.birth ∧ m'.machine.history = m₀.machine.history ∧
      (m' = m₀ ∨ m'.machine = machine) := by
  have hi : i < c.members.length := lt_of_member hm
  rw [worked, List.getElem?_set] at hm'
  split at hm'
  · next hij =>
    subst hij
    obtain rfl := Option.some.inj hm'
    exact ⟨m, hm, rfl, rfl, hhistory, .inr rfl⟩
  · exact ⟨m', hm', rfl, rfl, rfl, .inl rfl⟩

theorem Sound.worked (hc : c.Sound) (hhistory : machine.history = m.machine.history)
    (hrecording : machine.options.recordHistory = true)
      (hsize : c.logs.logs.size ≤ logs.logs.size) :
    (c.worked i m machine logs).Sound where
  recording hj := by
    obtain ⟨m₀, hm₀, -, -, -, rfl | hmachine⟩ := exists_of_worked hm hhistory hj
    · exact hc.recording hm₀
    · exact hmachine ▸ hrecording
  holds hj := by
    obtain ⟨m₀, hm₀, -, -, heq, -⟩ := exists_of_worked hm hhistory hj
    rw [heq]
    exact (hc.holds hm₀).mono hsize
  distinct hj hk hown := by
    obtain ⟨m₀, hm₀, -, -, heq, -⟩ := exists_of_worked hm hhistory hj
    obtain ⟨m₁, hm₁, -, -, heq', -⟩ := exists_of_worked hm hhistory hk
    rw [heq, heq'] at hown
    exact hc.distinct hm₀ hm₁ hown
  older hj hp := by
    obtain ⟨m₀, hm₀, hparent, -⟩ := exists_of_worked hm hhistory hj
    exact hc.older hm₀ (hparent ▸ hp)
  passes hj hk := by
    obtain ⟨m₀, hm₀, hparent, -, heq, -⟩ := exists_of_worked hm hhistory hj
    obtain ⟨m₁, hm₁, -, -, heq', -⟩ := exists_of_worked hm hhistory hk
    rw [heq, heq', hparent]
    exact hc.passes hm₀ hm₁

end

theorem parent?_of_member (hm : c.members[p]? = some m) : c.parent? p = m.parent := by
  rw [parent?, hm]
  rfl

/-- The commits of a member bear on its own history, and those that record on the history of its
parent. -/
theorem records_replay_changes (hc : c.Sound) {i : Nat} (hm : c.members[i]? = some m)
    (hp : c.members[p]? = some m') (cs : List Commit) :
    (c.logs.replay m.machine.history (cs.flatMap Commit.changes)).records m'.machine.history =
      (cs.map (⟨i, ·⟩)).foldl (Deed.bear c.parent? p) (c.logs.records m'.machine.history) := by
  have hholds := hc.holds hm
  by_cases hip : i = p
  · subst hip
    obtain rfl := Option.some.inj (hm.symm.trans hp)
    rw [LogStore.records_replay hholds.parent_ne hholds.stored, Commit.foldl_changes,
      Deed.foldl_bear_own]
  have hown : m'.machine.history.own ≠ m.machine.history.own :=
    fun heq => hip (hc.distinct hp hm heq).symm
  by_cases hparent : m.parent = some p
  · rw [Deed.foldl_bear_passed hip ((parent?_of_member hm).trans hparent),
      ← Commit.appended_changes]
    exact LogStore.recordsAt_replay_of_parent ((hc.passes hm hp).mpr hparent) hown
      (hc.holds hp).stored _
  · rw [Deed.foldl_bear_other hip (parent?_of_member hm ▸ hparent)]
    exact LogStore.recordsAt_replay_of_ne hown (fun heq => hparent ((hc.passes hm hp).mp heq)) _

theorem becomes_worked (hc : c.Sound) {i : Nat} (hm : c.members[i]? = some m) {machine : Machine κ}
    (hhistory : machine.history = m.machine.history)
    (hrecording : machine.options.recordHistory = true) (cs : List Commit) :
    c.Becomes i cs (c.worked i m machine
      (c.logs.replay m.machine.history (cs.flatMap Commit.changes))) := by
  have hi : i < c.members.length := lt_of_member hm
  have hlength (logs : LogStore) : (c.worked i m machine logs).members.length = c.members.length :=
    List.length_set
  refine ⟨hc.worked hm hhistory hrecording (LogStore.size_replay _).ge, hi, fun {p m₀} hp => ?_,
    fun {p m'} hp => .inl ?_⟩
  · have hlt : p < c.members.length := lt_of_member hp
    obtain ⟨m', hm'⟩ : ∃ m', (c.worked i m machine
        (c.logs.replay m.machine.history (cs.flatMap Commit.changes))).members[p]? = some m' :=
      ⟨_, List.getElem?_eq_getElem ((hlength _).symm ▸ hlt)⟩
    obtain ⟨m₁, hm₁, hparent, hbirth, heq, -⟩ := exists_of_worked hm hhistory hm'
    obtain rfl := Option.some.inj (hp.symm.trans hm₁)
    refine ⟨m', hm', hparent, hbirth, ?_⟩
    rw [heq]
    exact records_replay_changes hc hm hp cs
  · exact hlength _ ▸ lt_of_member hp

/-! ### New members -/

/-- A machine with a new log has joined. -/
def joined (c : Clan κ) (machine : Machine κ) (parent : Option Nat) (birth : List HistoryRecord)
    (passes : Option Nat) : Clan κ :=
  ⟨c.members ++ [⟨machine, parent, birth⟩], (c.logs.allocate birth passes).2⟩

section
variable {machine : Machine κ} {parent passes : Option Nat} {birth : List HistoryRecord}

theorem member_joined {j : Nat} (hm : (c.joined machine parent birth passes).members[j]? = some m) :
    c.members[j]? = some m ∨ j = c.members.length ∧ m = ⟨machine, parent, birth⟩ := by
  rw [joined, List.getElem?_append] at hm
  split at hm
  · exact .inl hm
  · next hj =>
    have hlt := (List.getElem?_eq_some_iff.mp hm).1
    rw [List.length_singleton] at hlt
    have hzero : j - c.members.length = 0 := by omega
    rw [hzero] at hm
    exact .inr ⟨by omega, (Option.some.inj hm).symm⟩

variable (hc : c.Sound) (hhistory : machine.history = (c.logs.allocate birth passes).1)
  (hparent : ∀ k, parent = some k → k < c.members.length)
  (hpasses : ∀ {k m}, c.members[k]? = some m →
    (passes = some m.machine.history.own ↔ parent = some k))
  (holder : ∀ n ∈ passes, n < c.logs.logs.size)
include hc hhistory hparent hpasses holder

theorem Sound.joined (hrecording : machine.options.recordHistory = true) :
    (c.joined machine parent birth passes).Sound := by
  have hsize : (c.logs.allocate birth passes).2.logs.size = c.logs.logs.size + 1 :=
    LogStore.size_allocate ..
  have hown : machine.history.own = c.logs.logs.size := congrArg HistoryLog.own hhistory
  have hlog : machine.history.parent = passes := congrArg HistoryLog.parent hhistory
  have hnew : (c.logs.allocate birth passes).2.Holds machine.history :=
    ⟨by rw [hown, hsize]; exact Nat.lt_succ_self _, fun n hn => hown ▸ holder n (hlog ▸ hn)⟩
  -- Of what is there already nothing leads to the new log or the new number.
  have hfresh {j : Nat} {m : Member κ} (hm : c.members[j]? = some m) :
      m.machine.history.own < machine.history.own ∧ m.machine.history.parent ≠
        some machine.history.own ∧ m.parent ≠ some c.members.length := by
    refine ⟨hown ▸ (hc.holds hm).stored, fun hp => ?_, fun hp => ?_⟩
    · exact Nat.lt_asymm ((hc.holds hm).older _ hp) (hown ▸ (hc.holds hm).stored)
    · exact Nat.lt_asymm (hc.older hm hp) (lt_of_member hm)
  constructor
  case recording =>
    intro j m hj
    rcases member_joined hj with hj | ⟨-, rfl⟩
    · exact hc.recording hj
    · exact hrecording
  case holds =>
    intro j m hj
    rcases member_joined hj with hj | ⟨-, rfl⟩
    · exact (hc.holds hj).mono (hsize.symm ▸ Nat.le_succ _)
    · exact hnew
  case distinct =>
    intro j k m m' hj hk heq
    rcases member_joined hj with hj | ⟨rfl, rfl⟩ <;> rcases member_joined hk with hk | ⟨rfl, rfl⟩
    · exact hc.distinct hj hk heq
    · exact absurd heq (Nat.ne_of_lt (hfresh hj).1)
    · exact absurd heq (Nat.ne_of_gt (hfresh hk).1)
    · rfl
  case older =>
    intro j p m hj hp
    rcases member_joined hj with hj | ⟨rfl, rfl⟩
    · exact hc.older hj hp
    · exact hparent _ hp
  case passes =>
    intro j k m m' hj hk
    rcases member_joined hj with hj | ⟨rfl, rfl⟩ <;> rcases member_joined hk with hk | ⟨rfl, rfl⟩
    · exact hc.passes hj hk
    · exact iff_of_false (hfresh hj).2.1 (hfresh hj).2.2
    · exact (hlog ▸ hpasses hk :)
    · exact iff_of_false hnew.parent_ne fun hp => Nat.lt_irrefl _ (hparent _ hp)

theorem becomes_joined (hrecording : machine.options.recordHistory = true) {i : Nat}
    (hi : i < c.members.length) : c.Becomes i [] (c.joined machine parent birth passes) := by
  refine ⟨hc.joined hhistory hparent hpasses holder hrecording, hi, fun {p m} hm => ?_,
    fun {p m'} hm' => ?_⟩
  · refine ⟨m, ?_, rfl, rfl, LogStore.records_allocate_of_stored (hc.holds hm).stored birth passes⟩
    exact (List.getElem?_append_left (lt_of_member hm)).trans hm
  · rcases member_joined hm' with hm | ⟨rfl, rfl⟩
    · exact .inl (lt_of_member hm)
    · refine .inr ⟨rfl, ?_⟩
      show (c.logs.allocate birth passes).2.records machine.history = birth
      rw [hhistory, LogStore.records_allocate]

end

/-! ## Turns -/

/-- A turn comes to the commits that there are to make in it. -/
theorem Takes.becomes (h : c.Takes t c') (hc : c.Sound) :
    ∃ cs, t.Comprises cs ∧ c.Becomes t.actor cs c' := by
  cases h with
  | @work σ h n q w w' o _ i m hm hmachine hlogs hended hasked =>
    obtain ⟨hhistory, hrecording, cs, hreplay, hfired, hrenewed⟩ :=
      Host.commits_of_attempt (hmachine ▸ hc.recording hm) hended hasked
    refine ⟨cs, ⟨hfired, hrenewed⟩, ?_⟩
    have hbecomes := becomes_worked hc hm (hhistory.trans (hmachine ▸ rfl)) hrecording cs
    rw [← hlogs, ← hmachine, ← hreplay] at hbecomes
    exact hbecomes
  | @spawn _ i m s id machine st hm hpropagates hspawn =>
    obtain ⟨ct, d, history, -, -, rfl, hlog⟩ := Machine.spawnSubmachine_ok hspawn
    rw [if_pos hpropagates] at hlog
    obtain ⟨rfl, rfl⟩ := Prod.mk.inj hlog
    have hi : i < c.members.length := lt_of_member hm
    refine ⟨[], rfl, ?_⟩
    show c.Becomes i [] (c.joined _ (some i) [] (some m.machine.history.own))
    refine becomes_joined hc rfl (fun k hk => Option.some.inj hk ▸ hi) (fun hk => ?_)
      (fun n hn => Option.some.inj hn ▸ (hc.holds hm).stored) ?_ hi
    · rw [Option.some_inj, Option.some_inj]
      refine ⟨fun heq => hc.distinct hm hk heq, fun heq => ?_⟩
      subst heq
      rw [Option.some.inj (hm.symm.trans hk)]
    · exact hc.recording hm
  | @fork _ i m id hm =>
    have hi : i < c.members.length := lt_of_member hm
    refine ⟨[], rfl, ?_⟩
    show c.Becomes i [] (c.joined (m.machine.fork id c.logs).1 m.parent
      (c.logs.records m.machine.history) m.machine.history.parent)
    refine becomes_joined hc rfl (fun k hk => Nat.lt_trans (hc.older hm hk) hi)
      (fun hk => hc.passes hm hk)
      (fun n hn => Nat.lt_trans ((hc.holds hm).older n hn) (hc.holds hm).stored) ?_ hi
    exact hc.recording hm

/-- A fork begins with the records of the machine that it is a fork of. -/
theorem Takes.copies {i : Nat} (h : c.Takes (.fork i) c') : ∃ m m', c.members[i]? = some m ∧
    c'.members = c.members ++ [m'] ∧ m'.parent = m.parent ∧
    c'.logs.records m'.machine.history = c.logs.records m.machine.history := by
  cases h with
  | @fork _ _ m id hm => exact ⟨m, _, hm, rfl, rfl, LogStore.records_allocate _ _⟩

/-- The deeds of the first `i` turns. -/
def chronicle (t : Nat → Turn) (cs : Nat → List Commit) (i : Nat) : List Deed :=
  (List.range i).flatMap fun k => (cs k).map (⟨(t k).actor, ·⟩)

theorem chronicle_succ (t : Nat → Turn) (cs : Nat → List Commit) (i : Nat) :
    chronicle t cs (i + 1) = chronicle t cs i ++ (cs i).map (⟨(t i).actor, ·⟩) := by
  rw [chronicle, List.range_succ, List.flatMap_append, List.flatMap_singleton]
  rfl

/-- The histories of the members are what the deeds have made of them. -/
structure Told (c : Clan κ) (ds : List Deed) : Prop where
  sound : c.Sound
  actors : ∀ d ∈ ds, d.actor < c.members.length
  records : ∀ {p : Nat} {m : Member κ}, c.members[p]? = some m →
    c.logs.records m.machine.history = ds.foldl (Deed.bear c.parent? p) m.birth

theorem told_founded {m : Machine κ} {st : LogStore} (hholds : st.Holds m.history)
    (hrecords : m.options.recordHistory = true) : (founded m st).Told [] where
  sound := sound_founded hholds hrecords
  actors := nofun
  records hm := by
    obtain ⟨-, rfl⟩ := eq_of_founded hm
    rfl

theorem Becomes.told {i : Nat} (h : c.Becomes i cs c') (hc : c.Told ds) :
    c'.Told (ds ++ cs.map (⟨i, ·⟩)) := by
  have hkept {j : Nat} (hj : j < c.members.length) : c'.parent? j = c.parent? j ∧ j <
      c'.members.length := by
    obtain ⟨m', hm', hparent, -⟩ := h.kept (List.getElem?_eq_getElem hj)
    refine ⟨?_, lt_of_member hm'⟩
    rw [parent?_of_member hm', hparent, parent?_of_member (List.getElem?_eq_getElem hj)]
  have hactors : ∀ d ∈ ds ++ cs.map (⟨i, ·⟩), d.actor < c.members.length := by
    intro d hd
    rcases List.mem_append.mp hd with hd | hd
    · exact hc.actors d hd
    · obtain ⟨k, -, rfl⟩ := List.mem_map.mp hd
      exact h.actor
  refine ⟨h.sound, fun d hd => (hkept (hactors d hd)).2, fun {p m'} hm' => ?_⟩
  rw [Deed.foldl_bear_congr fun d hd => (hkept (hactors d hd)).1]
  by_cases hp : p < c.members.length
  · obtain ⟨m₁, hm₁, -, hbirth, hrecords⟩ := h.kept (List.getElem?_eq_getElem hp)
    obtain rfl := Option.some.inj (hm'.symm.trans hm₁)
    rw [hrecords, hc.records (List.getElem?_eq_getElem hp), List.foldl_append, hbirth]
  · obtain ⟨rfl, hbirth⟩ := (h.born hm').resolve_left hp
    rw [hbirth, Deed.foldl_bear_of_others]
    intro d hd
    have hd := hactors d hd
    refine ⟨fun heq => hp (heq ▸ hd), fun hparent => ?_⟩
    rw [parent?_of_member (List.getElem?_eq_getElem hd)] at hparent
    exact hp (Nat.lt_trans (hc.sound.older (List.getElem?_eq_getElem hd) hparent) hd)

/-- The deed is one of the member, of a machine spawned from it, or of a fork of one. -/
def Concerns (c : Clan κ) (p : Nat) (d : Deed) : Prop := d.actor = p ∨ c.parent? d.actor = some p

instance (c : Clan κ) (p : Nat) (d : Deed) : Decidable (c.Concerns p d) :=
  inferInstanceAs (Decidable (_ ∨ _))

/-- The records of a member, of the machines spawned from it and of the forks of these, in the order
in which they were made. -/
def merged (c : Clan κ) (p : Nat) (ds : List Deed) : List HistoryRecord :=
  (ds.filter (c.Concerns p ·)).filterMap (·.commit.record?)

/-- Deeds among which the history is not begun anew add what they record. -/
theorem foldl_bear_merged (h : ∀ d ∈ ds, d.actor = p → ¬ d.commit.Renews)
    (records : List HistoryRecord) :
    ds.foldl (Deed.bear c.parent? p) records = records ++ c.merged p ds := by
  induction ds generalizing records with
  | nil => exact (List.append_nil _).symm
  | cons d ds ih =>
    have hd : Deed.bear c.parent? p records d = records ++ c.merged p [d] := by
      rw [Deed.bear, merged]
      by_cases hconcerns : c.Concerns p d
      · rw [List.filter_cons, if_pos (decide_eq_true hconcerns)]
        rcases hconcerns with hown | hparent
        · rw [if_pos hown, Commit.revise_of_not_renews (h d List.mem_cons_self hown)]
          rfl
        · rw [if_pos hparent]
          split
          · next hown => exact Commit.revise_of_not_renews (h d List.mem_cons_self hown) records
          · rfl
      · rw [List.filter_cons, if_neg (mt of_decide_eq_true hconcerns),
          if_neg fun hown => hconcerns (.inl hown), if_neg fun hparent => hconcerns (.inr hparent)]
        exact (List.append_nil _).symm
    rw [List.foldl_cons, ih (fun d hd => h d (List.mem_cons_of_mem _ hd)), hd, List.append_assoc]
    congr 1
    rw [merged, merged, merged, ← List.filterMap_append, ← List.filter_append]
    rfl

/-- Where nothing is passed on to a member, its own deeds alone bear on its history. -/
theorem foldl_bear_alone (h : ∀ j, c.parent? j ≠ some p) (records : List HistoryRecord) :
    ds.foldl (Deed.bear c.parent? p) records =
      (ds.filter (·.actor = p)).foldl (fun records d => d.commit.revise records) records := by
  induction ds generalizing records with
  | nil => rfl
  | cons d ds ih =>
    rw [List.foldl_cons, ih, Deed.bear, if_neg (h d.actor)]
    by_cases hd : d.actor = p
    · rw [if_pos hd, List.filter_cons, if_pos (decide_eq_true hd), List.foldl_cons]
    · rw [if_neg hd, List.filter_cons, if_neg (mt of_decide_eq_true hd)]

/-- How the deeds tell the history of a member. -/
structure Accounts (c : Clan κ) (ds : List Deed) (p : Nat) (m : Member κ) : Prop where
  /-- Since the member last began its history anew. -/
  renewed : ∀ before d after, ds = before ++ d :: after → d.actor = p → d.commit.Renews →
    (∀ e ∈ after, e.actor = p → ¬ e.commit.Renews) →
    c.logs.records m.machine.history = d.commit.record?.toList ++ c.merged p after
  /-- Since it was there, if it has not begun it anew. -/
  unrenewed : (∀ e ∈ ds, e.actor = p → ¬ e.commit.Renews) →
    c.logs.records m.machine.history = m.birth ++ c.merged p ds
  /-- All along, if no machines have been spawned from it. -/
  alone : (∀ j, c.parent? j ≠ some p) → c.logs.records m.machine.history =
    (ds.filter (·.actor = p)).foldl (fun records d => d.commit.revise records) m.birth

theorem Told.accounts (h : c.Told ds) (hm : c.members[p]? = some m) : c.Accounts ds p m where
  renewed before d after hds hactor hrenews hafter := by
    rw [h.records hm, hds, List.foldl_append, List.foldl_cons, Deed.bear, if_pos hactor,
      Commit.revise_of_renews hrenews, foldl_bear_merged hafter]
  unrenewed hds := by rw [h.records hm, foldl_bear_merged hds]
  alone hnone := by rw [h.records hm, foldl_bear_alone hnone]

/-- Whatever the members of a clan do, and in whatever order, every transition told to have fired
and every start comes to one commit, and the commits tell the history of each member: since it last
began it anew, that is what it, the machines spawned from it and the forks of these have recorded,
in the order in which they did. A machine from which none are spawned changes its history by itself
alone. A fork begins with the records of the machine that it is a fork of. -/
theorem exists_chronicle {f : Nat → Clan κ} {t : Nat → Turn} {n : Nat} {m : Machine κ}
    {st : LogStore} (hholds : st.Holds m.history) (hrecords : m.options.recordHistory = true)
    (hfounded : f 0 = founded m st) (hturns : ∀ k < n, (f k).Takes (t k) (f (k + 1))) :
    (∃ cs : Nat → List Commit, (∀ k < n, (t k).Comprises (cs k)) ∧
      ∀ i ≤ n, ∀ p m, (f i).members[p]? = some m → (f i).Accounts (chronicle t cs i) p m) ∧
    ∀ k < n, ∀ i, t k = .fork i → ∃ m m', (f k).members[i]? = some m ∧
      (f (k + 1)).members = (f k).members ++ [m'] ∧ m'.parent = m.parent ∧
      (f (k + 1)).logs.records m'.machine.history = (f k).logs.records m.machine.history := by
  have hsound : ∀ k ≤ n, (f k).Sound := by
    intro k hk
    induction k with
    | zero => exact hfounded ▸ sound_founded hholds hrecords
    | succ k ih =>
      obtain ⟨cs, -, hbecomes⟩ := (hturns k hk).becomes (ih (Nat.le_of_succ_le hk))
      exact hbecomes.sound
  have hmade (k : Nat) : ∃ cs, k < n → (t k).Comprises cs ∧
      (f k).Becomes (t k).actor cs (f (k + 1)) := by
    by_cases hk : k < n
    · obtain ⟨cs, hcs⟩ := (hturns k hk).becomes (hsound k (Nat.le_of_lt hk))
      exact ⟨cs, fun _ => hcs⟩
    · exact ⟨[], fun hlt => absurd hlt hk⟩
  choose cs hcs using hmade
  have htold : ∀ i ≤ n, (f i).Told (chronicle t cs i) := by
    intro i hi
    induction i with
    | zero => exact hfounded ▸ told_founded hholds hrecords
    | succ i ih =>
      rw [chronicle_succ]
      exact (hcs i hi).2.told (ih (Nat.le_of_succ_le hi))
  refine ⟨⟨cs, fun k hk => (hcs k hk).1, fun i hi p m hm => (htold i hi).accounts hm⟩,
    fun k hk i hfork => ?_⟩
  have hturn := hturns k hk
  rw [hfork] at hturn
  exact hturn.copies

/-! ## A reunion -/

end Clan

/-- A request that succeeds or fails within that depth has an outcome. -/
theorem Host.exists_attempt {σ : Type} {h : Host σ κ} {k : Nat} {q : Request κ} {w : World σ κ}
    (hc : h.completes k q w = true) :
    ∃ o, Engine.attempt (h.perform k q) w = .ok o (h.next k q w) := by
  rw [completes] at hc
  rw [next]
  cases hp : h.perform k q w with
  | ok a w' => exact ⟨_, Engine.attempt_of_ok hp⟩
  | error e w' =>
    cases e with
    | fault e => exact ⟨_, Engine.attempt_of_error hp⟩
    | exhausted =>
      rw [hp] at hc
      cases hc

namespace Clan

/-- What a member is to do, its bodies doing nothing. -/
inductive Order where
  | ask (i : Nat) (q : Request Unit)
  | spawn (i : Nat) (s : StateId)
  | fork (i : Nat)

/-- The world of a member. -/
def around (c : Clan Unit) (m : Member Unit) : World Unit Unit :=
  { machine := m.machine, logs := c.logs, notices := [], env := (), now := default }

/-- The clan once the order has been carried out. -/
def obey (c : Clan Unit) : Order → Clan Unit
  | .ask i q =>
    match c.members[i]? with
    | some m =>
      c.worked i m (Host.silent.next 4 q (c.around m)).machine
        (Host.silent.next 4 q (c.around m)).logs
    | none => c
  | .spawn i s =>
    match c.members[i]? with
    | some m =>
      match m.machine.spawnSubmachine s default c.logs with
      | .ok made => ⟨c.members ++ [⟨made.1, some i, []⟩], made.2⟩
      | .error _ => c
    | none => c
  | .fork i =>
    match c.members[i]? with
    | some m =>
      ⟨c.members ++ [⟨(m.machine.fork default c.logs).1, m.parent,
        c.logs.records m.machine.history⟩], (m.machine.fork default c.logs).2⟩
    | none => c

/-- The order can be carried out, and no body asks for anything. -/
def fits (c : Clan Unit) : Order → Bool
  | .ask i q => c.members[i]?.any fun m =>
    Host.silent.completes 4 q (c.around m) && (Host.silent.calls 4 q (c.around m)).isEmpty
  | .spawn i s => c.members[i]?.any fun m =>
    m.machine.options.propagateHistory &&
      (m.machine.spawnSubmachine s default c.logs).toOption.isSome
  | .fork i => c.members[i]?.isSome

def Order.Recording : Order → Prop
  | .ask _ q => q.Recording
  | _ => True

theorem exists_takes {c : Clan Unit} {o : Order} (hfits : c.fits o = true) (ho : o.Recording) :
    ∃ t, c.Takes t (c.obey o) := by
  cases o with
  | ask i q =>
    rw [fits, Option.any_eq_true] at hfits
    obtain ⟨m, hm, hm'⟩ := hfits
    obtain ⟨hcompletes, hcalls⟩ := (Bool.and_eq_true _ _).mp hm'
    obtain ⟨o, hended⟩ := Host.exists_attempt hcompletes
    rw [obey, hm]
    refine ⟨_, .work hm rfl rfl hended fun k hk => ?_⟩
    rw [Host.asked, List.isEmpty_iff.mp hcalls] at hk
    obtain rfl := List.mem_singleton.mp hk
    exact ho
  | spawn i s =>
    rw [fits, Option.any_eq_true] at hfits
    obtain ⟨m, hm, hm'⟩ := hfits
    obtain ⟨hpropagates, hspawns⟩ := (Bool.and_eq_true _ _).mp hm'
    cases hspawn : m.machine.spawnSubmachine s default c.logs with
    | ok made =>
      simp only [obey, hm, hspawn]
      exact ⟨_, .spawn hm hpropagates hspawn⟩
    | error e =>
      rw [hspawn] at hspawns
      cases hspawns
  | fork i =>
    obtain ⟨m, hm⟩ := Option.isSome_iff_exists.mp hfits
    simp only [obey, hm]
    exact ⟨_, .fork hm⟩

/-- The clan after so many orders. -/
def gathered (orders : Nat → Order) (c : Clan Unit) : Nat → Clan Unit
  | 0 => c
  | i + 1 => (gathered orders c i).obey (orders i)

end Clan

/-- As `nestingEdits`, begun at a, and at x in the state b. -/
def reunionEdits : List (Edit Unit) :=
  Graph.nestingEdits ++ [.setStart ⟨0⟩ (some ⟨0⟩), .setStart ⟨1⟩ (some ⟨2⟩)]

/-- A machine whose submachines pass their records on. -/
def elder : World Unit Unit :=
  (World.fresh ((Graph.new "reunion").edited reunionEdits)).mapMachine
    ({ · with options := { propagateHistory := true } })

/-- The machine is started, one is spawned from it for b and started, and that one forked. The fork
goes from x to y, the first machine is put into a, and the one spawned from it goes to y too. -/
def reunion : Nat → Clan.Order
  | 0 => .ask 0 (.start [])
  | 1 => .spawn 0 ⟨1⟩
  | 2 => .ask 1 (.start [])
  | 3 => .fork 1
  | 4 => .ask 2 (.queue ⟨0⟩ [])
  | 5 => .ask 2 (.run .continuous)
  | 6 => .ask 0 (.goto ⟨0⟩ [])
  | 7 => .ask 1 (.queue ⟨0⟩ [])
  | _ => .ask 1 (.run .continuous)

/-- The states in the histories of the members. -/
def Clan.paths (c : Clan Unit) : List (List StateId) :=
  c.members.map fun m => c.logs.path m.machine.history

theorem chronicle_reunion :
    let f := (Clan.founded elder.machine elder.logs).gathered reunion
    elder.logs.Holds elder.machine.history ∧ elder.machine.options.recordHistory = true ∧
    (f 6).paths = [[⟨0⟩, ⟨2⟩, ⟨3⟩], [⟨2⟩], [⟨2⟩, ⟨3⟩]] ∧ (f 9).paths =
      [[⟨0⟩, ⟨3⟩], [⟨2⟩, ⟨3⟩], [⟨2⟩, ⟨3⟩]] ∧
    ∃ t, (∀ k < 9, (f k).Takes (t k) (f (k + 1))) ∧ ∃ cs : Nat → List Commit,
    (∀ k < 9, (t k).Comprises (cs k)) ∧
      ∀ i ≤ 9, ∀ p m, (f i).members[p]? = some m → (f i).Accounts (Clan.chronicle t cs i) p m := by
  intro f
  have hall : ∀ k < 9, (f k).fits (reunion k) = true := by decide +kernel
  have horders : ∀ k < 9, (reunion k).Recording := by
    rintro (_ | _ | _ | _ | _ | _ | _ | _ | _) _ <;> trivial
  have htakes (k : Nat) : ∃ t, k < 9 → (f k).Takes t (f (k + 1)) := by
    by_cases hk : k < 9
    · obtain ⟨t, ht⟩ := Clan.exists_takes (hall k hk) (horders k hk)
      exact ⟨t, fun _ => ht⟩
    · exact ⟨.fork 0, fun hlt => absurd hlt hk⟩
  choose t ht using htakes
  have hholds : elder.logs.Holds elder.machine.history := ⟨by decide +kernel, nofun⟩
  refine ⟨hholds, rfl, by decide +kernel, by decide +kernel, t, ht, ?_⟩
  exact (Clan.exists_chronicle hholds rfl rfl ht).1

end Statechart
