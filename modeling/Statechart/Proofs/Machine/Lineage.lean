import Statechart.Proofs.Machine.Journal
import Statechart.Proofs.Machine.Quiescence

/-!
# Records passed on

A log passes its records on to the log that it was created for, and not through that log but
straight into its records. So in a row of logs, each created for the one before, and in a row of
machines, each spawned from the one before, what the last appends gets to the one before it, in
order and once, and no further.
-/

namespace Statechart

variable {σ κ : Type}

namespace LogStore

variable {st st' : LogStore} {l p : HistoryLog} {ls : List HistoryLog}

/-- The log is one of the store, and passes its records on only to an older one. -/
structure Holds (st : LogStore) (l : HistoryLog) : Prop where
  stored : l.own < st.logs.size
  older : ∀ n ∈ l.parent, n < l.own

theorem Holds.mono (h : st.Holds l) (hsize : st.logs.size ≤ st'.logs.size) : st'.Holds l :=
  ⟨Nat.lt_of_lt_of_le h.stored hsize, h.older⟩

theorem Holds.parent_ne (h : st.Holds l) : l.parent ≠ some l.own :=
  fun heq => Nat.lt_irrefl _ (h.older l.own heq)

theorem size_allocate (st : LogStore) (records : List HistoryRecord) (parent : Option Nat) :
    (st.allocate records parent).2.logs.size = st.logs.size + 1 :=
  Array.size_push ..

/-- Logs in a row, each created to pass its records on to the one before. Meanwhile more logs may be
created, and any log may be written to. -/
inductive Row : LogStore → List HistoryLog → Prop
  | first {st : LogStore} {l : HistoryLog} (h : st.Holds l) : Row st [l]
  | forward {st : LogStore} {ls : List HistoryLog} {l : HistoryLog} (h : Row st (ls ++ [l])) :
    Row (st.forwardingTo l).2 (ls ++ [l] ++ [(st.forwardingTo l).1])
  | meanwhile {st st' : LogStore} {ls : List HistoryLog} (h : Row st ls)
      (hsize : st.logs.size ≤ st'.logs.size) :
    Row st' ls

namespace Row

theorem holds (h : Row st ls) : ∀ l ∈ ls, st.Holds l := by
  induction h with
  | first h => exact fun l hl => List.mem_singleton.mp hl ▸ h
  | @forward st ls l h ih =>
    have hsize : (st.forwardingTo l).2.logs.size = st.logs.size + 1 := size_allocate ..
    intro k hk
    rcases List.mem_append.mp hk with hk | hk
    · exact (ih k hk).mono (hsize ▸ Nat.le_succ _)
    · obtain rfl := List.mem_singleton.mp hk
      refine ⟨hsize ▸ Nat.lt_succ_self _, fun n hn => ?_⟩
      obtain rfl := Option.some.inj hn
      exact (ih l (List.mem_append_right _ List.mem_cons_self)).stored
  | meanwhile h hsize ih => exact fun l hl => (ih l hl).mono hsize

/-- Each log of a row passes its records on to the one before. -/
theorem forwards (h : Row st ls) : ls.IsChain fun p l => l.parent = some p.own := by
  induction h with
  | first h => exact .singleton _
  | @forward st ls l h ih =>
    refine List.isChain_append.mpr ⟨ih, .singleton _, fun p hp k hk => ?_⟩
    obtain rfl := Option.some.inj (List.getLast?_concat.symm.trans hp)
    obtain rfl := Option.some.inj hk
    rfl
  | meanwhile h hsize ih => exact ih

/-- The logs of a row are in the order in which they were created. -/
theorem sorted (h : Row st ls) : ls.Pairwise fun p l => p.own < l.own := by
  induction h with
  | first h => exact List.pairwise_singleton ..
  | @forward st ls l h ih =>
    refine List.pairwise_append.mpr ⟨ih, List.pairwise_singleton .., fun p hp k hk => ?_⟩
    obtain rfl := List.mem_singleton.mp hk
    exact (h.holds p hp).stored
  | meanwhile h hsize ih => exact ih

end Row

/-- What changes of the last log of a row come to: that log is revised, the one before it gets what
is appended, in order and once, and no other log of the store changes. So all of the row get what is
appended only if there is nothing to get or there is at most one log before the last. -/
structure Forwards (st st' : LogStore) (ls : List HistoryLog) (l : HistoryLog)
    (cs : List LogChange) : Prop where
  last : st'.records l = cs.foldl (fun records c => c.revise records) (st.records l)
  direct : ∀ p ∈ ls.getLast?, st'.records p = st.records p ++ LogChange.appended cs
  others : ∀ n, n ≠ l.own → l.parent ≠ some n → st'.recordsAt n = st.recordsAt n
  all : (∀ p ∈ ls, st'.records p = st.records p ++ LogChange.appended cs) ↔
    ls.length ≤ 1 ∨ LogChange.appended cs = []

/-- The logs before the one that the last passes its records on to get nothing. -/
theorem records_replay_of_further (hrow : st.Row (ls ++ [p] ++ [l])) {k : HistoryLog} (hk : k ∈ ls)
    (cs : List LogChange) : (st.replay l cs).records k = st.records k := by
  have hparent : l.parent = some p.own :=
    (List.isChain_append.mp hrow.forwards).2.2 p List.getLast?_concat l rfl
  have hsorted := List.pairwise_append.mp hrow.sorted
  have hp : k.own < p.own := (List.pairwise_append.mp hsorted.1).2.2 k hk p List.mem_cons_self
  have hl : k.own < l.own := hsorted.2.2 k (List.mem_append_left _ hk) l List.mem_cons_self
  refine recordsAt_replay_of_ne (Nat.ne_of_lt hl) (fun heq => ?_) cs
  exact Nat.ne_of_gt hp (Option.some.inj (hparent.symm.trans heq))

theorem records_replay_of_direct (hrow : st.Row (ls ++ [p] ++ [l])) (cs : List LogChange) :
    (st.replay l cs).records p = st.records p ++ LogChange.appended cs := by
  have hparent : l.parent = some p.own :=
    (List.isChain_append.mp hrow.forwards).2.2 p List.getLast?_concat l rfl
  have hmem : p ∈ ls ++ [p] := List.mem_append_right _ List.mem_cons_self
  have hlt : p.own < l.own := (List.pairwise_append.mp hrow.sorted).2.2 p hmem l List.mem_cons_self
  exact recordsAt_replay_of_parent hparent (Nat.ne_of_lt hlt)
    (hrow.holds p (List.mem_append_left _ hmem)).stored cs

theorem forwards_replay (hrow : st.Row (ls ++ [l])) (cs : List LogChange) :
    st.Forwards (st.replay l cs) ls l cs := by
  have hl := hrow.holds l (List.mem_append_right _ List.mem_cons_self)
  have hlast := records_replay hl.parent_ne hl.stored cs
  have hothers (n : Nat) (hown : n ≠ l.own) (hparent : l.parent ≠ some n) :
      (st.replay l cs).recordsAt n = st.recordsAt n := recordsAt_replay_of_ne hown hparent cs
  rcases ls.eq_nil_or_concat with rfl | ⟨ks, p, rfl⟩
  · exact ⟨hlast, nofun, hothers, iff_of_true nofun (.inl (Nat.zero_le _))⟩
  rw [List.concat_eq_append] at hrow ⊢
  have hdirect := records_replay_of_direct hrow cs
  refine ⟨hlast, fun k hk => ?_, hothers, fun hall => ?_, fun hfew k hk => ?_⟩
  · obtain rfl := Option.some.inj (List.getLast?_concat.symm.trans hk)
    exact hdirect
  · cases ks with
    | nil => exact .inl (Nat.le_refl _)
    | cons k ks =>
      have hk := (hall k List.mem_cons_self).symm.trans
        (records_replay_of_further hrow List.mem_cons_self cs)
      exact .inr (List.append_right_eq_self.mp hk)
  · rcases List.mem_append.mp hk with hk | hk
    · rw [records_replay_of_further hrow hk]
      rcases hfew with hlength | hnone
      · rw [List.length_append, List.length_singleton] at hlength
        exact absurd (List.length_pos_of_mem hk) (by omega)
      · rw [hnone, List.append_nil]
    · exact List.mem_singleton.mp hk ▸ hdirect

end LogStore

/-! ## Machines in a row -/

/-- Machines in a row, each spawned from the one before so that it passes its records on. Meanwhile
any of them may be worked on, more machines may be made, and their logs written to. -/
inductive Lineage : LogStore → List (Machine κ) → Prop
  | first {st : LogStore} {m : Machine κ} (h : st.Holds m.history) : Lineage st [m]
  | spawn {st st' : LogStore} {ms : List (Machine κ)} {m m' : Machine κ} {s : StateId} {id : Uuid}
    (h : Lineage st (ms ++ [m])) (hpropagates : m.options.propagateHistory = true)
    (hspawn : m.spawnSubmachine s id st = .ok (m', st')) : Lineage st' (ms ++ [m] ++ [m'])
  | work {σ : Type} {h : Host σ κ} {q : Request κ} {w w' : World σ κ} {ms ms' : List (Machine κ)}
    (hrow : Lineage w.logs (ms ++ w.machine :: ms')) (hstep : h.Step q w w') :
    Lineage w'.logs (ms ++ w'.machine :: ms')
  | meanwhile {st st' : LogStore} {ms : List (Machine κ)} (h : Lineage st ms)
      (hsize : st.logs.size ≤ st'.logs.size) :
    Lineage st' ms

/-- The logs of machines in a row are in a row. -/
theorem Lineage.row {st : LogStore} {ms : List (Machine κ)} (h : Lineage st ms) :
    st.Row (ms.map (·.history)) := by
  induction h with
  | first h => exact .first h
  | @spawn st st' ms m m' s id h hpropagates hspawn ih =>
    rw [List.map_append, List.map_singleton] at ih ⊢
    obtain ⟨ct, d, history, -, -, rfl, hlog⟩ := Machine.spawnSubmachine_ok hspawn
    have hforward := ih.forward
    rw [if_pos hpropagates] at hlog
    rw [← hlog] at hforward
    rw [List.map_append]
    exact hforward
  | @work σ h q w w' ms ms' hrow hstep ih =>
    have hjournals := hstep.journals w.journals_self
    obtain ⟨cs, hlogs, -⟩ := hjournals.changes
    rw [List.map_append, List.map_cons, hjournals.history, ← List.map_cons, ← List.map_append]
    refine ih.meanwhile ?_
    rw [hlogs, LogStore.size_replay]
  | meanwhile h hsize ih => exact ih.meanwhile hsize

namespace Host

variable {h : Host σ κ}

/-- Whatever operations are asked of the last machine of a row: its log changes, the log of the
machine that it was spawned from gets what is appended, in order and once, and no other log changes.
So the history of the hierarchy can be read at the first machine only if that is the last one or the
one before it. The same is so for logs in a row. -/
theorem forwards_of_steps {w : Nat → World σ κ} {q : Nat → Request κ} {n : Nat}
    {ms : List (Machine κ)} (hrow : Lineage (w 0).logs (ms ++ [(w 0).machine]))
    (hsteps : ∀ i < n, h.Step (q i) (w i) (w (i + 1))) :
    (∀ i ≤ n, ∃ cs, (w 0).logs.Forwards (w i).logs (ms.map (·.history)) (w i).machine.history cs ∧
      ∀ x ∈ LogChange.appended cs, (w i).Reaches (w 0).notices.length x.new) ∧
    ∀ {st : LogStore} {ls : List HistoryLog} {l : HistoryLog}, st.Row (ls ++ [l]) → ∀ cs,
      st.Forwards (st.replay l cs) ls l cs := by
  refine ⟨fun i hi => ?_, LogStore.forwards_replay⟩
  have hjournals : (w i).Journals (w 0).machine.history (w 0).logs (w 0).notices.length := by
    induction i with
    | zero => exact (w 0).journals_self
    | succ i ih => exact (hsteps i hi).journals (ih (Nat.le_of_succ_le hi))
  obtain ⟨cs, hlogs, htold⟩ := hjournals.changes
  have hrow := hrow.row
  rw [List.map_append, List.map_singleton] at hrow
  refine ⟨cs, ?_, htold⟩
  rw [hlogs, hjournals.history]
  exact LogStore.forwards_replay hrow cs

end Host

/-- A composite state c, in it a composite state d, and in that a state x. -/
def nestEdits : List (Edit Unit) :=
  [.addState ⟨0⟩ { name := "c" }, .attachSubmachine ⟨0⟩ "c", .addState ⟨1⟩ { name := "d" },
    .attachSubmachine ⟨1⟩ "d", .addState ⟨2⟩ { name := "x" }, .setStart ⟨2⟩ (some ⟨2⟩)]

/-- A machine for what is nested in a state, beside the one that it is spawned from. -/
def World.spawned (w : World σ κ) (c : StateId) : World σ κ :=
  match w.machine.spawnSubmachine c default w.logs with
  | .ok (machine, logs) => { w with machine, logs }
  | .error _ => w

/-- A machine whose submachines pass their records on. -/
def outerNest : World Unit Unit :=
  (World.fresh ((Graph.new "nest").edited nestEdits)).mapMachine
    ({ · with options := { propagateHistory := true } })

/-- The machine spawned for c. -/
def middleNest : World Unit Unit := outerNest.spawned ⟨0⟩

/-- The machine spawned from that one for d. -/
def innerNest : World Unit Unit := middleNest.spawned ⟨1⟩

theorem lineage_nest :
    Lineage innerNest.logs ([outerNest.machine, middleNest.machine] ++ [innerNest.machine]) := by
  have houter : Lineage outerNest.logs ([] ++ [outerNest.machine]) :=
    .first ⟨by decide +kernel, nofun⟩
  have hmiddle : outerNest.machine.spawnSubmachine ⟨0⟩ default outerNest.logs =
      .ok (middleNest.machine, middleNest.logs) := rfl
  have hinner : middleNest.machine.spawnSubmachine ⟨1⟩ default middleNest.logs =
      .ok (innerNest.machine, innerNest.logs) := rfl
  have hrow : Lineage middleNest.logs ([] ++ [outerNest.machine] ++ [middleNest.machine]) :=
    houter.spawn rfl hmiddle
  exact Lineage.spawn hrow rfl hinner

/-- The innermost machine is started, and its record gets to the machine for c. -/
theorem forwards_nest :
    let w := Host.silent.worlds 2 (fun _ => .start []) innerNest
    Lineage (w 0).logs ([outerNest.machine, middleNest.machine] ++ [(w 0).machine]) ∧
    (∀ i < 1, Host.silent.Step (.start []) (w i) (w (i + 1))) ∧
    (w 1).records.map (·.new) = [⟨2⟩] ∧ (w 1).logs.path middleNest.machine.history = [⟨2⟩] ∧
    ∀ i ≤ 1, ∃ cs, (w 0).logs.Forwards (w i).logs [outerNest.machine.history,
      middleNest.machine.history]
      (w i).machine.history cs ∧ ∀ x ∈ LogChange.appended cs,
      (w i).Reaches (w 0).notices.length x.new := by
  intro w
  have hsteps : ∀ i < 1, Host.silent.Step (.start []) (w i) (w (i + 1)) := by
    have hall : ∀ i < 1, Host.silent.completes 2 (.start []) (w i) = true := by decide +kernel
    exact fun i hi => Host.step_next (hall i hi)
  exact ⟨lineage_nest, hsteps, by decide +kernel, by decide +kernel,
    (Host.forwards_of_steps (w := w) (q := fun _ => .start []) lineage_nest hsteps).1⟩

/-- The machine at the outset of the row gets none of it. -/
theorem not_forwarded_nest :
    let w := Host.silent.next 2 (.start []) innerNest
    Lineage innerNest.logs ([outerNest.machine, middleNest.machine] ++ [innerNest.machine]) ∧
    (∀ m ∈ [outerNest.machine, middleNest.machine], m.options.propagateHistory = true) ∧
    Host.silent.Step (.start []) innerNest w ∧ w.records.map (·.new) = [⟨2⟩] ∧
    ¬ ∀ m ∈ [outerNest.machine, middleNest.machine],
      w.logs.records m.history = innerNest.logs.records m.history ++ w.records := by
  intro w
  refine ⟨lineage_nest,
    by decide +kernel, Host.step_next (by decide +kernel), by decide +kernel, fun hall => ?_⟩
  have hempty : (w.logs.records outerNest.machine.history).length = 0 := by decide +kernel
  rw [hall outerNest.machine List.mem_cons_self, List.length_append] at hempty
  have hone : w.records.length = 1 := by decide +kernel
  omega

end Statechart
