import Statechart.Proofs.Machine.Isolation
import Statechart.Proofs.Machine.Lineage

/-!
# What records passed on tell

A machine spawned for a composite state passes on records with its own handles. As long as neither
machine has been isolated these are handles of the other machine too, and name the state within the
composite state. They go on doing so when the machine that got them is isolated. But what is passed
on once one of the two has a graph of its own names whatever has that handle on the other graph.
-/

namespace Statechart

open Json

variable {σ τ κ : Type}

/-- A machine and one that was spawned from it for a composite state, with the logs of both. -/
structure Family (κ : Type) where
  parent : Machine κ
  child : Machine κ
  logs : LogStore
  /-- The composite state, as long as it is on the graph of the parent. -/
  site : Option StateId

/-- What is asked of one of the two. -/
inductive Family.Turn (κ : Type) where
  | parent (q : Request κ)
  | child (q : Request κ)

/-- The turn isolates one of the two. -/
def Family.Turn.Isolates : Family.Turn κ → Prop
  | .parent .isolate | .child .isolate => True
  | _ => False

/-- The turn edits no graph. -/
def Family.Turn.Unedited : Family.Turn κ → Prop
  | .parent q | .child q => ∀ e, q ≠ .edit e

namespace Family

variable {f f' : Family κ} {t : Turn κ} {x x' y : HistoryRecord} {ns : List String}

/-- The history of the parent. -/
def annals (f : Family κ) : List HistoryRecord := f.logs.records f.parent.history

/-- What a turn makes of a state that the parent knows. -/
def moved (f : Family κ) : Turn κ → StateId → Option StateId
  | .parent q, s =>
    match f.parent.relocation? q with
    | some c => c.state? s
    | none => some s
  | .child _, s => some s

/-- What a turn makes of a record in the history of the parent, unless the history is begun anew. -/
def carried (f : Family κ) : Turn κ → HistoryRecord → Option HistoryRecord
  | .parent q, x =>
    match f.parent.relocation? q with
    | some c => x.copied c
    | none => some x
  | .child _, x => some x

/-- One of the two is asked for something, and the other is left alone. -/
def Step (h : Host σ κ) (k : Host τ κ) (f : Family κ) : Turn κ → Family κ → Prop
  | .parent q, f' => ∃ w w' : World σ κ, w.machine = f.parent ∧ w.logs = f.logs ∧ h.Step q w w' ∧
    f' = { f with parent := w'.machine, logs := w'.logs, site := f.site.bind (f.moved (.parent q)) }
  | .child q, f' => ∃ w w' : World τ κ, w.machine = f.child ∧ w.logs = f.logs ∧ k.Step q w w' ∧
    f' = { f with child := w'.machine, logs := w'.logs }

/-- On the graph of the parent, the record is of the state with these names within the composite
state. -/
def Denotes (f : Family κ) (x : HistoryRecord) (ns : List String) : Prop :=
  ∃ s, f.site = some s ∧ f.parent.graph.names x.new = f.parent.graph.names s ++ ns

/-- The child passes its records on to the parent, and both have logs in the store. -/
structure Kin (f : Family κ) : Prop where
  tied : f.parent.graph.Tied
  passes : f.child.history.parent = some f.parent.history.own
  distinct : f.parent.history.own ≠ f.child.history.own
  stored : f.parent.history.own < f.logs.logs.size

/-- Both machines are where they were at first: on the graph, the child confined to the definition
nested in the state. -/
structure Settled (g : Graph κ) (c : StateId) (d : DefinitionId) (f : Family κ) : Prop where
  graph : f.parent.graph = g
  site : f.site = some c
  child : f.child.Confined g d

/-! ## One turn -/

theorem moved_parent_of_keepsGraph {q : Request κ} (hq : q.KeepsGraph) (s : StateId) :
    f.moved (.parent q) s = some s := by
  cases q <;> first | exact hq.elim | rfl

/-- A record is carried to where the state is that it is of. -/
theorem moved_of_carried (hx : f.carried t x = some x') : f.moved t x.new = some x'.new := by
  cases t with
  | child q =>
    obtain rfl := Option.some.inj hx
    rfl
  | parent q =>
    rw [carried] at hx
    rw [moved]
    cases hc : f.parent.relocation? q with
    | none =>
      rw [hc] at hx
      obtain rfl := Option.some.inj hx
      rfl
    | some c =>
      rw [hc] at hx
      obtain ⟨s, hs, rfl⟩ := Option.map_eq_some_iff.mp hx
      exact hs

section
variable {h : Host σ κ} {k : Host τ κ} (hh : h.Makes Request.KeepsGraph) (ht : t.Unedited)
  (hstep : Step h k f t f')

section
include hstep

theorem site_turn : f'.site = f.site.bind (f.moved t) := by
  cases t with
  | parent q =>
    obtain ⟨w, w', -, -, -, rfl⟩ := hstep
    rfl
  | child q =>
    obtain ⟨w, w', -, -, -, rfl⟩ := hstep
    exact (Option.bind_fun_some _).symm

include hh ht

/-- A turn takes what is around the definition that the parent is isolated with off the names of the
states that it knows, and nothing else. -/
theorem names_turn (hf : f.parent.graph.Tied) :
    f'.parent.graph.Tied ∧ ∃ around, ∀ s s', f.moved t s = some s' →
    f.parent.graph.names s = around ++ f'.parent.graph.names s' := by
  have hsame (hgraph : f'.parent.graph = f.parent.graph) (hmoved : ∀ s, f.moved t s = some s) :
      f'.parent.graph.Tied ∧ ∃ around, ∀ s s', f.moved t s = some s' →
        f.parent.graph.names s = around ++ f'.parent.graph.names s' := by
    refine ⟨hgraph ▸ hf, [], fun s s' hs => ?_⟩
    obtain rfl := Option.some.inj ((hmoved s).symm.trans hs)
    rw [hgraph, List.nil_append]
  cases t with
  | child q =>
    obtain ⟨w, w', -, -, -, rfl⟩ := hstep
    exact hsame rfl fun _ => rfl
  | parent q =>
    obtain ⟨w, w', hmachine, -, hw, rfl⟩ := hstep
    by_cases hkeeps : q.KeepsGraph
    · exact hsame ((hw.bound hh hkeeps w.bound_self).graph.trans (hmachine ▸ rfl))
        (moved_parent_of_keepsGraph hkeeps)
    · obtain rfl : q = .isolate := by
        cases q <;> first | rfl | exact absurd trivial hkeeps | exact absurd rfl (ht _)
      have hisolate := hw.isolate
      rw [hmachine] at hisolate
      cases hm : f.parent.isolated with
      | error e =>
        rw [hm] at hisolate
        refine hsame (congrArg Machine.graph hisolate.1) fun s => ?_
        rw [moved, Machine.relocation?, hm]
      | ok mc =>
        rw [hm] at hisolate
        refine ⟨hisolate.1 ▸ Machine.tied_isolated hf hm,
          f.parent.graph.namesAround f.parent.definition, fun s s' hs => ?_⟩
        rw [moved, Machine.relocation?, hm] at hs
        exact (Machine.names_isolated hf hm hs).trans (hisolate.1 ▸ rfl)

/-- A turn does not change what a record that it carries along tells. -/
theorem denotes_turn (hf : f.parent.graph.Tied) (hx : f.carried t x = some x')
    (hsite : f'.site.isSome) : f'.Denotes x' ns ↔ f.Denotes x ns := by
  obtain ⟨-, around, hnames⟩ := names_turn hh ht hstep hf
  have hnew := hnames _ _ (moved_of_carried hx)
  rw [site_turn hstep] at hsite
  obtain ⟨s', hs'⟩ := Option.isSome_iff_exists.mp hsite
  obtain ⟨s, hs, hmoved⟩ := Option.bind_eq_some_iff.mp hs'
  have hsites : f.Denotes x ns ↔ f.parent.graph.names x.new = f.parent.graph.names s ++ ns :=
    ⟨fun ⟨c, hc, heq⟩ => Option.some.inj (hs.symm.trans hc) ▸ heq, fun heq => ⟨s, hs, heq⟩⟩
  have hsites' : f'.Denotes x' ns ↔ f'.parent.graph.names x'.new = f'.parent.graph.names s' ++ ns :=
    ⟨fun ⟨c, hc, heq⟩ => Option.some.inj (((site_turn hstep).trans hs').symm.trans hc) ▸ heq,
      fun heq => ⟨s', (site_turn hstep).trans hs', heq⟩⟩
  rw [hsites, hsites', hnew, hnames _ _ hmoved, List.append_assoc, List.append_cancel_left_eq]

/-- The two stay what they are to each other, and the child appends to the history of the parent, of
states that it has told to be in. -/
theorem kin_turn (hf : f.Kin) :
    f'.Kin ∧ ∀ q, t = .child q → ∃ (w w' : World τ κ) (ys : List HistoryRecord),
    w.machine = f.child ∧ k.Step q w w' ∧ w'.machine = f'.child ∧ f'.annals = f.annals ++ ys ∧
      ∀ y ∈ ys, w'.Reaches w.notices.length y.new := by
  have htied := (names_turn hh ht hstep hf.tied).1
  cases t with
  | parent q =>
    obtain ⟨w, w', hmachine, hlogs, hw, rfl⟩ := hstep
    have hjournals := hw.journals w.journals_self
    obtain ⟨cs, hreplay, -⟩ := hjournals.changes
    have hhistory : w'.machine.history = f.parent.history := hmachine ▸ hjournals.history
    refine ⟨⟨htied, hhistory ▸ hf.passes, hhistory ▸ hf.distinct, ?_⟩, nofun⟩
    show w'.machine.history.own < w'.logs.logs.size
    rw [hreplay, LogStore.size_replay, hhistory, hlogs]
    exact hf.stored
  | child q =>
    obtain ⟨w, w', hmachine, hlogs, hw, rfl⟩ := hstep
    have hjournals := hw.journals w.journals_self
    obtain ⟨cs, hreplay, htold⟩ := hjournals.changes
    rw [hmachine, hlogs] at hreplay
    have hhistory : w'.machine.history = f.child.history := hmachine ▸ hjournals.history
    refine ⟨⟨htied, hhistory ▸ hf.passes, hhistory ▸ hf.distinct, ?_⟩, fun q' heq => ?_⟩
    · show _ < w'.logs.logs.size
      rw [hreplay, LogStore.size_replay]
      exact hf.stored
    · obtain rfl := Turn.child.inj heq
      refine ⟨w, w', LogChange.appended cs, hmachine, hw, rfl, ?_, htold⟩
      show w'.logs.recordsAt _ = _
      rw [hreplay]
      exact LogStore.recordsAt_replay_of_parent hf.passes hf.distinct hf.stored cs

end

include hh ht hstep in
/-- As long as neither machine is isolated, what the child passes on names the state in the
composite state. -/
theorem settled_turn {g : Graph κ} {c : StateId} {d : DefinitionId} {ct : State κ} (hg : g.Tied)
    (hc : g.state? c = some ct) (hnested : ct.submachine = some d) (hk : k.Makes Request.KeepsGraph)
    (hstays : ¬ t.Isolates) (hf : f.Settled g c d) (hkin : f.Kin) :
    f'.Settled g c d ∧ ∀ q, t = .child q → ∀ y ∈ f'.annals.drop f.annals.length,
      f'.Denotes y (f.child.names y.new) := by
  obtain ⟨-, happended⟩ := kin_turn hh ht hstep hkin
  cases t with
  | parent q =>
    have hkeeps : q.KeepsGraph := by
      cases q <;> first | trivial | exact hstays trivial | exact absurd rfl (ht _)
    obtain ⟨w, w', hmachine, -, hw, rfl⟩ := hstep
    have hbound := hw.bound hh hkeeps w.bound_self
    refine ⟨⟨hbound.graph.trans (hmachine ▸ hf.graph), ?_, hf.child⟩, nofun⟩
    show f.site.bind _ = some c
    rw [hf.site]
    exact moved_parent_of_keepsGraph hkeeps c
  | child q =>
    have hkeeps : q.KeepsGraph := by
      cases q <;> first | trivial | exact hstays trivial | exact absurd rfl (ht _)
    obtain ⟨w, w', ys, hmachine, hw, hchild, happend, htold⟩ := happended q rfl
    obtain ⟨hgraph, hdefinition⟩ : f.child.graph = g ∧ f.child.definition = d :=
      ⟨hf.child.graph, hf.child.definition⟩
    have hbegun : w.Confined f.child w.notices.length fun _ => True := by
      rw [← hmachine]
      refine World.confined_of_machine ?_ ?_ trivial
      · rw [hmachine, hgraph]
        exact hg.nested
      · rw [hmachine, hgraph, hdefinition]
        exact hf.child
    have hended := hw.confined (hgraph ▸ hg) hk hkeeps hbegun
    have hparent : f'.parent = f.parent ∧ f'.site = f.site := by
      obtain ⟨-, -, -, -, -, rfl⟩ := hstep
      exact ⟨rfl, rfl⟩
    refine ⟨⟨hparent.1 ▸ hf.graph, hparent.2 ▸ hf.site, ?_⟩, fun q' _ y hy => ?_⟩
    · have hconfined := hended.machine (hgraph ▸ hg.nested)
      rw [hgraph, hdefinition, hchild] at hconfined
      exact hconfined
    · rw [happend, List.drop_left] at hy
      obtain ⟨n, hn, hreached⟩ := htold y hy
      have hcovers := hended.told n hn y.new hreached
      have hnames := Machine.names_of_covers (hgraph ▸ hg.nested) hcovers
      refine ⟨c, hparent.2 ▸ hf.site, ?_⟩
      rw [hgraph, hdefinition, Graph.namesAround_nested hg.nested hc hnested] at hnames
      rw [hparent.1, hf.graph]
      exact hnames

end

/-! ## Many turns -/

/-- What becomes of a record in the history of the parent in the turns from one on. -/
def become (f : Nat → Family κ) (t : Nat → Turn κ) (i : Nat) :
    Nat → HistoryRecord → Option HistoryRecord
  | 0, x => some x
  | n + 1, x => (become f t i n x).bind ((f (i + n)).carried (t (i + n)))

theorem become_of_single {f : Nat → Family κ} {t : Nat → Turn κ} {i : Nat} (hy : (f i).annals = [y])
    (hx : (f (i + 1)).annals = [x])
    (hall : (f (i + 1)).annals = (f i).annals.filterMap ((f i).carried (t i))) :
    become f t i 1 y = some x := by
  rw [hy, hx] at hall
  show (f i).carried (t i) y = some x
  cases hc : (f i).carried (t i) y with
  | none =>
    rw [List.filterMap_cons_none hc] at hall
    cases hall
  | some x' =>
    rw [List.filterMap_cons_some hc] at hall
    rw [(List.cons.inj hall).1]

/-- What isolation makes of the history of the parent. -/
theorem annals_isolate {h : Host σ κ} {k : Host τ κ} (hstep : Step h k f (.parent .isolate) f') :
    f'.annals = f.annals.filterMap (f.carried (.parent .isolate)) := by
  obtain ⟨w, w', hmachine, hlogs, hw, rfl⟩ := hstep
  have hisolate := hw.isolate
  rw [hmachine, hlogs] at hisolate
  cases hm : f.parent.isolated with
  | error e =>
    rw [hm] at hisolate
    have hcarried : f.carried (.parent .isolate) = some := by
      funext x
      rw [carried, Machine.relocation?, hm]
    rw [hcarried, List.filterMap_some, annals, hisolate.1, hisolate.2]
    rfl
  | ok mc =>
    rw [hm] at hisolate
    have hcarried : f.carried (.parent .isolate) = (·.copied mc.2) := by
      funext x
      rw [carried, Machine.relocation?, hm]
    obtain ⟨g, active, pending, -, -, -, -, hmade⟩ := Machine.isolated_ok hm
    rw [hcarried, annals, hisolate.1, hisolate.2, hmade]
    exact LogStore.records_remap _

section
variable {h : Host σ κ} {k : Host τ κ} {f : Nat → Family κ} {t : Nat → Turn κ} {n : Nat}
  (hh : h.Makes Request.KeepsGraph) (ht : ∀ i < n, (t i).Unedited)
  (hsteps : ∀ i < n, Step h k (f i) (t i) (f (i + 1))) (hkin : (f 0).Kin)
include hh ht hsteps hkin

theorem kin_of_turns : ∀ i ≤ n, (f i).Kin := by
  intro i
  induction i with
  | zero => exact fun _ => hkin
  | succ i ih => exact fun hi => (kin_turn hh (ht i hi) (hsteps i hi) (ih (Nat.le_of_succ_le hi))).1

/-- Until one of the two is isolated the child has its place in the composite state. -/
theorem settled_of_turns {g : Graph κ} {c : StateId} {d : DefinitionId} {ct : State κ} (hg : g.Tied)
    (hc : g.state? c = some ct) (hnested : ct.submachine = some d) (hk : k.Makes Request.KeepsGraph)
    (hsettled : (f 0).Settled g c d) :
    ∀ i ≤ n, (∀ i' < i, ¬ (t i').Isolates) → (f i).Settled g c d := by
  intro i
  induction i with
  | zero => exact fun _ _ => hsettled
  | succ i ih =>
    intro hi hstays
    have hbefore := ih (Nat.le_of_succ_le hi) fun i' hi' => hstays i' (Nat.lt_succ_of_lt hi')
    exact (settled_turn hh (ht i hi) (hsteps i hi) hg hc hnested hk
      (hstays i (Nat.lt_succ_self i)) hbefore
      (kin_of_turns hh ht hsteps hkin i (Nat.le_of_succ_le hi))).1

/-- What a record tells never changes, whatever becomes of its handles. -/
theorem denotes_become {y : HistoryRecord} {ns : List String} {i : Nat} :
    ∀ j, i + j ≤ n → ∀ x,
    become f t i j y = some x → (f (i + j)).site.isSome →
    ((f (i + j)).Denotes x ns ↔ (f i).Denotes y ns) := by
  intro j
  induction j with
  | zero =>
    intro _ x hx _
    obtain rfl := Option.some.inj hx
    rfl
  | succ j ih =>
    intro hj x' hx' hsite
    obtain ⟨x, hx, hcarried⟩ := Option.bind_eq_some_iff.mp hx'
    have hstep := hsteps (i + j) hj
    have hbefore : (f (i + j)).site.isSome := by
      have hturn := site_turn hstep
      rw [Nat.add_assoc] at hturn
      rw [hturn] at hsite
      exact Option.isSome_of_isSome_bind hsite
    have hturn : (f (i + j + 1)).Denotes x' ns ↔ (f (i + j)).Denotes x ns :=
      denotes_turn hh (ht _ hj) hstep (kin_of_turns hh ht hsteps hkin _ (Nat.le_of_lt hj)).tied
        hcarried hsite
    exact hturn.trans (ih (Nat.le_of_lt hj) x hx hbefore)

end

/-- A machine and one that was just spawned from it to pass its records on. -/
theorem kin_spawn {m m' : Machine κ} {c : StateId} {id : Uuid} {logs logs' : LogStore}
    (hg : m.graph.Tied) (hstored : m.history.own < logs.logs.size)
    (hpropagates : m.options.propagateHistory = true)
    (hspawn : m.spawnSubmachine c id logs = .ok (m', logs')) :
    Kin ⟨m, m', logs', some c⟩ ∧ ∃ ct d,
      m.graph.state? c = some ct ∧ ct.submachine = some d ∧
      Settled m.graph c d ⟨m, m', logs', some c⟩ := by
  obtain ⟨ct, d, history, hc, hnested, rfl, hlog⟩ := Machine.spawnSubmachine_ok hspawn
  rw [if_pos hpropagates, LogStore.forwardingTo, LogStore.allocate] at hlog
  obtain ⟨rfl, rfl⟩ := Prod.mk.inj hlog
  exact ⟨⟨hg, rfl, Nat.ne_of_lt hstored, by simpa using Nat.lt_succ_of_lt hstored⟩,
    ct, d, hc, hnested, rfl, rfl, Machine.confined_of_empty rfl rfl⟩

/-- Of a machine that passes its records on and the one that it was spawned from for a composite
state, whatever operations are asked of the one and of the other, isolation among them: what the
child has passed on tells the parent what it told when it was passed on, whatever the parent's
handles have become since, and if neither was isolated before that, it is of the state that the
child was in. -/
theorem denotes_of_turns {h : Host σ κ} {k : Host τ κ} {f : Nat → Family κ} {t : Nat → Turn κ}
    {n : Nat} {m m' : Machine κ} {c : StateId} {id : Uuid} {logs logs' : LogStore}
    (hg : m.graph.Tied) (hstored : m.history.own < logs.logs.size)
    (hpropagates : m.options.propagateHistory = true)
    (hspawn : m.spawnSubmachine c id logs = .ok (m', logs')) (hfirst : f 0 = ⟨m, m', logs', some c⟩)
    (hh : h.Makes Request.KeepsGraph) (hk : k.Makes Request.KeepsGraph)
    (ht : ∀ i < n, (t i).Unedited) (hsteps : ∀ i < n, Step h k (f i) (t i) (f (i + 1))) :
    (∀ i < n, t i = .parent .isolate →
      (f (i + 1)).annals = (f i).annals.filterMap ((f i).carried (t i))) ∧
    ∀ i < n, ∀ q, t i = .child q → ∃ ys, (f (i + 1)).annals = (f i).annals ++ ys ∧
      ∀ y ∈ ys, ∀ j, i + 1 + j ≤ n → ∀ x, become f t (i + 1) j y = some x →
      (f (i + 1 + j)).site.isSome →
        ((f (i + 1 + j)).Denotes x ((f i).child.names y.new) ↔
          (f (i + 1)).Denotes y ((f i).child.names y.new)) ∧
        ((∀ i' ≤ i, ¬ (t i').Isolates) → (f (i + 1 + j)).Denotes x ((f i).child.names y.new)) := by
  obtain ⟨hkin, ct, d, hc, hnested, hsettled⟩ := kin_spawn hg hstored hpropagates hspawn
  rw [← hfirst] at hkin hsettled
  refine ⟨fun i hi hisolate => ?_, fun i hi q hq => ?_⟩
  · rw [hisolate]
    exact annals_isolate (hisolate ▸ hsteps i hi)
  have hkin' := kin_of_turns hh ht hsteps hkin i (Nat.le_of_lt hi)
  obtain ⟨-, happended⟩ := kin_turn hh (ht i hi) (hsteps i hi) hkin'
  obtain ⟨w, w', ys, -, -, -, happend, -⟩ := happended q hq
  refine ⟨ys, happend, fun y hy j hj x hx hsite => ?_⟩
  have hiff : (f (i + 1 + j)).Denotes x ((f i).child.names y.new) ↔
      (f (i + 1)).Denotes y ((f i).child.names y.new) :=
    denotes_become hh ht hsteps hkin j hj x hx hsite
  refine ⟨hiff, fun hstays => hiff.mpr ?_⟩
  have hbefore := settled_of_turns hh ht hsteps hkin hg hc hnested hk hsettled i (Nat.le_of_lt hi)
      fun i' hi' =>
    hstays i' (Nat.le_of_lt hi')
  refine (settled_turn hh (ht i hi) (hsteps i hi) hg hc hnested hk (hstays i (Nat.le_refl i))
    hbefore hkin').2 q hq y ?_
  rw [happend, List.drop_left]
  exact hy

end Family

/-! ## A copy with other handles -/

namespace Family

/-- The two with nothing told, when one of them is asked. -/
def asked (f : Family Unit) : Turn Unit → World Unit Unit
  | .parent _ => { machine := f.parent, logs := f.logs, notices := [], env := (), now := default }
  | .child _ => { machine := f.child, logs := f.logs, notices := [], env := (), now := default }

/-- The two after a turn, with bodies that do nothing. -/
def turned (f : Family Unit) (t : Turn Unit) : Family Unit :=
  match t with
  | .parent q =>
    let w := Host.silent.next 2 q (f.asked t)
    { f with parent := w.machine, logs := w.logs, site := f.site.bind (f.moved t) }
  | .child q =>
    let w := Host.silent.next 2 q (f.asked t)
    { f with child := w.machine, logs := w.logs }

/-- The request of the turn succeeds or fails. -/
def completes (f : Family Unit) (t : Turn Unit) : Bool :=
  match t with
  | .parent q | .child q => Host.silent.completes 2 q (f.asked t)

theorem step_turned {f : Family Unit} {t : Turn Unit} (hc : f.completes t = true) :
    Step Host.silent Host.silent f t (f.turned t) := by
  cases t with
  | parent q => exact ⟨_, _, rfl, rfl, Host.step_next hc, rfl⟩
  | child q => exact ⟨_, _, rfl, rfl, Host.step_next hc, rfl⟩

/-- The two after so many turns. -/
def turns (t : Nat → Turn Unit) (f : Family Unit) : Nat → Family Unit
  | 0 => f
  | i + 1 => (turns t f i).turned (t i)

end Family

/-- A machine whose submachines pass their records on. -/
def around : World Unit Unit :=
  (World.fresh ((Graph.new "between").edited betweenEdits)).mapMachine
    ({ · with options := { propagateHistory := true } })

/-- The machine and one spawned for b. -/
def between : Family Unit :=
  ⟨around.machine, (around.spawned ⟨1⟩).machine, (around.spawned ⟨1⟩).logs, some ⟨1⟩⟩

theorem spawn_between :
    around.machine.spawnSubmachine ⟨1⟩ default around.logs = .ok (between.child, between.logs) :=
  rfl

/-- The child is started, then the parent is isolated. -/
def startsFirst : Nat → Family.Turn Unit
  | 0 => .child (.start [])
  | _ => .parent .isolate

/-- The child is isolated, then started. -/
def isolatesFirst : Nat → Family.Turn Unit
  | 0 => .child .isolate
  | _ => .child (.start [])

theorem steps_between {t : Nat → Family.Turn Unit}
    (hc : ∀ i < 2, (Family.turns t between i).completes (t i) = true) :
    ∀ i < 2, Family.Step Host.silent Host.silent (Family.turns t between i) (t i)
      (Family.turns t between (i + 1)) :=
  fun i hi => Family.step_turned (hc i hi)

/-- The record goes along with the parent and is of b::x, which has another handle on the copy. -/
theorem denotes_between :
    let f := Family.turns startsFirst between
    around.machine.graph.Tied ∧ around.machine.history.own < around.logs.logs.size ∧
    around.machine.options.propagateHistory = true ∧
    around.machine.spawnSubmachine ⟨1⟩ default around.logs = .ok (between.child, between.logs) ∧
    f 0 = ⟨around.machine, between.child, between.logs, some ⟨1⟩⟩ ∧
    Host.silent.Makes (κ := Unit) Request.KeepsGraph ∧
    (∀ i < 2, (startsFirst i).Unedited) ∧
    (∀ i < 2, Family.Step Host.silent Host.silent (f i) (startsFirst i) (f (i + 1))) ∧
    (f 1).annals.map (·.new) = [⟨3⟩] ∧
    ∃ x, (f 2).annals = [x] ∧ x.new = ⟨2⟩ ∧ (f 2).Denotes x ["x"] := by
  intro f
  have hg : around.machine.graph.Tied := ((Graph.Reachable.new "between").edited betweenEdits).tied
  have hbodies : Host.silent.Makes (κ := Unit) Request.KeepsGraph := fun _ _ _ => trivial
  have ht : ∀ i < 2, (startsFirst i).Unedited := by
    rintro (_ | _) _ e heq <;> cases heq
  have hsteps := steps_between (t := startsFirst) (by decide +kernel)
  have hstored : around.machine.history.own < around.logs.logs.size := by decide +kernel
  obtain ⟨hisolated, hpassed⟩ :=
    Family.denotes_of_turns hg hstored rfl spawn_between rfl hbodies hbodies ht hsteps
  have hnew : (f 1).annals.map (·.new) = [⟨3⟩] := by decide +kernel
  have hcopied : (f 2).annals.map (·.new) = [⟨2⟩] := by decide +kernel
  obtain ⟨y, hy, hyx⟩ := List.map_eq_singleton_iff.mp hnew
  obtain ⟨x, hx, hxb⟩ := List.map_eq_singleton_iff.mp hcopied
  obtain ⟨ys, happend, hdenotes⟩ := hpassed 0 (by decide) (.start []) rfl
  have hys : ys = [y] := happend.symm.trans hy
  have hbecome : Family.become f startsFirst 1 1 y = some x :=
    Family.become_of_single hy hx (hisolated 1 (by decide) rfl)
  have hnames : (f 0).child.names ⟨3⟩ = ["x"] := by decide +kernel
  have hx' :=
    (hdenotes y (hys ▸ List.mem_cons_self) 1 (by decide) x hbecome (by decide +kernel)).2 (by
    rintro i' hi'
    obtain rfl := Nat.le_zero.mp hi'
    exact id)
  rw [hyx, hnames] at hx'
  exact ⟨hg, hstored, rfl, spawn_between, rfl, hbodies, ht, hsteps, hnew, x, hx, hxb, hx'⟩

/-- Isolated first, the child passes on a handle of its own graph, which is of a on that of the
parent. -/
theorem not_denotes_between :
    let f := Family.turns isolatesFirst between
    around.machine.options.propagateHistory = true ∧
    around.machine.spawnSubmachine ⟨1⟩ default around.logs = .ok (between.child, between.logs) ∧
    (∀ i < 2, Family.Step Host.silent Host.silent (f i) (isolatesFirst i) (f (i + 1))) ∧
    ∃ x, (f 2).annals = [x] ∧ (f 1).child.names x.new = ["x"] ∧ (f 2).site = some ⟨1⟩ ∧
      (f 2).parent.graph.names x.new = ["a"] ∧ ¬ (f 2).Denotes x ["x"] := by
  intro f
  have hsteps := steps_between (t := isolatesFirst) (by decide +kernel)
  have hnew : (f 2).annals.map (·.new) = [⟨0⟩] := by decide +kernel
  obtain ⟨x, hx, hxa⟩ := List.map_eq_singleton_iff.mp hnew
  have hinside : (f 1).child.names ⟨0⟩ = ["x"] := by decide +kernel
  have hnames : (f 2).parent.graph.names ⟨0⟩ = ["a"] := by decide +kernel
  refine ⟨rfl, spawn_between, hsteps, x, hx, hxa ▸ hinside, rfl, hxa ▸ hnames, ?_⟩
  rintro ⟨s, hs, heq⟩
  obtain rfl := Option.some.inj hs
  have hb : (f 2).parent.graph.names ⟨1⟩ = ["b"] := by decide +kernel
  rw [hxa, hnames, hb] at heq
  exact absurd heq (by decide)

end Statechart
