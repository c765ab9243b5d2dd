import Mathlib.Data.List.Chain
import Statechart.Proofs.Machine.Rollback
import Statechart.Proofs.Machine.Stances

/-!
# The trail of a machine

The history of a machine is the way that it has gone: a seed where it was started or put into a
state, then one record for each transition fired, each from the state that the record before led to,
and the last one leads to the active state. This holds as long as no transition fires with no state
active. A transition may do so once a move into the first state has been rolled back, since what its
activity has queued stays in the slot.
-/

namespace Statechart

open Json

variable {σ κ : Type}

/-- The records tell the way to the active state: a seed, then transitions, each from where the one
before led. -/
structure Trail (records : List HistoryRecord) (active : Option StateId) : Prop where
  seed : ∀ x ∈ records.head?, x.transition = none ∧ x.previous = none
  chain : records.IsChain fun x y => y.transition.isSome ∧ y.previous = some x.new
  last : active = records.getLast?.map (·.new)

namespace Trail

variable {records : List HistoryRecord} {active : Option StateId} {x : HistoryRecord}

theorem empty : Trail [] none := ⟨nofun, .nil, rfl⟩

theorem of_seed (htransition : x.transition = none)
    (hprevious : x.previous = none) : Trail [x] (some x.new) := by
  refine ⟨fun y hy => ?_, .singleton x, rfl⟩
  obtain rfl := Option.some.inj hy
  exact ⟨htransition, hprevious⟩

theorem eq_nil (h : Trail records none) : records = [] := by
  have hlast := h.last.symm
  rwa [Option.map_eq_none_iff, List.getLast?_eq_none_iff] at hlast

theorem ne_nil {s : StateId} (h : Trail records (some s)) : records ≠ [] := by
  rintro rfl
  cases h.last

theorem transition_head (h : Trail records active) : records.head?.bind (·.transition) = none := by
  cases hx : records.head? with
  | none => rfl
  | some x => exact (h.seed x hx).1

/-- A transition that fires from the active state leads the trail on. -/
theorem concat {s : StateId} (h : Trail records (some s)) (htransition : x.transition.isSome)
    (hprevious : x.previous = some s) : Trail (records ++ [x]) (some x.new) := by
  obtain ⟨y, hy, rfl⟩ := Option.map_eq_some_iff.mp h.last.symm
  refine ⟨fun z hz => h.seed z ?_, ?_, ?_⟩
  · cases records with
    | nil => cases hy
    | cons first rest => exact hz
  · refine List.isChain_append.mpr ⟨h.chain, .singleton x, fun z hz u hu => ?_⟩
    obtain rfl := Option.some.inj (hy.symm.trans hz)
    obtain rfl := Option.some.inj hu
    exact ⟨htransition, hprevious⟩
  · rw [List.getLast?_concat]
    rfl

end Trail

namespace LogStore

variable {st : LogStore} {l : HistoryLog}

theorem size_update (n : Nat) (f : List HistoryRecord → List HistoryRecord) :
    (st.update n f).logs.size = st.logs.size :=
  Array.size_modify

theorem size_append (x : HistoryRecord) : (st.append l x).logs.size = st.logs.size := by
  rw [append]
  cases l.parent with
  | none => exact size_update ..
  | some n => exact (size_update ..).trans (size_update ..)

/-- What is appended to a log of the store comes last in it, unless the log passes its records on to
itself. -/
theorem records_append (hparent : l.parent ≠ some l.own) (hstored : l.own < st.logs.size)
    (x : HistoryRecord) : (st.append l x).records l = st.records l ++ [x] := by
  have hown (st' : LogStore) (hstored : l.own < st'.logs.size) :
      (st'.update l.own (· ++ [x])).recordsAt l.own = st'.recordsAt l.own ++ [x] := by
    rw [recordsAt_update, if_pos rfl, recordsAt, Array.getElem?_eq_getElem hstored]
    rfl
  rw [append, records, records]
  cases hp : l.parent with
  | none => exact hown st hstored
  | some n =>
    have hne : n ≠ l.own := fun heq => hparent (heq ▸ hp)
    have hsize : l.own < (st.update n (· ++ [x])).logs.size := by
      rw [size_update]
      exact hstored
    refine (hown _ hsize).trans ?_
    rw [recordsAt_update, if_neg hne]

end LogStore

/-! ## What an operation does to the trail -/

namespace Stance

variable {l : HistoryLog} {c : Nat} {fresh : Prop} {k : Stance} {x : HistoryRecord}

/-- Amid an operation on a machine that records its moves in the log. As long as no more than so
many transitions have fired with no state active, the records are a trail, and whether there are
none yet is known. From the first such firing on, the first record is of a transition. -/
structure Follows (l : HistoryLog) (c : Nat) (fresh : Prop) (k : Stance) : Prop where
  history : k.history = l
  recorded : k.recorded = true
  stored : l.own < k.logs.logs.size
  phase : k.phase = .idle
  count : c ≤ k.strays
  trail : k.strays = c → Trail (k.logs.records l) k.active ∧ (k.logs.records l = [] ↔ fresh)
  strayed : k.strays ≠ c → ∃ x, (k.logs.records l).head? = some x ∧ x.transition.isSome

theorem Follows.congr {fresh' : Prop} (h : k.Follows l c fresh)
    (hfresh : fresh ↔ fresh') : k.Follows l c fresh' :=
  ⟨h.history, h.recorded, h.stored, h.phase, h.count,
    fun hc => ⟨(h.trail hc).1, (h.trail hc).2.trans hfresh⟩, h.strayed⟩

/-- Whether there still is a trail is told by the transitions that have fired with no state
active. -/
theorem Follows.trail_iff (h : k.Follows l c fresh) :
    k.strays = c ↔ Trail (k.logs.records l) k.active := by
  refine ⟨fun hc => (h.trail hc).1, fun htrail => ?_⟩
  by_contra hne
  obtain ⟨x, hx, htransition⟩ := h.strayed hne
  rw [(htrail.seed x hx).1] at htransition
  cases htransition

theorem Follows.fired (h : k.Follows l c fresh) (hparent : l.parent ≠ some l.own) {t : TransitionId}
    (hprevious : x.previous = k.active) (htransition : x.transition = some t) :
    (k.fired x).Follows l c fresh := by
  have hsome : x.transition.isSome := by
    rw [htransition]
    rfl
  have hlogs : (k.fired x).logs = k.logs.append l x := by
    rw [Stance.fired, if_pos h.recorded, h.history]
  have hrecords : (k.fired x).logs.records l = k.logs.records l ++ [x] := by
    rw [hlogs, LogStore.records_append hparent h.stored]
  have hcount := h.count
  have hle : k.strays ≤ (k.fired x).strays := le_strays_fired
  refine ⟨h.history, h.recorded, ?_, h.phase, by omega, ?_, ?_⟩
  · rw [hlogs, LogStore.size_append]
    exact h.stored
  · intro hc
    have hbefore : k.strays = c := by omega
    obtain ⟨htrail, hfresh⟩ := h.trail hbefore
    -- No transition has fired with no state active, so there is a state that this one is fired
    -- from.
    obtain ⟨s, hs⟩ := Option.ne_none_iff_exists'.mp (strays_fired_eq_iff.mp (hc.trans hbefore.symm))
    rw [hs] at htrail
    refine ⟨hrecords ▸ htrail.concat hsome (hprevious.trans hs), ?_⟩
    rw [hrecords, ← hfresh]
    exact iff_of_false (List.append_ne_nil_of_right_ne_nil _ (List.cons_ne_nil _ _)) htrail.ne_nil
  · intro hc
    rw [hrecords, List.head?_append]
    by_cases hbefore : k.strays = c
    · have hnone : k.active = none := by
        by_contra hne
        exact hc ((strays_fired_eq_iff.mpr hne).trans hbefore)
      have hnil := (hnone ▸ (h.trail hbefore).1).eq_nil
      rw [hnil]
      exact ⟨x, rfl, hsome⟩
    · obtain ⟨y, hy, hysome⟩ := h.strayed hbefore
      rw [hy]
      exact ⟨y, rfl, hysome⟩

theorem Follows.seeded (h : k.Follows l c fresh) (hparent : l.parent ≠ some l.own)
    (hc : k.strays = c) (hprevious : x.previous = none) (htransition : x.transition = none) :
    (k.seeded x).Follows l c False := by
  have hlogs : (k.seeded x).logs = (k.logs.clear l).append l x := by
    rw [Stance.seeded, if_pos h.recorded, h.history]
  have hstored : l.own < (k.logs.clear l).logs.size := by
    rw [LogStore.clear, LogStore.size_update]
    exact h.stored
  have hrecords : (k.seeded x).logs.records l = [x] := by
    rw [hlogs, LogStore.records_append hparent hstored, LogStore.records_clear, List.nil_append]
  refine ⟨h.history, h.recorded, ?_, h.phase, h.count, fun _ => ?_, fun hne => absurd hc hne⟩
  · rw [hlogs, LogStore.size_append]
    exact hstored
  · rw [hrecords]
    exact ⟨.of_seed htransition hprevious, iff_of_false (List.cons_ne_nil _ _) id⟩

end Stance

namespace Request

/-- The request begins a trail if it succeeds. -/
def Seeds : Request κ → Prop
  | .start _ | .goto .. => True
  | _ => False

def Starts : Request κ → Prop
  | .start _ => True
  | _ => False

end Request

/-- The machine has never been put into a state, records its moves in a log of the store, and that
log does not pass them on to itself. -/
structure World.Unstarted (w : World σ κ) : Prop where
  inactive : w.machine.active = none
  phase : w.machine.phase = .idle
  idle : w.machine.running = false
  recorded : w.machine.options.recordHistory = true
  stored : w.machine.history.own < w.logs.logs.size
  parent : w.machine.history.parent ≠ some w.machine.history.own
  empty : w.records = []
  vacant : w.machine.pending = none

/-- An operation on a machine succeeds or fails. Before it, what the behaviors keep, the time and
the records of other machines may have become anything, for no log passes its records on to that of
this machine. -/
def Host.Ends (h : Host σ κ) (q : Request κ) (w : World σ κ) (succeeds : Bool)
    (w' : World σ κ) : Prop :=
  ∃ n env now logs, logs.records w.machine.history = w.records ∧ w.logs.logs.size ≤ logs.logs.size ∧
    ((succeeds = true ∧ ∃ a, h.perform n q { w with env, now, logs } = .ok a w') ∨
      (succeeds = false ∧ ∃ e, h.perform n q { w with env, now, logs } = .error (.fault e) w'))

namespace Host

variable {h : Host σ κ} {q : Request κ} {l : HistoryLog} {c : Nat} {fresh : Prop} {w w' : World σ κ}
  {succeeds : Bool}

/-- What is known of a request, whatever its fuel, is known of an operation. -/
theorem Ends.of_triple {P Q E : World σ κ → Prop}
    (htriple : ∀ n, Engine.Triple P (h.perform n q) (fun _ => Q) fun _ => E)
    (hends : h.Ends q w succeeds w')
    (hw : ∀ env now logs, logs.records w.machine.history = w.records →
      w.logs.logs.size ≤ logs.logs.size →
      P { w with env, now, logs }) : succeeds = true ∧ Q w' ∨ succeeds = false ∧ E w' := by
  obtain ⟨n, env, now, logs, hrecords, hsize, hn⟩ := hends
  have hperform := htriple n _ (hw env now logs hrecords hsize)
  rcases hn with ⟨hsucceeds, a, ha⟩ | ⟨hfails, e, he⟩
  · rw [ha] at hperform
    exact .inl ⟨hsucceeds, hperform⟩
  · rw [he] at hperform
    exact .inr ⟨hfails, hperform⟩

variable (hbodies : h.Makes fun q => ¬ q.Replaces)
include hbodies

/-- A machine at rest that is put into a state has one record. -/
theorem stands_perform {k : Stance} (hq : q.Seeds) (hidle : k.phase = .idle) (n : Nat) :
    Engine.Triple (World.Stands false (· = k)) (h.perform n q)
      (fun _ w => ∃ x : HistoryRecord, x.previous = none ∧ x.transition = none ∧
        w.Stands false (· = k.seeded x))
      fun _ w => q.Starts ∨ w.Stands false (· = k) := by
  cases n with
  | zero => exact fun _ hw => .inr hw
  | succ n =>
    have hr (k : Stance) (hmoving : k.phase.Moving) (heffect : k.phase.effect = false) :
        (h.responder (h.perform n)).Keeps (World.Stands false (· = k)) :=
      keeps_responder World.indifferent_stands hbodies fun q =>
        keeps_moving hbodies k hmoving heffect n
    cases q with
    | start args => exact (Engine.stands_start hr hidle args).mono_error fun _ _ _ => .inl trivial
    | goto s args => exact (Engine.stands_goto hr hidle s args).mono_error fun _ _ => .inr
    | _ => exact hq.elim

theorem follows_perform (hparent : l.parent ≠ some l.own) (hq : q.Seeds) (n : Nat) :
    Engine.Triple (World.Stands false fun k => k.Follows l c fresh ∧ k.strays = c) (h.perform n q)
      (fun _ => World.Stands false (Stance.Follows l c False))
      fun _ w => q.Starts ∨ w.Stands false (Stance.Follows l c fresh) := by
  refine .of_stance fun k ⟨hk, hc⟩ => (stands_perform hbodies hq hk.phase n).mono_post ?_ ?_
  · rintro _ w ⟨x, hprevious, htransition, hrunning, hw⟩
    exact ⟨hrunning, hw ▸ hk.seeded hparent hc hprevious htransition⟩
  · rintro _ w (hstarts | ⟨hrunning, rfl⟩)
    · exact .inl hstarts
    · exact .inr ⟨hrunning, hk⟩

/-- Bodies and runs lead the trail on as long as every transition that they fire is fired from a
state. -/
theorem keeps_follows (hparent : l.parent ≠ some l.own) (hq : ¬ q.Replaces) (n : Nat) :
    Engine.Keeps (World.Stands false (Stance.Follows l c fresh)) (h.perform n q) := by
  refine keeps_idling hbodies (fun k hk => ?_) (fun k x t hk _ => hk.fired hparent) n hq
  rw [hk.phase]
  rfl

/-- An operation leads the trail on as long as every transition that it fires is fired from a
state. -/
theorem Ends.follows (hparent : l.parent ≠ some l.own) (hq : q.Seeds ∨ ¬ q.Replaces)
    (hstarts : q.Starts → succeeds = true) (hends : h.Ends q w succeeds w')
    (hw : w.Stands false (Stance.Follows l w.strays fresh)) :
    w'.Stands false (Stance.Follows l w.strays (fresh ∧ (q.Seeds → succeeds = false))) := by
  have hmeanwhile (env : σ) (now : Instant) (logs : LogStore)
      (hrecords : logs.records w.machine.history = w.records)
      (hsize : w.logs.logs.size ≤ logs.logs.size) :
      ({ w with env, now, logs } : World σ κ).Stands false
        fun k => k.Follows l w.strays fresh ∧ k.strays = w.strays := by
    obtain ⟨hrunning, hfollows⟩ := hw
    refine ⟨hrunning, ⟨hfollows.history, hfollows.recorded,
      Nat.lt_of_lt_of_le hfollows.stored hsize, hfollows.phase,
      hfollows.count, fun hc => ?_, fun hne => absurd rfl hne⟩, rfl⟩
    have hl : logs.records l = w.logs.records l := by
      rw [← hfollows.history]
      exact hrecords
    show Trail (logs.records l) w.stance.active ∧ (logs.records l = [] ↔ fresh)
    rw [hl]
    exact hfollows.trail hc
  by_cases hseeds : q.Seeds
  · rcases Ends.of_triple (follows_perform hbodies hparent hseeds) hends hmeanwhile
      with ⟨rfl, hw'⟩ | ⟨rfl, hw'⟩
    · exact ⟨hw'.1, hw'.2.congr (iff_of_false id fun hfresh => Bool.noConfusion (hfresh.2 hseeds))⟩
    · have hstarted : ¬ q.Starts := fun hstart => Bool.noConfusion (hstarts hstart)
      have hw' := hw'.resolve_left hstarted
      exact ⟨hw'.1, hw'.2.congr (iff_self_and.mpr fun _ _ => rfl)⟩
  · have hafter : w'.Stands false (Stance.Follows l w.strays fresh) := by
      have hends := Ends.of_triple (keeps_follows hbodies hparent (hq.resolve_left hseeds)) hends
        fun env now logs hrecords hsize => ⟨hw.1, (hmeanwhile env now logs hrecords hsize).2.1⟩
      exact hends.elim And.right And.right
    exact ⟨hafter.1, hafter.2.congr (iff_self_and.mpr fun _ hs => absurd hs hseeds)⟩

end Host

/-! ## Firing from nowhere -/

/-- No state is active and nothing waits, and so many transitions are known to have fired with no
state active. -/
def World.Vacant (c : Nat) (w : World σ κ) : Prop :=
  w.machine.active = none ∧ w.machine.pending = none ∧ w.strays = c

/-- Nothing waits unless a state is active. -/
def World.Rooted (w : World σ κ) : Prop := w.machine.active = none → w.machine.pending = none

theorem World.lax_vacant {c : Nat} : World.Lax (World.Vacant (σ := σ) (κ := κ) c) where
  machine hm h := ⟨hm.active.trans h.1, hm.pending.trans h.2.1, h.2.2⟩
  logs _ h := h
  env _ h := h
  now _ h := h
  notify {w n} hn h := by
    have hstrays := congrArg Stance.strays (World.stance_notify w n)
    rw [hn.not_stray] at hstrays
    exact ⟨h.1, h.2.1, hstrays.trans h.2.2⟩

theorem Comparison.runs_vacant {c : Nat} :
    (within (World.Vacant c) : Comparison σ σ κ).Runs .same where
  toHandles := handles_within World.lax_vacant
  setRunning _ h := ⟨by rw [h.1], h.2⟩

/-- Nothing is queued with no state active. -/
theorem Engine.vacant_queueTransition {c : Nat} (t : TransitionId) (args : List Value) :
    Keeps (World.Vacant c) (queueTransition t args : Engine σ κ Unit) := by
  intro w hw
  rcases queueTransition_cases t args w with ⟨e, he⟩ | ⟨s, -, -, hactive, -⟩
  · rw [he]
    exact hw
  · cases hw.1.symm.trans hactive

namespace Host

variable {h : Host σ κ} (hbodies : h.Makes fun q => ¬ q.Replaces) {q : Request κ} {w w' : World σ κ}
  {succeeds : Bool}
include hbodies

theorem keeps_vacant (c n : Nat) (hq : ¬ q.Replaces) :
    Engine.Keeps (World.Vacant c) (h.perform n q) := by
  have hindifferent : World.Indifferent (World.Vacant (σ := σ) (κ := κ) c) :=
    fun _ _ hw => World.lax_vacant.env _ hw
  refine keeps_perform (C := fun _ _ => True) hindifferent hbodies (fun _ => trivial)
    (fun r hook n q _ hr hhook hq => ?_) n hq
  have htake : (Comparison.within (World.Vacant (σ := σ) (κ := κ) c)).Takes .same
      fun _ => False := by
    refine Comparison.takes_of (fun {w w'} hw => ⟨by rw [hw.1], fun p hp => ?_⟩) fun {w w'} hw => ?_
    · cases hw.2.2.1.symm.trans hp
    · exact ⟨by rw [hw.1], hw.2.1, rfl, hw.2.2.2⟩
  exact Engine.keeps_iff_matches.mpr
    (Engine.matches_carryOut_of_runs htake (fun _ hp => hp.elim) Comparison.runs_vacant
    hr.matches (fun t args => Engine.keeps_iff_matches.mp (Engine.vacant_queueTransition t args))
    (fun key => Engine.keeps_iff_matches.mp (hhook key)) n fun hreplaces => absurd hreplaces hq)

/-- A machine in a state fires nothing with no state active. -/
theorem keeps_active (c n : Nat) (hq : ¬ q.Replaces) :
    Engine.Keeps (World.Stands false fun k => k.phase = .idle ∧ k.active ≠ none ∧ k.strays = c)
      (h.perform n q) := by
  refine keeps_idling hbodies (fun k hk => ?_)
    (fun k x t hk _ _ _ => ⟨hk.1, Option.some_ne_none _, ?_⟩) n hq
  · rw [hk.1]
    rfl
  · exact (Stance.strays_fired_eq_iff.mpr hk.2.1).trans hk.2.2

/-- An operation on a machine at rest fires nothing with no state active, unless something waits
then. -/
theorem Ends.rooted (hq : q.Seeds ∨ ¬ q.Replaces) (hstarts : q.Starts → succeeds = true)
    (hends : h.Ends q w succeeds w') (hw : w.Stands false fun k => k.phase = .idle)
    (hrooted : w.Rooted) :
    w'.strays = w.strays ∧ ((q.Seeds → succeeds = false → w'.Rooted) → w'.Rooted) := by
  by_cases hseeds : q.Seeds
  · have hperform (n : Nat) : Engine.Triple (World.Stands false fun k => k.phase = .idle ∧
      k.strays = w.strays)
        (h.perform n q) (fun _ w' => w'.strays = w.strays ∧ w'.Rooted) fun _ w' =>
          q.Starts ∨ w'.strays = w.strays := by
      refine .of_stance fun k ⟨hidle, hc⟩ => (stands_perform hbodies hseeds hidle n).mono_post ?_ ?_
      · rintro _ v ⟨x, -, -, -, hv⟩
        refine ⟨(congrArg Stance.strays hv).trans hc, fun hnone => ?_⟩
        cases hnone.symm.trans (congrArg Stance.active hv)
      · rintro _ v (hstarts | ⟨-, rfl⟩)
        · exact .inl hstarts
        · exact .inr hc
    rcases hends.of_triple hperform fun _ _ _ _ _ =>
      ⟨hw.1, hw.2, rfl⟩ with ⟨-, hstrays, hw'⟩ | ⟨rfl, hw'⟩
    · exact ⟨hstrays, fun _ => hw'⟩
    · exact ⟨hw'.resolve_left fun hstart => Bool.noConfusion (hstarts hstart),
        fun hkept => hkept hseeds rfl⟩
  · have hq := hq.resolve_left hseeds
    cases hactive : w.machine.active with
    | none =>
      have hafter := hends.of_triple (keeps_vacant hbodies w.strays · hq)
        fun _ _ _ _ _ => ⟨hactive, hrooted hactive, rfl⟩
      obtain ⟨-, hpending, hstrays⟩ := hafter.elim And.right And.right
      exact ⟨hstrays, fun _ _ => hpending⟩
    | some s =>
      have hafter := hends.of_triple (keeps_active hbodies w.strays · hq) fun _ _ _ _ _ =>
        ⟨hw.1, hw.2, ?_, rfl⟩
      · obtain ⟨-, -, hactive, hstrays⟩ := hafter.elim And.right And.right
        exact ⟨hstrays, fun _ hnone => absurd hnone hactive⟩
      · intro hnone
        cases hactive.symm.trans hnone

end Host

/-! ## Sequences of operations -/

theorem World.Unstarted.follows {w : World σ κ} (hw : w.Unstarted) :
    w.Stands false (Stance.Follows w.machine.history w.strays True) := by
  have hnil : w.logs.records w.machine.history = [] := hw.empty
  refine ⟨hw.idle, rfl, hw.recorded, hw.stored, hw.phase, Nat.le_refl _, fun _ => ?_,
    fun hne => absurd rfl hne⟩
  have hactive : w.stance.active = none := hw.inactive
  rw [hactive]
  exact ⟨hnil ▸ .empty, iff_of_true hnil trivial⟩

namespace Host

variable {h : Host σ κ} {w : Nat → World σ κ} {q : Nat → Request κ} {succeeds : Nat → Bool}
  {n : Nat}

/-- Up to the first transition that is fired with no state active, the trail is followed. -/
theorem follows_of_steps (hbodies : h.Makes fun q => ¬ q.Replaces) (hunstarted : (w 0).Unstarted)
    (hrequests : ∀ i < n, (q i).Seeds ∨ ¬ (q i).Replaces)
    (hstarts : ∀ i < n, (q i).Starts → succeeds i = true)
    (hends : ∀ i < n, h.Ends (q i) (w i) (succeeds i) (w (i + 1))) :
    ∀ i ≤ n, (∀ j < i, (w (j + 1)).strays = (w j).strays) →
      (w i).Stands false (Stance.Follows (w 0).machine.history (w i).strays
        (∀ j < i, (q j).Seeds → succeeds j = false)) := by
  intro i
  induction i with
  | zero =>
    have hfollows := hunstarted.follows
    exact fun _ _ => ⟨hfollows.1,
      hfollows.2.congr (iff_of_true trivial fun j hj => absurd hj (Nat.not_lt_zero j))⟩
  | succ i ih =>
    intro hi hstrays
    have hw := ih (Nat.le_of_succ_le hi) fun j hj => hstrays j (Nat.lt_succ_of_lt hj)
    have hnext := (hends i hi).follows hbodies hunstarted.parent (hrequests i hi) (hstarts i hi) hw
    rw [hstrays i (Nat.lt_succ_self i)]
    exact ⟨hnext.1, hnext.2.congr Nat.forall_lt_succ_right.symm⟩

/-- Of a sequence of operations on a machine that has never been put into a state: all along the
records tell the way to the active state, and there are none until an operation has put the machine
into a state, if and only if no operation fires a transition with no state active. None does if
every operation that fails to put the machine into its first state leaves the slot empty. -/
theorem trail_iff_of_steps (hbodies : h.Makes fun q => ¬ q.Replaces) (hunstarted : (w 0).Unstarted)
    (hrequests : ∀ i < n, (q i).Seeds ∨ ¬ (q i).Replaces)
    (hstarts : ∀ i < n, (q i).Starts → succeeds i = true)
    (hends : ∀ i < n, h.Ends (q i) (w i) (succeeds i) (w (i + 1))) :
    ((∀ i ≤ n, Trail (w i).records (w i).machine.active ∧
      ((w i).records = [] ↔ ∀ j < i, (q j).Seeds → succeeds j = false)) ↔
    ∀ i < n, (w (i + 1)).strays = (w i).strays) ∧
    ((∀ i < n, (q i).Seeds → succeeds i = false → (w (i + 1)).Rooted) →
      ∀ i < n, (w (i + 1)).strays = (w i).strays) := by
  have hall := follows_of_steps hbodies hunstarted hrequests hstarts hends
  have hrecords {i : Nat} {fresh : Prop} {c : Nat}
      (hw : (w i).Stands false (Stance.Follows (w 0).machine.history c fresh)) :
      (w i).records = (w i).logs.records (w 0).machine.history := by
    rw [World.records, ← hw.2.history]
    rfl
  refine ⟨⟨fun htrails i => ?_, fun hstrays i hi => ?_⟩, fun hkept => ?_⟩
  · induction i using Nat.strong_induction_on with
    | _ i ih =>
      intro hi
      have hw := hall i (Nat.le_of_lt hi) fun j hj => ih j hj (hj.trans hi)
      have hnext := (hends i hi).follows hbodies hunstarted.parent
        (hrequests i hi) (hstarts i hi) hw
      exact hnext.2.trail_iff.mpr (hrecords hnext ▸ (htrails (i + 1) hi).1)
  · have hw := hall i hi fun j hj => hstrays j (Nat.lt_of_lt_of_le hj hi)
    rw [hrecords hw]
    exact hw.2.trail rfl
  · have hrooted : ∀ i ≤ n, (w i).Rooted ∧ ∀ j < i, (w (j + 1)).strays = (w j).strays := by
      intro i
      induction i with
      | zero =>
        exact fun _ => ⟨fun _ => hunstarted.vacant, fun j hj => absurd hj (Nat.not_lt_zero j)⟩
      | succ i ih =>
        intro hi
        obtain ⟨hw, hstrays⟩ := ih (Nat.le_of_succ_le hi)
        have hstands := hall i (Nat.le_of_succ_le hi) hstrays
        have hnext := (hends i hi).rooted hbodies (hrequests i hi) (hstarts i hi) ⟨hstands.1,
          hstands.2.phase⟩ hw
        exact ⟨hnext.2 (hkept i hi), Nat.forall_lt_succ_right.mpr ⟨hstrays, hnext.1⟩⟩
    exact (hrooted n (Nat.le_refl n)).2

/-- Whether a request succeeds or fails, at most `k` requests deep. -/
def outcome? (h : Host σ κ) (k : Nat) (q : Request κ) (w : World σ κ) : Option Bool :=
  match h.perform k q w with
  | .ok .. => some true
  | .error (.fault _) _ => some false
  | .error .exhausted _ => none

theorem ends_next {q : Request κ} {w : World σ κ} {k : Nat} {b : Bool}
    (ho : h.outcome? k q w = some b) : h.Ends q w b (h.next k q w) := by
  refine ⟨k, w.env, w.now, w.logs, rfl, Nat.le_refl _, ?_⟩
  rw [outcome?] at ho
  rw [next]
  cases hp : h.perform k q w with
  | ok a w' =>
    rw [hp] at ho
    exact .inl ⟨(Option.some.inj ho).symm, a, rfl⟩
  | error e w' =>
    rw [hp] at ho
    cases e with
    | fault e => exact .inr ⟨(Option.some.inj ho).symm, e, rfl⟩
    | exhausted => cases ho

/-- Bodies that queue the transition b->c, and by their key succeed or fail then. -/
def hasty : Host Unit Bool where
  handlers _ := .empty
  body succeeds _ _ :=
    .call (.queue ⟨1⟩ []) fun _ =>
      .ret (if succeeds then .ok none else .error (.behavior "work" "disk full"))

theorem hasty_makes : hasty.Makes fun q => ¬ q.Replaces := fun _ _ _ => ⟨id, fun _ => trivial⟩

end Host

/-! ## Three states in a row -/

/-- The second and the third state have an activity each. -/
def rowEdits (atB atC : Behavior Bool) : List (Edit Bool) :=
  [.addState ⟨0⟩ { name := "a" }, .addState ⟨0⟩ { name := "b", doActivity := atB },
    .addState ⟨0⟩ { name := "c", doActivity := atC },
    .addTransition ⟨0⟩ { name := "a->b", source := ⟨0⟩, target := ⟨1⟩ },
    .addTransition ⟨0⟩ { name := "b->c", source := ⟨1⟩, target := ⟨2⟩ },
    .setStart ⟨0⟩ (some ⟨0⟩), .setFinal ⟨0⟩ (some ⟨2⟩)]

/-- The machine is put into c, where the activity fails, and later a run fails there. -/
def detour : Nat → Request Bool
  | 0 => .goto ⟨2⟩ []
  | 1 => .start []
  | 2 => .queue ⟨0⟩ []
  | 3 => .run .continuous
  | _ => .goto ⟨0⟩ []

/-- The activity of b succeeds, and that of c fails. -/
def detoured : Nat → World Unit Bool :=
  Host.hasty.worlds 4 detour
    (.fresh ((Graph.new "row").edited (rowEdits (.callback true) (.callback false))))

theorem trail_iff_detour :
    Host.hasty.Makes (fun q => ¬ q.Replaces) ∧ (detoured 0).Unstarted ∧
    (∀ i < 5, (detour i).Seeds ∨ ¬ (detour i).Replaces) ∧
    (∀ i < 5, (detour i).Starts → (i != 0 && i != 3) = true) ∧
    (∀ i < 5, Host.hasty.Ends (detour i) (detoured i) (i != 0 && i != 3) (detoured (i + 1))) ∧
    ((∀ i ≤ 5, Trail (detoured i).records (detoured i).machine.active ∧
      ((detoured i).records = [] ↔ ∀ j < i, (detour j).Seeds → (j != 0 && j != 3) = false)) ↔
    ∀ i < 5, (detoured (i + 1)).strays = (detoured i).strays) ∧
    ((∀ i < 5, (detour i).Seeds → (i != 0 && i != 3) = false → (detoured (i + 1)).Rooted) →
      ∀ i < 5, (detoured (i + 1)).strays = (detoured i).strays) := by
  have hunstarted : (detoured 0).Unstarted :=
    ⟨rfl, rfl, rfl, rfl, by decide +kernel, by decide +kernel, by decide +kernel, rfl⟩
  have hrequests : ∀ i < 5, (detour i).Seeds ∨ ¬ (detour i).Replaces := by
    intro i _
    match i with
    | 0 | 1 | _ + 4 => exact .inl trivial
    | 2 | 3 => exact .inr id
  have hstarts : ∀ i < 5, (detour i).Starts → (i != 0 && i != 3) = true := by
    intro i _ hstart
    match i with
    | 0 | 2 | 3 | _ + 4 => exact hstart.elim
    | 1 => rfl
  have hends : ∀ i < 5, Host.hasty.Ends (detour i) (detoured i) (i != 0 && i != 3)
      (detoured (i + 1)) := by
    have hall : ∀ i < 5, Host.hasty.outcome? 4 (detour i) (detoured i) =
        some (i != 0 && i != 3) := by
      decide +kernel
    exact fun i hi => Host.ends_next (hall i hi)
  exact ⟨Host.hasty_makes, hunstarted, hrequests, hstarts, hends,
    Host.trail_iff_of_steps (w := detoured) Host.hasty_makes hunstarted hrequests hstarts hends⟩

/-- The machine is put into b, where the activity queues b->c and fails, and runs. -/
def uproot : Nat → Request Bool
  | 0 => .goto ⟨1⟩ []
  | _ => .run .continuous

def uprooted : Nat → World Unit Bool :=
  Host.hasty.worlds 4 uproot
    (.fresh ((Graph.new "row").edited (rowEdits (.callback false) .absent)))

/-- The machine is in no state, yet b->c is fired, and begins the records. -/
theorem not_trail_uprooted :
    Host.hasty.Makes (fun q => ¬ q.Replaces) ∧ (uprooted 0).Unstarted ∧
    (∀ i < 2, Host.hasty.Ends (uproot i) (uprooted i) (i != 0) (uprooted (i + 1))) ∧
    (uprooted 1).machine.active = none ∧
    (uprooted 2).records.map (fun x => (x.previous, x.transition, x.new)) =
      [(none, some ⟨1⟩, ⟨2⟩)] ∧
    ¬ Trail (uprooted 2).records (uprooted 2).machine.active := by
  have hunstarted : (uprooted 0).Unstarted :=
    ⟨rfl, rfl, rfl, rfl, by decide +kernel, by decide +kernel, by decide +kernel, rfl⟩
  have hall : ∀ i < 2, Host.hasty.outcome? 4 (uproot i) (uprooted i) =
    some (i != 0) := by decide +kernel
  have hfirst : (uprooted 2).records.head?.bind (·.transition) = some ⟨1⟩ := by decide +kernel
  refine ⟨Host.hasty_makes, hunstarted, fun i hi => Host.ends_next (hall i hi),
    by decide +kernel, by decide +kernel, fun htrail => ?_⟩
  cases hfirst.symm.trans htrail.transition_head

end Statechart
