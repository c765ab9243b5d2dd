import Statechart.Proofs.Machine.BearingCalls
import Statechart.Proofs.Machine.Quiescence

/-!
# One firing at a time

A firing that begins is over before another does, and before the machine is isolated or restored: it
has been told to have ended, or the run that it belongs to has failed. This is told by the notices
and by the calls that bodies make. Behind it are the flags: a firing begins only in a run with
nothing being fired and no effect under way, and while a run is under way no request begins another.
-/

namespace Statechart

open Json

variable {σ κ α : Type}

/-- The call asked for a run and failed. -/
def Call.Fails (c : Call σ κ) : Prop := c.request.Runs ∧ ∃ e, c.outcome = .error e

/-- The call has given the machine another graph or another place to be in. -/
inductive Call.Replaces : Call σ κ → Prop
  | isolated (w a w') : Replaces ⟨.isolate, w, .ok a, w'⟩
  | restored (s w m w') : Replaces ⟨.restore s, w, .ok (.ok m), w'⟩

/-- The firing that begins with the notice numbered `i` is over by the time that `j` notices are
told: by then it has been told that the transition has fired, or a run that was called for before
the firing began has failed since. -/
def Over (told : List Notice) (calls : List (Call σ κ)) (t : TransitionId) (i j : Nat) : Prop :=
  (∃ k source target, i < k ∧ k < j ∧ told[k]? = some (.transitionFired t source target)) ∨
  ∃ c ∈ calls, c.Fails ∧ c.before.notices.length ≤ i ∧ i < c.after.notices.length ∧
  c.after.notices.length ≤ j

/-- All firings that have begun since the notice numbered `b` are over by the time that `j` notices
are told. -/
def Cleared (told : List Notice) (calls : List (Call σ κ)) (b j : Nat) : Prop :=
  ∀ i t, b ≤ i → i < j → told[i]? = some (.effectInvoked t) → Over told calls t i j

section
variable {told told' : List Notice} {calls calls' : List (Call σ κ)} {t : TransitionId}
  {b i j k : Nat}

theorem Over.mono (h : Over told calls t i j) (htold : told <+: told') (hcalls : calls <+: calls')
    (hj : j ≤ k) : Over told' calls' t i k := by
  rcases h with ⟨l, source, target, hil, hlj, hl⟩ | ⟨c, hc, hfails, hbefore, hafter, hended⟩
  · obtain ⟨rest, rfl⟩ := htold
    have hlt := (List.getElem?_eq_some_iff.mp hl).1
    exact .inl ⟨l, source, target, hil, Nat.lt_of_lt_of_le hlj hj,
      (List.getElem?_append_left hlt).trans hl⟩
  · exact .inr ⟨c, hcalls.subset hc, hfails, hbefore, hafter, Nat.le_trans hended hj⟩

theorem Cleared.mono (h : Cleared told calls b j) (htold : told <+: told')
    (hcalls : calls <+: calls') (hj : j ≤ told.length) : Cleared told' calls' b j := by
  intro i t hbi hij hi
  obtain ⟨rest, rfl⟩ := htold
  rw [List.getElem?_append_left (Nat.lt_of_lt_of_le hij hj)] at hi
  exact (h i t hbi hij hi).mono (List.prefix_append _ _) hcalls (Nat.le_refl _)

/-- Where nothing begins, what was cleared stays so. -/
theorem Cleared.extend (h : Cleared told calls b j) (hj : j ≤ k)
    (hnone : ∀ i t, j ≤ i → told[i]? ≠ some (.effectInvoked t)) : Cleared told calls b k := by
  intro i t hbi hik hi
  have hij : i < j := Nat.lt_of_not_le fun hji => hnone i t hji hi
  exact (h i t hbi hij hi).mono List.prefix_rfl List.prefix_rfl hj

end

namespace World

variable {b i : Nat} {t : TransitionId} {B : MachineError → Prop}

/-- One firing at a time has begun since the notice numbered `b`. Before any begins, and whenever a
call is made while no run is under way, all are over by what is told and noted until then. No call
has failed with an error of the kind. -/
structure Fair (b : Nat) (B : MachineError → Prop) (w : World (Diary σ κ) κ) : Prop where
  begun : ∀ j t, w.notices[j]? = some (.effectInvoked t) → Cleared w.notices w.env.calls b j
  idle : ∀ calls c rest, w.env.calls = calls ++ c :: rest → c.before.machine.running = false →
    c.before.notices.length ≤ w.notices.length ∧ Cleared w.notices calls b c.before.notices.length
  spared : ∀ c ∈ w.env.calls, Spared B c.outcome

/-- So it is, and all firings are over. -/
structure Cleaned (b : Nat) (B : MachineError → Prop)
    (w : World (Diary σ κ) κ) : Prop extends Fair b B w where
  cleared : Cleared w.notices w.env.calls b w.notices.length

/-- So it is, and the last firing is the one that begins with the notice numbered `i`. All before it
are over. -/
structure Ongoing (b i : Nat) (t : TransitionId) (B : MachineError → Prop)
    (w : World (Diary σ κ) κ) : Prop extends Fair b B w where
  begins : w.notices[i]? = some (.effectInvoked t)
  cleared : Cleared w.notices w.env.calls b i
  last : ∀ j t, i < j → w.notices[j]? ≠ some (.effectInvoked t)

variable {w w' u : World (Diary σ κ) κ} {told : List Notice} {c : Call σ κ}

/-- What is told is that no firing begins. -/
theorem not_begun_of_append (hnotices : w'.notices = w.notices ++ told)
    (htold : ∀ n ∈ told, ∀ t, n ≠ .effectInvoked t) :
    ∀ j t, w.notices.length ≤ j → w'.notices[j]? ≠ some (.effectInvoked t) := by
  intro j t hj htj
  rw [hnotices, List.getElem?_append_right hj] at htj
  exact htold _ (List.mem_of_getElem? htj) t rfl

section
variable (hnotices : w'.notices = w.notices ++ told) (htold : ∀ n ∈ told, ∀ t, n ≠ .effectInvoked t)
  (hcalls : w'.env.calls = w.env.calls)
include hnotices htold hcalls

theorem Fair.tell (h : w.Fair b B) : w'.Fair b B where
  begun j t hj := by
    have hlt : j < w.notices.length := Nat.lt_of_not_le fun hle =>
      not_begun_of_append hnotices htold j t hle hj
    rw [hnotices, List.getElem?_append_left hlt] at hj
    rw [hnotices, hcalls]
    exact (h.begun j t hj).mono (List.prefix_append _ _) List.prefix_rfl (Nat.le_of_lt hlt)
  idle calls c rest hsplit hidle := by
    obtain ⟨hle, hcleared⟩ := h.idle calls c rest (hcalls.symm.trans hsplit) hidle
    rw [hnotices]
    refine ⟨?_, hcleared.mono (List.prefix_append _ _) List.prefix_rfl hle⟩
    rw [List.length_append]
    exact Nat.le_add_right_of_le hle
  spared c hc := h.spared c (hcalls ▸ hc)

theorem Cleaned.tell (h : w.Cleaned b B) : w'.Cleaned b B := by
  refine ⟨h.toFair.tell hnotices htold hcalls, ?_⟩
  have hcleared : Cleared w'.notices w'.env.calls b w.notices.length := by
    rw [hnotices, hcalls]
    exact h.cleared.mono (List.prefix_append _ _) List.prefix_rfl (Nat.le_refl _)
  refine hcleared.extend ?_ (not_begun_of_append hnotices htold)
  rw [hnotices, List.length_append]
  exact Nat.le_add_right _ _

theorem Ongoing.tell (h : w.Ongoing b i t B) : w'.Ongoing b i t B := by
  have hi : i < w.notices.length := (List.getElem?_eq_some_iff.mp h.begins).1
  refine ⟨h.toFair.tell hnotices htold hcalls, ?_, ?_, fun j t' hij hj => ?_⟩
  · rw [hnotices, List.getElem?_append_left hi]
    exact h.begins
  · rw [hnotices, hcalls]
    exact h.cleared.mono (List.prefix_append _ _) List.prefix_rfl (Nat.le_of_lt hi)
  · have hlt : j < w.notices.length := Nat.lt_of_not_le fun hle =>
      not_begun_of_append hnotices htold j t' hle hj
    rw [hnotices, List.getElem?_append_left hlt] at hj
    exact h.last j t' hij hj

end

/-- A call is noted. If no run was under way as it was made, all firings were over by then. -/
theorem Fair.log (h : w.Fair b B)
    (hidle : c.before.machine.running = false →
      c.before.notices.length ≤ w.notices.length ∧
        Cleared w.notices w.env.calls b c.before.notices.length)
    (hspared : Spared B c.outcome) : (w.log c).Fair b B where
  begun j t hj :=
    (h.begun j t hj).mono List.prefix_rfl (List.prefix_append _ _)
      (Nat.le_of_lt (List.getElem?_eq_some_iff.mp hj).1)
  idle calls c' rest hsplit hidle' := by
    have hsplit : w.env.calls ++ [c] = calls ++ c' :: rest := hsplit
    cases rest using List.reverseRecOn with
    | nil =>
      obtain ⟨rfl, hsame⟩ := List.append_inj' hsplit rfl
      obtain rfl := List.singleton_inj.mp hsame
      exact hidle hidle'
    | append_singleton rest last =>
      rw [← List.cons_append, ← List.append_assoc] at hsplit
      exact h.idle calls c' rest (List.append_inj' hsplit rfl).1 hidle'
  spared c' hc' := by
    rcases List.mem_append.mp hc' with hc' | hc'
    · exact h.spared c' hc'
    · exact List.mem_singleton.mp hc' ▸ hspared

theorem Cleaned.log (h : w.Cleaned b B)
    (hidle : c.before.machine.running = false →
      c.before.notices.length ≤ w.notices.length ∧
        Cleared w.notices w.env.calls b c.before.notices.length)
    (hspared : Spared B c.outcome) : (w.log c).Cleaned b B :=
  ⟨h.toFair.log hidle hspared,
    h.cleared.mono List.prefix_rfl (List.prefix_append _ _) (Nat.le_refl _)⟩

theorem Ongoing.log (h : w.Ongoing b i t B) (hrunning : c.before.machine.running = true)
    (hspared : Spared B c.outcome) : (w.log c).Ongoing b i t B where
  toFair := h.toFair.log (fun hidle => nomatch hrunning.symm.trans hidle) hspared
  begins := h.begins
  cleared := h.cleared.mono List.prefix_rfl (List.prefix_append _ _)
    (Nat.le_of_lt (List.getElem?_eq_some_iff.mp h.begins).1)
  last := h.last

/-- A firing begins once all others are over. -/
theorem Cleaned.begin (h : w.Cleaned b B) (t : TransitionId) :
    (w.notify (.effectInvoked t)).Ongoing b w.notices.length t B := by
  have hmono {calls : List (Call σ κ)} {j : Nat} (hcleared : Cleared w.notices calls b j)
      (hj : j ≤ w.notices.length) :
      Cleared (w.notify (.effectInvoked t)).notices calls b j :=
    hcleared.mono (List.prefix_append _ _) List.prefix_rfl hj
  have hlast {j : Nat} {t' : TransitionId}
      (hj : (w.notify (.effectInvoked t)).notices[j]? = some (.effectInvoked t')) :
      j ≤ w.notices.length := by
    have hlt := (List.getElem?_eq_some_iff.mp hj).1
    rw [notify, List.length_append, List.length_singleton] at hlt
    exact Nat.le_of_lt_succ hlt
  refine ⟨⟨fun j t' hj => ?_, fun calls c rest hsplit hidle => ?_, h.spared⟩, ?_,
    hmono h.cleared (Nat.le_refl _), fun j t' hij hj => absurd hij (Nat.not_lt_of_le (hlast hj))⟩
  · rcases Nat.lt_or_eq_of_le (hlast hj) with hlt | rfl
    · rw [notify, List.getElem?_append_left hlt] at hj
      exact hmono (h.begun j t' hj) (Nat.le_of_lt hlt)
    · exact hmono h.cleared (Nat.le_refl _)
  · obtain ⟨hle, hcleared⟩ := h.idle calls c rest hsplit hidle
    refine ⟨?_, hmono hcleared hle⟩
    rw [notify, List.length_append]
    exact Nat.le_add_right_of_le hle
  · rw [notify, List.getElem?_concat_length]

/-- A firing that is told to have ended is over. -/
theorem Ongoing.commit (h : w.Ongoing b i t B) (source : Option StateId) (target : StateId) :
    (w.notify (.transitionFired t source target)).Cleaned b B := by
  have hnotices : (w.notify (.transitionFired t source target)).notices =
      w.notices ++ [.transitionFired t source target] := rfl
  have hfair : (w.notify (.transitionFired t source target)).Fair b B :=
    h.toFair.tell hnotices (fun n hn => List.mem_singleton.mp hn ▸ nofun) rfl
  have hi : i < w.notices.length := (List.getElem?_eq_some_iff.mp h.begins).1
  refine ⟨hfair, fun j t' hbj hj hbegins => ?_⟩
  have hlt : j < w.notices.length := Nat.lt_of_not_le fun hle =>
    not_begun_of_append hnotices (fun n hn => List.mem_singleton.mp hn ▸ nofun) j t' hle hbegins
  have hw : w.notices[j]? = some (.effectInvoked t') := by
    rwa [notify, List.getElem?_append_left hlt] at hbegins
  have hlength : w.notices.length <
      (w.notify (.transitionFired t source target)).notices.length := by
    rw [notify, List.length_append, List.length_singleton]
    exact Nat.lt_succ_self _
  rcases Nat.lt_trichotomy j i with hji | rfl | hij
  · exact (h.cleared j t' hbj hji hw).mono (List.prefix_append _ _) List.prefix_rfl
      (Nat.le_of_lt (Nat.lt_trans hi hlength))
  · obtain rfl : t = t' := Notice.effectInvoked.inj (Option.some.inj (h.begins.symm.trans hw))
    exact .inl ⟨w.notices.length, source, target, hi, hlength,
      by rw [notify, List.getElem?_concat_length]⟩
  · exact absurd hw (h.last j t' hij)

/-- A request for a run that fails leaves no firing that is not over once that is noted. -/
theorem Fair.fail (h : w.Fair b B) (hu : u.Cleaned b B) (hgrown : u.Grown w) {q : Request κ}
    (hq : q.Runs) {e : MachineError} (he : ¬ B e) :
    (w.log ⟨q, u.plain, .error e, w.plain⟩).Cleaned b B := by
  have hbefore : Cleared w.notices w.env.calls b u.notices.length :=
    hu.cleared.mono hgrown.notices hgrown.calls (Nat.le_refl _)
  refine ⟨h.log (fun _ => ⟨hgrown.notices.length_le, hbefore⟩)
    (fun _ he' => Except.error.inj he' ▸ he), fun i t hbi hi hbegins => ?_⟩
  rcases Nat.lt_or_ge i u.notices.length with hlt | hge
  · exact (hbefore i t hbi hlt hbegins).mono List.prefix_rfl (List.prefix_append _ _)
      hgrown.notices.length_le
  · exact .inr ⟨_, List.mem_append_right _ (List.mem_singleton_self _), ⟨hq, e, rfl⟩, hge,
      hi, Nat.le_refl _⟩

/-! ## What requests do -/

/-- A condition on what is told and noted that lasts as long as no firing begins. -/
structure Lapses (L : World (Diary σ κ) κ → Prop) (B : MachineError → Prop) : Prop where
  tell : ∀ {w w'} {told : List Notice}, w'.notices = w.notices ++ told →
    (∀ n ∈ told, ∀ t, n ≠ .effectInvoked t) → w'.env.calls = w.env.calls → L w → L w'
  log : ∀ {w} {c : Call σ κ}, c.before.machine.running = true →
    Spared B c.outcome → L w → L (w.log c)

theorem lapses_cleaned : Lapses (Cleaned (σ := σ) (κ := κ) b B) B where
  tell hnotices htold hcalls h := h.tell hnotices htold hcalls
  log hrunning hspared h := h.log (fun hidle => nomatch hrunning.symm.trans hidle) hspared

theorem lapses_ongoing : Lapses (Ongoing (σ := σ) (κ := κ) b i t B) B where
  tell hnotices htold hcalls h := h.tell hnotices htold hcalls
  log hrunning hspared h := h.log hrunning hspared

theorem lapses_fair : Lapses (Fair (σ := σ) (κ := κ) b B) B where
  tell hnotices htold hcalls h := h.tell hnotices htold hcalls
  log hrunning hspared h := h.log (fun hidle => nomatch hrunning.symm.trans hidle) hspared

namespace Lapses

variable {L : World (Diary σ κ) κ → Prop} (hL : Lapses L B)
include hL

theorem same (hw : L w) (hnotices : w'.notices = w.notices)
    (hcalls : w'.env.calls = w.env.calls) : L w' :=
  hL.tell (hnotices.trans (List.append_nil _).symm) nofun hcalls hw

theorem notify (hw : L w) {n : Notice} (hn : ∀ t, n ≠ .effectInvoked t) : L (w.notify n) :=
  hL.tell rfl (fun _ hmem => List.mem_singleton.mp hmem ▸ hn) rfl hw

theorem staged (hw : L w) {n : Notice} (hn : n.Staging) : L (w.notify n) :=
  hL.notify hw fun t ht => by
    rw [ht] at hn
    exact hn

theorem settled : Settled L where
  onward hw h := by
    obtain ⟨told, hnotices, htold⟩ := h.notices
    exact hL.tell hnotices (fun n hn t ht => htold n hn (ht ▸ trivial))
      (congrArg Diary.calls h.env) hw
  map _ hw := hL.same hw rfl rfl

theorem secret (b : Bool) (t : Option TransitionId) (k : Phase) : Private (Under b t L k) :=
  fun _ _ hw => ⟨hw.1.congr rfl, hL.same hw.2 rfl rfl⟩

end Lapses

end World

variable {b i : Nat} {t : TransitionId} {B : MachineError → Prop} {L : World (Diary σ κ) κ → Prop}

/-- What lasts while no firing begins lasts through all that is asked of a machine while a run is
under way. -/
theorem Host.accompanies_under (hL : World.Lapses L B) (hB : ∀ e, B e → e.Overlaps)
    (t : Option TransitionId) : Host.Accompanies (World.Under true t L) B where
  phased := Engine.phased_under hL.settled hL.settled (fun _ => id) hB true t
  secret := hL.secret true t
  running hw := hw.1.running
  told hn hw := ⟨hw.1.notify _, hL.staged hw.2 hn⟩
  log _ hrunning hspared hw := ⟨hw.1.congr rfl, hL.log hrunning hspared hw.2⟩

namespace Host

variable {h : Host σ κ} {n : Nat} {q : Request κ} {k : Phase} (hB : ∀ e, B e → e.Overlaps)
  (hhonest : h.Honest B)
include hB hhonest

/-- A firing that begins with all others over is over itself once it is told to have ended. -/
theorem conducts_diarist (n : Nat) (p : Pending) (w : World (Diary σ κ) κ)
    (hw : World.Under true none (World.Cleaned b B) k w) :
    ∃ M, Engine.Conducts (h.diarist n) (World.Cleaned b B) (World.Fair b B) M B k p w := by
  have hongoing := accompanies_under (σ := σ) (κ := κ)
    (World.lapses_ongoing (b := b) (i := w.notices.length) (t := p.transition)) hB
      (some p.transition)
  have hr := accompanied_diarist hongoing hhonest n
  refine ⟨World.Ongoing b w.notices.length p.transition B, {
    settled := World.lapses_ongoing.settled
    effect := ?_
    crosses := Engine.crosses_of_bears hongoing.phased hongoing.told fun k' _ => hr k'
    fired := fun _ source target hv => hv.commit source target
    lost := fun _ => World.Ongoing.toFair }⟩
  rintro _ rfl
  have hclean := World.lapses_cleaned.settled.map
    (fun m => { m with
      firing := some p.transition
      phase := Engine.setPhaseFlag m.phase .effect true }) hw.2
  refine Engine.bears_invoke (hongoing.phased.bearing _) (hr _) _ _ _ _
    ⟨⟨hw.1.running, nofun, ?_, .inr rfl⟩, hclean.begin p.transition⟩
  exact congrArg (Engine.setPhaseFlag · .effect true) hw.1.phase

section
variable (hk : k.effect = false)
  (hcall : ∀ (q : Request κ) (k : Phase), k.effect = false →
    Engine.Bears (World.Under false none (World.Cleaned b B) k)
      (World.Under false none (World.Fair b B) k) B (h.calling n q))
include hk hcall

omit hB in
theorem cleaned_diarist : (h.diarist n).Bears (World.Under false none (World.Cleaned b B) k)
    (World.Under false none (World.Fair b B) k) B :=
  bears_diarist (World.lapses_cleaned.secret false none k) hhonest fun q => hcall q k hk

/-- A run that succeeds leaves all its firings over. -/
theorem cleaned_noting_of_runs (hq : q.Runs) :
    Engine.Triple (World.Under false none (World.Cleaned b B) k)
    (h.noting (n + 1) q) (fun _ => World.Under false none (World.Cleaned b B) k)
    (Engine.Ends (World.Under false none (World.Fair b B) k)
      (World.Under false none (World.Fair b B) k) B) := by
  have hbetween := accompanies_under (σ := σ) (κ := κ) (World.lapses_cleaned (b := b)) hB none
  have hfair {α : Type} {x : Engine (Diary σ κ) κ α}
      (hx : Engine.Bears (World.Under true none (World.Cleaned b B) k)
        (World.Under true none (World.Cleaned b B) k) B x) :
      Engine.Bears (World.Under true none (World.Cleaned b B) k)
        (World.Under true none (World.Fair b B) k) B x :=
    Engine.Triple.mono_error hx fun _ _ hw => hw.map id fun hw => ⟨hw.1, hw.2.toFair⟩
  have hwithin := accompanied_diarist hbetween hhonest n k
  exact Engine.under_carryOut_of_runs World.lapses_cleaned.settled World.lapses_fair.settled
    (fun _ => World.Cleaned.toFair)
    hB hk (conducts_diarist hB hhonest n)
      (fun key => hfair (accompanied_callingHook hbetween hhonest n key k))
    ⟨fun name element args => hfair (hwithin.call name element args),
      fun key element args =>
        hfair (hwithin.callback key element args)⟩ (cleaned_diarist hhonest hk hcall) hq

/-- Any other request leaves all firings over, whether it succeeds or fails. -/
theorem cleaned_noting (hq : ¬ q.Runs) : Engine.Bears (World.Under false none (World.Cleaned b B) k)
    (World.Under false none (World.Fair b B) k) B (h.noting (n + 1) q) := by
  have hclean := (World.lapses_cleaned (σ := σ) (κ := κ) (b := b) (B := B)).settled
  have hphased := Engine.phased_under hclean World.lapses_fair.settled
    (fun _ => World.Cleaned.toFair) hB false none
  exact Engine.Triple.carryOut hphased (hphased.bearing k)
    (fun _ => id) (cleaned_diarist hhonest hk hcall)
    (Engine.crosses_of_bears hphased
      (fun hn hw => ⟨hw.1.notify _, World.lapses_cleaned.staged hw.2 hn⟩)
      fun k' hk' => cleaned_diarist hhonest (hk'.trans hk) hcall) fun h => absurd h hq

end

/-- A call made while no run is under way leaves all firings over, as its failure is told by its
note. -/
theorem cleaned_calling (hk : k.effect = false) :
    Engine.Bears (World.Under false none (World.Cleaned b B) k)
    (World.Under false none (World.Fair b B) k) B (h.calling n q) := by
  induction n generalizing q k with
  | zero => exact fun u hu => ⟨hu.1, hu.2.toFair⟩
  | succ n ih =>
    have hcall (q : Request κ) (k : Phase) (hk : k.effect = false) := ih (q := q) hk
    have hbefore {u v : World (Diary σ κ) κ} (hu : u.Cleaned b B) (hgrown : u.Grown v) :
        u.notices.length ≤ v.notices.length ∧ Cleared v.notices v.env.calls b u.notices.length :=
      ⟨hgrown.notices.length_le, hu.cleared.mono hgrown.notices hgrown.calls (Nat.le_refl _)⟩
    have hgeared {v : World (Diary σ κ) κ} (hv : v.Geared false none k) (c : Call σ κ) :
        (v.log c).Geared false none k :=
      hv.congr rfl
    have hok (u : World (Diary σ κ) κ) (a : q.Answer) (v : World (Diary σ κ) κ)
        (hu : World.Under false none (World.Cleaned b B) k u) (hgrown : u.Grown v)
        (hv : World.Under false none (World.Cleaned b B) k v) :
        World.Under false none (World.Cleaned b B) k (v.log ⟨q, u.plain, .ok a, v.plain⟩) :=
      ⟨hgeared hv.1 _, hv.2.log (fun _ => hbefore hu.2 hgrown) nofun⟩
    by_cases hq : q.Runs
    · refine bears_calling (cleaned_noting_of_runs hB hhonest hk hcall hq) hok
        (fun u e v hu hgrown hv => ?_) fun _ => id
      exact ⟨⟨hgeared hv.1.1 _, hv.1.2.fail hu.2 hgrown hq hv.2⟩, hv.2⟩
    · refine bears_calling (cleaned_noting hB hhonest hk hcall hq) hok
        (fun u e v hu hgrown hv => ?_) fun _ => id
      exact ⟨⟨hgeared hv.1.1 _, hv.1.2.log (fun _ => hbefore hu.2 hgrown)
        fun _ he => Except.error.inj he ▸ hv.2⟩, hv.2⟩

/-- An operation that succeeds leaves all firings over. One that fails can leave those of the run
that it is. -/
theorem noting_cleaned (n : Nat) (q : Request κ) :
    Engine.Triple (World.Under false none (World.Cleaned b B) .idle)
    (h.noting n q) (fun _ => World.Under false none (World.Cleaned b B) .idle)
    (Engine.Ends (World.Under false none (World.Fair b B) .idle)
      (World.Under false none (World.Fair b B) .idle) B) := by
  cases n with
  | zero => exact fun u hu => ⟨hu.1, hu.2.toFair⟩
  | succ n =>
    have hcall (q : Request κ) (k : Phase) (hk : k.effect = false) :=
      cleaned_calling (n := n) (q := q) (b := b) hB hhonest hk
    by_cases hq : q.Runs
    · exact cleaned_noting_of_runs hB hhonest rfl hcall hq
    · exact (cleaned_noting hB hhonest rfl hcall hq).mono_error fun _ _ hw =>
        hw.map (fun hw => ⟨hw.1, hw.2.toFair⟩) id

end Host

/-! ## Whole operations -/

/-- No firing begins, and the machine is neither isolated nor restored, before all firings that have
begun since the notice numbered `b` are over. -/
structure Exclusive (told : List Notice) (calls : List (Call σ κ)) (b : Nat) : Prop where
  begun : ∀ j t, told[j]? = some (.effectInvoked t) → Cleared told calls b j
  replaced : ∀ before c rest, calls = before ++ c :: rest → c.Replaces →
    Cleared told before b c.before.notices.length

namespace Host

variable {h : Host σ κ} {w : World σ κ} {n : Nat} {q : Request κ}

/-- A machine is isolated or restored by a call only if no run is under way. -/
theorem running_of_replaces {c : Call σ κ} (hc : c ∈ h.calls n q w) (hreplaces : c.Replaces) :
    c.before.machine.running = false := by
  obtain ⟨k, hk⟩ := carryOut_of_mem_calls hc
  refine Bool.not_eq_true _ ▸ fun hrunning => ?_
  cases hreplaces with
  | isolated u a u' =>
    rw [Engine.attempt, Engine.carryOut, Engine.isolate_running hrunning] at hk
    cases hk
  | restored s u m u' =>
    obtain ⟨e, he⟩ := Engine.restore_running (s := s) hrunning
    rw [Engine.attempt, Engine.carryOut, he] at hk
    cases hk

/-- With nothing under way as it is asked for, an operation has one firing at a time. -/
theorem exclusive_of_quiescent (hw : w.machine.Quiescent) (n : Nat) (q : Request κ) :
    let told := ((h.perform n q).after w).notices
    let calls := h.calls n q w
    Exclusive told calls w.notices.length ∧
    (∀ a v, h.perform n q w = .ok a v → Cleared told calls w.notices.length told.length) ∧
    (h.Honest (·.Overlaps) → (∀ e v, h.perform n q w = .error (.fault e) v → ¬ e.Overlaps) ∧
      ∀ c ∈ calls, Spared (·.Overlaps) c.outcome) := by
  have hopened (B : MachineError → Prop) :
      World.Under false none (World.Cleaned w.notices.length B) .idle w.opened := by
    have hnone {i : Nat} (hi : w.notices.length ≤ i) : w.opened.notices[i]? = none :=
      List.getElem?_eq_none hi
    have hcleared (j : Nat) : Cleared w.opened.notices w.opened.env.calls w.notices.length j :=
      fun i t hi _ ht => nomatch (hnone hi).symm.trans ht
    have hgeared : w.opened.Geared false none .idle :=
      ⟨hw.running, fun _ => hw.paused, hw.phase, .inl hw.firing⟩
    refine ⟨hgeared, ⟨fun j t _ => hcleared j, ?_,
      fun c hc => absurd hc List.not_mem_nil⟩, hcleared _⟩
    exact fun calls c rest hsplit =>
      absurd hsplit.symm (List.append_ne_nil_of_right_ne_nil _ (List.cons_ne_nil _ _))
  have hended (B : MachineError → Prop) (hB : ∀ e, B e → e.Overlaps) (hhonest : h.Honest B) :=
    noting_cleaned hB hhonest n q w.opened (hopened B)
  have hforget := forgetting_noting (h := h) n q
  have hexclusive {v : World (Diary σ κ) κ} (hplain : (h.perform n q).after w = v.plain)
      (hcalls : h.calls n q w = v.env.calls) (hv : v.Fair w.notices.length fun _ => False) :
      Exclusive ((h.perform n q).after w).notices (h.calls n q w) w.notices.length := by
    refine ⟨?_, fun before c rest hsplit hreplaces => ?_⟩
    · rw [hplain, hcalls]
      exact hv.begun
    · have hmem : c ∈ h.calls n q w := hsplit ▸ List.mem_append_right _ List.mem_cons_self
      rw [hplain]
      exact (hv.idle before c rest (hcalls.symm.trans hsplit)
        (running_of_replaces hmem hreplaces)).2
  have hfair := hended (fun _ => False) nofun h.honest_false
  cases hx : h.noting n q w.opened with
  | ok a v =>
    have hperform : h.perform n q w = .ok a v.plain := hforget.ok_of_forgetting hx
    have hplain : (h.perform n q).after w = v.plain := by rw [Engine.after, hperform]
    have hcalls : h.calls n q w = v.env.calls := by rw [calls, Engine.after, hx]
    rw [hx] at hfair
    refine ⟨hexclusive hplain hcalls hfair.2.toFair, fun _ _ _ => ?_,
      fun hhonest => ⟨fun e u he => ?_, ?_⟩⟩
    · rw [hplain, hcalls]
      exact hfair.2.cleared
    · cases hperform.symm.trans he
    · have hspared := hended (·.Overlaps) (fun _ => id) hhonest
      rw [hx] at hspared
      rw [hcalls]
      exact hspared.2.spared
  | error s v =>
    have hperform : h.perform n q w = .error s v.plain := hforget.error_of_forgetting hx
    have hplain : (h.perform n q).after w = v.plain := by rw [Engine.after, hperform]
    have hcalls : h.calls n q w = v.env.calls := by rw [calls, Engine.after, hx]
    rw [hx] at hfair
    refine ⟨hexclusive hplain hcalls hfair.holds.2, fun a u ha => ?_, fun hhonest => ?_⟩
    · cases hperform.symm.trans ha
    · have hspared := hended (·.Overlaps) (fun _ => id) hhonest
      rw [hx] at hspared
      refine ⟨fun e u he => ?_, hcalls ▸ hspared.holds.2.spared⟩
      cases hperform.symm.trans he
      exact hspared.2

/-- Whatever operations are asked of a machine since it was made, and whatever the bodies that they
run into ask for in turn: no firing begins, and the machine is neither isolated nor restored, while
another firing is under way. An operation that succeeds leaves none under way. No request fails for
a firing that overlaps another, unless a body says so of its own accord. -/
theorem exclusive_of_steps {w : Nat → World σ κ} {q : Nat → Request κ} {n : Nat}
    (hmade : (w 0).machine.Made) (hsteps : ∀ i < n, h.Step (q i) (w i) (w (i + 1))) {i : Nat}
    (hi : i ≤ n) (k : Nat) (q' : Request κ) (env : σ) (now : Instant) :
    let u := { w i with env, now }
    let told := ((h.perform k q').after u).notices
    let calls := h.calls k q' u
    Exclusive told calls u.notices.length ∧
    (∀ a v, h.perform k q' u = .ok a v → Cleared told calls u.notices.length told.length) ∧
    (h.Honest (·.Overlaps) → (∀ e v, h.perform k q' u = .error (.fault e) v → ¬ e.Overlaps) ∧
      ∀ c ∈ calls, Spared (·.Overlaps) c.outcome) :=
  exclusive_of_quiescent (w := { w i with env, now }) (quiescent_of_steps hmade hsteps i hi) k q'

end Host

/-- While a->b is being fired the activity of b tries to isolate the machine, which is refused. -/
theorem exclusive_relay :
    let h := Host.asking .isolate
    let u : World Unit Unit := { h.worlds 4 legs relay 2 with env := (), now := default }
    relay.machine.Made ∧ (∀ i < 2,
      h.Step (legs i) (h.worlds 4 legs relay i) (h.worlds 4 legs relay (i + 1))) ∧
    h.Honest (·.Overlaps) ∧
    .effectInvoked ⟨0⟩ ∈ ((h.perform 4 .runEvents).after u).notices ∧
    (h.calls 4 .runEvents u).map (·.request matches .isolate) = [true] ∧
    Exclusive ((h.perform 4 .runEvents).after u).notices (h.calls 4 .runEvents u) u.notices.length ∧
    ∀ c ∈ h.calls 4 .runEvents u, Spared (·.Overlaps) c.outcome := by
  intro h u
  have hsteps : ∀ i < 2,
      h.Step (legs i) (h.worlds 4 legs relay i) (h.worlds 4 legs relay (i + 1)) := by
    have hall : ∀ i < 2, h.completes 4 (legs i) (h.worlds 4 legs relay i) =
      true := by decide +kernel
    exact fun i hi => Host.step_next (hall i hi)
  have hmade : relay.machine.Made := .bound default _ _ {} .empty
  have hhonest : h.Honest (·.Overlaps) := fun _ _ _ _ _ => nofun
  obtain ⟨hexclusive, -, hspared⟩ :=
    h.exclusive_of_steps hmade hsteps (Nat.le_refl 2) 4 .runEvents () default
  exact ⟨hmade, hsteps, hhonest,
    by decide +kernel, by decide +kernel, hexclusive, (hspared hhonest).2⟩

end Statechart
