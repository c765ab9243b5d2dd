import Statechart.Proofs.Machine.EventRuns
import Statechart.Proofs.Machine.Pausing

/-!
# What a pause stops

The flag is looked at between one firing and the next. So after a pause that stands no event is
taken up any more, and if it was asked for in the course of a firing none begins after that one. A
guard that selects for an event and a hook run behind that look: the firing that they are run for
begins all the same.
-/

namespace Statechart

open Json

variable {σ κ : Type}

namespace Notice

/-- The transition whose firing has begun. -/
def begun? : Notice → Option TransitionId
  | .effectInvoked t => some t
  | _ => none

/-- The notices tell of a firing that has begun and not of its end. -/
def Amid (told : List Notice) : Prop := told.filterMap begun? ≠ told.filterMap fired?

instance (told : List Notice) : Decidable (Amid told) :=
  inferInstanceAs (Decidable (told.filterMap begun? ≠ told.filterMap fired?))

variable {told told' : List Notice}

theorem begun?_of_quiet (h : ∀ n ∈ told, ¬ n.Milestone) : told.filterMap begun? = [] := by
  refine List.filterMap_eq_nil_iff.mpr fun n hn => ?_
  cases n <;> first | rfl | exact absurd trivial (h _ hn)

/-- Notices of other things do not count. -/
theorem amid_append (hbegun : told'.filterMap begun? = []) (hfired : told'.filterMap fired? = []) :
    Amid (told ++ told') ↔ Amid told := by
  rw [Amid, Amid, List.filterMap_append, List.filterMap_append, hbegun, hfired,
    List.append_nil, List.append_nil]

/-- With all firings ended the next begins. -/
theorem amid_effectInvoked (h : ¬ Amid told) (t : TransitionId) :
    Amid (told ++ [.effectInvoked t]) := by
  intro heq
  rw [List.filterMap_append, List.filterMap_append, not_not.mp h] at heq
  have hlength := congrArg List.length heq
  rw [List.length_append, List.length_append] at hlength
  exact absurd (Nat.add_left_cancel hlength) Nat.one_ne_zero

/-- What has begun ends. -/
theorem not_amid_transitionFired (h : ¬ Amid told) (hquiet : ∀ n ∈ told', ¬ n.Milestone)
    (t : TransitionId) (previous : Option StateId) (new : StateId) :
    ¬ Amid (told ++ .effectInvoked t :: told' ++ [.transitionFired t previous new]) := by
  rw [Amid, not_not] at h ⊢
  have hbegun : (effectInvoked t :: told').filterMap begun? = [t] := by
    rw [List.filterMap_cons_some (f := begun?) (b := t) rfl, begun?_of_quiet hquiet]
  have hfired : (effectInvoked t :: told').filterMap fired? = [] := by
    rw [List.filterMap_cons_none (f := fired?) rfl, fired?_of_quiet hquiet]
  rw [List.filterMap_append, List.filterMap_append, List.filterMap_append, List.filterMap_append,
    h, hbegun, hfired, List.append_nil]
  exact List.append_nil _

end Notice

namespace World

section
variable {c : Call σ κ} {since : Nat} {told : List Notice} {v w : World σ κ}

/-- Between the worlds no firing begins or ends. -/
theorem Goes.amid_iff (h : v.Goes w) (since : Nat) :
    Notice.Amid (w.notices.drop since) ↔ Notice.Amid (v.notices.drop since) := by
  obtain ⟨told, htold⟩ := h.told
  have hquiet (n : Notice) (hn : n ∈ told.drop (since - v.notices.length)) :=
    htold.quiet n (List.mem_of_mem_drop hn)
  rw [htold.notices, List.drop_append]
  exact Notice.amid_append (Notice.begun?_of_quiet hquiet) (Notice.fired?_of_quiet hquiet)

/-- What has been told since a call, where the notices before a certain place are those of earlier
runs. In the course of a firing nothing else begins, and what waits in the slot goes on waiting.
Otherwise one firing may begin, and if something waits in the slot it is that. -/
structure Halted (since : Nat) (c : Call σ κ) (told : List Notice) (w : World σ κ) : Prop where
  notices : w.notices = c.after.notices ++ told
  amid : Notice.Amid (c.after.notices.drop since) → told.filterMap Notice.begun? = [] ∧
    ∀ p, c.after.machine.pending = some p → w.machine.pending = some p
  between : told.filterMap Notice.begun? = [] ∨ ∃ t, told.filterMap Notice.begun? = [t] ∧
    ∀ p, c.after.machine.pending = some p → p.transition = t

theorem Goes.halted (h : c.after.Goes w) (since : Nat) :
    ∃ told, w.Halted since c told ∧ told.filterMap Notice.begun? = [] := by
  obtain ⟨told, htold⟩ := h.told
  have hnone := Notice.begun?_of_quiet htold.quiet
  exact ⟨told, ⟨htold.notices, fun _ => ⟨hnone, h.slot⟩, .inl hnone⟩, hnone⟩

/-- What begins after a call between two firings is what is in the slot. -/
theorem Goes.overruns (h : c.after.Goes v) (hamid : ¬ Notice.Amid (v.notices.drop since))
    {p : Pending} (hp : v.machine.pending = some p)
    (hnotices : w.notices = v.notices ++ [.effectInvoked p.transition]) :
    ∃ told, w.Halted since c told ∧ told.filterMap Notice.begun? = [p.transition] := by
  obtain ⟨told, htold⟩ := h.told
  have hbegun : (told ++ [Notice.effectInvoked p.transition]).filterMap Notice.begun? =
      [p.transition] := by
    rw [List.filterMap_append, Notice.begun?_of_quiet htold.quiet]
    rfl
  refine ⟨told ++ [.effectInvoked p.transition],
    ⟨?_, fun hcall => ?_, .inr ⟨p.transition, hbegun, fun p' hp' => ?_⟩⟩,
    hbegun⟩
  · rw [hnotices, htold.notices, List.append_assoc]
  · exact absurd ((h.amid_iff since).mpr hcall) hamid
  · rw [Option.some.inj ((h.slot p' hp').symm.trans hp)]

theorem Halted.goes (h : v.Halted since c told) (hgoes : v.Goes w) :
    ∃ told', w.Halted since c told' ∧ told'.filterMap Notice.begun? =
      told.filterMap Notice.begun? := by
  obtain ⟨later, hlater⟩ := hgoes.told
  have hbegun : (told ++ later).filterMap Notice.begun? = told.filterMap Notice.begun? := by
    rw [List.filterMap_append, Notice.begun?_of_quiet hlater.quiet, List.append_nil]
  refine ⟨told ++ later, ⟨?_, fun hcall => ?_, ?_⟩, hbegun⟩
  · rw [hlater.notices, h.notices, List.append_assoc]
  · rw [hbegun]
    exact ⟨(h.amid hcall).1, fun p hp => hgoes.slot p ((h.amid hcall).2 p hp)⟩
  · rw [hbegun]
    exact h.between

/-- The end of a firing is told. -/
theorem Halted.fired (h : v.Halted since c told) {t : TransitionId} {previous : Option StateId}
    {new : StateId} (hnotices : w.notices = v.notices ++ [.transitionFired t previous new])
    (hslot : w.machine.pending = v.machine.pending) :
    ∃ told', w.Halted since c told' ∧ told'.filterMap Notice.begun? =
      told.filterMap Notice.begun? := by
  have hbegun : (told ++ [Notice.transitionFired t previous new]).filterMap Notice.begun? =
      told.filterMap Notice.begun? := by
    rw [List.filterMap_append]
    exact List.append_nil _
  refine ⟨told ++ [.transitionFired t previous new], ⟨?_, fun hcall => ?_, ?_⟩, hbegun⟩
  · rw [hnotices, h.notices, List.append_assoc]
  · rw [hbegun, hslot]
    exact h.amid hcall
  · rw [hbegun]
    exact h.between

theorem Halted.congr (h : v.Halted since c told) (hnotices : w.notices = v.notices)
    (hslot : w.machine.pending = v.machine.pending) : w.Halted since c told := by
  refine ⟨hnotices.trans h.notices, ?_, h.between⟩
  rw [hslot]
  exact h.amid

end

variable {u v w x : World (Diary σ κ) κ} {c : Call σ κ} {post : List (Call σ κ)} {p : Pending}
  {since : Nat}

/-- A pause that stands has stood before, or the run goes on from it. -/
theorem Ensues.of_stands (h : u.Ensues v) (hc : c.Stands post v.env.calls) :
    (∃ post', c.Stands post' u.env.calls) ∨ c.after.Goes v.plain := by
  obtain ⟨made, hcalls, -, hmade⟩ := h.calls
  rw [hcalls] at hc
  exact hc.of_append.imp_right fun hmem => (hmade c hmem).2

/-- A run is under way between one firing and the next. -/
structure Between (since : Nat) (w : World (Diary σ κ) κ) : Prop where
  heeds : w.Heeds
  length : since ≤ w.notices.length
  settled : ¬ Notice.Amid (w.notices.drop since)

/-- So it is, and no pause stands. -/
structure Polled (since : Nat) (w : World (Diary σ κ) κ) : Prop extends Between since w where
  unpaused : w.machine.paused = false

theorem Between.congr (h : v.Between since) (hheeded : w.heeded = v.heeded)
    (hnotices : w.notices = v.notices) : w.Between since := by
  refine ⟨h.heeds.congr hheeded, ?_, ?_⟩
  · rw [hnotices]
    exact h.length
  · rw [hnotices]
    exact h.settled

/-- Between two firings an event is taken up. -/
theorem Polled.taking (h : w.Polled since) (e : Event) : (w.taking e).Polled since := by
  have hnotices : (w.taking e).notices = w.notices ++ [.eventDequeued e.name] := rfl
  refine ⟨⟨h.heeds.congr rfl, ?_, ?_⟩, h.unpaused⟩
  · rw [hnotices, List.length_append]
    exact Nat.le_add_right_of_le h.length
  · rw [hnotices, List.drop_append_of_le_length h.length, Notice.amid_append rfl rfl]
    exact h.settled

/-- While work ensues no firing begins or ends. -/
theorem Between.ensues (hu : u.Between since) (h : u.Ensues v)
    (hv : v.Heeds) : v.Between since := by
  refine ⟨hv, ?_, fun hamid => hu.settled ((h.goes.amid_iff since).mp hamid)⟩
  obtain ⟨told, htold⟩ := h.goes.told
  have hlater : v.notices = u.notices ++ told := htold.notices
  rw [hlater, List.length_append]
  exact Nat.le_add_right_of_le hu.length

/-- The run is between firings again once what has begun has ended. -/
theorem Between.fired (hv : v.Between since) {t : TransitionId} (h : v.Firing t x)
    {previous : Option StateId} {new : StateId}
    (hw : w.notices = x.notices ++ [.transitionFired t previous new])
    (hheeds : w.Heeds) : w.Between since := by
  obtain ⟨told, hquiet, hx⟩ := h.notices
  refine ⟨hheeds, ?_, ?_⟩
  · rw [hw, hx, List.append_assoc, List.length_append]
    exact Nat.le_add_right_of_le hv.length
  · rw [hw, hx, List.append_assoc, List.drop_append_of_le_length hv.length, ← List.append_assoc]
    exact Notice.not_amid_transitionFired hv.settled hquiet t previous new

/-- A pause that stands has been asked for since, and between firings. -/
theorem Polled.of_stands (hu : u.Polled since) (h : u.Ensues v) (hc : c.Stands post v.env.calls) :
    c.after.Goes v.plain ∧ ¬ Notice.Amid (c.after.notices.drop since) := by
  have hgoes : c.after.Goes v.plain :=
    (h.of_stands hc).resolve_left fun ⟨post', hstood⟩ => hu.heeds.not_stands hu.unpaused hstood
  refine ⟨hgoes, fun hamid => hu.settled ?_⟩
  exact (h.goes.amid_iff since).mp ((hgoes.amid_iff since).mpr hamid)

/-- In the course of a firing of what was in the slot: a pause that stands has been asked for in
that course, or what is fired is all that has begun since. -/
theorem Polled.of_firing (hu : u.Polled since) (h : u.Ensues v) (hv : v.Heeds)
    (hp : v.machine.pending = some p)
    (hfiring : (v.mapMachine ({ · with pending := none })).Firing p.transition x)
    (hc : c.Stands post x.env.calls) :
    ∃ told, x.plain.Halted since c told ∧
      (¬ Notice.Amid (c.after.notices.drop since) → told.filterMap Notice.begun? ≠ []) ∧
      (v.env.calls = u.env.calls → Notice.Amid (c.after.notices.drop since)) := by
  obtain ⟨f, hf, hensues⟩ := hfiring
  simp only [tally, Prod.mk.injEq] at hf
  obtain ⟨hcalls, -, -, -, hnotices⟩ := hf
  obtain ⟨-, hlength, hsettled⟩ := hu.toBetween.ensues h hv
  rcases hensues.of_stands hc with ⟨post', hstood⟩ | hgoes
  · rw [hcalls] at hstood
    obtain ⟨hgoes, -⟩ := hu.of_stands h hstood
    obtain ⟨told, hhalted, hbegun⟩ := hgoes.overruns (w := f.plain) hsettled hp hnotices
    obtain ⟨told', hhalted', hbegun'⟩ := hhalted.goes hensues.goes
    refine ⟨told', hhalted', fun _ => ?_, fun hsame => ?_⟩
    · rw [hbegun', hbegun]
      exact List.cons_ne_nil _ _
    · have hstood' : c.Stands post' u.env.calls := hsame ▸ hstood
      exact absurd hstood' (hu.heeds.not_stands hu.unpaused)
  · have hamid : Notice.Amid (c.after.notices.drop since) := by
      rw [← hgoes.amid_iff since, hensues.goes.amid_iff since]
      show Notice.Amid (f.notices.drop since)
      have hbegins : f.notices = v.notices ++ [.effectInvoked p.transition] := hnotices
      rw [hbegins, List.drop_append_of_le_length hlength]
      exact Notice.amid_effectInvoked hsettled p.transition
    obtain ⟨told, hhalted, -⟩ := hgoes.halted since
    exact ⟨told, hhalted, fun hnot => absurd hamid hnot, fun _ => hamid⟩

/-- How a run leaves things if a pause stands by its end. Without a hook it has been asked for in
the course of a firing. If not, and unless the run fails, one more firing begins exactly if
something is in the slot then. -/
structure Stops (since : Nat) (hooked : Prop) (stop : Option StopReason) (c : Call σ κ)
    (post : List (Call σ κ)) (w : World σ κ) : Prop where
  events : w.machine.events = c.after.machine.events ++ posted post
  unhooked : ¬ hooked → Notice.Amid (c.after.notices.drop since)
  halted : ∃ told, w.Halted since c told ∧ (¬ Notice.Amid (c.after.notices.drop since) →
    ∀ s, stop = some s → (told.filterMap Notice.begun? = [] ↔ s = .queueEmpty))

/-- So it is for every pause. -/
def Ends (since : Nat) (hooked : Prop) (stop : Option StopReason)
    (w : World (Diary σ κ) κ) : Prop :=
  ∀ (c : Call σ κ) (post : List (Call σ κ)), c.Stands post w.env.calls →
    w.plain.Stops since hooked stop c post

variable {hooked : Prop} {stop : Option StopReason}

theorem Ends.congr (h : v.Ends since hooked stop) (hcalls : w.env.calls = v.env.calls)
    (hevents : w.machine.events = v.machine.events) (hslot : w.machine.pending = v.machine.pending)
    (hnotices : w.notices = v.notices) : w.Ends since hooked stop := by
  intro c post hc
  obtain ⟨hposted, hunhooked, told, hhalted, hbegun⟩ := h c post (hcalls ▸ hc)
  exact ⟨hevents.trans hposted, hunhooked, told, hhalted.congr hnotices hslot, hbegun⟩

/-- A run that goes no further begins nothing. -/
theorem Polled.ends (hu : u.Polled since) (h : u.Ensues v) (hv : v.Heeds)
    (hhook : ¬ hooked → v.env.calls = u.env.calls)
    (hstop : ∀ s, stop = some s → s = .queueEmpty) : v.Ends since hooked stop := by
  intro c post hc
  obtain ⟨hgoes, -⟩ := hu.of_stands h hc
  obtain ⟨told, hhalted, hnone⟩ := hgoes.halted since
  refine ⟨hv.events hc, fun hnot => ?_, told, hhalted,
    fun _ s hs => ⟨fun _ => hstop s hs, fun _ => hnone⟩⟩
  exact absurd (hhook hnot ▸ hc) (hu.heeds.not_stands hu.unpaused)

/-- While no pause stands there is nothing to say. -/
theorem Polled.ends_any (hu : u.Polled since) : u.Ends since hooked stop :=
  fun _ _ hc => absurd hc (hu.heeds.not_stands hu.unpaused)

end World

namespace Engine

variable {r : Responder (Diary σ κ) κ} {u v w : World (Diary σ κ) κ} {p : Pending} {since : Nat}
  {hooked : Prop}

section
variable (hr : ∀ v : World (Diary σ κ) κ, r.Keeps v.Ensues) (hheeds : r.Keeps World.Heeds)
include hr hheeds

/-- What was in the slot is fired. -/
theorem ends_fireTransition (hu : u.Polled since) (h : u.Ensues v) (hv : v.Heeds)
    (hp : v.machine.pending = some p) (hhook : ¬ hooked → v.env.calls = u.env.calls) :
    Triple (· = v.mapMachine ({ · with pending := none })) (fireTransition r p)
      (fun _ w => w.Between since ∧ ∀ s, s ≠ .queueEmpty → w.Ends since hooked (some s))
      fun _ w => w.Ends since hooked none := by
  rintro _ rfl
  let taken : World (Diary σ κ) κ := v.mapMachine ({ · with pending := none })
  have htaken : taken.Between since := (hu.toBetween.ensues h hv).congr rfl rfl
  have hkept := heeds_fireTransition hheeds p taken htaken.heeds
  have hfire := firing_fireTransition hr (w := taken) hv.running p taken rfl
  cases hfired : fireTransition r p taken with
  | ok a w =>
    rw [hfired] at hkept hfire
    obtain ⟨x, previous, new, hfiring, hw⟩ := hfire
    simp only [World.tally, Prod.mk.injEq] at hw
    obtain ⟨hcalls, hevents, hslot, -, hnotices⟩ := hw
    refine ⟨htaken.fired hfiring hnotices hkept, fun s hs c post hc => ?_⟩
    obtain ⟨told, hhalted, hovertaken, hunhooked⟩ := hu.of_firing h hv hp hfiring (hcalls ▸ hc)
    obtain ⟨told', hhalted', hbegun⟩ := hhalted.fired (w := w.plain) hnotices hslot
    refine ⟨hkept.events hc, fun hnone => hunhooked (hhook hnone), told', hhalted',
      fun hbetween s' hs' => ?_⟩
    cases hs'
    rw [hbegun]
    exact ⟨fun hnil => absurd hnil (hovertaken hbetween), fun hempty => absurd hempty hs⟩
  | error e w =>
    rw [hfired] at hkept hfire
    intro c post hc
    rcases hfire with hw | hfiring
    · -- The firing fails before it is told to begin, with the slot empty.
      simp only [World.tally, Prod.mk.injEq] at hw
      obtain ⟨hcalls, -, -, -, hnotices⟩ := hw
      have hstood : c.Stands post v.env.calls := hcalls ▸ hc
      obtain ⟨hgoes, hbetween⟩ := hu.of_stands h hstood
      refine ⟨hkept.events hc, fun hnone => ?_, ?_⟩
      · exact absurd (hhook hnone ▸ hstood) (hu.heeds.not_stands hu.unpaused)
      · obtain ⟨told, htold⟩ := hgoes.told
        have hnone := Notice.begun?_of_quiet htold.quiet
        exact ⟨told, ⟨hnotices.trans htold.notices, (absurd · hbetween), .inl hnone⟩,
          fun _ _ hs => by cases hs⟩
    · obtain ⟨told, hhalted, -, hunhooked⟩ := hu.of_firing h hv hp hfiring hc
      exact ⟨hkept.events hc, fun hnone => hunhooked (hhook hnone), told, hhalted,
        fun _ _ hs => by cases hs⟩

/-! ## Runs -/

omit hr hheeds in
/-- After a firing a run ends or goes on, by its mode. -/
theorem ends_goOn {mode : RunMode} {fired : Nat} {rest : Engine (Diary σ κ) κ (Nat × StopReason)}
    (hrest : Triple (fun w => w.Between since ∧ w.Ends since hooked (some .paused)) rest
      (fun o w => w.Ends since hooked (some o.2)) fun e w =>
        e = .exhausted ∨ w.Ends since hooked none) :
    Triple (fun w => w.Between since ∧ ∀ s, s ≠ .queueEmpty → w.Ends since hooked (some s))
      (if mode = .single then pure (fired, .singleStep) else rest)
      (fun o w => w.Ends since hooked (some o.2)) fun e w =>
        e = .exhausted ∨ w.Ends since hooked none := by
  rintro w ⟨hbetween, hstops⟩
  by_cases hmode : mode = .single
  · rw [if_pos hmode]
    exact hstops .singleStep (by decide)
  · rw [if_neg hmode]
    exact hrest w ⟨hbetween, hstops .paused (by decide)⟩

variable {hook : Option (Engine (Diary σ κ) κ Unit)}
  (hhook : ∀ x, hook = some x → (∀ v : World (Diary σ κ) κ, Keeps v.Ensues x) ∧ Keeps World.Heeds x)
include hhook

omit hr hheeds in
/-- A hook that runs between firings. -/
theorem ensues_hook (hu : u.Heeds) : Triple (· = u) (hook.forM id)
    (fun _ v => u.Ensues v ∧ v.Heeds ∧ (¬ hook.isSome = true → v.env.calls = u.env.calls))
    fun _ v => u.Ensues v ∧ v.Heeds ∧ (¬ hook.isSome = true → v.env.calls = u.env.calls) := by
  cases hook with
  | none =>
    rintro u rfl
    exact ⟨.refl hu.running, hu, fun _ => rfl⟩
  | some x =>
    obtain ⟨hensues, hheeds⟩ := hhook x rfl
    refine ((hensues u).and hheeds).mono ?_ ?_ ?_
    · rintro u rfl
      exact ⟨.refl hu.running, hu⟩
    · exact fun _ v hv => ⟨hv.1, hv.2, fun hnot => absurd rfl hnot⟩
    · exact fun _ v hv => ⟨hv.1, hv.2, fun hnot => absurd rfl hnot⟩

/-- A run goes from firing to firing until it is paused, with a look at the flag between them. -/
theorem ends_fireQueued (since : Nat) (mode : RunMode) (fuel fired : Nat) :
    Triple (fun u => u.Between since ∧ u.Ends since (hook.isSome = true) (some .paused))
      (fireQueued r mode hook fuel fired) (fun o w => w.Ends since (hook.isSome = true) (some o.2))
      fun e w => e = .exhausted ∨ w.Ends since (hook.isSome = true) none := by
  induction fuel generalizing fired with
  | zero => exact fun _ _ => .inl rfl
  | succ fuel ih =>
    rintro u ⟨hu, hends⟩
    rw [fireQueued, machine_bind]
    cases hpaused : u.machine.paused with
    | true => exact hends
    | false =>
    have hpolled : u.Polled since := ⟨hu, hpaused⟩
    cases hend : u.machine.atEnd with
    | true => exact hpolled.ends_any
    | false =>
    refine Triple.bind ((ensues_hook hhook hu.heeds).mono_error ?_) (fun _ => ?_) u rfl
    · rintro e v ⟨hensues, hheeds, hcalls⟩
      exact .inr (hpolled.ends hensues hheeds hcalls fun _ hs => by cases hs)
    · rintro v ⟨hensues, hv, hcalls⟩
      rw [takePending, bind_assoc, machine_bind, bind_assoc]
      cases hp : v.machine.pending with
      | none =>
        have hends : v.Ends since (hook.isSome = true) (some .queueEmpty) :=
          hpolled.ends hensues hv hcalls fun _ hs => (Option.some.inj hs).symm
        exact hends.congr rfl rfl hp.symm rfl
      | some p =>
        have hfire := ends_fireTransition hr hheeds hpolled hensues hv hp hcalls
        exact Triple.bind (hfire.mono_error fun _ _ => .inr)
          (fun _ => ends_goOn (ih (fired + 1))) _ rfl

/-- What is in the slot as a run begins is fired before it looks at the flag. -/
theorem ends_processTransitions (since : Nat) (mode : RunMode) (fuel : Nat) :
    Triple (World.Polled since) (processTransitions r fuel mode hook)
      (fun o w => w.Ends since (hook.isSome = true) (some o.2))
      fun e w => e = .exhausted ∨ w.Ends since (hook.isSome = true) none := by
  intro u hu
  rw [processTransitions, machine_bind]
  cases hend : u.machine.atEnd with
  | true => exact hu.ends_any
  | false =>
  rw [if_neg Bool.false_ne_true, takePending, bind_assoc, machine_bind, bind_assoc]
  have hqueued := ends_fireQueued hr hheeds hhook since mode fuel
  cases hp : u.machine.pending with
  | none =>
    have hempty : (u.mapMachine ({ · with pending := none })).Polled since :=
      ⟨hu.toBetween.congr rfl rfl, hu.unpaused⟩
    exact hqueued 0 _ ⟨hempty.toBetween, hempty.ends_any⟩
  | some p =>
    have hsame : ¬ hook.isSome = true → u.env.calls = u.env.calls := fun _ => rfl
    have hfire := ends_fireTransition hr hheeds hu (.refl hu.heeds.running) hu.heeds hp hsame
    exact Triple.bind (hfire.mono_error fun _ _ => .inr) (fun _ => ends_goOn (hqueued 1)) _ rfl

omit hhook in
/-- The event that has been taken up selects with nothing having begun, and what it selects is
fired. -/
theorem ends_handleEvent (fuel : Nat) (e : Event) :
    Triple (World.Polled since) (handleEvent r fuel e)
    (fun _ w => w.Between since ∧ ∀ s, s ≠ .queueEmpty → w.Ends since True (some s))
    fun _ w => w.Ends since True none := by
  intro u hu
  have htaken := hu.taking e
  -- Selecting and queueing is work that ensues, whatever guards do.
  let I (v : World (Diary σ κ) κ) : Prop := (u.taking e).Ensues v ∧ v.Heeds
  have hselect : Keeps I (selectOne r e) :=
    (keeps_iff_matches.mpr
      (matches_selectOne Comparison.enters_ensues.toSelects (hr _).matches e)).and
      (keeps_iff_matches.mpr (matches_selectOne Comparison.enters_heeds.toSelects hheeds.matches e))
  have hbreaks {v : World (Diary σ κ) κ} (hv : I v) : v.Ends since True none :=
    htaken.ends hv.1 hv.2 (fun hnot => absurd trivial hnot) nofun
  rw [handleEvent_eq]
  refine Triple.bind (hselect.mono_error fun _ _ => hbreaks) (fun s => ?_) (u.taking e)
    ⟨.refl hu.heeds.running, htaken.heeds⟩
  rintro v ⟨hensues, hv⟩
  obtain ⟨t, label⟩ := s
  let labelled : World (Diary σ κ) κ := v.mapMachine ({ · with trigger := some label })
  have hlabelled : I labelled := ⟨hensues.congr rfl, hv.congr rfl⟩
  have hselected : handleSelected r fuel e t label v = (queueTransition t e.args >>= fun _ =>
      processTransitions r fuel .single none >>= fun o => setCurrent none none >>= fun _ =>
        pure o.1) labelled := rfl
  dsimp only
  rw [hselected]
  have hqueues := (ensues_queueTransition (v := u.taking e) t e.args).and
    (heeds_queueTransition t e.args) _ hlabelled
  rcases queueTransition_cases t e.args labelled with ⟨err, herr⟩ | ⟨s, ts, -, -, hend, -, -, hok⟩
  · rw [bind_of_error herr]
    exact hbreaks hlabelled
  · rw [hok] at hqueues
    rw [bind_of_ok hok]
    let queued : World (Diary σ κ) κ :=
      (labelled.mapMachine fun m => { m with pending := some ⟨t, e.args⟩ }).notify
        (.transitionQueued t)
    have hfire := ends_fireTransition hr hheeds htaken hqueues.1 hqueues.2 rfl fun hnot =>
      absurd trivial hnot
    have hprocess := processTransitions_single (r := r) (w := queued) hend rfl fuel
    rw [bind_congr_at hprocess, bind_assoc]
    refine Triple.bind hfire (fun _ => ?_) _ rfl
    rintro w ⟨hbetween, hstops⟩
    exact ⟨hbetween.congr rfl rfl, fun s hs => (hstops s hs).congr rfl rfl rfl rfl⟩

omit hhook in
/-- An event run looks at the flag between one event and the next. -/
theorem ends_processEvents (since fuel fired : Nat) :
    Triple (fun u => u.Between since ∧ u.Ends since True (some .paused))
      (processEvents r fuel fired)
      (fun o w => w.Ends since True (some o.2)) fun e w =>
        e = .exhausted ∨ w.Ends since True none := by
  induction fuel generalizing fired with
  | zero => exact fun _ _ => .inl rfl
  | succ fuel ih =>
    rintro u ⟨hu, hends⟩
    cases hpaused : u.machine.paused with
    | true =>
      rw [processEvents, machine_bind, hpaused]
      exact hends
    | false =>
    have hpolled : u.Polled since := ⟨hu, hpaused⟩
    cases hevents : u.machine.events with
    | nil =>
      rw [processEvents_nil hpaused hevents]
      exact hpolled.ends_any
    | cons e rest =>
      rw [processEvents_cons hpaused hevents]
      have hrest : (u.mapMachine ({ · with events := rest })).Polled since :=
        ⟨⟨hu.heeds.setEvents hpaused rest, hu.length, hu.settled⟩, hpaused⟩
      refine Triple.bind ((ends_handleEvent hr hheeds (fuel + 1) e).mono_error fun _ _ => .inr)
        (fun more => ?_) _ hrest
      rintro w ⟨hbetween, hstops⟩
      exact ih (fired + more) w ⟨hbetween, hstops .paused (by decide)⟩

end

end Engine

namespace Host

variable {h : Host σ κ} {n : Nat} {q : Request κ} {w w' : World σ κ} {c : Call σ κ}
  {post : List (Call σ κ)} {o : Except MachineError q.Answer}

/-- How a run ends, as far as pauses go. -/
def Closes (since : Nat) (hooked : Prop) (o : Except MachineError RunOutcome)
    (v : World (Diary σ κ) κ) : Prop :=
  (∃ fired stop, o = .ok (.completed fired stop) ∧ v.Ends since hooked (some stop)) ∨
    ∃ e, o = .error e ∧ v.Ends since hooked none

theorem closes_of_triple {since : Nat} {hooked : Prop} {x : Engine (Diary σ κ) κ RunOutcome}
    {o : Except MachineError RunOutcome} {v : World (Diary σ κ) κ}
    (hx : Engine.Triple (· = w.opened) x
      (fun o v => ∃ fired stop, o = .completed fired stop ∧ v.Ends since hooked (some stop))
      fun e v => e = .exhausted ∨ v.Ends since hooked none)
    (hattempt : Engine.attempt x w.opened = .ok o v) : Closes since hooked o v := by
  have hends := hx w.opened rfl
  rcases Engine.of_attempt hattempt with ⟨a, rfl, hok⟩ | ⟨e, rfl, herror⟩
  · rw [hok] at hends
    obtain ⟨fired, stop, rfl, hstops⟩ := hends
    exact .inl ⟨fired, stop, rfl, hstops⟩
  · rw [herror] at hends
    exact .inr ⟨e, rfl, hends.resolve_left nofun⟩

theorem polled_begun (w : World σ κ) : w.begun.opened.Polled w.notices.length := by
  refine ⟨⟨World.heeds_opened rfl rfl, Nat.le_refl _, ?_⟩, rfl⟩
  show ¬ Notice.Amid (w.notices.drop w.notices.length)
  rw [List.drop_length]
  exact fun hamid => hamid rfl

theorem closes_run {mode : RunMode} (hook : Option (Engine (Diary σ κ) κ Unit))
    (hhook : ∀ x, hook = some x →
      (∀ v : World (Diary σ κ) κ, Engine.Keeps v.Ensues x) ∧ Engine.Keeps World.Heeds x)
    (hidle : w.machine.running = false) {o : Except MachineError RunOutcome}
    {v : World (Diary σ κ) κ}
    (hrun : Engine.attempt (Engine.run (h.diarist n) n mode hook) w.opened = .ok o v) :
    Closes w.notices.length (hook.isSome = true) o v := by
  have hprocess := Engine.ends_processTransitions (fun v => ensues_diarist (h := h) v n)
    (heeds_diarist n) hhook w.notices.length mode n
  refine closes_of_triple (.asRun (fun v hv => hv ▸ hidle) (fun v hv => hv ▸ polled_begun w)
    (hprocess.mono_post ?_ ?_)) hrun
  · exact fun o v hv => ⟨o.1, o.2, rfl, hv.congr rfl rfl rfl rfl⟩
  · exact fun e v hv => hv.imp_right fun hv => hv.congr rfl rfl rfl rfl

theorem closes_runEvents (hidle : w.machine.running = false) {o : Except MachineError RunOutcome}
    {v : World (Diary σ κ) κ}
    (hrun : Engine.attempt (Engine.runEvents (h.diarist n) n) w.opened = .ok o v) :
    Closes w.notices.length True o v := by
  have hprocess := Engine.ends_processEvents
    (fun v => ensues_diarist (h := h) v n) (heeds_diarist n) w.notices.length n 0
  refine closes_of_triple (.runEvents (I := World.Polled w.notices.length) (fun v hv => hv ▸ hidle)
    (fun v hv => hv ▸ polled_begun w) ((hprocess.mono_pre ?_).mono_post ?_ ?_)) hrun
  · exact fun v hv => ⟨hv.toBetween, hv.ends_any⟩
  · exact fun o v hv => ⟨o.1, o.2, rfl, hv.congr rfl rfl rfl rfl⟩
  · exact fun e v hv => hv.imp_right fun hv => hv.congr rfl rfl rfl rfl

/-- A request for a run, made while one is under way, runs no body. -/
theorem calls_nested (hq : q.AsksToRun)
    (hrunning : w.machine.running = true) : h.calls (n + 1) q w = [] := by
  have hreenter {x : Engine (Diary σ κ) κ RunOutcome} (hx : x w.opened = Engine.reenter w.opened) :
      (x.after w.opened).env.calls = [] := by
    obtain ⟨v, hv, -, -, henv⟩ := Engine.reenter_eq w.opened
    rw [Engine.after, hx, hv]
    exact congrArg Diary.calls henv
  cases q with
  | run mode => exact hreenter (Engine.asRun_running hrunning)
  | runWith mode key => exact hreenter (Engine.asRun_running hrunning)
  | runEvents => exact hreenter (Engine.runEvents_running hrunning)
  | _ => exact hq.elim

theorem closes_noting (hq : q.AsksToRun) (hidle : w.machine.running = false)
    {v : World (Diary σ κ) κ} (hnoting : Engine.attempt (h.noting (n + 1) q) w.opened = .ok o v) :
    ∃ hooked : Prop, (∀ mode, q = .run mode → ¬ hooked) ∧ ∃ run : Except MachineError RunOutcome,
      Closes w.notices.length hooked run v ∧ Call.run? ⟨q, w, o, v.plain⟩ = some run := by
  cases q with
  | run mode =>
    exact ⟨_, fun _ _ => Bool.false_ne_true, o, closes_run none nofun hidle hnoting, rfl⟩
  | runWith mode key =>
    refine ⟨_, nofun, o, closes_run (some (h.callingHook n key))
      (fun x hx => ?_) hidle hnoting, rfl⟩
    cases hx
    exact ⟨fun v => ensues_callingHook v n key, heeds_callingHook n key⟩
  | runEvents => exact ⟨True, nofun, o, closes_runEvents hidle hnoting, rfl⟩
  | _ => exact hq.elim

/-- After a pause that stands a run takes up no event. If it was asked for in the course of a
firing, as it is in every run without a hook, no firing begins any more and what was in the slot
stays there. A guard that selects for an event and a hook come too late: the firing that they are
run for begins, unless the run breaks off or nothing is in the slot after the hook, and it is the
last. -/
theorem pause_stops_run (hq : q.AsksToRun)
    (hperform : Engine.attempt (h.perform (n + 1) q) w = .ok o w')
    (hc : c.Stands post (h.calls (n + 1) q w)) :
    w'.machine.events = c.after.machine.events ++ posted post ∧
      (∀ mode, q = .run mode → Notice.Amid (c.after.notices.drop w.notices.length)) ∧
      ∃ told, w'.notices = c.after.notices ++ told ∧
        (Notice.Amid (c.after.notices.drop w.notices.length) → told.filterMap Notice.begun? = [] ∧
          ∀ p, c.after.machine.pending = some p → w'.machine.pending = some p) ∧
        (told.filterMap Notice.begun? = [] ∨ ∃ t, told.filterMap Notice.begun? = [t] ∧
          ∀ p, c.after.machine.pending = some p → p.transition = t) ∧
        (¬ Notice.Amid (c.after.notices.drop w.notices.length) → ∀ fired stop,
          Call.run? ⟨q, w, o, w'⟩ = some (.ok (.completed fired stop)) →
            (told.filterMap Notice.begun? = [] ↔ stop = .queueEmpty)) := by
  cases hrunning : w.machine.running with
  | true =>
    rw [calls_nested hq hrunning] at hc
    exact absurd hc Call.not_stands_nil
  | false =>
  obtain ⟨v, hnoting, rfl, hcalls⟩ := noting_of_attempt hperform
  rw [hcalls] at hc
  obtain ⟨hooked, hplain, run, hcloses, hrun⟩ := closes_noting hq hrunning hnoting
  rw [hrun]
  rcases hcloses with ⟨fired, stop, rfl, hends⟩ | ⟨e, rfl, hends⟩
  · obtain ⟨hevents, hunhooked, told, ⟨hnotices, hamid, hbetween⟩, hstop⟩ := hends c post hc
    refine ⟨hevents, fun mode hmode => hunhooked (hplain mode hmode), told,
      hnotices, hamid, hbetween, fun hsettled fired' stop' hcompleted => ?_⟩
    cases hcompleted
    exact hstop hsettled stop rfl
  · obtain ⟨hevents, hunhooked, told, ⟨hnotices, hamid, hbetween⟩, -⟩ := hends c post hc
    exact ⟨hevents, fun mode hmode => hunhooked (hplain mode hmode), told, hnotices,
      hamid, hbetween, nofun⟩

end Host

/-! ## Errands -/

/-- Something that a body does. -/
inductive Errand where
  | pause
  /-- It queues the transition b->c. -/
  | queue

namespace Errand

/-- Bodies do their errands and agree. -/
def host : Host Unit (List Errand) where
  handlers _ := .empty
  body errands _ _ := errands.foldr
    (fun errand rest => match errand with
      | pause => .call .pause fun _ => rest
      | queue => .call (.queue ⟨1⟩ []) fun _ => rest)
    (.ret (.ok (some true)))

/-- Three states in a row, the second with an activity. A guard pauses on the way there. -/
def edits (activity : List Errand) : List (Edit (List Errand)) :=
  [.addState ⟨0⟩ { name := "a" }, .addState ⟨0⟩ { name := "b", doActivity := .callback activity },
    .addState ⟨0⟩ { name := "c" },
    .addTransition ⟨0⟩
      { name := "a->b", source := ⟨0⟩, target := ⟨1⟩, triggers := [.tag "send"],
        guard := .callback [pause] },
    .addTransition ⟨0⟩ { name := "b->c", source := ⟨1⟩, target := ⟨2⟩, triggers := [.tag "go"] },
    .setStart ⟨0⟩ (some ⟨0⟩), .setFinal ⟨0⟩ (some ⟨2⟩)]

/-- A machine that is about to go to b, with an event in the queue that leads on to c. -/
def underway (activity : List Errand) : World Unit (List Errand) :=
  let w := World.fresh ((Graph.new "errands").edited (edits activity))
  w.mapMachine ({ · with active := some ⟨0⟩, pending := some ⟨⟨0⟩, []⟩, events := [⟨"go", []⟩] })

/-- A machine with two events in the queue that lead on to b and to c. -/
def summoned : World Unit (List Errand) :=
  (underway []).mapMachine ({ · with pending := none, events := [⟨"send", []⟩, ⟨"go", []⟩] })

/-- How the machine is left when the request has been carried out. -/
def left (q : Request (List Errand)) (w : World Unit (List Errand)) : World Unit (List Errand) :=
  (Engine.attempt (host.perform 4 q)).after w

end Errand

open Errand

/-- The activity queues the transition to the end and pauses: what it has queued stays in the
slot. -/
theorem pause_stops_run_errands :
    Request.AsksToRun (.run .continuous : Request (List Errand)) ∧
    Engine.attempt (host.perform 4 (.run .continuous)) (underway [.queue, .pause]) =
      .ok (.ok (.completed 1 .paused)) (left (.run .continuous) (underway [.queue, .pause])) ∧
    ∃ c, Call.Stands c [] (host.calls 4 (.run .continuous) (underway [.queue, .pause])) ∧
      c.after.machine.pending = some ⟨⟨1⟩, []⟩ ∧
      (left (.run .continuous) (underway [.queue, .pause])).machine.pending = some ⟨⟨1⟩, []⟩ ∧
      (left (.run .continuous) (underway [.queue, .pause])).machine.events =
        c.after.machine.events := by
  have hrun : Engine.attempt (host.perform 4 (.run .continuous)) (underway [.queue, .pause]) =
      .ok (.ok (.completed 1 .paused)) (left (.run .continuous) (underway [.queue, .pause])) :=
    Engine.ok_of_answer? (by decide +kernel)
  have hmade : host.calls 4 (.run .continuous) (underway [.queue, .pause]) ≠ [] := by decide +kernel
  have hstands := Call.stands_getLast hmade rfl
  have hpending : ((host.calls 4 (.run .continuous) (underway [.queue, .pause])).getLast
    hmade).after.machine.pending =
      some ⟨⟨1⟩, []⟩ := rfl
  obtain ⟨hevents, hamid, told, -, hstops, -⟩ :=
    Host.pause_stops_run (q := .run .continuous) trivial hrun hstands
  exact ⟨trivial, hrun, _, hstands, hpending, (hstops (hamid _ rfl)).2 _ hpending,
    hevents.trans (List.append_nil _)⟩

/-- A guard that selects for an event pauses: the transition fires nevertheless. A hook pauses with
the transition to the end in the slot: it is not there any more by the end of the run. -/
theorem overrun_errands :
    (∃ c, Call.Stands c [] (host.calls 4 .runEvents summoned) ∧
      .effectInvoked ⟨0⟩ ∈ (left .runEvents summoned).notices.drop c.after.notices.length) ∧
    ∃ c, Call.Stands c [] (host.calls 4 (.runWith .continuous [.pause]) (underway [.queue])) ∧
      c.after.machine.pending = some ⟨⟨1⟩, []⟩ ∧
      (left (.runWith .continuous [.pause]) (underway [.queue])).machine.pending = none := by
  have hguard : host.calls 4 .runEvents summoned ≠ [] := by decide +kernel
  have hhook : host.calls 4 (.runWith .continuous [.pause]) (underway [.queue]) ≠
    [] := by decide +kernel
  refine ⟨⟨_, Call.stands_getLast hguard rfl, ?_⟩, _, Call.stands_getLast hhook rfl, rfl, rfl⟩
  decide +kernel +revert

end Statechart
