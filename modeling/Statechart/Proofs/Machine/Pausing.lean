import Statechart.Proofs.Machine.EventTurns
import Statechart.Proofs.Machine.Reentry

/-!
# Pauses

A run under way is paused exactly if some call has asked for that and no later one has resumed it or
asked for a run of its own. Nothing else that bodies do touches the flag, and nothing that they do
takes an event from the queue: as long as a pause stands the queue only gains what is posted.
-/

namespace Statechart

open Json

variable {σ κ : Type}

/-- Requests by which a run that has been paused goes on. -/
def Request.Resumes : Request κ → Prop
  | .resume | .run _ | .runWith .. | .runEvents => True
  | _ => False

/-- The calls have come to this one, which asks for a pause, and to those behind it, none of which
lets the run go on. -/
structure Call.Stands (c : Call σ κ) (post calls : List (Call σ κ)) : Prop where
  made : ∃ pre, calls = pre ++ c :: post
  pauses : c.request = .pause
  unresumed : ∀ d ∈ post, ¬ d.request.Resumes

namespace Call

variable {c d : Call σ κ} {post calls made : List (Call σ κ)}

theorem Stands.mem (h : c.Stands post calls) : c ∈ calls := by
  obtain ⟨pre, rfl⟩ := h.made
  exact List.mem_append_right _ List.mem_cons_self

theorem stands_getLast (h : calls ≠ []) (hpauses : (calls.getLast h).request = .pause) :
    (calls.getLast h).Stands [] calls :=
  ⟨⟨calls.dropLast, (List.dropLast_append_getLast h).symm⟩, hpauses,
    fun _ hd => absurd hd List.not_mem_nil⟩

theorem not_stands_nil : ¬ c.Stands post [] := fun h => absurd h.mem List.not_mem_nil

/-- A pause stands after one more call if it is that call, or has stood and goes on to stand. -/
theorem stands_concat : c.Stands post (calls ++ [d]) ↔
    c = d ∧ post = [] ∧ d.request = .pause ∨
      ∃ post', post = post' ++ [d] ∧ c.Stands post' calls ∧ ¬ d.request.Resumes := by
  constructor
  · rintro ⟨⟨pre, hmade⟩, hpauses, hunresumed⟩
    cases post using List.reverseRecOn with
    | nil =>
      obtain ⟨-, hlast⟩ := List.append_inj' hmade rfl
      obtain rfl := List.singleton_inj.mp hlast
      exact .inl ⟨rfl, rfl, hpauses⟩
    | append_singleton post' d' =>
      have hsplit : calls ++ [d] = (pre ++ c :: post') ++ [d'] := by
        rw [hmade, List.append_assoc, List.cons_append]
      obtain ⟨hcalls, hlast⟩ := List.append_inj' hsplit rfl
      obtain rfl := List.singleton_inj.mp hlast
      have hd := hunresumed d (List.mem_append_right _ (List.mem_singleton_self d))
      exact .inr ⟨post', rfl,
        ⟨⟨pre, hcalls⟩, hpauses, fun d hd => hunresumed d (List.mem_append_left _ hd)⟩, hd⟩
  · rintro (⟨rfl, rfl, hpauses⟩ | ⟨post', rfl, ⟨⟨pre, rfl⟩, hpauses, hunresumed⟩, hd⟩)
    · exact ⟨⟨calls, rfl⟩, hpauses, fun d hd => absurd hd List.not_mem_nil⟩
    · refine ⟨⟨pre, by rw [List.append_assoc, List.cons_append]⟩, hpauses, fun d' hd' => ?_⟩
      rcases List.mem_append.mp hd' with hd' | hd'
      · exact hunresumed d' hd'
      · exact List.mem_singleton.mp hd' ▸ hd

/-- A pause that stands has stood before the last calls were made, or is one of them. -/
theorem Stands.of_append (h : c.Stands post (calls ++ made)) :
    (∃ post', c.Stands post' calls) ∨ c ∈ made := by
  induction made using List.reverseRecOn generalizing post with
  | nil =>
    rw [List.append_nil] at h
    exact .inl ⟨post, h⟩
  | append_singleton made d ih =>
    rw [← List.append_assoc] at h
    rcases stands_concat.mp h with ⟨rfl, -, -⟩ | ⟨post', -, hstands, -⟩
    · exact .inr (List.mem_append_right _ (List.mem_singleton_self _))
    · exact (ih hstands).imp_right (List.mem_append_left _)

end Call

namespace World

/-- A run is under way. It is paused exactly if a pause stands, and the queue of events has gained
since then what has been posted. -/
structure Heeds (w : World (Diary σ κ) κ) : Prop where
  running : w.machine.running = true
  paused : w.machine.paused = true ↔ ∃ (c : Call σ κ) (post : List (Call σ κ)),
    c.Stands post w.env.calls
  events : ∀ {c : Call σ κ} {post : List (Call σ κ)}, c.Stands post w.env.calls →
    w.machine.events = c.after.machine.events ++ posted post

/-- What tells whether a pause stands. -/
def heeded (w : World (Diary σ κ) κ) : List (Call σ κ) × List Event × Bool × Bool :=
  (w.env.calls, w.machine.events, w.machine.paused, w.machine.running)

variable {w w' : World (Diary σ κ) κ} {c : Call σ κ} {post : List (Call σ κ)} {q : Request κ}

theorem Heeds.congr (h : w.Heeds) (hw : w'.heeded = w.heeded) : w'.Heeds := by
  simp only [heeded, Prod.mk.injEq] at hw
  obtain ⟨hcalls, hevents, hpaused, hrunning⟩ := hw
  refine ⟨hrunning.trans h.running, ?_, fun hstands => ?_⟩
  · rw [hpaused, hcalls]
    exact h.paused
  · rw [hcalls] at hstands
    exact hevents.trans (h.events hstands)

theorem private_heeds : Private (Heeds (σ := σ) (κ := κ)) := fun _ _ h => h.congr rfl

/-- While the machine is not paused no pause stands. -/
theorem Heeds.not_stands (h : w.Heeds) (hpaused : w.machine.paused = false) :
    ¬ c.Stands post w.env.calls :=
  fun hstands => Bool.false_ne_true (hpaused.symm.trans (h.paused.mpr ⟨c, post, hstands⟩))

/-- Without calls no pause stands. -/
theorem heeds_opened {w : World σ κ} (hrunning : w.machine.running = true)
    (hpaused : w.machine.paused = false) : w.opened.Heeds := by
  refine ⟨hrunning, ?_, fun hstands => absurd hstands Call.not_stands_nil⟩
  rw [show w.opened.machine.paused = false from hpaused]
  exact ⟨fun h => absurd h Bool.false_ne_true,
    fun ⟨c, post, hstands⟩ => absurd hstands Call.not_stands_nil⟩

/-- As long as no pause stands events may be taken from the queue. -/
theorem Heeds.setEvents (h : w.Heeds) (hpaused : w.machine.paused = false) (es : List Event) :
    (w.mapMachine ({ · with events := es })).Heeds :=
  ⟨h.running, h.paused, fun hstands => absurd hstands (h.not_stands hpaused)⟩

/-- A call is noted as it ends: it has paused the run, let it go on, or left a pause as it was. -/
theorem heeds_log (hrunning : w.machine.running = true)
    (hpaused : w.machine.paused = true ↔
      c.request = .pause ∨ ¬ c.request.Resumes ∧ ∃ (d : Call σ κ) (post : List (Call σ κ)),
        d.Stands post w.env.calls)
    (hevents : ¬ c.request.Resumes → ∀ {d : Call σ κ} {post : List (Call σ κ)},
      d.Stands post w.env.calls →
      w.machine.events = d.after.machine.events ++ posted post ++ c.posted)
    (hafter : w.machine.events = c.after.machine.events) : (w.log c).Heeds := by
  refine ⟨hrunning, hpaused.trans ⟨?_, ?_⟩, fun hstands => ?_⟩
  · rintro (hpauses | ⟨hresumes, d, post, hstands⟩)
    · exact ⟨c, [], Call.stands_concat.mpr (.inl ⟨rfl, rfl, hpauses⟩)⟩
    · exact ⟨d, post ++ [c], Call.stands_concat.mpr (.inr ⟨post, rfl, hstands, hresumes⟩)⟩
  · rintro ⟨d, post, hstands⟩
    rcases Call.stands_concat.mp hstands with ⟨-, -, hpauses⟩ | ⟨post', -, hstands, hresumes⟩
    · exact .inl hpauses
    · exact .inr ⟨hresumes, d, post', hstands⟩
  · rcases Call.stands_concat.mp hstands with ⟨rfl, rfl, -⟩ | ⟨post', rfl, hstands, hresumes⟩
    · exact hafter.trans (List.append_nil _).symm
    · rw [posted_append, posted_singleton, ← List.append_assoc]
      exact hevents hresumes hstands

/-- A call that has to do neither with pauses nor with events is noted without consequence. -/
theorem Heeds.log (h : w.Heeds) (hsteers : ¬ c.request.Steers) (hresumes : ¬ c.request.Resumes)
    (hpost : ∀ es, c.request ≠ .post es)
    (hafter : w.machine.events = c.after.machine.events) : (w.log c).Heeds := by
  have hpause : c.request ≠ .pause := fun hpause => hsteers (by rw [hpause]; trivial)
  refine heeds_log h.running (h.paused.trans ?_) (fun _ _ _ hstands => ?_) hafter
  · exact ⟨fun hstands => .inr ⟨hresumes, hstands⟩, fun hor => (hor.resolve_left hpause).2⟩
  · rw [Call.posted_of_ne hpost, List.append_nil]
    exact h.events hstands

end World

namespace Comparison

theorem enters_heeds :
    (within World.Heeds : Comparison (Diary σ κ) (Diary σ κ) κ).Enters .same where
  like h := World.like_of_eq h.1
  guarded | _, rfl, h => ⟨by rw [h.1], h.2.congr rfl⟩
  phase h := by rw [h.1]
  setPhase _ h := ⟨by rw [h.1], h.2.congr rfl⟩
  setActive hs h := ⟨by rw [h.1, eq_of_optionRel hs], h.2.congr rfl⟩
  setLast hvia h := ⟨by rw [h.1, eq_of_optionRel hvia], h.2.congr rfl⟩
  exited | rfl, h => ⟨by rw [h.1], h.2.congr rfl⟩
  started | rfl, h => ⟨by rw [h.1], h.2.congr rfl⟩
  moving _ hlike h := ⟨by rw [h.1, hlike.eq], h.2.congr rfl⟩
  seeded | rfl => Engine.Keeps.relates (.modify fun w hw => by
    split
    · exact hw.congr rfl
    · exact hw)
  clear := Engine.Keeps.relates (.modify fun _ hw => hw.congr rfl)

theorem fires_heeds : (within World.Heeds : Comparison (Diary σ κ) (Diary σ κ) κ).Fires .same where
  toEnters := enters_heeds
  firing h := by rw [h.1]
  setFiring ht h := ⟨by rw [h.1, eq_of_optionRel ht], h.2.congr rfl⟩
  effect | rfl, h => ⟨by rw [h.1], h.2.congr rfl⟩
  fired | rfl, hsource, rfl, h => ⟨by rw [h.1, eq_of_optionRel hsource], h.2.congr rfl⟩

end Comparison

namespace Engine

variable {r : Responder (Diary σ κ) κ}

theorem heeds_queueTransition (t : TransitionId) (args : List Value) :
    Keeps World.Heeds (queueTransition t args : Engine (Diary σ κ) κ Unit) := by
  intro w hw
  rcases queueTransition_cases t args w with ⟨e, he⟩ | ⟨s, ts, -, -, -, -, -, hok⟩
  · rw [he]
    exact hw
  · rw [hok]
    exact hw.congr rfl

section
variable (hr : r.Keeps World.Heeds)
include hr

theorem heeds_fireTransition (p : Pending) : Keeps World.Heeds (fireTransition r p) := by
  refine keeps_iff_matches.mpr (matches_fireTransition Comparison.fires_heeds hr.matches p
    fun previous new => ?_)
  refine keeps_iff_matches.mp (.modify fun w hw => ?_)
  split
  · exact hw.congr rfl
  · exact hw

/-- Whatever is asked of a machine that runs leaves a pause as it is, unless it is to stop or resume
the run, and the queue of events, unless it posts some. -/
theorem heeds_carryOut (hook : κ → Engine (Diary σ κ) κ Unit) (n : Nat) {q : Request κ}
    (hsteers : ¬ q.Steers) (hresumes : ¬ q.Resumes) (hpost : ∀ es, q ≠ .post es) :
    Keeps World.Heeds (carryOut r hook n q) := by
  have hmatches := hr.matches
  have hqueue (t : TransitionId) (args : List Value) :=
    keeps_iff_matches.mp (heeds_queueTransition (σ := σ) (κ := κ) t args)
  refine keeps_iff_matches.mpr
    (matches_carryOut_of_selects Comparison.enters_heeds.toSelects hmatches n
    (fun args _ t => hqueue t args)
    (fun h => absurd h hsteers) (fun es he => absurd he (hpost es)) (fun hruns => ?_)
      fun hreplaces => ?_)
  · cases q with
    | dispatch e =>
      refine keeps_iff_matches.mp fun w hw => ?_
      rw [carryOut, dispatch_running hw.running]
      exact keeps_iff_matches.mpr (matches_selectAndQueue Comparison.enters_heeds.toSelects hmatches
        (fun t => hqueue t e.args) (fun _ _ _ h => ⟨by rw [h.1], h.2.congr rfl⟩) .queued) w hw
    | run mode => exact absurd trivial hresumes
    | runWith mode key => exact absurd trivial hresumes
    | runEvents => exact absurd trivial hresumes
    | _ => exact hruns.elim
  · cases q with
    | start args => exact matches_start Comparison.enters_heeds hmatches args
    | goto s args => exact matches_goto Comparison.enters_heeds hmatches s args
    | isolate =>
      refine keeps_iff_matches.mp fun w hw => ?_
      rw [carryOut, isolate_running hw.running]
      exact hw
    | setOptions o => exact keeps_iff_matches.mp (.update fun _ hw => hw.congr rfl)
    | clearHistory => exact matches_clearHistory Comparison.enters_heeds
    | edit e =>
      exact keeps_iff_matches.mp (keeps_of_leads fun w hw => ⟨_, leads_edit e w, hw.congr rfl⟩)
    | restore s =>
      refine keeps_iff_matches.mp fun w hw => ?_
      obtain ⟨e, he⟩ := restore_running (s := s) hw.running
      rw [carryOut, he]
      exact hw
    | _ => exact hreplaces.elim

end

end Engine

namespace Host

variable {h : Host σ κ} {n : Nat} {q : Request κ} {w v : World (Diary σ κ) κ}

theorem calling_of_ok {a : q.Answer} (hq : h.noting n q w = .ok a v) :
    h.calling n q w = .ok a (v.log ⟨q, w.plain, .ok a, v.plain⟩) := by
  rw [calling, Engine.noted_eq, Engine.attempt_of_ok hq]
  rfl

/-- What lets a run go on succeeds while one is under way, and leaves no pause. -/
theorem exists_of_resumes (hrunning : w.machine.running = true) (hresumes : q.Resumes) :
    ∃ a v, h.noting (n + 1) q w = .ok a v ∧ v.machine.paused = false ∧
      v.machine.running = true := by
  obtain ⟨v, hreenter, hpaused, hsame, -⟩ := Engine.reenter_eq w
  have hstill := hsame.trans hrunning
  cases q with
  | resume =>
    have hresume : Engine.resume w =
        .ok () ((w.mapMachine ({ · with paused := false })).notify .resumed) := by
      rw [Engine.resume, Engine.machine_bind, if_pos hrunning]
      rfl
    exact ⟨(), _, hresume, rfl, hrunning⟩
  | run mode => exact ⟨_, v, (Engine.asRun_running hrunning).trans hreenter, hpaused, hstill⟩
  | runWith mode key =>
    exact ⟨_, v, (Engine.asRun_running hrunning).trans hreenter, hpaused, hstill⟩
  | runEvents => exact ⟨_, v, (Engine.runEvents_running hrunning).trans hreenter, hpaused, hstill⟩
  | _ => exact hresumes.elim

theorem heeds_calling_resumes (hw : w.Heeds) (hresumes : q.Resumes) :
    ∃ a v, h.calling (n + 1) q w = .ok a v ∧ v.Heeds := by
  obtain ⟨a, v, hq, hpaused, hrunning⟩ := exists_of_resumes (h := h) (n := n) hw.running hresumes
  have hpause : q ≠ .pause := by
    rintro rfl
    exact hresumes
  refine ⟨a, _, calling_of_ok hq, World.heeds_log hrunning ?_ (fun h => absurd hresumes h) rfl⟩
  rw [hpaused]
  exact ⟨fun h => absurd h Bool.false_ne_true,
    fun hor => hor.elim (absurd · hpause) (absurd hresumes ·.1)⟩

theorem heeds_calling_pause (hw : w.Heeds) :
    ∃ v, h.calling (n + 1) .pause w = .ok () v ∧ v.Heeds := by
  have hpause : Engine.pause w =
      .ok () ((w.mapMachine ({ · with paused := true })).notify .paused) := by
    rw [Engine.pause, Engine.machine_bind, if_pos hw.running]
    rfl
  refine ⟨_, calling_of_ok hpause,
    World.heeds_log hw.running ⟨fun _ => .inl rfl, fun _ => rfl⟩ (fun _ _ _ hstands => ?_) rfl⟩
  exact (hw.events hstands).trans (List.append_nil _).symm

theorem heeds_calling_post (hw : w.Heeds) (es : List Event) :
    ∃ v, h.calling (n + 1) (.post es) w = .ok () v ∧ v.Heeds := by
  have hpost : Engine.post es w =
    .ok () (w.mapMachine fun m => { m with events := m.events ++ es }) := rfl
  refine ⟨_, calling_of_ok hpost, World.heeds_log hw.running (hw.paused.trans ?_)
    (fun _ _ _ hstands => ?_) rfl⟩
  · exact ⟨fun hstands => .inr ⟨id, hstands⟩, fun hor => (hor.resolve_left nofun).2⟩
  · exact congrArg (· ++ es) (hw.events hstands)

/-- Whatever bodies ask for while a run is under way, it is paused exactly if a pause stands. -/
theorem heeds_calling (n : Nat) (q : Request κ) : Engine.Keeps World.Heeds (h.calling n q) := by
  induction n generalizing q with
  | zero => exact fun w hw => hw
  | succ n ih =>
    have hr : (h.diarist n).Keeps World.Heeds := keeps_diarist World.private_heeds ih
    -- The requests that have to do with pauses and with events do not fail, and run no body.
    have hdone {q : Request κ} (hq : ∀ w : World (Diary σ κ) κ, w.Heeds →
        ∃ a v, h.calling (n + 1) q w = .ok a v ∧ v.Heeds) :
        Engine.Keeps World.Heeds (h.calling (n + 1) q) := by
      intro w hw
      obtain ⟨a, v, hok, hv⟩ := hq w hw
      rw [hok]
      exact hv
    by_cases hresumes : q.Resumes
    · exact hdone fun w hw => heeds_calling_resumes hw hresumes
    by_cases hsteers : q.Steers
    · cases q with
      | pause => exact hdone fun w hw => ⟨(), heeds_calling_pause hw⟩
      | resume => exact absurd trivial hresumes
      | _ => exact hsteers.elim
    by_cases hpost : ∃ es, q = .post es
    · obtain ⟨es, rfl⟩ := hpost
      exact hdone fun w hw => ⟨(), heeds_calling_post hw es⟩
    have hpost (es : List Event) : q ≠ .post es := fun hes => hpost ⟨es, hes⟩
    have hnoting : Engine.Keeps World.Heeds (h.noting (n + 1) q) :=
      Engine.heeds_carryOut hr (h.callingHook n) n hsteers hresumes hpost
    refine Engine.keeps_noted (fun w hw o v hv => ?_) fun w hw v hv => ?_
    · have hkept := hnoting.attempt w hw
      rw [hv] at hkept
      exact World.Heeds.log hkept hsteers hresumes hpost rfl
    · have hkept := hnoting w hw
      rw [hv] at hkept
      exact hkept

theorem heeds_diarist (n : Nat) : (h.diarist n).Keeps World.Heeds :=
  keeps_diarist World.private_heeds (heeds_calling n)

theorem heeds_callingHook (n : Nat) (key : κ) : Engine.Keeps World.Heeds (h.callingHook n key) :=
  keeps_callingHook World.private_heeds (heeds_calling n) key

end Host
end Statechart
