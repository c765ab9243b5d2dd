import Statechart.Proofs.Machine.Calls

/-!
# Calls while a run is under way

Whatever bodies ask for while a run is under way, no event is taken up, no firing begins or ends,
and what waits in the slot goes on waiting there. Events are added to the queue only by posting
them, in the order in which they are posted.
-/

namespace Statechart

open Json

variable {σ κ : Type}

/-- The notice tells that an event has been taken up, or that a firing begins or has ended. -/
def Notice.Milestone : Notice → Prop
  | .eventDequeued _ | .effectInvoked _ | .transitionFired .. => True
  | _ => False

namespace World

/-- From the first world to the second the notices tell of no milestone, and of what has been
queued, which waits in the slot. -/
structure Told (w w' : World σ κ) (told : List Notice) : Prop where
  notices : w'.notices = w.notices ++ told
  quiet : ∀ n ∈ told, ¬ n.Milestone
  waits : ∀ t, .transitionQueued t ∈ told → ∃ args, w'.machine.pending = some ⟨t, args⟩
  queued : ∀ p, w'.machine.pending = some p → w.machine.pending = some p ∨
    .transitionQueued p.transition ∈ told

/-- From the first world to the second nothing has been taken up, fired or taken from the slot. -/
structure Holds (w w' : World σ κ) : Prop where
  slot : ∀ p, w.machine.pending = some p → w'.machine.pending = some p
  told : ∃ told, w.Told w' told

/-- So it is with a run under way. -/
structure Goes (w w' : World σ κ) : Prop extends Holds w w' where
  running : w'.machine.running = true

variable {u v w w' : World σ κ} {n : Notice} {f : Machine κ → Machine κ}

theorem Goes.refl (h : w.machine.running = true) : w.Goes w where
  slot _ hp := hp
  told := ⟨[], (List.append_nil _).symm, nofun, nofun, fun _ => .inl⟩
  running := h

theorem Goes.trans (h : u.Goes v) (h' : v.Goes w) : u.Goes w := by
  obtain ⟨told, htold⟩ := h.told
  obtain ⟨told', htold'⟩ := h'.told
  refine ⟨⟨fun p hp => h'.slot p (h.slot p hp), told ++ told', ?_, fun n hn => ?_,
    fun t ht => ?_, fun p hp => ?_⟩, h'.running⟩
  · rw [htold'.notices, htold.notices, List.append_assoc]
  · exact (List.mem_append.mp hn).elim (htold.quiet n) (htold'.quiet n)
  · rcases List.mem_append.mp ht with ht | ht
    · exact (htold.waits t ht).imp fun _ hp => h'.slot _ hp
    · exact htold'.waits t ht
  · rcases htold'.queued p hp with hp | ht
    · exact (htold.queued p hp).imp_right (List.mem_append_left _)
    · exact .inr (List.mem_append_right _ ht)

theorem Goes.notify (h : v.Goes w) (hn : ¬ n.Milestone) (hqueued : ∀ t, n ≠ .transitionQueued t) :
    v.Goes (w.notify n) := by
  obtain ⟨told, htold⟩ := h.told
  refine ⟨⟨h.slot, told ++ [n], ?_, fun n' hn' => ?_, fun t ht => ?_, fun p hp => ?_⟩, h.running⟩
  · rw [World.notify, htold.notices, List.append_assoc]
  · rcases List.mem_append.mp hn' with hmem | hmem
    · exact htold.quiet n' hmem
    · exact List.mem_singleton.mp hmem ▸ hn
  · rcases List.mem_append.mp ht with hmem | hmem
    · exact htold.waits t hmem
    · exact absurd (List.mem_singleton.mp hmem).symm (hqueued t)
  · exact (htold.queued p hp).imp_right (List.mem_append_left _)

/-- What a transition is queued into is the empty slot. -/
theorem Goes.queue (h : v.Goes w) (hempty : w.machine.pending = none) (t : TransitionId)
    (args : List Value) :
    v.Goes ((w.mapMachine ({ · with pending := some ⟨t, args⟩ })).notify
      (.transitionQueued t)) := by
  obtain ⟨told, htold⟩ := h.told
  have hnone (p : Pending) : v.machine.pending ≠ some p :=
    fun hp => nomatch hempty.symm.trans (h.slot p hp)
  refine ⟨⟨fun p hp => absurd hp (hnone p), told ++ [.transitionQueued t], ?_,
    fun n' hn' => ?_, fun t' ht => ?_, fun p hp => ?_⟩, h.running⟩
  · rw [World.notify, World.mapMachine, htold.notices, List.append_assoc]
  · rcases List.mem_append.mp hn' with hmem | hmem
    · exact htold.quiet n' hmem
    · exact List.mem_singleton.mp hmem ▸ id
  · rcases List.mem_append.mp ht with hmem | hmem
    · obtain ⟨args', hp⟩ := htold.waits t' hmem
      cases hempty.symm.trans hp
    · cases List.mem_singleton.mp hmem
      exact ⟨args, rfl⟩
  · cases hp
    exact .inr (List.mem_append_right _ (List.mem_singleton_self _))

/-- Changes in which neither the slot nor the notices have a part. -/
theorem Goes.congr (h : v.Goes w) (hnotices : w'.notices = w.notices)
    (hslot : w'.machine.pending = w.machine.pending)
    (hrunning : w'.machine.running = w.machine.running) : v.Goes w' := by
  obtain ⟨told, htold⟩ := h.told
  refine ⟨⟨fun p hp => hslot.trans (h.slot p hp), told, hnotices.trans htold.notices,
    htold.quiet, fun t ht => ?_,
    fun p hp => htold.queued p (hslot.symm.trans hp)⟩, hrunning.trans h.running⟩
  exact (htold.waits t ht).imp fun _ hp => hslot.trans hp

end World

/-- The events that a call posts. -/
def Call.posted (c : Call σ κ) : List Event :=
  match c.request with
  | .post es => es
  | _ => []

/-- The events that some calls post, in order. -/
def posted (calls : List (Call σ κ)) : List Event := calls.flatMap Call.posted

theorem posted_nil : posted ([] : List (Call σ κ)) = [] := rfl

theorem posted_singleton (c : Call σ κ) : posted [c] = c.posted := List.append_nil _

theorem posted_append (calls calls' : List (Call σ κ)) :
    posted (calls ++ calls') = posted calls ++ posted calls' :=
  List.flatMap_append

theorem Call.posted_of_ne {c : Call σ κ} (hc : ∀ es, c.request ≠ .post es) : c.posted = [] := by
  rw [posted]
  split
  · rename_i es hes
    exact absurd hes (hc es)
  · rfl

namespace World

/-- What may become of the first world while a run is under way: what the calls since then have come
to still stands, and they have posted what the queue of events has gained. -/
structure Ensues (w w' : World (Diary σ κ) κ) : Prop where
  goes : w.plain.Goes w'.plain
  calls : ∃ made, w'.env.calls = w.env.calls ++ made ∧ w'.machine.events =
    w.machine.events ++ posted made ∧
    ∀ c ∈ made, c.before.machine.running = true ∧ c.after.Goes w'.plain

variable {u v w w' : World (Diary σ κ) κ} {n : Notice} {f : Machine κ → Machine κ}

theorem Ensues.refl (h : w.machine.running = true) : w.Ensues w where
  goes := .refl h
  calls := by
    refine ⟨[], (List.append_nil _).symm, ?_, fun c hc => absurd hc List.not_mem_nil⟩
    rw [posted_nil, List.append_nil]

theorem Ensues.trans (h : u.Ensues v) (h' : v.Ensues w) : u.Ensues w := by
  obtain ⟨made, hcalls, hevents, hmade⟩ := h.calls
  obtain ⟨made', hcalls', hevents', hmade'⟩ := h'.calls
  refine ⟨h.goes.trans h'.goes, made ++ made', ?_, ?_, fun c hc => ?_⟩
  · rw [hcalls', hcalls, List.append_assoc]
  · rw [hevents', hevents, posted_append, List.append_assoc]
  · rcases List.mem_append.mp hc with hc | hc
    · exact ⟨(hmade c hc).1, (hmade c hc).2.trans h'.goes⟩
    · exact hmade' c hc

theorem Ensues.running (h : v.Ensues w) : w.machine.running = true := h.goes.running

/-- What changes neither the calls nor the queue of events ensues as far as it goes on. -/
theorem Ensues.step (h : v.Ensues w) (hcalls : w'.env.calls = w.env.calls)
    (hevents : w'.machine.events = w.machine.events)
    (hgoes : ∀ {u : World σ κ}, u.Goes w.plain → u.Goes w'.plain) : v.Ensues w' := by
  obtain ⟨made, hmade, hposted, hafter⟩ := h.calls
  exact ⟨hgoes h.goes, made, hcalls.trans hmade, hevents.trans hposted,
    fun c hc => ⟨(hafter c hc).1, hgoes (hafter c hc).2⟩⟩

theorem Ensues.notify (h : v.Ensues w) (hn : ¬ n.Milestone)
    (hqueued : ∀ t, n ≠ .transitionQueued t) : v.Ensues (w.notify n) :=
  h.step rfl rfl fun hgoes => hgoes.notify hn hqueued

theorem Ensues.queue (h : v.Ensues w) (hempty : w.machine.pending = none) (t : TransitionId)
    (args : List Value) :
    v.Ensues ((w.mapMachine ({ · with pending := some ⟨t, args⟩ })).notify (.transitionQueued t)) :=
  h.step rfl rfl fun hgoes => hgoes.queue hempty t args

/-- What tells how a run goes. -/
def tally (w : World (Diary σ κ) κ) :
    List (Call σ κ) × List Event × Option Pending × Bool × List Notice :=
  (w.env.calls, w.machine.events, w.machine.pending, w.machine.running, w.notices)

theorem Ensues.congr (h : v.Ensues w) (htally : w'.tally = w.tally) : v.Ensues w' := by
  simp only [tally, Prod.mk.injEq] at htally
  obtain ⟨hcalls, hevents, hslot, hrunning, hnotices⟩ := htally
  exact h.step hcalls hevents fun hgoes => hgoes.congr hnotices hslot hrunning

theorem private_ensues : Private (Ensues v) := fun _ _ h => h.congr rfl

end World

namespace Comparison

variable {v : World (Diary σ κ) κ}

theorem enters_ensues : (within v.Ensues).Enters .same where
  like h := World.like_of_eq h.1
  guarded | _, rfl, h => ⟨by rw [h.1], h.2.notify id nofun⟩
  phase h := by rw [h.1]
  setPhase _ h := ⟨by rw [h.1], h.2.congr rfl⟩
  setActive hs h := ⟨by rw [h.1, eq_of_optionRel hs], h.2.congr rfl⟩
  setLast hvia h := ⟨by rw [h.1, eq_of_optionRel hvia], h.2.congr rfl⟩
  exited | rfl, h => ⟨by rw [h.1], h.2.notify id nofun⟩
  started | rfl, h => ⟨by rw [h.1], h.2.notify id nofun⟩
  moving {_ _ n _} hn hlike h := by
    refine ⟨by rw [h.1, hlike.eq], h.2.notify ?_ fun t ht => ?_⟩
    · cases n <;> first | exact id | exact hn.elim
    · rw [ht] at hn
      exact hn.elim
  seeded | rfl => Engine.Keeps.relates (.modify fun w hw => by
    split
    · exact hw.congr rfl
    · exact hw)
  clear := Engine.Keeps.relates (.modify fun _ hw => hw.congr rfl)

theorem steers_ensues : (within v.Ensues).Steers .same where
  toSelects := enters_ensues.toSelects
  starves := trivial
  running h := by rw [h.1]
  paused h := by rw [h.1]
  setPaused _ h := ⟨by rw [h.1], h.2.congr rfl⟩
  stopped h := ⟨by rw [h.1], h.2.notify id nofun⟩
  resumed h := ⟨by rw [h.1], h.2.notify id nofun⟩

end Comparison

namespace Engine

variable {v : World (Diary σ κ) κ} {r : Responder (Diary σ κ) κ}

theorem ensues_queueTransition (t : TransitionId) (args : List Value) :
    Keeps v.Ensues (queueTransition t args : Engine (Diary σ κ) κ Unit) := by
  intro w hw
  rcases queueTransition_cases t args w with ⟨e, he⟩ | ⟨s, ts, hempty, -, -, -, -, hok⟩
  · rw [he]
    exact hw
  · rw [hok]
    exact hw.queue hempty t args

/-- Whatever is asked of a machine that runs ensues, but that events are posted. -/
theorem ensues_carryOut (hr : r.Keeps v.Ensues) (hook : κ → Engine (Diary σ κ) κ Unit) (n : Nat)
    {q : Request κ} (hq : ∀ es, q ≠ .post es) : Keeps v.Ensues (carryOut r hook n q) := by
  have hmatches := hr.matches
  have hqueue (t : TransitionId) (args : List Value) :=
    keeps_iff_matches.mp (ensues_queueTransition (v := v) t args)
  refine keeps_iff_matches.mpr (matches_carryOut_of_steers Comparison.steers_ensues hmatches n
    (fun args _ t => hqueue t args) (fun es hpost => absurd hpost (hq es)) ?_ fun hreplaces => ?_)
  · exact matches_amid Comparison.steers_ensues (fun h => h.2.running) hmatches hqueue
      (fun _ h => ⟨by rw [h.1], h.2.congr rfl⟩) n
  · cases q with
    | start args => exact matches_start Comparison.enters_ensues hmatches args
    | goto s args => exact matches_goto Comparison.enters_ensues hmatches s args
    | isolate =>
      refine keeps_iff_matches.mp fun w hw => ?_
      rw [carryOut, isolate_running hw.running]
      exact hw
    | setOptions o => exact keeps_iff_matches.mp (.update fun _ hw => hw.congr rfl)
    | clearHistory => exact matches_clearHistory Comparison.enters_ensues
    | edit e =>
      exact keeps_iff_matches.mp (keeps_of_leads fun w hw => ⟨_, leads_edit e w, hw.congr rfl⟩)
    | restore s =>
      refine keeps_iff_matches.mp fun w hw => ?_
      obtain ⟨e, he⟩ := restore_running (s := s) hw.running
      rw [carryOut, he]
      exact hw
    | _ => exact hreplaces.elim

end Engine

namespace Host

variable {h : Host σ κ} {n : Nat} {v : World (Diary σ κ) κ}

/-- Whatever bodies ask for while a run is under way ensues. -/
theorem ensues_calling (v : World (Diary σ κ) κ) (n : Nat) (q : Request κ) :
    Engine.Keeps v.Ensues (h.calling n q) := by
  induction n generalizing v q with
  | zero =>
    intro w hw
    exact hw
  | succ n ih =>
    have hr (u : World (Diary σ κ) κ) : (h.diarist n).Keeps u.Ensues :=
      keeps_diarist World.private_ensues fun q => ih u q
    have hnoting (hq : ∀ es, q ≠ .post es) (u : World (Diary σ κ) κ) :
        Engine.Keeps u.Ensues (h.noting (n + 1) q) :=
      Engine.ensues_carryOut (hr u) (h.callingHook n) n hq
    -- What a call comes to is measured from where it is made, so that the note may be put behind
    -- it.
    have hlogged {u w : World (Diary σ κ) κ} (hu : v.Ensues u) (o : Except MachineError q.Answer)
        (hw : u.Ensues w) (hq : ∀ es, q ≠ .post es) :
        v.Ensues (w.log ⟨q, u.plain, o, w.plain⟩) := by
      refine hu.trans ⟨hw.goes, ?_⟩
      obtain ⟨made, hcalls, hevents, hmade⟩ := hw.calls
      refine ⟨made ++ [⟨q, u.plain, o, w.plain⟩], ?_, ?_, fun c hc => ?_⟩
      · rw [World.log, hcalls, List.append_assoc]
      · have hposted : Call.posted ⟨q, u.plain, o, w.plain⟩ = [] := Call.posted_of_ne hq
        rw [posted_append, posted_singleton, hposted, List.append_nil]
        exact hevents
      · rcases List.mem_append.mp hc with hc | hc
        · exact hmade c hc
        · obtain rfl := List.mem_singleton.mp hc
          exact ⟨hu.running, .refl hw.running⟩
    by_cases hpost : ∃ es, q = .post es
    · obtain ⟨es, rfl⟩ := hpost
      have hgoes {u : World σ κ} (hu : u.machine.running = true) :
          u.Goes (u.mapMachine fun m => { m with events := m.events ++ es }) :=
        (World.Goes.refl hu).congr rfl rfl rfl
      refine fun u hu => hu.trans ⟨hgoes (u := u.plain) hu.running, ?_⟩
      refine ⟨[⟨.post es, u.plain, .ok (), _⟩], rfl, ?_, fun c hc => ?_⟩
      · rw [posted_singleton]
        rfl
      · obtain rfl := List.mem_singleton.mp hc
        exact ⟨hu.running, .refl hu.running⟩
    · have hq (es : List Event) : q ≠ .post es := fun he => hpost ⟨es, he⟩
      refine Engine.keeps_noted (fun u hu o w hw => ?_) fun u hu w hw => ?_
      · have hkept := (hnoting hq u).attempt u (.refl hu.running)
        rw [hw] at hkept
        exact hlogged hu o hkept hq
      · have hkept := hnoting hq v u hu
        rw [hw] at hkept
        exact hkept

/-- A request made while a run is under way leaves what it finds. -/
theorem goes_of_attempt {w w' : World σ κ} {q : Request κ} {o : Except MachineError q.Answer}
    (hrunning : w.machine.running = true)
    (hq : Engine.attempt (h.perform n q) w = .ok o w') : w.Goes w' := by
  have hforget := Engine.Matches.attempt (Engine.forgetting_noted (forgetting_noting (h := h) n q))
  obtain ⟨v, hv, rfl⟩ := hforget.exists_of_forgetting (w := w.opened) hq
  have hensues := (ensues_calling (h := h) w.opened n q).attempt w.opened (.refl hrunning)
  have hcalling : Engine.attempt (h.calling n q) w.opened = .ok o v := hv
  rw [hcalling] at hensues
  exact hensues.goes

theorem ensues_diarist (v : World (Diary σ κ) κ) (n : Nat) : (h.diarist n).Keeps v.Ensues :=
  keeps_diarist World.private_ensues fun q => ensues_calling v n q

theorem ensues_callingHook (v : World (Diary σ κ) κ) (n : Nat) (key : κ) :
    Engine.Keeps v.Ensues (h.callingHook n key) :=
  keeps_callingHook World.private_ensues (fun q => ensues_calling v n q) key

section
variable {I : World (Diary σ κ) κ → Prop} (hrunning : ∀ w, I w → w.machine.running = true)
  (hI : ∀ w w', I w → w.Ensues w' → I w')
include hrunning hI

/-- Work from which every world ensues keeps what is so in every world that ensues. -/
theorem keeps_of_ensues {α : Type} {x : Engine (Diary σ κ) κ α}
    (hx : ∀ v : World (Diary σ κ) κ, Engine.Keeps v.Ensues x) : Engine.Keeps I x := by
  intro w hw
  have hensues := hx w w (.refl (hrunning w hw))
  cases ho : x w with
  | ok a v =>
    rw [ho] at hensues
    exact hI w v hw hensues
  | error e v =>
    rw [ho] at hensues
    exact hI w v hw hensues

theorem keeps_diarist_of_ensues (n : Nat) : (h.diarist n).Keeps I where
  call name element args := keeps_of_ensues hrunning hI fun v =>
    (ensues_diarist v n).call name element args
  callback key element args := keeps_of_ensues hrunning hI fun v =>
    (ensues_diarist v n).callback key element args

theorem keeps_callingHook_of_ensues (n : Nat) (key : κ) : Engine.Keeps I (h.callingHook n key) :=
  keeps_of_ensues hrunning hI fun v => ensues_callingHook v n key

end

end Host

end Statechart
