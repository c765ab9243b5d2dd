import Statechart.Proofs.Builder.Linking
import Statechart.Proofs.Builder.Naming

/-!
# The names of transitions

Transitions are installed in an order that is fixed by the blueprint: those of what is nested before
its own. So the names that they get follow from the blueprint alone, and with them which transition
is refused. Nothing else is.
-/

namespace Statechart

variable {κ : Type}

/-! ## Names by the blueprint alone -/

/-- The names that are given, each with the names around the definition where it is. -/
abbrev NameTable := List (List String × String)

/-- The names that are given within these names. -/
def NameTable.namesAt (r : NameTable) (path : List String) : List String :=
  (r.filter (·.1 = path)).map (·.2)

/-- The name that a plan gets where some are taken: its own, or the first that is free after its
ends. -/
def TransitionPlan.nameAmong (p : TransitionPlan κ) (taken : List String) : String :=
  p.name.getD (Graph.firstFree (fun n => !taken.contains n) taken.length
    (p.source ++ "->" ++ p.target))

namespace NameTable

/-- Gives a plan its name, also where that is taken. -/
def give (r : NameTable) (q : List String × TransitionPlan κ) : NameTable :=
  r ++ [(q.1, q.2.nameAmong (r.namesAt q.1))]

/-- Gives a plan its name, or refuses the name where it is taken. -/
def enter (r : NameTable) (q : List String × TransitionPlan κ) : Except String NameTable :=
  if q.2.nameAmong (r.namesAt q.1) ∈ r.namesAt q.1 then .error (q.2.nameAmong (r.namesAt q.1))
    else .ok (r.give q)

end NameTable

namespace Blueprint

mutual

/-- The plans of a blueprint as they are installed, each with the names around its definition. -/
def plans (path : List String) : Blueprint κ → List (List String × TransitionPlan κ)
  | ⟨_, _, _, _, composites, transitions, _⟩ =>
    nestedPlans path composites ++ transitions.map fun p => (path, p)

def nestedPlans (path : List String) :
    List (String × Blueprint κ) → List (List String × TransitionPlan κ)
  | [] => []
  | (state, inner) :: rest => inner.plans (path ++ [state]) ++ nestedPlans path rest

end

/-- A plan has for its own a name that an earlier one got in the same definition. -/
def Clashes (b : Blueprint κ) (name : String) : Prop :=
  ∃ before path p after, b.plans [] = before ++ (path, p) :: after ∧ p.name = some name ∧
    name ∈ (before.foldl NameTable.give []).namesAt path

end Blueprint

/-- A name that is not the plan's own is the first free one. -/
theorem TransitionPlan.nameAmong_firstFree {p : TransitionPlan κ} (h : p.name = none)
    (taken : List String) :
    Graph.FirstFree (· ∈ taken) (p.source ++ "->" ++ p.target) (p.nameAmong taken) := by
  have hnames (n : String) (hn : (!taken.contains n) = false) : n ∈ taken := by
    rw [Bool.not_eq_false'] at hn
    exact List.contains_iff_mem.mp hn
  rw [nameAmong, h, Option.getD_none]
  refine (Graph.firstFree_eq hnames (Nat.le_refl _)).congr fun n => ⟨hnames n, fun hn => ?_⟩
  rw [List.contains_iff_mem.mpr hn, Bool.not_true]

namespace NameTable

variable {r r' : NameTable} {q : List String × TransitionPlan κ}
  {qs : List (List String × TransitionPlan κ)} {name : String}

theorem mem_namesAt {path : List String} : name ∈ r.namesAt path ↔ (path, name) ∈ r := by
  simp [namesAt]

/-- Only a name of the plan's own is refused. -/
theorem enter_eq_error : r.enter q = .error name ↔ q.2.name = some name ∧ name ∈ r.namesAt q.1 := by
  cases hown : q.2.name with
  | none =>
    have hfree := (TransitionPlan.nameAmong_firstFree hown (r.namesAt q.1)).free
    rw [enter, if_neg hfree]
    simp
  | some n =>
    have hname : q.2.nameAmong (r.namesAt q.1) =
      n := by rw [TransitionPlan.nameAmong, hown, Option.getD_some]
    rw [enter, hname]
    by_cases htaken : n ∈ r.namesAt q.1
    · rw [if_pos htaken, Except.error.injEq, Option.some.injEq]
      exact ⟨fun h => ⟨h, h ▸ htaken⟩, And.left⟩
    · rw [if_neg htaken, Option.some.injEq]
      refine ⟨nofun, ?_⟩
      rintro ⟨rfl, hmem⟩
      exact absurd hmem htaken

theorem enter_eq_ok (h : r.enter q = .ok r') : r' = r.give q := by
  rw [enter] at h
  split at h
  · cases h
  · exact (Except.ok.inj h).symm

/-- As long as nothing is refused, all get their names. -/
theorem foldlM_enter_eq_ok (h : qs.foldlM enter r = .ok r') : r' = qs.foldl give r := by
  induction qs generalizing r with
  | nil => exact (Except.ok.inj h).symm
  | cons q qs ih =>
    rw [List.foldlM_cons] at h
    cases hq : r.enter q with
    | error n =>
      rw [hq] at h
      cases h
    | ok r₁ =>
      rw [hq] at h
      rw [List.foldl_cons, ← enter_eq_ok hq]
      exact ih h

/-- What is refused first is a name that a plan has for its own and an earlier one got. -/
theorem exists_of_foldlM_enter_eq_error (h : qs.foldlM enter r = .error name) :
    ∃ before path p after, qs = before ++ (path, p) :: after ∧ p.name = some name ∧
      name ∈ (before.foldl give r).namesAt path := by
  induction qs generalizing r with
  | nil => cases h
  | cons q qs ih =>
    rw [List.foldlM_cons] at h
    cases hq : r.enter q with
    | error n =>
      rw [hq] at h
      cases h
      obtain ⟨hown, htaken⟩ := enter_eq_error.mp hq
      exact ⟨[], q.1, q.2, qs, rfl, hown, htaken⟩
    | ok r₁ =>
      rw [hq] at h
      obtain ⟨before, path, p, after, rfl, hown, htaken⟩ := ih h
      rw [enter_eq_ok hq] at htaken
      exact ⟨q :: before, path, p, after, rfl, hown, htaken⟩

/-- A plan that has for its own a name that an earlier one got is refused, unless an earlier one
is. -/
theorem foldlM_enter_ne_ok {before after : List (List String × TransitionPlan κ)}
    {path : List String} {p : TransitionPlan κ} (hown : p.name = some name)
    (htaken : name ∈ (before.foldl give r).namesAt path) :
    (before ++ (path, p) :: after).foldlM enter r ≠ .ok r' := by
  intro h
  rw [List.foldlM_append] at h
  cases hbefore : before.foldlM enter r with
  | error n =>
    rw [hbefore] at h
    cases h
  | ok r₁ =>
    have hrefused : r₁.enter (path, p) = .error name := by
      rw [enter_eq_error, foldlM_enter_eq_ok hbefore]
      exact ⟨hown, htaken⟩
    rw [hbefore] at h
    change ((path, p) :: after).foldlM enter r₁ = .ok r' at h
    rw [List.foldlM_cons, hrefused] at h
    cases h

end NameTable

/-! ## Graphs with the names of a table -/

namespace Graph

variable {g g' : Graph κ} {d : DefinitionId} {r : NameTable} {S T N : DefinitionId → Prop}

/-- The transitions of the graph have the names of the table, and all have live owners. -/
structure HasNames (g : Graph κ) (r : NameTable) : Prop where
  owner : ∀ {t tr}, g.transition? t = some tr → (g.definition? tr.owner).isSome
  entry : ∀ {path name}, (path, name) ∈ r ↔
    ∃ t tr, g.transition? t = some tr ∧ g.namesAround tr.owner = path ∧ tr.name = name

theorem hasNames_new (name : String) : (Graph.new name : Graph κ).HasNames [] where
  owner h := by cases h
  entry := by
    intro path name
    refine ⟨nofun, ?_⟩
    rintro ⟨t, tr, htr, -⟩
    cases htr

namespace HasNames

theorem isSome_transitionNamed (h : g.HasNames r) (hg : g.Tied) (hd : (g.definition? d).isSome)
    (name : String) : (g.transitionNamed d name).isSome ↔ name ∈ r.namesAt (g.namesAround d) := by
  rw [NameTable.mem_namesAt, h.entry, Option.isSome_iff_exists]
  constructor
  · rintro ⟨t, ht⟩
    obtain ⟨tr, htr, rfl, hname, -⟩ := (transitionNamed_eq_some hg).mp ht
    exact ⟨t, tr, htr, rfl, hname⟩
  · rintro ⟨t, tr, htr, haround, hname⟩
    exact ⟨t, (transitionNamed_eq_some hg).mpr ⟨tr, htr,
      hg.namesAround_inj (h.owner htr) hd haround, hname, hd⟩⟩

/-- The name that a plan gets is the one that the table tells. -/
theorem planName_eq (h : g.HasNames r) (hg : g.Tied) (hd : (g.definition? d).isSome)
    (p : TransitionPlan κ) : g.planName d p = p.nameAmong (r.namesAt (g.namesAround d)) := by
  cases hown : p.name with
  | some n => rw [planName, TransitionPlan.nameAmong, hown, Option.getD_some, Option.getD_some]
  | none =>
    rw [planName, hown, Option.getD_none]
    refine ((uniqueName_firstFree g d _).congr fun n => ?_).unique
      (TransitionPlan.nameAmong_firstFree hown _)
    exact h.isSome_transitionNamed hg hd n

/-- A graph that widens without new transitions keeps its names. -/
theorem widens (h : g.HasNames r) (hw : Widens S T N g g') (hg : g.Tied) (hg' : g'.Tied)
    (ht : g'.transitions = g.transitions) : g'.HasNames r := by
  have hsame (t : TransitionId) : g'.transition? t =
    g.transition? t := by rw [transition?, ht, transition?]
  refine ⟨fun {t tr} htr => hw.isSome_definition? (h.owner ((hsame t).symm.trans htr)),
    fun {path name} => ?_⟩
  rw [h.entry]
  refine exists_congr fun t => exists_congr fun tr => ?_
  rw [hsame]
  refine and_congr_right fun htr => ?_
  rw [hw.namesAround hg hg' (h.owner htr)]

theorem insertTransition (h : g.HasNames r) (hg : g.Tied) (hd : (g.definition? d).isSome)
    {spec : TransitionSpec κ} (hg' : (g.insertTransition d spec).Tied) :
    (g.insertTransition d spec).HasNames (r ++ [(g.namesAround d, spec.name)]) := by
  have hw : Widens (fun _ => True) (fun _ => True) (fun _ => True) g (g.insertTransition d spec) :=
    widens_insertTransition trivial spec
  have hnew : (g.insertTransition d spec).transition? g.nextTransition =
      some { toTransitionSpec := spec, owner := d } := by
    rw [transition?_insertTransition, if_pos rfl]
  have hcases {t : TransitionId} {tr : Transition κ}
      (htr : (g.insertTransition d spec).transition? t = some tr) :
      g.transition? t = some tr ∨ tr = { toTransitionSpec := spec, owner := d } := by
    rw [transition?_insertTransition] at htr
    split at htr
    · exact .inr (Option.some.inj htr).symm
    · exact .inl htr
  have haround {e : DefinitionId} (he : (g.definition? e).isSome) := hw.namesAround hg hg' he
  refine ⟨fun {t tr} htr => ?_, fun {path name} => ⟨fun hmem => ?_, ?_⟩⟩
  · rcases hcases htr with htr | rfl
    · exact hw.isSome_definition? (h.owner htr)
    · exact hw.isSome_definition? hd
  · rcases List.mem_append.mp hmem with hmem | hmem
    · obtain ⟨t, tr, htr, hpath, hname⟩ := h.entry.mp hmem
      exact ⟨t, tr, hw.transition htr, (haround (h.owner htr)).trans hpath, hname⟩
    · cases List.mem_singleton.mp hmem
      exact ⟨_, _, hnew, haround hd, rfl⟩
  · rintro ⟨t, tr, htr, rfl, rfl⟩
    rcases hcases htr with htr | rfl
    · rw [haround (h.owner htr)]
      exact List.mem_append_left _ (h.entry.mpr ⟨t, tr, htr, rfl, rfl⟩)
    · rw [haround hd]
      exact List.mem_append_right _ (List.mem_singleton.mpr rfl)

end HasNames

end Graph

/-! ## Installing -/

/-- Only this definition and those after it have widened. -/
abbrev Graph.WidensFrom (d : DefinitionId) (g g' : Graph κ) : Prop :=
  Widens (d.index ≤ ·.index) (d.index ≤ ·.index) (d.index ≤ ·.index) g g'

theorem Graph.Widens.widensFrom {S T N : DefinitionId → Prop} {g g' : Graph κ} {d : DefinitionId}
    (h : Widens S T N g g') (hg : g.Placed) (hS : ∀ e, S e → d.index ≤ e.index)
    (hT : ∀ e, T e → d.index ≤ e.index) (hN : ∀ e, N e → d.index ≤ e.index) : WidensFrom d g g' :=
  h.mono (fun e _ => hS e) (fun e _ => hT e) (fun e _ => hN e) hg

theorem Graph.Furnishes.widensFrom {g g' : Graph κ} {d : DefinitionId} {names : List String}
    (h : g.Furnishes d names g') (hg : g.Placed) : WidensFrom d g g' :=
  h.widens.widensFrom hg (fun _ he => he ▸ Nat.le_refl _) nofun nofun

namespace Editor

variable {g g' : Graph κ} {d : DefinitionId} {r : NameTable} {x : Editor κ Unit}
  {path : List String}

/-- The edit does as entering does: it ends in a graph with the names of the table where only this
definition and those after it have widened, or it refuses the name. -/
def Accords (d : DefinitionId) (x : Editor κ Unit) (g : Graph κ) : Except String NameTable → Prop
  | .ok r => ∃ g', x g = .ok () g' ∧ g'.Tied ∧ g'.HasNames r ∧
      Graph.WidensFrom d g g'
  | .error name => ∃ label g', x g = .error (.duplicateName .transition name label) g'

theorem Accords.bind {o : Except String NameTable} {f : NameTable → Except String NameTable}
    {y : Editor κ Unit} (h : Accords d x g o)
    (hy : ∀ {r : NameTable} {g' : Graph κ}, g'.Tied → g'.HasNames r →
      Graph.WidensFrom d g g' → Accords d y g' (f r)) :
    Accords d (x >>= fun _ => y) g (o >>= f) := by
  cases o with
  | error n =>
    obtain ⟨label, g', hx⟩ := h
    exact ⟨label, g', bind_of_error hx⟩
  | ok r =>
    obtain ⟨g₁, hx, hg₁, hr, hw⟩ := h
    have hrest := hy hg₁ hr hw
    show Accords d (x >>= fun _ => y) g (f r)
    cases hf : f r with
    | error n =>
      rw [hf] at hrest
      obtain ⟨label, g', hx'⟩ := hrest
      exact ⟨label, g', (bind_of_ok hx).trans hx'⟩
    | ok r' =>
      rw [hf] at hrest
      obtain ⟨g', hx', hg', hr', hw'⟩ := hrest
      exact ⟨g', (bind_of_ok hx).trans hx', hg', hr', hw.trans hw'⟩

/-- A first part that only widens the graph changes nothing about this. -/
theorem Accords.after {α : Type} {x : Editor κ α} {f : α → Editor κ Unit} {a : α}
    {o : Except String NameTable} (hx : x g = .ok a g') (hw : Graph.WidensFrom d g g')
    (h : Accords d (f a) g' o) : Accords d (x >>= f) g o := by
  cases o with
  | error n =>
    obtain ⟨label, g'', hf⟩ := h
    exact ⟨label, g'', (bind_of_ok hx).trans hf⟩
  | ok r =>
    obtain ⟨g'', hf, hg'', hr, hw'⟩ := h
    exact ⟨g'', (bind_of_ok hx).trans hf, hg'', hr, hw.trans hw'⟩

theorem Accords.deeper {e : DefinitionId} {o : Except String NameTable} (hg : g.Tied)
    (hle : d.index ≤ e.index) (h : Accords e x g o) : Accords d x g o := by
  cases o with
  | error n => exact h
  | ok r =>
    obtain ⟨g', hx, hg', hr, hw⟩ := h
    exact ⟨g', hx, hg', hr, hw.widensFrom hg.placed (fun _ => hle.trans) (fun _ => hle.trans)
      fun _ => hle.trans⟩

/-- A transition whose ends stand for states gets its name, or is refused because of it. -/
theorem installTransition_accords (hg : g.Tied) (hr : g.HasNames r) (hpath : g.namesAround d = path)
    {p : TransitionPlan κ} (hends : g.Bound d p) :
    Accords d (installTransition d p) g (r.enter (path, p)) := by
  obtain ⟨s, s', hs, hs'⟩ := hends.ends
  have hlive := hs.live
  have hinstall := installTransition_eq hg hs hs'
  have htaken := hr.isSome_transitionNamed hg hlive (g.planName d p)
  rw [hpath] at htaken
  have hname : p.nameAmong (r.namesAt path) =
    g.planName d p := by rw [hr.planName_eq hg hlive, hpath]
  rw [NameTable.enter, NameTable.give]
  dsimp only
  rw [hname]
  by_cases hmem : g.planName d p ∈ r.namesAt path
  · rw [if_pos (htaken.mpr hmem)] at hinstall
    rw [if_pos hmem]
    exact ⟨_, _, hinstall⟩
  · rw [if_neg (mt htaken.mp hmem)] at hinstall
    rw [if_neg hmem, ← hpath]
    have hfree : g.transitionNamed d (g.planName d p) = none := by
      rw [← Option.not_isSome_iff_eq_none]
      exact mt htaken.mp hmem
    have hg' := tied_insertTransition_between hg hs hs' hfree
    exact ⟨_, hinstall, hg', hr.insertTransition hg hlive hg',
      Graph.widens_insertTransition (Nat.le_refl _) _⟩

theorem installTransitions_accords (hg : g.Tied) (hr : g.HasNames r) (hd : (g.definition? d).isSome)
    (hpath : g.namesAround d = path) {ps : List (TransitionPlan κ)}
    (hends : ∀ p ∈ ps, g.Bound d p) :
    Accords d (ps.forM (installTransition d)) g
      ((ps.map fun p => (path, p)).foldlM NameTable.enter r) := by
  induction ps generalizing g r with
  | nil => exact ⟨g, rfl, hg, hr, .refl g⟩
  | cons p ps ih =>
    refine (installTransition_accords hg hr hpath (hends p (List.mem_cons_self ..))).bind
      fun hg' hr' hw => ?_
    refine ih hg' hr' (hw.isSome_definition? hd) ((hw.namesAround hg hg' hd).trans hpath)
      fun q hq => ?_
    exact (hends q (List.mem_cons_of_mem _ hq)).widens hw hg hg'

mutual

theorem install_accords (d : DefinitionId) :
    (b : Blueprint κ) → ∀ {g : Graph κ} {r : NameTable} {path : List String},
    g.Tied → g.HasNames r → (g.definition? d).isSome → g.namesAround d = path →
      Accords d (install d b) g ((b.plans path).foldlM NameTable.enter r)
  | ⟨label, initial, final, states, composites, transitions, fallbacks⟩ => by
    intro hg hr hd hpath
    obtain ⟨g₁, hfurnish, h₁, -, hends⟩ :=
      furnish_ok hg hd ⟨label, initial, final, states, composites, transitions, fallbacks⟩
    have hw := h₁.widensFrom hg.placed
    have hpath₁ := (hw.namesAround hg h₁.tied hd).trans hpath
    rw [install_eq, Blueprint.plans, List.foldlM_append]
    refine .after hfurnish hw ?_
    have hr₁ := hr.widens hw hg h₁.tied h₁.transitions
    -- What is nested may be added to a definition that is there, so the ends stay bound, but
    -- perhaps to other states.
    refine (installNested_accords d composites h₁.tied hr₁ (h₁.live hd) hpath₁).bind ?_
    intro r' g' hg' hr' hw'
    refine installTransitions_accords hg' hr' (hw'.isSome_definition? (h₁.live hd))
      ((hw'.namesAround h₁.tied hg' (h₁.live hd)).trans hpath₁) fun p hp => ?_
    exact (hends p hp).widens hw' h₁.tied hg'

theorem installNested_accords (d : DefinitionId) :
    (bs : List (String × Blueprint κ)) →
    ∀ {g : Graph κ} {r : NameTable} {path : List String}, g.Tied → g.HasNames r →
    (g.definition? d).isSome →
      g.namesAround d = path →
        Accords d (installNested d bs) g ((Blueprint.nestedPlans path bs).foldlM NameTable.enter r)
  | [] => by
    intro hg hr _ _
    rw [installNested, Blueprint.nestedPlans]
    exact ⟨_, rfl, hg, hr, .refl _⟩
  | (state, inner) :: rest => by
    intro hg hr hd hpath
    obtain ⟨s, g₁, hlocal, h₁, hnamed⟩ := localState_ok hg hd state
    obtain ⟨e, g₂, hattach, hg₂, htransitions, hnested, hw₂⟩ :=
      attachSubmachine_ok h₁.tied hnamed inner.name
    have hw₁ := h₁.widensFrom hg.placed
    have hw₂' : Graph.WidensFrom d g₁ g₂ := hw₂.widensFrom h₁.tied.placed nofun nofun fun _ he =>
      he ▸ Nat.le_refl _
    have hw := hw₁.trans hw₂'
    have hr₂ := (hr.widens hw₁ hg h₁.tied h₁.transitions).widens hw₂ h₁.tied hg₂ htransitions
    obtain ⟨he, hlt, haround, -⟩ :=
      nested_in_named hg₂ (hw₂.stateNamed_of h₁.tied hg₂ hnamed) hnested
    have hpath₂ := (hw.namesAround hg hg₂ hd).trans hpath
    rw [hpath₂] at haround
    rw [installNested, Blueprint.nestedPlans, List.foldlM_append]
    refine .after hlocal hw₁ (.after hattach hw₂' ?_)
    refine ((install_accords e inner hg₂ hr₂ he haround).deeper hg₂ (Nat.le_of_lt hlt)).bind ?_
    intro r' g' hg' hr' hw'
    have hd₂ := hw.isSome_definition? hd
    exact installNested_accords d rest hg' hr' (hw'.isSome_definition? hd₂)
      ((hw'.namesAround hg₂ hg' hd₂).trans hpath₂)

end

end Editor

/-- A blueprint gives a graph with the names that follow from the blueprint, or it is refused
because a plan has for its own a name that an earlier one got in the same definition. Nothing else
is wrong with any. -/
theorem Blueprint.build_fails_iff (b : Blueprint κ) :
    (∀ g, b.build = .ok g → g.HasNames ((b.plans []).foldl NameTable.give [])) ∧
    (∀ e, b.build = .error e → ∃ name label,
      b.Clashes name ∧ e = .graph (.duplicateName .transition name label)) ∧
    ((∃ e, b.build = .error e) ↔ ∃ name, b.Clashes name) := by
  have hg : (Graph.new b.name : Graph κ).Tied := Graph.tied_new b.name
  have haccords := Editor.install_accords ⟨0⟩ b hg (Graph.hasNames_new b.name) rfl
    (Graph.namesAround_root hg.nested)
  cases hentered : (b.plans []).foldlM NameTable.enter [] with
  | ok r =>
    rw [hentered] at haccords
    obtain ⟨g, hinstall, -, hr, -⟩ := haccords
    rw [build_of_ok hinstall, ← NameTable.foldlM_enter_eq_ok hentered]
    refine ⟨fun g' h => Except.ok.inj h ▸ hr, ?_, ?_, ?_⟩
    · rintro e ⟨⟩
    · rintro ⟨e, ⟨⟩⟩
    · rintro ⟨name, before, path, p, after, hplans, hown, htaken⟩
      rw [hplans] at hentered
      exact absurd hentered (NameTable.foldlM_enter_ne_ok hown htaken)
  | error name =>
    rw [hentered] at haccords
    obtain ⟨label, g, hinstall⟩ := haccords
    have hclash : b.Clashes name := NameTable.exists_of_foldlM_enter_eq_error hentered
    rw [build_of_error hinstall]
    refine ⟨?_, fun e he => ⟨name, label, hclash, (Except.error.inj he).symm⟩,
      fun _ => ⟨name, hclash⟩, fun _ => ⟨_, rfl⟩⟩
    rintro g ⟨⟩

/-- What the second plan gets with its number the third has for its own. -/
example :
    ({ name := "g", transitions := [.plain "a" "b" none, .plain "a" "b" none,
      .plain "b" "a" (some "a->b-2")] } :
    Blueprint Unit).Clashes "a->b-2" :=
  ⟨[([], .plain "a" "b" none), ([], .plain "a" "b" none)], [],
    .plain "b" "a" (some "a->b-2"), [], rfl, rfl, by decide +kernel⟩

end Statechart
