import Statechart.Proofs.Builder.Housing
import Statechart.Proofs.Builder.Linking

/-!
# Lexical scope

A blueprint that gives no state more than one blueprint nests in the graph as it nests by itself:
each level of it has a definition of its own. The transitions there are those of the level, and a
name at one of their ends stands for the state of the innermost definition around that has one of
the name. While the graph is built, states are added only to the definition that comes last, so that
a name that is looked up keeps its meaning.
-/

namespace Statechart

variable {κ : Type}

namespace Editor

open Blueprint

variable {g g' : Graph κ} {d : DefinitionId} {around : List (Blueprint κ)} {path : List String}

/-! ## Linking -/

/-- The transitions of the plans join the definition in the order of the plans. -/
theorem installTransitions_links {ps : List (TransitionPlan κ)} {x : Definition κ} (hg : g.Tied)
    (hx : g.definition? d = some x) (hends : ∀ p ∈ ps, g.Bound d p)
    (h : ps.forM (installTransition d) g = .ok () g') :
    g'.Tied ∧ g'.definitions.size = g.definitions.size ∧
      Graph.Widens (fun _ => False) (· = d) (fun _ => False) g g' ∧
      ∃ x' ts, g'.definition? d = some x' ∧ x'.transitions = x.transitions ++ ts ∧ List.Forall₂
        (fun p t => ∃ tr, g'.transition? t = some tr ∧ tr.owner = d ∧ g'.Follows p tr) ps ts := by
  induction ps generalizing g x with
  | nil =>
    cases h
    exact ⟨hg, rfl, .refl _, x, [], hx, (List.append_nil _).symm, .nil⟩
  | cons p ps ih =>
    obtain ⟨s, s', hs, hs'⟩ := (hends p (List.mem_cons_self ..)).ends
    have hinstall := installTransition_eq hg hs hs'
    by_cases htaken : (g.transitionNamed d (g.planName d p)).isSome = true
    · rw [if_pos htaken] at hinstall
      cases (bind_of_error hinstall).symm.trans h
    rw [if_neg htaken] at hinstall
    rw [forM_cons_of_ok hinstall] at h
    have hg₁ := tied_insertTransition_between hg hs hs' (Option.not_isSome_iff_eq_none.mp htaken)
    let spec := p.between (g.planName d p) s s'
    have hw : Graph.Widens (fun _ => False) (· = d) (fun _ => False) g
        (g.insertTransition d spec) :=
      Graph.widens_insertTransition (T := (· = d)) rfl spec
    have hx₁ := Graph.definition?_insertTransition (g := g) (d := d) (e := d) spec
    rw [hx, Option.map_some, if_pos rfl] at hx₁
    obtain ⟨hg', hsize, hw', x', ts, hx', hlisted, hlinks⟩ :=
      ih hg₁ hx₁ (fun q hq => (hends q (List.mem_cons_of_mem _ hq)).widens hw hg hg₁) h
    have hnew : (g.insertTransition d spec).transition? g.nextTransition =
        some { toTransitionSpec := spec, owner := d } := by
      rw [Graph.transition?_insertTransition, if_pos rfl]
    have hfollows : g.Follows p { toTransitionSpec := spec, owner := d } :=
      ⟨rfl, rfl, rfl, rfl, rfl, hs, hs'⟩
    refine ⟨hg', hsize.trans (Arena.size_modify ..), hw.trans hw', x', g.nextTransition :: ts, hx',
      ?_, .cons ?_ hlinks⟩
    · rw [hlisted, List.append_assoc]
      rfl
    · -- Linking adds no states, so the names stand for the states that they stand for here.
      refine ⟨_, hw'.transition hnew, rfl, ?_⟩
      exact (hfollows.widens hg hg₁ hw fun _ _ => id).widens hg₁ hg' hw' fun _ _ => id

/-! ## Installing -/

/-- Once what is nested is there, the transitions of a level make its definition complete. -/
theorem installTransitions_houses {b : Blueprint κ} {g₁ g₂ : Graph κ} {ls : List (Level κ)}
    (h : g.Awaits around path d) (hf : g.Furnishes d b.declared g₁)
    (hends : ∀ p ∈ b.transitions, g₁.Bound d p) (hg₂ : g₂.Tied)
    (hw₂ : Graph.Widens (fun _ => False) (fun _ => False) (· = d) g₁ g₂)
    (hnested : g₂.HousesFrom g₁.definitions.size ls)
    (hlink : b.transitions.forM (installTransition d) g₂ = .ok () g') :
    g'.Tied ∧ Graph.Widens (· = d) (· = d) (· = d) g g' ∧
      g'.HousesFrom d.index (⟨around, path, b⟩ :: ls) := by
  have hsize₁ : g₁.definitions.size = d.index + 1 := hf.size.trans h.last
  have hg₁ := hf.tied
  obtain ⟨x, hx, -, htransitions⟩ := h.blank
  obtain ⟨x₁, hx₁, -, -, htransitions₁⟩ := hf.widens.definition hx
  obtain ⟨x₂, hx₂, -, -, htransitions₂⟩ := hw₂.definition hx₁
  have hempty : x₂.transitions = [] :=
    (htransitions₂.resolve_left id).trans ((htransitions₁.resolve_left id).trans htransitions)
  obtain ⟨hg', hsize', hw', x', ts, hx', hlisted, hlinks⟩ := installTransitions_links hg₂ hx₂
    (fun p hp => (hends p hp).widens hw₂ hg₁ hg₂) hlink
  have hwidens : Graph.Widens (· = d) (· = d) (· = d) g g' := by
    refine (hf.widens.mono (fun _ _ => id) (fun _ _ => False.elim) (fun _ _ => False.elim)
      h.tied.placed).trans ?_
    exact (hw₂.mono (fun _ _ => False.elim) (fun _ _ => False.elim)
      (fun _ _ => id) hg₁.placed).trans
      (hw'.mono (fun _ _ => False.elim) (fun _ _ => id) (fun _ _ => False.elim) hg₂.placed)
  have hown : g'.Houses ⟨around, path, b⟩ d := by
    refine ⟨?_, ⟨x', hx', hg'.listed.nodup_transitions hx', ?_⟩, fun p hp name hname hforeign => ?_⟩
    · rw [← h.path, ← hwidens.namesAround h.tied hg' h.live]
      exact Graph.descend_namesAround hg' hx'
    · rw [hlisted, hempty, List.nil_append]
      exact hlinks
    · obtain ⟨s₁, hbinds⟩ := hends p hp name hname
      obtain ⟨s, hs⟩ := Option.isSome_iff_exists.mp (h.own_furnished hf hbinds hforeign)
      rw [Graph.existsUnique_named hg', hw'.stateNamed_of hg₂ hg' (hw₂.stateNamed_of hg₁ hg₂ hs)]
      rfl
  have hrest := hnested.widens hg₂ hg' hw' (fun _ _ => id) hsize' fun i hi => by
    have hindex := congrArg DefinitionId.index hi
    dsimp only at hindex
    omega
  refine ⟨hg', hwidens, ?_, fun {i l} hget => ?_⟩
  · rw [hrest.size, hsize₁, List.length_cons]
    omega
  · cases i with
    | zero =>
      cases hget
      exact hown
    | succ i =>
      have hhoused := hrest.houses hget
      rwa [hsize₁, Nat.add_assoc, Nat.add_comm 1 i] at hhoused

theorem localState_of_named {s : StateId} {name : String} (hs : g.stateNamed d name = some s) :
    localState d name g = .ok s g := by
  rw [localState, get_bind, hs]
  rfl

/-- A state that is made composite gets a last definition without elements, and no other state gets
one. -/
theorem attachSubmachine_awaits {s : StateId} {name : String} (hg : g.Tied)
    (hd : (g.definition? d).isSome) (hpath : g.namesAround d = path) (hknown : g.Known around d)
    (hs : g.stateNamed d name = some s) (hnone : g.nestedIn s = none) (label : String) :
    (g.insertSubmachine s label).Tied ∧
      Graph.Widens (fun _ => False) (fun _ => False) (· = d) g (g.insertSubmachine s label) ∧
      (g.insertSubmachine s label).Awaits around (path ++ [name]) g.nextDefinition ∧
      attachSubmachine s label g = .ok g.nextDefinition (g.insertSubmachine s label) ∧
      ∀ s', s' ≠ s → (g.insertSubmachine s label).nestedIn s' = g.nestedIn s' := by
  obtain ⟨st, hst, howner, -⟩ := (Graph.stateNamed_eq_some hg).mp hs
  have hsub : st.submachine = none := by
    rwa [Graph.nestedIn, hst, Option.bind_some] at hnone
  have hattach := attachSubmachine_eq hst label
  rw [hsub] at hattach
  have hg' : (g.insertSubmachine s label).Tied := hg.insertSubmachine hst hsub
  have hw : Graph.Widens (fun _ => False) (fun _ => False) (· = d) g (g.insertSubmachine s label) :=
    Graph.widens_insertSubmachine (N := (· = d)) hst hsub howner label
  obtain ⟨st', hst', -, -, -, hsub'⟩ := Graph.state?_insertSubmachine_of s label hst
  have hnested : (g.insertSubmachine s label).nestedIn s = some g.nextDefinition :=
    Graph.nestedIn_eq_some.mpr ⟨st', hst', hsub'.trans (if_pos rfl)⟩
  obtain ⟨-, -, haround, houter⟩ := nested_in_named hg' (hw.stateNamed_of hg hg' hs) hnested
  refine ⟨hg', hw, ⟨hg', Arena.size_push .., ⟨.blank label (some s), ?_, rfl, rfl⟩, ?_, ?_⟩,
    hattach, fun s' hne => ?_⟩
  · rw [Graph.definition?_insertSubmachine, if_pos rfl]
  · rw [haround, hw.namesAround hg hg' hd, hpath]
  · intro e he
    cases houter.symm.trans he
    exact hknown.widens hg hg' hw hd fun _ _ => id
  · rw [Graph.nestedIn, Graph.state?_insertSubmachine]
    cases hs' : g.state? s' with
    | none => rw [Graph.nestedIn, hs']; rfl
    | some st => rw [Option.map_some, if_neg hne, Graph.nestedIn, hs']

mutual

/-- What a blueprint adds to a last definition without elements are the definitions of its
levels. -/
theorem install_houses (d : DefinitionId) :
    (b : Blueprint κ) → ∀ {g g' : Graph κ} {around : List (Blueprint κ)}
    {path : List String}, g.Awaits around path d →
      (∀ l ∈ b.levelsWithin around path, (l.inner.composites.map (·.1)).Nodup) →
      install d b g = .ok () g' →
      g'.Tied ∧ Graph.Widens (· = d) (· = d) (· = d) g g' ∧
      g'.HousesFrom d.index (b.levelsWithin around path)
  | ⟨label, initial, final, states, composites, transitions, fallbacks⟩ => by
    intro h hsingle hinstall
    obtain ⟨g₁, hfurnish, hf, hcomposites, hends⟩ :=
      furnish_ok h.tied h.live ⟨label, initial, final, states, composites, transitions, fallbacks⟩
    rw [levelsWithin_eq] at hsingle ⊢
    rw [install_eq, bind_of_ok hfurnish] at hinstall
    -- What is nested finds all states of this definition there: from now on none is added.
    have hpath := (hf.widens.namesAround h.tied hf.tied h.live).trans h.path
    have hknown : g₁.Known _ d :=
      .of_outer (fun name hs => ⟨_, List.mem_cons_self .., h.declared_furnished hf hs⟩)
      (fun e he => (h.known_furnished hf he).mono (List.subset_cons_self _ _))
    have hfree (name : String) (hname : name ∈ composites.map (·.1)) :
        ∃ s, g₁.stateNamed d name = some s ∧ g₁.nestedIn s = none := by
      obtain ⟨s, hs⟩ := Option.isSome_iff_exists.mp (hcomposites name hname)
      exact ⟨s, hs, h.nestedIn_furnished hf hs⟩
    obtain ⟨u, g₂, hnest, hlink⟩ := exists_of_bind_ok hinstall
    obtain ⟨hg₂, hw₂, hhoused⟩ :=
      installNested_houses d composites hf.tied (hf.live h.live) hpath hknown
      (hsingle _ (List.mem_cons_self ..)) hfree
        (fun l hl => hsingle l (List.mem_cons_of_mem _ hl)) hnest
    exact installTransitions_houses h hf hends hg₂ hw₂ hhoused hlink

theorem installNested_houses (d : DefinitionId) :
    (bs : List (String × Blueprint κ)) → ∀ {g g' : Graph κ}
    {around : List (Blueprint κ)} {path : List String}, g.Tied → (g.definition? d).isSome →
    g.namesAround d = path →
      g.Known around d → (bs.map (·.1)).Nodup →
      (∀ name ∈ bs.map (·.1), ∃ s, g.stateNamed d name = some s ∧
        g.nestedIn s = none) →
        (∀ l ∈ nestedLevels around path bs, (l.inner.composites.map (·.1)).Nodup) →
      installNested d bs g = .ok () g' →
      g'.Tied ∧ Graph.Widens (fun _ => False) (fun _ => False) (· = d) g g' ∧
        g'.HousesFrom g.definitions.size (nestedLevels around path bs)
  | [] => by
    intro hg _ _ _ _ _ _ hinstall
    rw [installNested] at hinstall
    cases hinstall
    exact ⟨hg, .refl _, rfl, nofun⟩
  | (state, inner) :: rest => by
    intro hg hd hpath hknown hnodup hfree hsingle hinstall
    obtain ⟨s, hs, hnone⟩ := hfree state (List.mem_cons_self ..)
    rw [installNested, bind_of_ok (localState_of_named hs)] at hinstall
    obtain ⟨hg₁, hw₁, hawaits, hattach, hothers⟩ :=
      attachSubmachine_awaits hg hd hpath hknown hs hnone inner.name
    rw [bind_of_ok hattach] at hinstall
    obtain ⟨u, g₂, hinner, hrest⟩ := exists_of_bind_ok hinstall
    rw [nestedLevels] at hsingle ⊢
    obtain ⟨hg₂, hw₂, hhoused⟩ := install_houses _ inner hawaits
      (fun l hl => hsingle l (List.mem_append_left _ hl)) hinner
    -- All that has happened so far in definitions that were there is that one state of this has
    -- become composite.
    have hw := hw₁.comp_new hw₂ hg.placed Graph.definition?_nextDefinition
    obtain ⟨x, hx⟩ := Option.isSome_iff_exists.mp hd
    have hne := Graph.ne_nextDefinition hx
    have hfree₂ (name : String) (hname : name ∈ rest.map (·.1)) :
        ∃ s, g₂.stateNamed d name = some s ∧ g₂.nestedIn s = none := by
      obtain ⟨s', hs', hnone'⟩ := hfree name (List.mem_cons_of_mem _ hname)
      have hother : s' ≠ s := by
        rintro rfl
        rw [← hg.name_unique hs hs'] at hname
        exact (List.nodup_cons.mp hnodup).1 hname
      obtain ⟨st, hst, howner, -⟩ :=
        (Graph.stateNamed_eq_some hg₁).mp (hw₁.stateNamed_of hg hg₁ hs')
      refine ⟨s', hw.stateNamed_of hg hg₂ hs', hw₂.nestedIn_eq_none hst (howner ▸ hne) ?_⟩
      rw [hothers s' hother, hnone']
    obtain ⟨hg₃, hw₃, hhoused₃⟩ := installNested_houses d rest hg₂ (hw.isSome_definition? hd)
      ((hw.namesAround hg hg₂ hd).trans hpath) (hknown.widens hg hg₂ hw hd fun _ _ => id)
        (List.nodup_cons.mp hnodup).2
      hfree₂ (fun l hl => hsingle l (List.mem_append_right _ hl)) hrest
    exact ⟨hg₃, hw.trans hw₃, hhoused.append hg₂ hg₃ hw₃ (fun _ _ => id) (fun _ _ => id) hhoused₃⟩

end

end Editor

namespace Blueprint

/-- The definitions of the graph are those of the levels, in order, each with the transitions of its
level. -/
theorem build_houses {b : Blueprint κ} {g : Graph κ} (hsingle : b.Single)
    (hbuild : b.build = .ok g) :
    (∀ d, (g.definition? d).isSome → ∃ l, b.levels[d.index]? = some l) ∧
      ∀ d l, b.levels[d.index]? = some l → g.Houses l d := by
  have hhoused : g.HousesFrom 0 b.levels := by
    cases hinstall : Editor.install ⟨0⟩ b (Graph.new b.name) with
    | error e g' => cases (build_of_error hinstall).symm.trans hbuild
    | ok u g' =>
      cases (build_of_ok hinstall).symm.trans hbuild
      exact (Editor.install_houses ⟨0⟩ b (Graph.awaits_new b.name) hsingle hinstall).2.2
  constructor
  · intro d hd
    obtain ⟨x, hx⟩ := Option.isSome_iff_exists.mp hd
    have hlt := Graph.definition?_lt hx
    rw [hhoused.size, Nat.zero_add] at hlt
    exact ⟨_, List.getElem?_eq_getElem hlt⟩
  · intro d l hl
    have h := hhoused.houses hl
    rwa [Nat.zero_add] at h

def steps : Blueprint Unit where
  name := "steps"
  initial := some "fetch"
  transitions := [.plain "fetch" "build" none, .plain "build" "done" none]

/-- The steps are nested in the state working. They end in a state that is around them. -/
def job : Blueprint Unit where
  name := "job"
  initial := some "queued"
  final := some "done"
  composites := [("working", steps)]
  transitions := [.plain "queued" "working" none]

theorem build_houses_job : job.Single ∧ ∃ g, job.build = .ok g ∧
    (∀ d, (g.definition? d).isSome → ∃ l, job.levels[d.index]? = some l) ∧
      ∀ d l, job.levels[d.index]? = some l → g.Houses l d := by
  have hsingle : job.Single := by
    unfold Single
    decide +kernel
  have hok : job.build.isOk = true := by decide +kernel
  refine ⟨hsingle, ?_⟩
  cases hbuild : job.build with
  | ok g => exact ⟨g, rfl, build_houses hsingle hbuild⟩
  | error e =>
    rw [hbuild] at hok
    cases hok

end Blueprint

end Statechart
