import Statechart.Proofs.Graph.Transport

/-!
# What paths identify

A path is split into names, and these are followed from the root. So a state is found at its path if
and only if its names come back from it, and a transition if moreover its owner is live. The owner
of a transition that an edit has orphaned is not, and such a transition has its name for a path, as
one of the root has.
-/

namespace Statechart.Graph

variable {κ : Type} {g : Graph κ} {d : DefinitionId} {s : StateId} {t : TransitionId} {st : State κ}
  {tr : Transition κ} {path : String} {names : List String}

/-! ## What names lead to -/

theorem stateNamed_eq_some (hg : g.Tied) {name : String} :
    g.stateNamed d name = some s ↔ ∃ st, g.state? s = some st ∧ st.owner = d ∧ st.name = name := by
  constructor
  · intro h
    obtain ⟨x, hx, hfind⟩ := Option.bind_eq_some_iff.mp h
    obtain ⟨st, hst, howner⟩ := hg.listed.state_live hx (List.mem_of_find?_eq_some hfind)
    have hname := List.find?_some hfind
    rw [hst, Option.any_some, beq_iff_eq] at hname
    exact ⟨st, hst, howner, hname⟩
  · rintro ⟨st, hst, rfl, rfl⟩
    exact stateNamed_name hg hst

theorem transitionNamed_eq_some (hg : g.Tied) {name : String} :
    g.transitionNamed d name = some t ↔
      ∃ tr, g.transition? t = some tr ∧ tr.owner = d ∧ tr.name = name ∧
      (g.definition? d).isSome := by
  constructor
  · intro h
    obtain ⟨x, hx, hfind⟩ := Option.bind_eq_some_iff.mp h
    obtain ⟨tr, htr, howner⟩ := hg.listed.transition_live hx (List.mem_of_find?_eq_some hfind)
    have hname := List.find?_some hfind
    rw [htr, Option.any_some, beq_iff_eq] at hname
    exact ⟨tr, htr, howner, hname, by rw [hx]; rfl⟩
  · rintro ⟨tr, htr, rfl, rfl, hlive⟩
    obtain ⟨x, hx⟩ := Option.isSome_iff_exists.mp hlive
    exact transitionNamed_name hg htr hx

/-- Names lead to no definition but the one that they are around. -/
theorem namesAround_of_descend (hg : g.Tied)
    (h : g.descend names = some d) : g.namesAround d = names := by
  induction names using List.reverseRecOn generalizing d with
  | nil =>
    obtain rfl := Option.some.inj h
    exact namesAround_root hg.nested
  | append_singleton names name ih =>
    rw [descend, List.foldlM_append] at h
    obtain ⟨outer, houter, hlast⟩ := Option.bind_eq_some_iff.mp h
    obtain ⟨inner, hinner, hpure⟩ := Option.bind_eq_some_iff.mp hlast
    obtain rfl := Option.some.inj hpure
    obtain ⟨c, hc, hinner⟩ := Option.bind_eq_some_iff.mp hinner
    obtain ⟨ct, hct, hsub⟩ := Option.bind_eq_some_iff.mp hinner
    obtain ⟨ct', hct', howner, hname⟩ := (stateNamed_eq_some hg).mp hc
    obtain rfl := Option.some.inj (hct.symm.trans hct')
    rw [namesAround_nested hg.nested hct hsub, names_eq hg.nested hct, howner, hname, ih houter]

theorem splitLast?_eq_some {parents : List String} {name : String}
    (h : splitLast? names = some (parents, name)) : names = parents ++ [name] := by
  obtain ⟨last, hlast, heq⟩ := Option.map_eq_some_iff.mp h
  obtain ⟨rfl, rfl⟩ := Prod.mk.inj heq
  exact (List.dropLast_append_getLast? _ hlast).symm

/-- A path leads to the state whose names it is split into. -/
theorem stateAt?_eq_some (hg : g.Tied) :
    g.stateAt? path = some s ↔ ∃ st, g.state? s = some st ∧ Path.split path = g.names s := by
  constructor
  · intro h
    obtain ⟨parts, hparts, h⟩ := Option.bind_eq_some_iff.mp h
    obtain ⟨d, hd, hnamed⟩ := Option.bind_eq_some_iff.mp h
    obtain ⟨st, hst, rfl, hname⟩ := (stateNamed_eq_some hg).mp hnamed
    refine ⟨st, hst, ?_⟩
    rw [names_eq hg.nested hst, namesAround_of_descend hg hd, hname]
    exact splitLast?_eq_some hparts
  · rintro ⟨st, hst, hsplit⟩
    exact stateAt?_of_split hg hst (hsplit.trans (names_eq hg.nested hst))

/-- A path leads to the transition whose names it is split into, if the owner of the transition is
live. -/
theorem transitionAt?_eq_some (hg : g.Tied) :
    g.transitionAt? path = some t ↔ ∃ tr, g.transition? t = some tr ∧
      (g.definition? tr.owner).isSome ∧
      Path.split path = g.namesAround tr.owner ++ [tr.name] := by
  constructor
  · intro h
    obtain ⟨parts, hparts, h⟩ := Option.bind_eq_some_iff.mp h
    obtain ⟨d, hd, hnamed⟩ := Option.bind_eq_some_iff.mp h
    obtain ⟨tr, htr, rfl, hname, hlive⟩ := (transitionNamed_eq_some hg).mp hnamed
    refine ⟨tr, htr, hlive, ?_⟩
    rw [namesAround_of_descend hg hd, hname]
    exact splitLast?_eq_some hparts
  · rintro ⟨tr, htr, hlive, hsplit⟩
    obtain ⟨x, hx⟩ := Option.isSome_iff_exists.mp hlive
    exact transitionAt?_of_split hg htr hx hsplit

theorem stateByPath_eq_ok : g.stateByPath path = .ok s ↔ g.stateAt? path = some s := by
  rw [stateByPath]
  cases g.stateAt? path <;> simp

theorem transitionByPath_eq_ok :
    g.transitionByPath path = .ok t ↔ g.transitionAt? path = some t := by
  rw [transitionByPath]
  cases g.transitionAt? path <;> simp

/-! ## The path of what is found -/

/-- No live state has an empty name. -/
def StatesNamed (g : Graph κ) : Prop := ∀ {s st}, g.state? s = some st → st.name ≠ ""

theorem StatesNamed.of_mem_names (hn : g.StatesNamed) (hg : g.Nested) (hs : g.state? s = some st) :
    ∀ n ∈ g.names s, n ≠ "" := by
  intro n hmem
  obtain ⟨c, hc, rfl⟩ := List.mem_map.mp hmem
  obtain ⟨ct, hct⟩ := live_of_mem_ancestors hg hs (List.mem_reverse.mp hc)
  rw [stateName, hct]
  exact hn hct

/-- What leads to a state is its path. -/
theorem StatesNamed.pathOfState_eq (hn : g.StatesNamed) (hg : g.Tied)
    (h : g.stateAt? path = some s) : g.pathOfState s = path := by
  obtain ⟨st, hst, hsplit⟩ := (stateAt?_eq_some hg).mp h
  rw [Graph.pathOfState_eq, ← hsplit]
  apply Path.ofNames_split
  rw [hsplit]
  exact fun hfirst => hn.of_mem_names hg.nested hst "" (List.mem_of_head? hfirst) rfl

/-- What leads to a transition is its path, also where the transition has an empty name. -/
theorem StatesNamed.pathOfTransition_eq (hn : g.StatesNamed) (hg : g.Tied)
    (h : g.transitionAt? path = some t) : g.pathOfTransition t = path := by
  obtain ⟨tr, htr, hlive, hsplit⟩ := (transitionAt?_eq_some hg).mp h
  obtain ⟨x, hx⟩ := Option.isSome_iff_exists.mp hlive
  rw [Graph.pathOfTransition_eq htr, ← hsplit]
  apply Path.ofNames_split
  intro hfirst
  by_cases hroot : tr.owner = g.root
  · rw [hroot, namesAround_root hg.nested, List.nil_append] at hsplit
    rw [hsplit, List.head?_cons] at hfirst
    rw [Option.some.inj hfirst] at hsplit
    exact Path.split_ne_singleton_empty path hsplit
  · obtain ⟨c, ct, -, hct, hsub⟩ := hg.nested.enclosed hx hroot
    rw [namesAround_nested hg.nested hct hsub] at hsplit
    have hnonempty : g.names c ≠ [] := by
      rw [names_eq hg.nested hct]
      exact List.append_ne_nil_of_right_ne_nil _ (List.cons_ne_nil _ _)
    rw [hsplit, List.head?_append_of_ne_nil _ hnonempty] at hfirst
    exact hn.of_mem_names hg.nested hct "" (List.mem_of_head? hfirst) rfl

/-! ## What is found at its own path -/

theorem stateByPath_pathOfState_iff (hg : g.Tied) (hs : g.state? s = some st) :
    g.stateByPath (g.pathOfState s) = .ok s ↔ Path.Legible (g.names s) := by
  rw [stateByPath_eq_ok, stateAt?_eq_some hg, pathOfState_eq, ← Path.split_ofNames_eq_iff]
  exact ⟨fun ⟨_, _, hsplit⟩ => hsplit, fun hsplit => ⟨st, hs, hsplit⟩⟩

theorem transitionByPath_pathOfTransition_iff (hg : g.Tied) (ht : g.transition? t = some tr) :
    g.transitionByPath (g.pathOfTransition t) = .ok t ↔
      (g.definition? tr.owner).isSome ∧ Path.Legible (g.namesAround tr.owner ++ [tr.name]) := by
  rw [transitionByPath_eq_ok, transitionAt?_eq_some hg, pathOfTransition_eq ht,
    ← Path.split_ofNames_eq_iff]
  constructor
  · rintro ⟨tr', htr', hlive, hsplit⟩
    obtain rfl := Option.some.inj (ht.symm.trans htr')
    exact ⟨hlive, hsplit⟩
  · exact fun ⟨hlive, hsplit⟩ => ⟨tr, ht, hlive, hsplit⟩

/-- Every live state and every live transition is found at its path, and no two states nor two
transitions have one path. -/
structure Identified (g : Graph κ) : Prop where
  state : ∀ {s st}, g.state? s = some st → g.stateByPath (g.pathOfState s) = .ok s
  transition : ∀ {t tr}, g.transition? t = some tr →
    g.transitionByPath (g.pathOfTransition t) = .ok t
  states : ∀ {s s' st st'}, g.state? s = some st → g.state? s' = some st' →
    g.pathOfState s = g.pathOfState s' → s = s'
  transitions : ∀ {t t' tr tr'}, g.transition? t = some tr → g.transition? t' = some tr' →
    g.pathOfTransition t = g.pathOfTransition t' → t = t'

/-- What is found at its path shares it with nothing else that is found there. -/
theorem Identified.of_found
    (hs : ∀ {s st}, g.state? s = some st → g.stateByPath (g.pathOfState s) = .ok s)
    (ht : ∀ {t tr}, g.transition? t = some tr → g.transitionByPath (g.pathOfTransition t) = .ok t) :
    g.Identified where
  state := hs
  transition := ht
  states h h' hpath := Except.ok.inj ((hs h).symm.trans (hpath ▸ hs h'))
  transitions h h' hpath := Except.ok.inj ((ht h).symm.trans (hpath ▸ ht h'))

/-- The names of all live states and transitions come back from their paths, and no transition is
without an owner. -/
structure NamesLegible (g : Graph κ) : Prop where
  state : ∀ {s st}, g.state? s = some st → Path.Legible (g.names s)
  transition : ∀ {t tr}, g.transition? t = some tr →
    (g.definition? tr.owner).isSome ∧ Path.Legible (g.namesAround tr.owner ++ [tr.name])

/-- A graph from a blueprint is a new one with the blueprint added to its root. -/
theorem Reachable.build {b : Blueprint κ} (h : b.build = .ok g) : g.Reachable := by
  let g₀ : Graph κ := .new b.name
  have hreachable : (Editor.left ((Editor.install g₀.root b).run g₀)).Reachable :=
    (Reachable.new b.name).edit (.extend g₀.root b)
  unfold Blueprint.build at h
  dsimp only at h
  cases hinstall : (Editor.install g₀.root b).run g₀ with
  | ok a g' =>
    rw [hinstall] at h hreachable
    exact Except.ok.inj h ▸ hreachable
  | error e g' =>
    rw [hinstall] at h
    cases h

theorem Reachable.paths_lead_back (h : g.Reachable) :
    (∀ s st, g.state? s = some st →
      (g.stateByPath (g.pathOfState s) = .ok s ↔ Path.Legible (g.names s))) ∧
    (∀ t tr, g.transition? t = some tr →
      (g.transitionByPath (g.pathOfTransition t) = .ok t ↔
        (g.definition? tr.owner).isSome ∧ Path.Legible (g.namesAround tr.owner ++ [tr.name]))) ∧
    (g.Identified ↔ g.NamesLegible) := by
  have hstate (s : StateId) (st : State κ) (hs : g.state? s = some st) :=
    stateByPath_pathOfState_iff h.tied hs
  have htransition (t : TransitionId) (tr : Transition κ) (ht : g.transition? t = some tr) :=
    transitionByPath_pathOfTransition_iff h.tied ht
  refine ⟨hstate, htransition, fun hid => ⟨?_, ?_⟩, fun hnames => .of_found ?_ ?_⟩
  · exact fun hs => (hstate _ _ hs).mp (hid.state hs)
  · exact fun ht => (htransition _ _ ht).mp (hid.transition ht)
  · exact fun hs => (hstate _ _ hs).mpr (hnames.state hs)
  · exact fun ht => (htransition _ _ ht).mpr (hnames.transition ht)

theorem paths_lead_back_nestingEdits :
    ((Graph.new "g").edited nestingEdits).Reachable ∧
      ((Graph.new "g").edited nestingEdits).Identified := by
  have hreachable := (Reachable.new (κ := Unit) "g").edited nestingEdits
  have hnames : ((Graph.new "g").edited nestingEdits).NamesLegible := by
    have hstates : ∀ i : Fin 4,
      Path.Legible (((Graph.new "g").edited nestingEdits).names ⟨i⟩) := by decide +kernel
    have htransitions : ∀ i : Fin 2, ∀ tr ∈ ((Graph.new "g").edited nestingEdits).transition? ⟨i⟩,
        (((Graph.new "g").edited nestingEdits).definition? tr.owner).isSome ∧
          Path.Legible (((Graph.new "g").edited nestingEdits).namesAround tr.owner ++
            [tr.name]) := by
      decide +kernel
    exact ⟨fun hs => hstates ⟨_, state?_lt hs⟩, fun ht => htransitions ⟨_, transition?_lt ht⟩ _ ht⟩
  exact ⟨hreachable, hreachable.paths_lead_back.2.2.mpr hnames⟩

/-- The state b is nested in a, and beside a is a state with the path of b for its name. -/
def sharingEdits : List (Edit Unit) :=
  [.addState ⟨0⟩ { name := "a" }, .attachSubmachine ⟨0⟩ "a", .addState ⟨1⟩ { name := "b" },
    .addState ⟨0⟩ { name := "a::b" }]

/-- Two states have one path. It leads to the nested one, and nothing leads to the other. -/
theorem not_identified_sharingEdits :
    ((Graph.new "g").edited sharingEdits).Reachable ∧
      (((Graph.new "g").edited sharingEdits).state? ⟨1⟩).isSome ∧
      (((Graph.new "g").edited sharingEdits).state? ⟨2⟩).isSome ∧
      ((Graph.new "g").edited sharingEdits).pathOfState ⟨1⟩ = "a::b" ∧
      ((Graph.new "g").edited sharingEdits).pathOfState ⟨2⟩ = "a::b" ∧
      ((Graph.new "g").edited sharingEdits).stateAt? "a::b" = some ⟨1⟩ ∧
      ¬ ((Graph.new "g").edited sharingEdits).Identified := by
  have hreachable := (Reachable.new (κ := Unit) "g").edited sharingEdits
  have hinner : (((Graph.new "g").edited sharingEdits).state? ⟨1⟩).isSome := by decide +kernel
  have houter : (((Graph.new "g").edited sharingEdits).state? ⟨2⟩).isSome := by decide +kernel
  have hpath : ((Graph.new "g").edited sharingEdits).pathOfState ⟨1⟩ = "a::b" := by decide +kernel
  have hpath' : ((Graph.new "g").edited sharingEdits).pathOfState ⟨2⟩ = "a::b" := by decide +kernel
  refine ⟨hreachable, hinner, houter, hpath, hpath', by decide +kernel, fun hid => ?_⟩
  obtain ⟨st, hst⟩ := Option.isSome_iff_exists.mp hinner
  obtain ⟨st', hst'⟩ := Option.isSome_iff_exists.mp houter
  cases hid.states hst hst' (hpath.trans hpath'.symm)

end Statechart.Graph
