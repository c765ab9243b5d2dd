import Statechart.Proofs.Builder.Furnishing

/-!
# Levels and their definitions

A blueprint and those nested in it are its levels. Once a level has its definition, with the
transitions of the level between the states that their names stand for, this stays so as long as no
definition around gains a state.
-/

namespace Statechart

variable {κ : Type}

namespace Blueprint

/-- A blueprint within another: those around it, innermost first, and the names of the states it is
nested in. -/
structure Level (κ : Type) where
  around : List (Blueprint κ)
  path : List String
  inner : Blueprint κ

mutual

/-- A blueprint and those nested in it, in the order in which they get their definitions. -/
def levelsWithin (around : List (Blueprint κ)) (path : List String) : Blueprint κ → List (Level κ)
  | ⟨name, initial, final, states, composites, transitions, fallbacks⟩ =>
    ⟨around, path, ⟨name, initial, final, states, composites, transitions, fallbacks⟩⟩ ::
      nestedLevels (⟨name, initial, final, states, composites, transitions, fallbacks⟩ ::
        around) path composites

def nestedLevels (around : List (Blueprint κ)) (path : List String) :
    List (String × Blueprint κ) → List (Level κ)
  | [] => []
  | (state, inner) :: rest =>
    inner.levelsWithin around (path ++ [state]) ++ nestedLevels around path rest

end

def levels (b : Blueprint κ) : List (Level κ) := b.levelsWithin [] []

/-- No level nests two blueprints in one state. -/
def Single (b : Blueprint κ) : Prop := ∀ l ∈ b.levels, (l.inner.composites.map (·.1)).Nodup

theorem levelsWithin_eq (around : List (Blueprint κ)) (path : List String) (b : Blueprint κ) :
    b.levelsWithin around path = ⟨around, path, b⟩ ::
      nestedLevels (b :: around) path b.composites := by
  cases b
  rw [levelsWithin]

end Blueprint

namespace Graph

open Blueprint

variable {g g' g'' : Graph κ} {d e : DefinitionId} {s : StateId} {name : String}
  {p : TransitionPlan κ} {tr : Transition κ} {l : Level κ} {ls ls' : List (Level κ)}
  {around around' : List (Blueprint κ)} {S T N : DefinitionId → Prop} {n : Nat}

/-! ## What is built of a level -/

/-- The transition is the one of the plan, between the states that the names stand for. -/
structure Follows (g : Graph κ) (p : TransitionPlan κ) (tr : Transition κ) : Prop where
  kind : tr.kind = p.kind
  triggers : tr.triggers = p.triggers
  guard : tr.guard = p.guard
  effect : tr.effect = p.effect
  metadata : tr.metadata = p.metadata
  source : g.Binds p.source tr.owner tr.source
  target : g.Binds p.target tr.owner tr.target

/-- The definition is the one of the level: it lies where the level does, and it has the transitions
of the level in their order. A name at one of their ends that no level around declares is the name
of exactly one of its own states. -/
structure Houses (g : Graph κ) (l : Level κ) (d : DefinitionId) : Prop where
  path : g.descend l.path = some d
  transitions : ∃ x, g.definition? d = some x ∧ x.transitions.Nodup ∧ List.Forall₂
    (fun p t => ∃ tr, g.transition? t = some tr ∧ tr.owner = d ∧ g.Follows p tr)
      l.inner.transitions x.transitions
  own : ∀ p ∈ l.inner.transitions, ∀ name ∈ [p.source, p.target],
    (∀ b ∈ l.around, name ∉ b.declared) →
    ∃! s, ∃ st, g.state? s = some st ∧ st.owner = d ∧ st.name = name

/-- From this number on the definitions of the graph are those of the levels. -/
structure HousesFrom (g : Graph κ) (n : Nat) (ls : List (Level κ)) : Prop where
  size : g.definitions.size = n + ls.length
  houses : ∀ {i l}, ls[i]? = some l → g.Houses l ⟨n + i⟩

/-- A state has one name. -/
theorem Tied.name_unique {name' : String} (hg : g.Tied) (hs : g.stateNamed d name = some s)
    (hs' : g.stateNamed d name' = some s) : name = name' := by
  obtain ⟨st, hst, -, hname⟩ := (stateNamed_eq_some hg).mp hs
  obtain ⟨st', hst', -, hname'⟩ := (stateNamed_eq_some hg).mp hs'
  cases hst.symm.trans hst'
  exact hname.symm.trans hname'

theorem existsUnique_named (hg : g.Tied) :
    (∃! s, ∃ st, g.state? s = some st ∧ st.owner = d ∧ st.name = name) ↔
      (g.stateNamed d name).isSome := by
  rw [Option.isSome_iff_exists]
  constructor
  · rintro ⟨s, hs, -⟩
    exact ⟨s, (stateNamed_eq_some hg).mpr hs⟩
  · rintro ⟨s, hs⟩
    refine ⟨s, (stateNamed_eq_some hg).mp hs, fun s' hs' => ?_⟩
    exact Option.some.inj (((stateNamed_eq_some hg).mpr hs').symm.trans hs)

section
variable (hg : g.Tied) (hg' : g'.Tied) (h : Widens S T N g g')
  (hS : ∀ e, (g.definition? e).isSome → ¬ S e)
include hg hg' h hS

theorem Follows.widens (hf : g.Follows p tr) : g'.Follows p tr := by
  have hw : Widens (fun _ => False) T N g g' := h.mono hS (fun _ _ => id) (fun _ _ => id) hg.placed
  exact { hf with
    source := hw.binds hg hg' (fun _ => id) hf.source
    target := hw.binds hg hg' (fun _ => id) hf.target }

/-- A definition stays the one of its level as long as it gains no transitions, and no definition
gains states. -/
theorem Houses.widens (hl : g.Houses l d) (hT : ¬ T d) : g'.Houses l d where
  path := h.descend hg hg' hl.path
  transitions := by
    obtain ⟨x, hx, hnodup, hlinks⟩ := hl.transitions
    obtain ⟨x', hx', -, -, htransitions⟩ := h.definition hx
    rw [← htransitions.resolve_left hT] at hnodup hlinks
    refine ⟨x', hx', hnodup, hlinks.imp fun p t => ?_⟩
    rintro ⟨tr, htr, howner, hf⟩
    exact ⟨tr, h.transition htr, howner, hf.widens hg hg' h hS⟩
  own p hp name hname hforeign := by
    have hnamed := (existsUnique_named hg).mp (hl.own p hp name hname hforeign)
    obtain ⟨s, hs⟩ := Option.isSome_iff_exists.mp hnamed
    rw [existsUnique_named hg', h.stateNamed_of hg hg' hs]
    rfl

/-- Levels whose definitions come later do no harm to these. -/
theorem HousesFrom.append (hl : g.HousesFrom n ls) (hT : ∀ d, (g.definition? d).isSome → ¬ T d)
    (hl' : g'.HousesFrom g.definitions.size ls') : g'.HousesFrom n (ls ++ ls') where
  size := by rw [hl'.size, hl.size, List.length_append, Nat.add_assoc]
  houses {i l} hget := by
    by_cases hi : i < ls.length
    · rw [List.getElem?_append_left hi] at hget
      have hhoused := hl.houses hget
      obtain ⟨x, hx, -⟩ := hhoused.transitions
      exact hhoused.widens hg hg' h hS (hT _ (by rw [hx]; rfl))
    · rw [List.getElem?_append_right (Nat.not_lt.mp hi)] at hget
      have hhoused := hl'.houses hget
      have hindex : g.definitions.size + (i - ls.length) = n + i := by
        have hsize := hl.size
        omega
      rwa [hindex] at hhoused

theorem HousesFrom.widens (hl : g.HousesFrom n ls)
    (hsize : g'.definitions.size = g.definitions.size)
    (hT : ∀ i, ¬ T ⟨n + i⟩) : g'.HousesFrom n ls where
  size := hsize.trans hl.size
  houses hget := (hl.houses hget).widens hg hg' h hS (hT _)

end

/-! ## What is known around -/

/-- The definition and those around it have no states but those that the blueprints declare. -/
def Known (g : Graph κ) (around : List (Blueprint κ)) (d : DefinitionId) : Prop :=
  ∀ e name, g.Within d e → (g.stateNamed e name).isSome → ∃ b ∈ around, name ∈ b.declared

namespace Known

theorem mono (h : g.Known around d) (hsub : around ⊆ around') : g.Known around' d :=
  fun e name hw hs => by
  obtain ⟨b, hb, hname⟩ := h e name hw hs
  exact ⟨b, hsub hb, hname⟩

/-- What is known of a definition and of the one around it. -/
theorem of_outer (hown : ∀ name, (g.stateNamed d name).isSome → ∃ b ∈ around, name ∈ b.declared)
    (houter : ∀ e, g.superdefinition d = some e → g.Known around e) : g.Known around d :=
  fun f name hw hs => by
  rcases Relation.ReflTransGen.cases_head hw with rfl | ⟨e, he, hw⟩
  · exact hown name hs
  · exact houter e he f name hw hs

theorem widens (h : g.Known around d) (hg : g.Tied) (hg' : g'.Tied) (hw : Widens S T N g g')
    (hd : (g.definition? d).isSome) (hS : ∀ e, g.Within d e → ¬ S e) : g'.Known around d :=
  fun e name hwithin hs => by
  have hback := hw.within_of hg hd hwithin
  rw [hw.stateNamed_eq hg hg' (hg.placed.live_of_within hd hback) (hS e hback)] at hs
  exact h e name hback hs

end Known

/-! ## Definitions that come last -/

/-- The definition comes last and has no elements yet; it lies where a level does. -/
structure Awaits (g : Graph κ) (around : List (Blueprint κ)) (path : List String)
    (d : DefinitionId) : Prop where
  tied : g.Tied
  last : g.definitions.size = d.index + 1
  blank : ∃ x, g.definition? d = some x ∧ x.states = [] ∧ x.transitions = []
  path : g.namesAround d = path
  known : ∀ e, g.superdefinition d = some e → g.Known around e

theorem awaits_new (name : String) : (Graph.new name : Graph κ).Awaits [] [] ⟨0⟩ where
  tied := tied_new name
  last := rfl
  blank := ⟨.blank name none, rfl, rfl, rfl⟩
  path := namesAround_root (tied_new name).nested
  known _ he := by cases he

namespace Awaits

variable {path : List String} (h : g.Awaits around path d)
include h

theorem live : (g.definition? d).isSome := by
  obtain ⟨x, hx, -⟩ := h.blank
  rw [hx]
  rfl

theorem state_owner_ne {st : State κ} (hst : g.state? s = some st) : st.owner ≠ d := by
  rintro rfl
  obtain ⟨x, hx, hstates, -⟩ := h.blank
  have hmem := h.tied.listed.state_mem hx hst
  rw [hstates] at hmem
  cases hmem

theorem stateNamed_eq_none : g.stateNamed d name = none := by
  rw [Option.eq_none_iff_forall_not_mem]
  intro s hs
  obtain ⟨st, hst, howner, -⟩ := (stateNamed_eq_some h.tied).mp hs
  exact h.state_owner_ne hst howner

/-- All names of the last definition come from furnishing it. -/
theorem declared_furnished {names : List String} (hf : g.Furnishes d names g')
    (hs : (g'.stateNamed d name).isSome) : name ∈ names := by
  rcases hf.named hs with hs | hmem
  · rw [h.stateNamed_eq_none] at hs
    cases hs
  · exact hmem

/-- Around the last definition the names stay known while it is furnished. -/
theorem known_furnished {names : List String} (hf : g.Furnishes d names g')
    (he : g'.superdefinition d = some e) : g'.Known around e := by
  rw [hf.widens.superdefinition h.tied.nested h.live] at he
  have hlt := h.tied.nested.superdefinition_lt he
  refine (h.known e he).widens h.tied hf.tied hf.widens
    (h.tied.placed.live_of_superdefinition he) ?_
  rintro f hw rfl
  have hle := hw.index_le h.tied.nested
  omega

/-- No state of a definition that was blank is composite after it is furnished. -/
theorem nestedIn_furnished {names : List String} (hf : g.Furnishes d names g')
    (hs : g'.stateNamed d name = some s) : g'.nestedIn s = none := by
  rw [Option.eq_none_iff_forall_not_mem]
  intro e he
  obtain ⟨st, hst, -⟩ := nestedIn_eq_some.mp (hf.nested he)
  obtain ⟨st', hst', howner', -⟩ := (stateNamed_eq_some hf.tied).mp hs
  obtain ⟨st₁, hst₁, howner, -⟩ := hf.widens.state hst
  cases hst'.symm.trans hst₁
  exact h.state_owner_ne hst (howner.symm.trans howner')

/-- A name that stands for a state, if no level around declares it, is the name of a state of the
definition. -/
theorem own_furnished {names : List String} (hf : g.Furnishes d names g') (hs : g'.Binds name d s)
    (hforeign : ∀ b ∈ around, name ∉ b.declared) : (g'.stateNamed d name).isSome := by
  cases hs with
  | here hs =>
    rw [hs]
    rfl
  | outer _ he hs =>
    obtain ⟨f, hw, hs⟩ := hs.found
    obtain ⟨b, hb, hname⟩ := h.known_furnished hf he f name hw (by rw [hs]; rfl)
    exact absurd hname (hforeign b hb)

end Awaits

end Graph

end Statechart
