import Statechart.Proofs.Graph.Identification

/-!
# Labels of definitions

A definition goes by its path, and by its own name where the path is empty, as that of the root is.
Where the names of composite states come back from their paths, no two nested definitions have one
path; but the root may have the path of a nested definition for its name, and then both go by that.
-/

namespace Statechart.Graph

variable {κ : Type} {g : Graph κ} {d e : DefinitionId} {x y : Definition κ}

/-- The names of the states that something is nested in come back from their paths. -/
def CompositesLegible (g : Graph κ) : Prop :=
  ∀ {c st d}, g.state? c = some st → st.submachine = some d → Path.Legible (g.names c)

/-- A nested definition has the name of the root for its path. -/
def Namesake (g : Graph κ) (d : DefinitionId) : Prop :=
  d ≠ g.root ∧ (g.definition? g.root).map (·.name) = some (g.pathOfDefinition d)

/-! ## Paths of definitions -/

theorem pathOfDefinition_root (hg : g.Nested) : g.pathOfDefinition g.root = "" := by
  rw [pathOfDefinition_eq, namesAround_root hg]
  rfl

theorem CompositesLegible.namesAround (h : g.CompositesLegible) (hg : g.Nested)
    (hx : g.definition? d = some x) : Path.Legible (g.namesAround d) := by
  by_cases hroot : d = g.root
  · rw [hroot, namesAround_root hg]
    exact ⟨nofun, nofun, nofun⟩
  · obtain ⟨c, ct, -, hct, hsub⟩ := hg.enclosed hx hroot
    rw [namesAround_nested hg hct hsub]
    exact h hct hsub

/-- No two definitions have one path. -/
theorem CompositesLegible.eq_of_path (h : g.CompositesLegible) (hg : g.Tied)
    (hx : g.definition? d = some x) (hy : g.definition? e = some y)
    (hpath : g.pathOfDefinition d = g.pathOfDefinition e) : d = e := by
  rw [pathOfDefinition_eq, pathOfDefinition_eq] at hpath
  have hnames : g.namesAround d = g.namesAround e := by
    rw [← (h.namesAround hg.nested hx).split_ofNames, hpath,
      (h.namesAround hg.nested hy).split_ofNames]
  have hd := descend_namesAround hg hx
  rw [hnames, descend_namesAround hg hy] at hd
  exact (Option.some.inj hd).symm

theorem CompositesLegible.path_ne_empty (h : g.CompositesLegible) (hg : g.Tied)
    (hx : g.definition? d = some x) (hd : d ≠ g.root) : g.pathOfDefinition d ≠ "" := by
  obtain ⟨r, hr, -⟩ := hg.nested.root
  intro hempty
  exact hd (h.eq_of_path hg hx hr (hempty.trans (pathOfDefinition_root hg.nested).symm))

/-! ## Labels -/

theorem definitionLabel_of_path_ne (h : g.pathOfDefinition d ≠ "") :
    g.definitionLabel d = g.pathOfDefinition d := by
  rw [definitionLabel]
  exact if_neg (by rw [String.isEmpty_iff]; exact h)

theorem definitionLabel_root (hg : g.Nested) :
    some (g.definitionLabel g.root) = (g.definition? g.root).map (·.name) := by
  obtain ⟨x, hx, -⟩ := hg.root
  rw [definitionLabel, pathOfDefinition_root hg, hx]
  rfl

/-- The root and another definition go by one label exactly if the other is a namesake. -/
theorem CompositesLegible.label_root_eq_iff (h : g.CompositesLegible) (hg : g.Tied)
    (hx : g.definition? d = some x) (hd : d ≠ g.root) :
    g.definitionLabel g.root = g.definitionLabel d ↔ g.Namesake d := by
  rw [definitionLabel_of_path_ne (h.path_ne_empty hg hx hd), Namesake,
    ← definitionLabel_root hg.nested, Option.some_inj]
  exact ⟨fun heq => ⟨hd, heq⟩, fun heq => heq.2⟩

/-- Two definitions go by one label exactly if one of them is the root and the other a namesake of
it. -/
theorem CompositesLegible.label_eq_iff (h : g.CompositesLegible) (hg : g.Tied)
    (hx : g.definition? d = some x) (hy : g.definition? e = some y) (hne : d ≠ e) :
    g.definitionLabel d = g.definitionLabel e ↔ d = g.root ∧ g.Namesake e ∨ e = g.root ∧
      g.Namesake d := by
  by_cases hd : d = g.root
  · have he : e ≠ g.root := fun he => hne (hd.trans he.symm)
    rw [hd, h.label_root_eq_iff hg hy he]
    exact ⟨fun hname => .inl ⟨rfl, hname⟩, fun hor => hor.elim And.right
      fun hroot => absurd hroot.1 he⟩
  by_cases he : e = g.root
  · rw [he, eq_comm, h.label_root_eq_iff hg hx hd]
    exact ⟨fun hname => .inr ⟨rfl, hname⟩,
      fun hor => hor.elim (fun hroot => absurd hroot.1 hd) And.right⟩
  rw [definitionLabel_of_path_ne (h.path_ne_empty hg hx hd),
    definitionLabel_of_path_ne (h.path_ne_empty hg hy he)]
  refine ⟨fun heq => absurd (h.eq_of_path hg hx hy heq) hne, fun hor => ?_⟩
  exact hor.elim (fun hroot => absurd hroot.1 hd) fun hroot => absurd hroot.1 he

end Statechart.Graph
