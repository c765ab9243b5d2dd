import Mathlib.Data.List.Perm.Basic
import Statechart.Proofs.Graph.Adjacency
import Statechart.Proofs.Graph.Hierarchy
import Statechart.Proofs.Graph.Transport

/-!
# Copies of the root

A copy of the root has all live states and, where every transition has a live owner, all live
transitions. Superstates, entries and paths in it are those of the graph. Only the transitions at a
state may come in another order: the copy lists them as a walk meets them, definition by definition,
and the graph as they were made.
-/

namespace Statechart

/-- A loop goes the same way through the images of what it meets. -/
theorem Exhausts.map {α β : Type} {next : α → Option α} {next' : β → Option β} {f : α → β}
    {P : α → Prop} {a : α} {l : List α} (h : Exhausts next a l) (ha : P a)
    (hP : ∀ {b c}, P b → next b = some c → P c) (hf : ∀ {b}, P b → next' (f b) = (next b).map f) :
    Exhausts next' (f a) (l.map f) := by
  induction h with
  | stop hnone => exact .stop (by rw [hf ha, hnone, Option.map_none])
  | step hb _ ih => exact .step (by rw [hf ha, hb, Option.map_some]) (ih (hP ha hb))

theorem eq_of_map_eq {α β : Type} {f : α → β} {xs ys : List α}
    (hf : ∀ x ∈ xs, ∀ y, f x = f y → x = y) (h : xs.map f = ys.map f) : xs = ys := by
  induction xs generalizing ys with
  | nil => exact (List.map_eq_nil_iff.mp h.symm).symm
  | cons x xs ih =>
    obtain ⟨y, ys, rfl, hxy, hrest⟩ := List.map_eq_cons_iff.mp h.symm
    rw [hf x List.mem_cons_self y hxy.symm,
      ih (fun z hz => hf z (List.mem_cons_of_mem x hz)) hrest.symm]

namespace Graph

variable {κ : Type} {g : Graph κ} {d e : DefinitionId} {s q : StateId} {t : TransitionId}
  {st : State κ} {tr : Transition κ}

/-! ## What is copied -/

section
variable (h : g.Tied)
include h

theorem Tied.live_root : ∃ x, g.definition? g.root = some x := h.nested.root.imp fun _ => And.left

theorem Tied.mem_walkDefinitions_root (he : ∃ x, g.definition? e = some x) :
    e ∈ g.walkDefinitions g.root := by
  obtain ⟨x, hx⟩ := he
  exact (mem_walkDefinitions h h.live_root).mpr (h.within_root hx)

theorem Tied.mem_walkStates_of_live (hs : g.state? s = some st) : s ∈ g.walkStates g.root :=
  h.mem_walkStates_root.mpr (by rw [hs]; rfl)

/-- With live owners all transitions are copied. -/
theorem Owned.mem_copiedTransitions (ho : g.Owned) (ht : g.transition? t = some tr) :
    t ∈ g.copiedTransitions g.root := by
  obtain ⟨x, hx, -⟩ := ho.transition ht
  obtain ⟨st, hst⟩ := h.placed.source ht
  obtain ⟨qt, hqt⟩ := h.placed.target ht
  exact (Graph.mem_copiedTransitions h h.live_root).mpr ⟨tr, ht, h.mem_walkDefinitions_root ⟨x, hx⟩,
    h.mem_walkStates_of_live hst, h.mem_walkStates_of_live hqt⟩

end

/-! ## Entries -/

section
variable (h : g.Tied) (hd : ∃ x, g.definition? d = some x)
include h hd

theorem mem_walkStates_of_entryStep (hs : s ∈ g.walkStates d)
    (hq : g.entryStep s = some q) : q ∈ g.walkStates d := by
  obtain ⟨st, e, x, hst, hsub, hx, hstart⟩ := entryStep_eq_some.mp hq
  exact mem_walkStates_of_marked (m := .start) h hd
    (submachine_mem_walk h hd hs hst hsub).1 hx hstart

theorem entryStep_copyOf (hs : s ∈ g.walkStates d) :
    (g.copyOf d).entryStep ((g.placement d).state s) =
      (g.entryStep s).map (g.placement d).state := by
  obtain ⟨st, hst⟩ := walkStates_live h hd hs
  rw [entryStep, entryStep, state?_copyOf h hd hs hst, hst]
  show (do let e ← st.submachine.map _; ((g.copyOf d).definition? e).bind (·.start)) = _
  cases hsub : st.submachine with
  | none =>
    simp only [Option.bind_eq_bind, Option.bind_some, hsub]
    rfl
  | some e =>
    have he := (submachine_mem_walk h hd hs hst hsub).1
    obtain ⟨x, hx⟩ := walkDefinitions_live h hd he
    simp only [Option.bind_eq_bind, Option.bind_some, Option.map_some, hsub, hx,
      definition?_copyOf h hd he hx]
    rfl

/-- Entering a copied state leads to the copy of the state that entering the state leads to. -/
theorem resolveEntryTarget_copyOf (hs : s ∈ g.walkStates d) :
    (g.copyOf d).resolveEntryTarget ((g.placement d).state s) =
      (g.placement d).state (g.resolveEntryTarget s) := by
  have hcopy := tied_copyOf h hd
  have hmapped := (h.exhausts_entry s).map (P := (· ∈ g.walkStates d)) hs
    (mem_walkStates_of_entryStep h hd) (entryStep_copyOf h hd)
  have hlast := (hcopy.getLast?_entry ((g.placement d).state s)).1
  rw [(hcopy.exhausts_entry _).unique hmapped, List.getLast?_map, (h.getLast?_entry s).1] at hlast
  exact (Option.some.inj hlast).symm

theorem resolveEntryTarget_mem_walk (hs : s ∈ g.walkStates d) :
    g.resolveEntryTarget s ∈ g.walkStates d := by
  have hreaches := follow_mem_reaches (List.mem_of_getLast? (h.getLast?_entry s).1)
  generalize g.resolveEntryTarget s = q at hreaches ⊢
  induction hreaches with
  | refl => exact hs
  | tail _ hstep ih => exact mem_walkStates_of_entryStep h hd ih hstep

end

/-! ## Superstates and paths -/

section
variable (h : g.Tied)
include h

theorem Tied.superstate_replica (hs : s ∈ g.walkStates g.root) : (g.copyOf g.root).superstate
    ((g.placement g.root).state s) = (g.superstate s).map (g.placement g.root).state := by
  obtain ⟨st, hst⟩ := walkStates_live h h.live_root hs
  obtain ⟨x, hx⟩ := h.placed.owner hst
  have howner := owner_mem_walkDefinitions h h.live_root hs hst
  have hcopied : (g.copyOf g.root).superstate ((g.placement g.root).state s) =
      if st.owner = g.root then none else x.composite.map (g.placement g.root).state := by
    rw [superstate, state?_copyOf h h.live_root hs hst]
    show ((g.copyOf g.root).definition? ((g.placement g.root).definition st.owner)).bind
      (·.composite) = _
    rw [definition?_copyOf h h.live_root howner hx]
    rfl
  have horiginal : g.superstate s = x.composite := by
    rw [superstate, hst]
    show (g.definition? st.owner).bind (·.composite) = _
    rw [hx]
    rfl
  rw [hcopied, horiginal]
  split
  · rename_i hroot
    obtain ⟨y, hy, hnone⟩ := h.nested.root
    rw [hroot, hy] at hx
    rw [← Option.some.inj hx, hnone]
    rfl
  · rfl

theorem Tied.mem_walkStates_of_superstate
    (hq : g.superstate s = some q) : q ∈ g.walkStates g.root := by
  obtain ⟨_, x, -, hx, hxq⟩ := superstate_eq_some.mp hq
  obtain ⟨qt, hqt, -⟩ := h.nested.composite_live hx hxq
  exact h.mem_walkStates_of_live hqt

theorem Tied.ancestors_replica (hs : s ∈ g.walkStates g.root) : (g.copyOf g.root).ancestors
    ((g.placement g.root).state s) = (g.ancestors s).map (g.placement g.root).state :=
  ((tied_copyOf h h.live_root).exhausts_ancestors _).unique
    ((h.exhausts_ancestors s).map (P := (· ∈ g.walkStates g.root)) hs
      (fun _ hq => h.mem_walkStates_of_superstate hq) h.superstate_replica)

theorem Tied.mem_walkStates_of_ancestor (hs : s ∈ g.walkStates g.root) (hq : q ∈ g.ancestors s) :
    q ∈ g.walkStates g.root := by
  obtain ⟨st, hst⟩ := walkStates_live h h.live_root hs
  obtain ⟨qt, hqt⟩ := live_of_mem_ancestors h.nested hst hq
  exact h.mem_walkStates_of_live hqt

theorem Tied.namesAround_replica (he : e ∈ g.walkDefinitions g.root) :
    (g.copyOf g.root).namesAround ((g.placement g.root).definition e) = g.namesAround e := by
  rw [namesAround_copyOf h h.live_root he, namesAround_root h.nested, List.nil_append]

theorem Tied.pathOfState_replica (hs : s ∈ g.walkStates g.root) :
    (g.copyOf g.root).pathOfState ((g.placement g.root).state s) = g.pathOfState s := by
  rw [pathOfState_eq, pathOfState_eq, names_state_copyOf h h.live_root hs,
    namesAround_root h.nested, List.nil_append]

theorem Tied.pathOfTransition_replica (ht : t ∈ g.copiedTransitions g.root) :
    (g.copyOf g.root).pathOfTransition ((g.placement g.root).transition t) =
      g.pathOfTransition t := by
  obtain ⟨tr, htr, howner, -⟩ := (Graph.mem_copiedTransitions h h.live_root).mp ht
  rw [pathOfTransition, pathOfTransition, transition?_copyOf h h.live_root ht htr, htr]
  show Path.join ((g.copyOf g.root).pathOfDefinition
    ((g.placement g.root).definition tr.owner)) tr.name =
    Path.join (g.pathOfDefinition tr.owner) tr.name
  rw [pathOfDefinition_eq, pathOfDefinition_eq, h.namesAround_replica howner]

theorem Tied.definitionLabel_replica :
    (g.copyOf g.root).definitionLabel (g.copyOf g.root).root = g.definitionLabel g.root := by
  have hroot := h.mem_walkDefinitions_root h.live_root
  obtain ⟨x, hx⟩ := h.live_root
  have hname := definition?_copyOf h ⟨x, hx⟩ hroot hx
  have hplace : (g.placement g.root).definition g.root = (g.copyOf g.root).root :=
    placement_root ⟨x, hx⟩
  have hpath := h.namesAround_replica hroot
  rw [hplace] at hname hpath
  rw [definitionLabel, definitionLabel, pathOfDefinition_eq, pathOfDefinition_eq, hpath, hname, hx]
  rfl

end

/-! ## The order of transitions -/

/-- Each state lists the transitions that leave it in the order in which a walk of the graph meets
them. -/
def InWalkOrder (g : Graph κ) : Prop :=
  ∀ s st, g.state? s = some st → st.outgoing.Sublist (g.walkTransitions g.root)

/-- What a state of the copy lists are the copies of what a walk meets of the transitions that leave
the state. -/
theorem outgoing?_copyOf (h : g.Tied) (hd : ∃ x, g.definition? d = some x)
    (hs : s ∈ g.walkStates d) :
    (g.copyOf d).outgoing? ((g.placement d).state s) =
      some (((g.copiedTransitions d).filter fun t => g.source? t = some s).map
          (g.placement d).transition) := by
  obtain ⟨st, hst⟩ := walkStates_live h hd hs
  exact outgoing?_of (state?_copyOf h hd hs hst)

section
variable (h : g.Tied) (ho : g.Owned)
include h ho

/-- In the order of a walk or not, a state lists what the walk meets of the transitions that leave
it. -/
theorem Owned.outgoing_perm (hs : g.state? s = some st) :
    st.outgoing.Perm ((g.copiedTransitions g.root).filter fun t => g.source? t = some s) := by
  refine (List.perm_ext_iff_of_nodup (h.listed.outgoing.nodup (outgoing?_of hs))
    ((nodup_copiedTransitions h h.live_root).filter _)).mpr fun t => ?_
  rw [h.listed.mem_outgoing hs, List.mem_filter, decide_eq_true_iff, source?_eq_some]
  constructor
  · rintro ⟨tr, htr, hsource⟩
    exact ⟨ho.mem_copiedTransitions h htr, tr, htr, hsource⟩
  · exact And.right

/-- The states of a copy list the copies of what the states list, in the same order, if and only if
these list it in the order of a walk. -/
theorem Owned.inWalkOrder_iff : g.InWalkOrder ↔ ∀ s st, g.state? s = some st →
    (g.copyOf g.root).outgoing? ((g.placement g.root).state s) =
      some (st.outgoing.map (g.placement g.root).transition) := by
  have hsame {s : StateId} {st : State κ} (hs : g.state? s = some st) :
      st.outgoing.Sublist (g.walkTransitions g.root) ↔
        (g.copiedTransitions g.root).filter (fun t => g.source? t = some s) = st.outgoing := by
    constructor
    · intro hsublist
      have hinside : ∀ t ∈ st.outgoing, g.endsInside g.root t = true := by
        intro t ht
        obtain ⟨tr, htr, -⟩ := h.listed.outgoing_live hs ht
        exact (List.mem_filter.mp (ho.mem_copiedTransitions h htr)).2
      have hcopied : st.outgoing.Sublist (g.copiedTransitions g.root) := by
        rw [← List.filter_eq_self.mpr hinside]
        exact hsublist.filter _
      exact ((List.Nodup.perm_iff_eq_of_sublist (nodup_copiedTransitions h h.live_root) hcopied
        List.filter_sublist).mp (ho.outgoing_perm h hs)).symm
    · intro heq
      rw [← heq]
      exact List.filter_sublist.trans List.filter_sublist
  refine forall_congr' fun s => forall_congr' fun st => forall_congr' fun hs => ?_
  rw [hsame hs, outgoing?_copyOf h h.live_root (h.mem_walkStates_of_live hs), Option.some_inj]
  constructor
  · intro heq
    rw [heq]
  · -- Different transitions have different copies.
    exact eq_of_map_eq fun t ht _ heq => placement_transition_inj (List.mem_filter.mp ht).1 heq

end

end Graph

end Statechart
