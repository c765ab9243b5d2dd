import Statechart.Machine.Basic
import Statechart.Proofs.Graph.Restriction

/-!
# Candidates

The candidates of a state are transitions out of the state or out of a superstate of it within the
definition of the machine. A machine is ready if what waits in its slot is one of those of its
active state.
-/

namespace Statechart

section
variable {ε α β : Type}

theorem exists_of_mem_mapM {f : α → Except ε β} {xs : List α} {ys : List β} (h : xs.mapM f = .ok ys)
    {y : β} (hy : y ∈ ys) : ∃ x ∈ xs, f x = .ok y := by
  induction xs generalizing ys with
  | nil =>
    obtain rfl := Except.ok.inj h
    cases hy
  | cons x xs ih =>
    rw [List.mapM_cons] at h
    cases hx : f x with
    | error e =>
      rw [hx] at h
      cases h
    | ok z =>
      cases hxs : xs.mapM f with
      | error e =>
        rw [hx, hxs] at h
        cases h
      | ok zs =>
        rw [hx, hxs] at h
        obtain rfl := Except.ok.inj h
        rcases List.mem_cons.mp hy with rfl | hzs
        · exact ⟨x, List.mem_cons_self, hx⟩
        · obtain ⟨x', hx', hf⟩ := ih hxs hzs
          exact ⟨x', List.mem_cons_of_mem _ hx', hf⟩

theorem mapM_eq_ok {f : α → Except ε β} {g : α → β} {xs : List α} (h : ∀ x ∈ xs, f x = .ok (g x)) :
    xs.mapM f = .ok (xs.map g) := by
  induction xs with
  | nil => rfl
  | cons x xs ih =>
    have hrest := ih fun y hy => h y (List.mem_cons_of_mem _ hy)
    rw [List.mapM_cons, h x List.mem_cons_self, hrest]
    rfl

theorem of_mem_filterM {f : α → Except ε Bool} {xs ys : List α} (h : xs.filterM f = .ok ys) {y : α}
    (hy : y ∈ ys) : y ∈ xs ∧ f y = .ok true := by
  have hloop (xs acc ys : List α) (h : xs.filterAuxM f acc = .ok ys) (hy : y ∈ ys) :
      y ∈ acc ∨ y ∈ xs ∧ f y = .ok true := by
    induction xs generalizing acc with
    | nil =>
      obtain rfl := Except.ok.inj h
      exact .inl hy
    | cons x xs ih =>
      rw [List.filterAuxM] at h
      cases hx : f x with
      | error e =>
        rw [hx] at h
        cases h
      | ok keep =>
        rw [hx] at h
        rcases ih _ h with hacc | ⟨hxs, hf⟩
        · cases keep with
          | false => exact .inl hacc
          | true =>
            rcases List.mem_cons.mp hacc with rfl | hacc
            · exact .inr ⟨List.mem_cons_self, hx⟩
            · exact .inl hacc
        · exact .inr ⟨List.mem_cons_of_mem _ hxs, hf⟩
  rw [List.filterM] at h
  cases hzs : xs.filterAuxM f [] with
  | error e =>
    rw [hzs] at h
    cases h
  | ok zs =>
    rw [hzs] at h
    obtain rfl := Except.ok.inj h
    exact (hloop xs [] zs hzs (List.mem_reverse.mp hy)).resolve_left List.not_mem_nil

theorem filterM_eq_ok {f : α → Except ε Bool} {p : α → Bool} {xs : List α}
    (h : ∀ x ∈ xs, f x = .ok (p x)) : xs.filterM f = .ok (xs.filter p) := by
  have hloop (ys acc : List α) (hys : ∀ y ∈ ys, f y = .ok (p y)) :
      ys.filterAuxM f acc = .ok ((ys.filter p).reverse ++ acc) := by
    induction ys generalizing acc with
    | nil => rfl
    | cons y ys ih =>
      have hrest := fun acc => ih acc fun z hz => hys z (List.mem_cons_of_mem _ hz)
      rw [List.filterAuxM, hys y List.mem_cons_self, List.filter_cons]
      cases p y with
      | false => exact hrest acc
      | true =>
        rw [if_pos rfl, List.reverse_cons, List.append_assoc]
        exact hrest (y :: acc)
  rw [List.filterM, hloop xs [] h, List.append_nil]
  exact congrArg Except.ok (List.reverse_reverse _)

end

namespace Machine

variable {κ : Type} {m m' : Machine κ} {s : StateId} {t : TransitionId} {ts : List TransitionId}

/-- The transition is a candidate of the state: its source is the state or a superstate of it within
the definition of the machine. -/
structure Leaves (m : Machine κ) (s : StateId) (t : TransitionId) : Prop where
  candidate : ∃ ts, m.candidatesFrom s = .ok ts ∧ t ∈ ts
  source : ∃ tr, m.graph.transition? t = some tr ∧ tr.source ∈ m.scopedAncestors s

/-- A candidate is listed by a state of the chain, and leads into the definition of the machine. -/
theorem exists_of_mem_candidatesFrom (hts : m.candidatesFrom s = .ok ts) (ht : t ∈ ts) :
    ∃ q ∈ m.scopedAncestors s, ∃ st, m.graph.state? q = some st ∧ t ∈ st.outgoing ∧
      m.leadsInside t = .ok true := by
  rw [candidatesFrom] at hts
  let level (q : StateId) : Except GraphError (List TransitionId) := do
    let st ← m.graph.state q
    st.outgoing.filterM m.leadsInside
  change ((m.scopedAncestors s).mapM level >>= fun levels => .ok levels.flatten) = _ at hts
  cases hlevels : (m.scopedAncestors s).mapM level with
  | error e =>
    rw [hlevels] at hts
    cases hts
  | ok levels =>
    rw [hlevels] at hts
    obtain rfl := Except.ok.inj hts
    obtain ⟨us, hus, htu⟩ := List.mem_flatten.mp ht
    obtain ⟨q, hq, hlevel⟩ := exists_of_mem_mapM hlevels hus
    have hstep : level q = (m.graph.state q >>= fun st => st.outgoing.filterM m.leadsInside) := rfl
    rw [hstep] at hlevel
    cases hst : m.graph.state q with
    | error e =>
      rw [hst] at hlevel
      cases hlevel
    | ok st =>
      rw [hst] at hlevel
      obtain ⟨hlisted, hleads⟩ := of_mem_filterM hlevel htu
      exact ⟨q, hq, st, Graph.state_ok_iff.mp hst, hlisted, hleads⟩

/-- On a tied graph candidates leave the state whose candidates they are. -/
theorem leaves_of_mem (h : m.graph.Tied) (hts : m.candidatesFrom s = .ok ts) (ht : t ∈ ts) :
    m.Leaves s t := by
  obtain ⟨q, hq, st, hst, hlisted, -⟩ := exists_of_mem_candidatesFrom hts ht
  obtain ⟨tr, htr, rfl⟩ := h.listed.outgoing_live hst hlisted
  exact ⟨⟨ts, hts, ht⟩, tr, htr, hq⟩

/-- Which transitions leave a state is up to the graph and the definition. -/
theorem Leaves.congr (h : m.Leaves s t) (hgraph : m'.graph = m.graph)
    (hdefinition : m'.definition = m.definition) : m'.Leaves s t := by
  have hcovers : m'.covers = m.covers := by
    funext q
    rw [covers, covers, hgraph, hdefinition]
  have hscoped : m'.scopedAncestors = m.scopedAncestors := by
    funext q
    rw [scopedAncestors, scopedAncestors, hgraph, hcovers]
  have hleads : m'.leadsInside = m.leadsInside := by
    funext u
    rw [leadsInside, leadsInside, hgraph, hdefinition]
  have hcandidates : m'.candidatesFrom s = m.candidatesFrom s := by
    rw [candidatesFrom, candidatesFrom, hgraph, hscoped, hleads]
  refine ⟨?_, ?_⟩
  · rw [hcandidates]
    exact h.candidate
  · rw [hgraph, hscoped]
    exact h.source

theorem not_leaves {q : StateId} (hsource : m.graph.source? t = some q)
    (hq : q ∉ m.scopedAncestors s) : ¬ m.Leaves s t := by
  rintro ⟨-, tr, htr, hmem⟩
  rw [Graph.source?, htr] at hsource
  obtain rfl := Option.some.inj hsource
  exact hq hmem

/-! ## The slot -/

/-- The machines are at the same place, with the same slot. -/
structure Alike (m m' : Machine κ) : Prop where
  graph : m'.graph = m.graph
  definition : m'.definition = m.definition
  active : m'.active = m.active
  pending : m'.pending = m.pending
  running : m'.running = m.running

/-- What waits in the slot leaves the active state of a machine that is not at its end. -/
def Ready (m : Machine κ) : Prop :=
  ∀ p, m.pending = some p → m.atEnd = false ∧ ∃ s, m.active = some s ∧ m.Leaves s p.transition

theorem Ready.congr (h : m.Ready) (hm : Alike m m') : m'.Ready := by
  intro p hp
  rw [hm.pending] at hp
  obtain ⟨hend, s, hs, hleaves⟩ := h p hp
  refine ⟨?_, s, hm.active.trans hs, hleaves.congr hm.graph hm.definition⟩
  rw [atEnd, hm.graph, hm.definition, hm.active]
  exact hend

theorem ready_of_empty (h : m.pending = none) : m.Ready := by
  intro p hp
  rw [h] at hp
  cases hp

end Machine
end Statechart
