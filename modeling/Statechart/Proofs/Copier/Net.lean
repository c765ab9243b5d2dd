import Mathlib.Data.Finset.Card
import Mathlib.Data.Finset.Range
import Mathlib.Logic.Relation
import Statechart.Copier.Net
import Statechart.Proofs.Copier.Basic

/-!
# Copies of nets

A copier follows references with no bound, so its runs are given as a relation first: a run is a
finite derivation. The bound that `copy` goes by is never met, since each node is opened only once,
and what a copier holds is followed through a run with the nodes that are still open set apart:
those have the edges of their source, all the others have edges of the copy.
-/

namespace Statechart.Net

variable {net : Net} {c c' c₁ : Copier Net Nat} {k l i j n : Nat} {ks ls is js edges : List Nat}
  {node : String × List Nat}

/-! ## Runs -/

/-- A node is copied and its edges are those of the copy. -/
def close (c : Copier Net Nat) (i : Nat) (edges : List Nat) : Copier Net Nat :=
  { c with target := c.target.setEdges i edges }

/-- Puts a clone of a node into the copy. -/
def opening (c : Copier Net Nat) (k : Nat) (node : String × List Nat) : Copier Net Nat :=
  c.record k c.target.nodes.length (c.target.add node)

/-- A run that copies nodes one after another: `is` are the copies of those there are. -/
inductive Copies (net : Net) : Copier Net Nat → List Nat → List Nat → Copier Net Nat → Prop
  | done {c : Copier Net Nat} : Copies net c [] [] c
  | known {c c' : Copier Net Nat} {k i : Nat} {ks is : List Nat} : c.get? k = some i →
      Copies net c ks is c' → Copies net c (k :: ks) (i :: is) c'
  | missing {c c' : Copier Net Nat} {k : Nat} {ks is : List Nat} : c.get? k = none →
      net.node? k = none → Copies net c ks is c' → Copies net c (k :: ks) is c'
  | new {c c₁ c' : Copier Net Nat} {k : Nat} {node : String × List Nat} {edges ks is : List Nat} :
      c.get? k = none → net.node? k = some node → Copies net (opening c k node) node.2 edges c₁ →
      Copies net (close c₁ c.target.nodes.length edges) ks is c' →
      Copies net c (k :: ks) (c.target.nodes.length :: is) c'

theorem get?_opening :
    (opening c k node).get? l = if l = k then some c.target.nodes.length else c.get? l :=
  Copier.get?_record

namespace Copies

theorem append (h : Copies net c ks is c₁) (h' : Copies net c₁ ls js c') :
    Copies net c (ks ++ ls) (is ++ js) c' := by
  induction h with
  | done => exact h'
  | known hk _ ih => exact .known hk (ih h')
  | missing hk hnode _ ih => exact .missing hk hnode (ih h')
  | new hk hnode hinner _ _ ih => exact .new hk hnode hinner (ih h')

/-- A run forgets no copy. -/
theorem grows (h : Copies net c ks is c') (hk : c.get? k = some i) : c'.get? k = some i := by
  induction h with
  | done => exact hk
  | known _ _ ih => exact ih hk
  | missing _ _ _ ih => exact ih hk
  | @new c c₁ c' l node edges ks is hl _ _ _ ihinner ih =>
    refine ih (ihinner ?_)
    rw [get?_opening, if_neg, hk]
    rintro rfl
    exact absurd (hl.symm.trans hk) nofun

end Copies

/-! ## Termination -/

/-- The number of nodes not copied yet. -/
def left (net : Net) (c : Copier Net Nat) : Nat :=
  ((Finset.range net.nodes.length).filter fun k => c.get? k = none).card

theorem left_le : net.left c ≤ net.nodes.length :=
  (Finset.card_filter_le _ _).trans (Finset.card_range _).le

theorem Copies.left_le (h : Copies net c ks is c') : net.left c' ≤ net.left c := by
  refine Finset.card_le_card fun l hl => ?_
  rw [Finset.mem_filter] at hl ⊢
  refine ⟨hl.1, ?_⟩
  cases hget : c.get? l with
  | none => rfl
  | some j => exact absurd (hl.2.symm.trans (h.grows hget)) nofun

theorem left_opening (hk : c.get? k = none) (hnode : net.node? k = some node) :
    net.left (opening c k node) < net.left c := by
  have hlt : k < net.nodes.length := (List.getElem?_eq_some_iff.mp hnode).1
  refine Finset.card_lt_card ((Finset.ssubset_iff_of_subset fun l hl => ?_).mpr ⟨k, ?_, ?_⟩)
  · rw [Finset.mem_filter, get?_opening] at hl
    split at hl
    · exact absurd hl.2 nofun
    · exact Finset.mem_filter.mpr hl
  · exact Finset.mem_filter.mpr ⟨Finset.mem_range.mpr hlt, hk⟩
  · simp [get?_opening]

theorem node?_add : (net.add node).node? net.nodes.length = some node := by
  simp [add, node?]

/-- With no node left there is nothing to open. -/
theorem known_or_missing (h : net.left c = 0) (hk : c.get? k = none) : net.node? k = none := by
  cases hnode : net.node? k with
  | none => rfl
  | some node => exact absurd (left_opening hk hnode) (by omega)

/-- Copying the nodes of a list is a run when copying each one is. -/
theorem copies_filterMapM {copy : Nat → Copying Net Nat (Option Nat)}
    (hcopy : ∀ c k, net.left c ≤ n → ∃ r c', copy k c = (r, c') ∧ Copies net c [k] r.toList c') :
    ∀ ks c, net.left c ≤ n → ∃ is c', ks.filterMapM copy c = (is, c') ∧ Copies net c ks is c' := by
  intro ks
  induction ks with
  | nil => exact fun c _ => ⟨[], c, rfl, .done⟩
  | cons k ks ih =>
    intro c hc
    obtain ⟨r, c₁, hr, hone⟩ := hcopy c k hc
    obtain ⟨is, c', his, hrest⟩ := ih c₁ (hone.left_le.trans hc)
    refine ⟨r.toList ++ is, c', ?_, hone.append hrest⟩
    rw [List.filterMapM_cons, Copier.bind_of hr]
    cases r with
    | none => exact his
    | some i => exact Copier.bind_of his

theorem clone?_of (hnode : net.node? k = some node) :
    copyRule.clone? net k c.target = some (c.target.nodes.length, c.target.add node) :=
  congrArg (Option.map _) hnode

theorem clone?_missing (hnode : net.node? k = none) : copyRule.clone? net k c.target = none :=
  congrArg (Option.map _) hnode

/-- A clone is deepened from the edges that it has, which are still those of its source. -/
theorem deepen_of {copy : Nat → Copying Net Nat (Option Nat)} (hread : c.target.node? i = some node)
    (hcopy : node.2.filterMapM copy c = (edges, c₁)) :
    copyRule.deepen net copy i c = ((), close c₁ i edges) := by
  unfold copyRule
  dsimp only
  rw [Copier.get_bind, hread]
  exact Copier.bind_of hcopy

/-- Copying a node is a run if references can be followed as deep as there are nodes left. -/
theorem copies_copyWithin (n : Nat) : ∀ c k, net.left c ≤ n →
    ∃ r c', Copier.copyWithin copyRule net n k c = (r, c') ∧ Copies net c [k] r.toList c' := by
  induction n with
  | zero =>
    intro c k hc
    cases hk : c.get? k with
    | some i => exact ⟨some i, c, Copier.copyWithin_known hk, .known hk .done⟩
    | none =>
      have hnode := known_or_missing (Nat.le_zero.mp hc) hk
      exact ⟨none, c, Copier.copyWithin_missing hk (clone?_missing hnode), .missing hk hnode .done⟩
  | succ n ih =>
    intro c k hc
    cases hk : c.get? k with
    | some i => exact ⟨some i, c, Copier.copyWithin_known hk, .known hk .done⟩
    | none =>
      cases hnode : net.node? k with
      | none =>
        exact ⟨none, c, Copier.copyWithin_missing hk (clone?_missing hnode),
          .missing hk hnode .done⟩
      | some node =>
        -- opening the node leaves one node fewer, so its references may be followed one level less
        -- deep
        have hlt := left_opening hk hnode
        obtain ⟨edges, c₁, hedges, hinner⟩ :=
          copies_filterMapM ih node.2 (opening c k node) (by omega)
        refine ⟨some c.target.nodes.length, close c₁ c.target.nodes.length edges, ?_,
          .new hk hnode hinner .done⟩
        rw [Copier.copyWithin_new hk (clone?_of hnode)]
        refine congrArg (some _, ·) ?_
        exact congrArg Prod.snd (deepen_of node?_add hedges)

/-! ## Nodes under construction -/

/-- The copies of the nodes there are, in order. -/
def Images (net : Net) (c : Copier Net Nat) (ks is : List Nat) : Prop :=
  is.map some = (ks.filter fun k => (net.node? k).isSome).map c.get?

theorem Images.mapped (h : net.Images c ks is) (hk : k ∈ ks) (hnode : net.node? k = some node) :
    ∃ i, c.get? k = some i := by
  have hmem : c.get? k ∈ (ks.filter fun k => (net.node? k).isSome).map c.get? :=
    List.mem_map_of_mem (List.mem_filter.mpr ⟨hk, by rw [hnode]; rfl⟩)
  rw [← h, List.mem_map] at hmem
  obtain ⟨i, -, hi⟩ := hmem
  exact ⟨i, hi.symm⟩

/-- A copier that forgets no copy keeps the images. -/
theorem Images.grow (h : net.Images c ks is)
    (hgrow : ∀ k i, c.get? k = some i → c'.get? k = some i) : net.Images c' ks is := by
  refine h.trans (List.map_congr_left fun k hk => ?_)
  obtain ⟨hmem, hsome⟩ := List.mem_filter.mp hk
  obtain ⟨node, hnode⟩ := Option.isSome_iff_exists.mp hsome
  obtain ⟨i, hi⟩ := h.mapped hmem hnode
  rw [hi, hgrow k i hi]

theorem images_cons (hnode : net.node? k = some node) :
    net.Images c (k :: ks) (i :: is) ↔ c.get? k = some i ∧ net.Images c ks is := by
  rw [Images, List.filter_cons_of_pos (by rw [hnode]; rfl), List.map_cons, List.map_cons,
    List.cons.injEq, Images]
  exact and_congr_left' eq_comm

theorem images_cons_missing (hnode : net.node? k = none) :
    net.Images c (k :: ks) is ↔ net.Images c ks is := by
  rw [Images, List.filter_cons_of_neg (by rw [hnode]; exact Bool.false_ne_true), Images]

/-- The copies stand for nodes one to one, and have the labels of these and, but for the open ones,
the images of their edges. -/
structure Building (net : Net) (c : Copier Net Nat) (opened : List Nat) : Prop where
  onto : ∀ i, i < c.target.nodes.length ↔ ∃ k, c.get? k = some i
  injective : ∀ k l i, c.get? k = some i → c.get? l = some i → k = l
  node : ∀ k i, c.get? k = some i → ∃ node edges, net.node? k = some node ∧
    c.target.node? i = some (node.1, edges) ∧ (k ∉ opened → net.Images c node.2 edges)

namespace Building

variable {opened : List Nat}

theorem lt (h : net.Building c opened) (hk : c.get? k = some i) : i < c.target.nodes.length :=
  (h.onto i).mpr ⟨k, hk⟩

theorem opening (h : net.Building c opened) (hk : c.get? k = none)
    (hnode : net.node? k = some node) :
    net.Building (opening c k node) (k :: opened) := by
  have hne : ∀ {l i}, c.get? l = some i → l ≠ k := by
    rintro l i hl rfl
    exact absurd (hk.symm.trans hl) nofun
  have hgrow : ∀ l i, c.get? l = some i → (Net.opening c k node).get? l = some i := fun l i hl => by
    rw [get?_opening, if_neg (hne hl), hl]
  have hlength : (Net.opening c k node).target.nodes.length = c.target.nodes.length + 1 := by
    simp [Net.opening, Copier.record, add]
  refine ⟨fun i => ?_, fun l m i hl hm => ?_, fun l i hl => ?_⟩
  · rw [hlength, Nat.lt_succ_iff_lt_or_eq]
    constructor
    · rintro (hi | rfl)
      · obtain ⟨l, hl⟩ := (h.onto i).mp hi
        exact ⟨l, hgrow l i hl⟩
      · exact ⟨k, by rw [get?_opening, if_pos rfl]⟩
    · rintro ⟨l, hl⟩
      rw [get?_opening] at hl
      split at hl
      · exact .inr (Option.some.inj hl).symm
      · exact .inl (h.lt hl)
  · rw [get?_opening] at hl hm
    split at hl <;> split at hm
    · subst_vars
      rfl
    · exact absurd (h.lt hm) (by have := Option.some.inj hl; omega)
    · exact absurd (h.lt hl) (by have := Option.some.inj hm; omega)
    · exact h.injective l m i hl hm
  · rw [get?_opening] at hl
    split at hl
    · cases hl
      subst_vars
      exact ⟨node, node.2, hnode, node?_add, fun hopen => absurd List.mem_cons_self hopen⟩
    · obtain ⟨x, edges, hx, htarget, hclosed⟩ := h.node l i hl
      refine ⟨x, edges, hx, ?_,
        fun hopen => (hclosed fun hl => hopen (List.mem_cons_of_mem _ hl)).grow hgrow⟩
      exact (List.getElem?_append_left (h.lt hl)).trans htarget

theorem close (h : net.Building c (k :: opened)) (hk : c.get? k = some i)
    (hnode : net.node? k = some node) (hedges : net.Images c node.2 edges) :
    net.Building (close c i edges) opened := by
  have hlength : (Net.close c i edges).target.nodes.length = c.target.nodes.length :=
    List.length_modify ..
  refine ⟨fun j => by rw [hlength]; exact h.onto j, h.injective, fun l j hl => ?_⟩
  have hread : (Net.close c i edges).target.node? j =
      (fun x => if i = j then (x.1, edges) else x) <$> c.target.node? j := List.getElem?_modify ..
  obtain ⟨x, kept, hx, htarget, hclosed⟩ := h.node l j hl
  by_cases hlk : l = k
  · obtain rfl := hlk
    obtain rfl : i = j := Option.some.inj (hk.symm.trans hl)
    obtain rfl := Option.some.inj (hnode.symm.trans hx)
    refine ⟨node, edges, hnode, ?_, fun _ => hedges⟩
    rw [hread, htarget]
    exact congrArg some (if_pos rfl)
  · refine ⟨x, kept, hx, ?_, fun hopen => hclosed fun hmem => ?_⟩
    · have hij : i ≠ j := by
        rintro rfl
        exact hlk (h.injective l k i hl hk)
      rw [hread, htarget]
      exact congrArg some (if_neg hij)
    · exact (List.mem_cons.mp hmem).elim hlk hopen

end Building

/-- A run leaves the nodes open that were, and answers the images of what it is asked for. -/
theorem Copies.builds (h : Copies net c ks is c') : ∀ {opened : List Nat}, net.Building c opened →
    net.Building c' opened ∧ net.Images c' ks is := by
  induction h with
  | done => exact fun hb => ⟨hb, rfl⟩
  | known hk hrest ih =>
    intro opened hb
    obtain ⟨hb', himages⟩ := ih hb
    obtain ⟨node, -, hnode, -⟩ := hb.node _ _ hk
    exact ⟨hb', (images_cons hnode).mpr ⟨hrest.grows hk, himages⟩⟩
  | missing hk hnode _ ih =>
    intro opened hb
    obtain ⟨hb', himages⟩ := ih hb
    exact ⟨hb', (images_cons_missing hnode).mpr himages⟩
  | @new c c₁ c' k node edges ks is hk hnode hinner hrest ihinner ih =>
    intro opened hb
    -- the node is open while its references are followed, and closed with the images that they gave
    obtain ⟨hb₁, hedges⟩ := ihinner (hb.opening hk hnode)
    have hget : c₁.get? k = some c.target.nodes.length :=
      hinner.grows (by rw [get?_opening, if_pos rfl])
    obtain ⟨hb', himages⟩ := ih (hb₁.close hget hnode hedges)
    exact ⟨hb', (images_cons hnode).mpr ⟨hrest.grows hget, himages⟩⟩

/-- With all images there, a run changes nothing. -/
theorem Copies.settled (h : Copies net c ks is c') : ∀ {opened js}, net.Building c opened →
    net.Images c ks js → is = js ∧ c' = c := by
  induction h with
  | done => exact fun _ hjs => ⟨(List.map_eq_nil_iff.mp hjs).symm, rfl⟩
  | known hk _ ih =>
    intro opened js hb hjs
    obtain ⟨node, -, hnode, -⟩ := hb.node _ _ hk
    cases js with
    | nil =>
      rw [Images, List.filter_cons_of_pos (by rw [hnode]; rfl)] at hjs
      exact absurd hjs nofun
    | cons j js =>
      obtain ⟨hj, hrest⟩ := (images_cons hnode).mp hjs
      obtain ⟨rfl, rfl⟩ := ih hb hrest
      exact ⟨by rw [Option.some.inj (hk.symm.trans hj)], rfl⟩
  | missing _ hnode _ ih => exact fun hb hjs => ih hb ((images_cons_missing hnode).mp hjs)
  | new hk hnode =>
    intro opened js _ hjs
    obtain ⟨i, hi⟩ := hjs.mapped List.mem_cons_self hnode
    exact absurd (hk.symm.trans hi) nofun

/-! ## What a copier holds -/

/-- There is a way along edges, of any length. -/
def Leads (net : Net) : Nat → Nat → Prop :=
  Relation.ReflTransGen fun k l => ∃ node, net.node? k = some node ∧ l ∈ node.2

/-- A run copies only what the nodes asked for lead to. -/
theorem Copies.leads (h : Copies net c ks is c') (hl : c'.get? l = some j) :
    (∃ i, c.get? l = some i) ∨ ∃ k ∈ ks, net.Leads k l := by
  induction h generalizing j with
  | done => exact .inl ⟨j, hl⟩
  | known _ _ ih =>
    exact (ih hl).imp_right fun ⟨k, hk, hlead⟩ => ⟨k, List.mem_cons_of_mem _ hk, hlead⟩
  | missing _ _ _ ih =>
    exact (ih hl).imp_right fun ⟨k, hk, hlead⟩ => ⟨k, List.mem_cons_of_mem _ hk, hlead⟩
  | @new c c₁ c' k node edges ks is hk hnode hinner hrest ihinner ih =>
    obtain ⟨i, hi⟩ | ⟨m, hm, hlead⟩ := ih hl
    · obtain ⟨i', hi'⟩ | ⟨m, hm, hlead⟩ := ihinner hi
      · rw [get?_opening] at hi'
        split at hi'
        · subst_vars
          exact .inr ⟨k, List.mem_cons_self, .refl⟩
        · exact .inl ⟨i', hi'⟩
      · exact .inr ⟨k, List.mem_cons_self, .head ⟨node, hnode, hm⟩ hlead⟩
    · exact .inr ⟨m, List.mem_cons_of_mem _ hm, hlead⟩

/-- With no node open, whatever a copied node leads to is copied. -/
theorem Building.closed (h : net.Building c []) (hk : (net.node? k).isSome → (c.get? k).isSome)
    (hlead : net.Leads k l) (hl : (net.node? l).isSome) : (c.get? l).isSome := by
  induction hlead with
  | refl => exact hk hl
  | @tail m l _ hstep ih =>
    obtain ⟨node, hnode, hmem⟩ := hstep
    obtain ⟨i, hi⟩ := Option.isSome_iff_exists.mp (ih (by rw [hnode]; rfl))
    obtain ⟨x, edges, hx, -, hedges⟩ := h.node m i hi
    obtain rfl := Option.some.inj (hnode.symm.trans hx)
    obtain ⟨next, hnext⟩ := Option.isSome_iff_exists.mp hl
    obtain ⟨j, hj⟩ := (hedges nofun).mapped hmem hnext
    rw [hj]
    rfl

/-- What a copier holds that has been asked for some nodes. -/
structure Copied (net : Net) (asked : List Nat) (c : Copier Net Nat) : Prop where
  keys : ∀ l, (c.get? l).isSome ↔ (net.node? l).isSome ∧ ∃ k ∈ asked, net.Leads k l
  injective : ∀ k l i, c.get? k = some i → c.get? l = some i → k = l
  onto : ∀ i, i < c.target.nodes.length ↔ ∃ k, c.get? k = some i
  node : ∀ k i, c.get? k = some i → ∃ node edges, net.node? k = some node ∧
    c.target.node? i = some (node.1, edges) ∧ net.Images c node.2 edges

namespace Copied

variable {asked : List Nat}

theorem building (h : net.Copied asked c) : net.Building c [] where
  onto := h.onto
  injective := h.injective
  node k i hk := by
    obtain ⟨node, edges, hnode, htarget, hedges⟩ := h.node k i hk
    exact ⟨node, edges, hnode, htarget, fun _ => hedges⟩

theorem empty : net.Copied [] ⟨⟨[]⟩, []⟩ where
  keys _ := ⟨nofun, fun ⟨_, _, hk, _⟩ => absurd hk nofun⟩
  injective _ _ _ := nofun
  onto i := ⟨fun h => absurd h (Nat.not_lt_zero i), fun ⟨_, h⟩ => absurd h nofun⟩
  node _ _ := nofun

/-- What a run adds. -/
theorem step (h : net.Copied asked c) (hrun : Copies net c ks is c') :
    net.Copied (asked ++ ks) c' := by
  obtain ⟨hb, himages⟩ := hrun.builds h.building
  refine ⟨fun l => ⟨fun hl => ?_, fun ⟨hl, k, hk, hlead⟩ => ?_⟩, hb.injective,
    hb.onto, fun k i hk => ?_⟩
  · obtain ⟨j, hj⟩ := Option.isSome_iff_exists.mp hl
    obtain ⟨node, -, hnode, -⟩ := hb.node l j hj
    refine ⟨by rw [hnode]; rfl, ?_⟩
    obtain ⟨i, hi⟩ | ⟨k, hk, hlead⟩ := hrun.leads hj
    · obtain ⟨-, k, hk, hlead⟩ := (h.keys l).mp (by rw [hi]; rfl)
      exact ⟨k, List.mem_append_left _ hk, hlead⟩
    · exact ⟨k, List.mem_append_right _ hk, hlead⟩
  · refine hb.closed (fun hnode => ?_) hlead hl
    obtain hold | hnew := List.mem_append.mp hk
    · obtain ⟨i, hi⟩ := Option.isSome_iff_exists.mp ((h.keys k).mpr ⟨hnode, k, hold, .refl⟩)
      rw [hrun.grows hi]
      rfl
    · obtain ⟨node, hnode⟩ := Option.isSome_iff_exists.mp hnode
      obtain ⟨i, hi⟩ := himages.mapped hnew hnode
      rw [hi]
      rfl
  · obtain ⟨node, edges, hnode, htarget, hedges⟩ := hb.node k i hk
    exact ⟨node, edges, hnode, htarget, hedges nofun⟩

end Copied

/-! ## Calls -/

/-- A call on a copier. -/
inductive Call
  | copy (k : Nat)
  | copyOpt (k : Option Nat)
  | copyAll (ks : List Nat)

inductive Answer
  | one (i : Option Nat)
  | many (is : List Nat)

namespace Call

/-- The nodes that a call asks for. -/
def asked : Call → List Nat
  | copy k => [k]
  | copyOpt k => k.toList
  | copyAll ks => ks

/-- What a call answers with the copies of the nodes there are of those. -/
def answer : Call → List Nat → Answer
  | copy _, is => .one is.head?
  | copyOpt _, is => .one is.head?
  | copyAll _, is => .many is

def run (net : Net) : Call → Copying Net Nat Answer
  | copy k => .one <$> Copier.copy copyRule net k
  | copyOpt k => .one <$> Copier.copyOpt copyRule net k
  | copyAll ks => .many <$> Copier.copyAll copyRule net ks

theorem copies_run (net : Net) (call : Call) (c : Copier Net Nat) :
    ∃ is c', call.run net c = (call.answer is, c') ∧ Copies net c call.asked is c' := by
  have hone : ∀ c k, net.left c ≤ net.nodes.length → ∃ r c',
      Copier.copy copyRule net k c = (r, c') ∧ Copies net c [k] r.toList c' := copies_copyWithin _
  cases call with
  | copy k =>
    obtain ⟨r, c', hr, hrun⟩ := hone c k left_le
    exact ⟨r.toList, c', by rw [answer, Option.head?_toList]; exact Copier.map_of hr, hrun⟩
  | copyOpt k =>
    cases k with
    | none => exact ⟨[], c, rfl, .done⟩
    | some k =>
      obtain ⟨r, c', hr, hrun⟩ := hone c k left_le
      exact ⟨r.toList, c', by rw [answer, Option.head?_toList]; exact Copier.map_of hr, hrun⟩
  | copyAll ks =>
    obtain ⟨is, c', his, hrun⟩ := copies_filterMapM hone ks c left_le
    exact ⟨is, c', Copier.map_of his, hrun⟩

end Call

/-- A copier with an empty target after some calls. -/
def after (net : Net) (calls : List Call) : Copier Net Nat :=
  calls.foldl (fun c call => (call.run net c).2) ⟨⟨[]⟩, []⟩

theorem after_concat (calls : List Call) (call : Call) :
    net.after (calls ++ [call]) = (call.run net (net.after calls)).2 := by
  rw [after, List.foldl_append]
  rfl

theorem copied_after (net : Net) (calls : List Call) :
    net.Copied (calls.flatMap Call.asked) (net.after calls) := by
  induction calls using List.reverseRecOn with
  | nil => exact .empty
  | append_singleton calls call ih =>
    obtain ⟨is, c', hcall, hrun⟩ := call.copies_run net (net.after calls)
    rw [after_concat, hcall, List.flatMap_append, List.flatMap_singleton]
    exact ih.step hrun

theorem grows_after (calls later : List Call) (hk : (net.after calls).get? k = some i) :
    (net.after (calls ++ later)).get? k = some i := by
  induction later using List.reverseRecOn with
  | nil => rwa [List.append_nil]
  | append_singleton later call ih =>
    obtain ⟨is, c', hcall, hrun⟩ := call.copies_run net (net.after (calls ++ later))
    rw [← List.append_assoc, after_concat, hcall]
    exact hrun.grows ih

/-- A call whose answer is there already changes nothing. -/
theorem run_of_images (calls : List Call) (call : Call)
    (h : net.Images (net.after calls) call.asked is) :
    call.run net (net.after calls) = (call.answer is, net.after calls) := by
  obtain ⟨js, c', hcall, hrun⟩ := call.copies_run net (net.after calls)
  obtain ⟨rfl, rfl⟩ := hrun.settled (net.copied_after calls).building h
  exact hcall

/-- How a copier serves a call after some others. -/
structure Served (net : Net) (calls : List Call) (call : Call) : Prop where
  copied : net.Copied (calls.flatMap Call.asked) (net.after calls)
  /-- The call ends, and answers the images of what it asks for. -/
  ends : ∃ is, Copies net (net.after calls) call.asked is (net.after (calls ++ [call])) ∧
    call.run net (net.after calls) = (call.answer is, net.after (calls ++ [call])) ∧
    net.Images (net.after (calls ++ [call])) call.asked is
  kept : ∀ later k i, (net.after calls).get? k = some i →
    (net.after (calls ++ later)).get? k = some i
  /-- Made again at any later time, it has the same answer and changes nothing. -/
  again : ∀ later, call.run net (net.after (calls ++ call :: later)) =
    ((call.run net (net.after calls)).1, net.after (calls ++ call :: later))
  missing : (∀ k ∈ call.asked, net.node? k = none) →
    call.run net (net.after calls) = (call.answer [], net.after calls)

/-- A copier clones what the nodes asked for lead to, each node once. -/
theorem served (net : Net) (calls : List Call) (call : Call) : net.Served calls call := by
  obtain ⟨is, c', hcall, hrun⟩ := call.copies_run net (net.after calls)
  have hafter : net.after (calls ++ [call]) = c' := by rw [after_concat, hcall]
  have himages : net.Images (net.after (calls ++ [call])) call.asked is := by
    rw [hafter]
    exact (hrun.builds (net.copied_after calls).building).2
  refine ⟨net.copied_after calls, ⟨is, hafter ▸ hrun, hafter ▸ hcall, himages⟩,
    fun later k i => grows_after calls later, fun later => ?_, fun hmissing => ?_⟩
  · have hlater : calls ++ call :: later = (calls ++ [call]) ++ later := by simp
    rw [hcall, hlater]
    exact run_of_images _ call (himages.grow fun k i => grows_after _ later)
  · refine run_of_images calls call (Eq.symm ?_)
    have hnil : (call.asked.filter fun k => (net.node? k).isSome) = [] :=
      List.filter_eq_nil_iff.mpr fun k hk => by rw [hmissing k hk]; exact Bool.false_ne_true
    rw [hnil]
    rfl

/-- A cycle, a loop, a shared node and a dangling edge. -/
example : after ⟨[("a", [1, 1]), ("b", [2, 7, 1]), ("c", [1])]⟩ [.copyAll [2, 9], .copy 0] =
    ⟨⟨[("c", [1]), ("b", [0, 1]), ("a", [1, 1])]⟩, [(0, 2), (1, 1), (2, 0)]⟩ := rfl

end Statechart.Net
