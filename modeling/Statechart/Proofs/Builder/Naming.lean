import Mathlib.Data.List.Nodup
import Mathlib.Data.List.Perm.Subperm
import Statechart.Builder

/-!
# Default names

A transition without a name of its own gets one from its ends. If that is taken it is numbered, from
two on. One number more is tried than there are names that could be taken, so a free name is found.
A search that knows of no bound ends with that name as well, and with no other.
-/

namespace Statechart.Graph

variable {κ : Type} {base name name' : String}

/-- The name is the base if that is not taken, else the base with the least number from two on that
is not. -/
inductive FirstFree (taken : String → Prop) (base : String) : String → Prop
  | base (hfree : ¬ taken base) : FirstFree taken base base
  | numbered {n : Nat} (hbase : taken base) (hn : 2 ≤ n) (hfree : ¬ taken (Graph.numbered base n))
    (hleast : ∀ m, 2 ≤ m → m < n → taken (Graph.numbered base m)) :
    FirstFree taken base (Graph.numbered base n)

theorem numbered_inj {i j : Nat} : numbered base i = numbered base j ↔ i = j := by
  constructor
  · intro h
    have hlist := congrArg String.toList h
    simp only [numbered, String.toList_append, List.append_cancel_left_eq] at hlist
    have hdigits : Nat.toDigits 10 i = Nat.toDigits 10 j := by
      rw [← Nat.toList_repr, ← Nat.toList_repr]
      exact hlist
    rw [← Nat.ofDigitChars_ten_toDigits (n := i), hdigits, Nat.ofDigitChars_ten_toDigits]
  · rintro rfl
    rfl

namespace FirstFree

variable {taken : String → Prop}

theorem free (h : FirstFree taken base name) : ¬ taken name := by
  cases h with
  | base hfree => exact hfree
  | numbered _ _ hfree _ => exact hfree

/-- There is one such name at most. -/
theorem unique (h : FirstFree taken base name)
    (h' : FirstFree taken base name') : name = name' := by
  cases h with
  | base hfree =>
    cases h' with
    | base => rfl
    | numbered hbase => exact absurd hbase hfree
  | @numbered n hbase hn hfree hleast =>
    cases h' with
    | base hfree' => exact absurd hbase hfree'
    | @numbered n' _ hn' hfree' hleast' =>
      rcases Nat.lt_trichotomy n n' with hlt | rfl | hlt
      · exact absurd (hleast' n hn hlt) hfree
      · rfl
      · exact absurd (hleast n' hn' hlt) hfree'

theorem congr {taken' : String → Prop} (h : FirstFree taken base name)
    (htaken : ∀ n, taken n ↔ taken' n) : FirstFree taken' base name := by
  obtain rfl : taken = taken' := funext fun n => propext (htaken n)
  exact h

end FirstFree

/-- A search without a bound, at a candidate and with a number for the next one: a candidate that is
free is found, and else the base with the number is the next candidate. -/
inductive Search (taken : String → Prop) (base : String) : Nat → String → String → Prop
  | found {n : Nat} {candidate : String} (hfree : ¬ taken candidate) :
      Search taken base n candidate candidate
  | next {n : Nat} {candidate name : String} (htaken : taken candidate)
    (h : Search taken base (n + 1) (numbered base n) name) : Search taken base n candidate name

namespace Search

variable {taken : String → Prop}

/-- The search finds one name at most. -/
theorem unique {n : Nat} {candidate : String} (h : Search taken base n candidate name)
    (h' : Search taken base n candidate name') : name = name' := by
  induction h with
  | found hfree =>
    cases h' with
    | found => rfl
    | next htaken => exact absurd htaken hfree
  | next htaken _ ih =>
    cases h' with
    | found hfree => exact absurd htaken hfree
    | next _ h' => exact ih h'

/-- From a number whose candidate is taken the search goes on to the next free one. -/
theorem of_taken {n k : Nat} (hfree : ¬ taken (numbered base (n + k)))
    (htaken : ∀ m, n ≤ m → m < n + k → taken (numbered base m)) :
    Search taken base (n + 1) (numbered base n) (numbered base (n + k)) := by
  induction k generalizing n with
  | zero => exact .found hfree
  | succ k ih =>
    have hshift : n + (k + 1) = n + 1 + k := by omega
    rw [hshift] at hfree ⊢
    exact .next (htaken n (Nat.le_refl n) (by omega))
      (ih hfree fun m hm hlt => htaken m (by omega) (by omega))

end Search

/-- The search from the base ends, with the first free name. -/
theorem FirstFree.search {taken : String → Prop} (h : FirstFree taken base name) :
    Search taken base 2 base name := by
  cases h with
  | base hfree => exact .found hfree
  | @numbered n hbase hn hfree hleast =>
    obtain ⟨k, rfl⟩ := Nat.exists_eq_add_of_le hn
    exact .next hbase (.of_taken hfree hleast)

/-- The base if it is free, else the first free one of as many numbered names and one more. -/
def firstFree (isFree : String → Bool) (count : Nat) (base : String) : String :=
  if isFree base then base
  else (((List.range (count + 1)).map fun i => numbered base (i + 2)).find? isFree).getD base

/-- Among more names than are taken one is free. -/
theorem exists_free (base : String) {isFree : String → Bool} {names : List String} {count : Nat}
    (hnames : ∀ n, isFree n = false → n ∈ names) (hcount : names.length ≤ count) :
    ∃ i < count + 1, isFree (numbered base (i + 2)) = true := by
  by_contra hnone
  push Not at hnone
  let tried := (List.range (count + 1)).map fun i => numbered base (i + 2)
  have hnodup : tried.Nodup := by
    refine List.nodup_range.map fun i j hij => ?_
    have hnumber := numbered_inj.mp hij
    omega
  have hsub : tried ⊆ names := by
    intro n hn
    obtain ⟨i, hi, rfl⟩ := List.mem_map.mp hn
    exact hnames _ (Bool.eq_false_iff.mpr (hnone i (List.mem_range.mp hi)))
  have hle := (hnodup.subperm hsub).length_le
  rw [List.length_map, List.length_range] at hle
  omega

theorem firstFree_eq {isFree : String → Bool} {names : List String} {count : Nat}
    (hnames : ∀ n, isFree n = false → n ∈ names) (hcount : names.length ≤ count) :
    FirstFree (fun n => isFree n = false) base (firstFree isFree count base) := by
  rw [firstFree]
  by_cases hbase : isFree base = true
  · rw [if_pos hbase]
    exact .base (by rw [hbase]; exact Bool.noConfusion)
  rw [if_neg hbase]
  obtain ⟨i, hi, hfree⟩ := exists_free base hnames hcount
  cases hfound : ((List.range (count + 1)).map fun i => numbered base (i + 2)).find? isFree with
  | none =>
    have hnone := List.find?_eq_none.mp hfound _ (List.mem_map.mpr ⟨i, List.mem_range.mpr hi, rfl⟩)
    exact absurd hfree hnone
  | some name =>
    obtain ⟨hname, k, hk, rfl, hleast⟩ := List.find?_eq_some_iff_getElem.mp hfound
    simp only [List.length_map, List.length_range] at hk
    simp only [List.getElem_map, List.getElem_range] at hname hleast ⊢
    refine .numbered (Bool.eq_false_iff.mpr hbase) (by omega)
      (by rw [hname]; exact Bool.noConfusion) fun m hm hlt => ?_
    have htaken := hleast (m - 2) (by omega)
    rwa [Nat.sub_add_cancel hm, Bool.not_eq_true'] at htaken

variable {g : Graph κ} {d : DefinitionId}

theorem uniqueName_eq_firstFree :
    g.uniqueName d base = firstFree (fun name => (g.transitionNamed d name).isNone)
    (((g.definition? d).map (·.transitions.length)).getD 0) base :=
  rfl

/-- The names that are taken are those of the transitions that the definition lists. -/
theorem uniqueName_firstFree (g : Graph κ) (d : DefinitionId) (base : String) :
    FirstFree (fun name => (g.transitionNamed d name).isSome) base (g.uniqueName d base) := by
  let listed := ((g.definition? d).map (·.transitions)).getD []
  have hnames (n : String) (hn : (g.transitionNamed d n).isNone = false) :
      n ∈ listed.filterMap fun t => (g.transition? t).map (·.name) := by
    rw [Option.isNone_eq_false_iff, Option.isSome_iff_exists] at hn
    obtain ⟨t, ht⟩ := hn
    obtain ⟨x, hx, hfind⟩ := Option.bind_eq_some_iff.mp ht
    have hlisted : listed =
      x.transitions := by simp only [listed, hx, Option.map_some, Option.getD_some]
    have hnamed := List.find?_some hfind
    obtain ⟨tr, htr, hname⟩ := (Option.any_eq_true _ _).mp hnamed
    refine List.mem_filterMap.mpr ⟨t, hlisted ▸ List.mem_of_find?_eq_some hfind, ?_⟩
    rw [htr, Option.map_some, beq_iff_eq.mp hname]
  have hcount : (listed.filterMap fun t => (g.transition? t).map (·.name)).length ≤
      ((g.definition? d).map (·.transitions.length)).getD 0 := by
    have hle := List.length_filterMap_le (fun t => (g.transition? t).map (·.name)) listed
    cases hx : g.definition? d with
    | none => simp [listed, hx]
    | some x => simpa [listed, hx] using hle
  rw [uniqueName_eq_firstFree]
  refine (firstFree_eq hnames hcount).congr fun n => ?_
  rw [Option.isNone_eq_false_iff]

/-- A transition of the definition has the name. -/
def Names (g : Graph κ) (d : DefinitionId) (name : String) : Prop :=
  ∃ x t tr, g.definition? d = some x ∧ t ∈ x.transitions ∧ g.transition? t =
    some tr ∧ tr.name = name

theorem isSome_transitionNamed : (g.transitionNamed d name).isSome ↔ g.Names d name := by
  rw [transitionNamed, Option.isSome_bind, Option.any_eq_true]
  refine exists_congr fun x => ?_
  simp only [List.find?_isSome, Option.any_eq_true, beq_iff_eq]
  constructor
  · rintro ⟨hx, t, ht, tr, htr, hname⟩
    exact ⟨t, tr, hx, ht, htr, hname⟩
  · rintro ⟨t, tr, hx, ht, htr, hname⟩
    exact ⟨hx, t, ht, tr, htr, hname⟩

/-- The search for a name that no transition of the definition has ends with one name and no other:
the base if no transition of the definition has that name, and else the base with the least number
from two on that none has. -/
theorem uniqueName_searched (g : Graph κ) (d : DefinitionId) (base : String) :
    (∀ name, Search (fun n => (g.transitionNamed d n).isSome) base 2 base name ↔
      name = g.uniqueName d base) ∧
      FirstFree (g.Names d) base (g.uniqueName d base) ∧ ¬ g.Names d (g.uniqueName d base) := by
  have hfirst := uniqueName_firstFree g d base
  have hnamed := hfirst.congr fun n => isSome_transitionNamed
  refine ⟨fun name => ⟨fun h => h.unique hfirst.search, ?_⟩, hnamed, hnamed.free⟩
  rintro rfl
  exact hfirst.search

end Statechart.Graph
