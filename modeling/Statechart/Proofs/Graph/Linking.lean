import Statechart.Proofs.Graph.Copying

/-!
# The transitions of a copy

Once its definitions and states are placed, a copy receives the transitions whose two ends it holds,
definition by definition. What comes out is given in closed form: three lists of elements, each in
the order of a walk.
-/

namespace Statechart

namespace Arena

variable {α : Type}

def ofList (xs : List α) : Arena α := empty.append xs

theorem size_ofList (xs : List α) : (ofList xs).size = xs.length := by
  rw [ofList, size_append]
  exact Nat.zero_add _

theorem get?_ofList (xs : List α) (i : Nat) : (ofList xs).get? i = xs[i]? := by
  have hi : ¬ i < (empty : Arena α).size := Nat.not_lt_zero i
  rw [ofList, get?_append, if_neg hi]
  rfl

theorem live_ofList {xs : List α} {i : Nat} (hi : i < (ofList xs).size) :
    ∃ x, (ofList xs).get? i = some x := by
  rw [size_ofList] at hi
  exact ⟨xs[i], by rw [get?_ofList, List.getElem?_eq_getElem hi]⟩

theorem push_ofList (xs : List α) (x : α) : (ofList xs).push x = ofList (xs ++ [x]) := by
  rw [ofList, ofList, ← append_append, ← push_append, append_nil]

theorem modify_ofList (xs : List α) (i : Nat) (f : α → α) :
    (ofList xs).modify i f = ofList (xs.modify i f) := by
  refine ext_get? (by simp [size_ofList]) fun j => ?_
  rw [get?_modify, get?_ofList, get?_ofList, get?_ofList, List.getElem?_modify]
  by_cases h : j = i
  · rw [if_pos h, h]
    simp
  · rw [if_neg h]
    cases xs[j]? <;> simp [Ne.symm h]

theorem entries_ofList (xs : List α) :
    (ofList xs).entries.map (·.1) = List.range' 0 xs.length := by
  rw [entries, List.map_filterMap, size_ofList, ← List.range_eq_range']
  have hlive : (List.range xs.length).filterMap
      (fun i => (((ofList xs).get? i).map (i, ·)).map (·.1)) =
        (List.range xs.length).filterMap some := by
    refine List.filterMap_congr fun i hi => ?_
    rw [get?_ofList, List.getElem?_eq_getElem (List.mem_range.mp hi)]
    rfl
  rw [hlive, List.filterMap_some]

end Arena

section
variable {α β : Type}

/-- A list of elements each of which has a value has its values in the same places. -/
theorem getElem?_filterMap_of_some {f : α → Option β} {xs : List α}
    (h : ∀ x ∈ xs, ∃ y, f x = some y) (i : Nat) : (xs.filterMap f)[i]? = xs[i]?.bind f := by
  induction xs generalizing i with
  | nil => rfl
  | cons x xs ih =>
    obtain ⟨y, hy⟩ := h x List.mem_cons_self
    rw [List.filterMap_cons, hy]
    cases i with
    | zero => exact hy.symm
    | succ i => exact ih (fun z hz => h z (List.mem_cons_of_mem _ hz)) i

theorem length_filterMap_of_some {f : α → Option β} {xs : List α} (h : ∀ x ∈ xs,
    ∃ y, f x = some y) :
    (xs.filterMap f).length = xs.length := by
  induction xs with
  | nil => rfl
  | cons x xs ih =>
    obtain ⟨y, hy⟩ := h x List.mem_cons_self
    rw [List.filterMap_cons, hy]
    exact congrArg (· + 1) (ih fun z hz => h z (List.mem_cons_of_mem _ hz))

variable [DecidableEq α]

/-- In a list without repetition an element has one place. -/
theorem idxOf_eq_iff {xs : List α} (hnd : xs.Nodup) {x : α} (hx : x ∈ xs) (i : Nat) :
    i = xs.idxOf x ↔ xs[i]? = some x := by
  constructor
  · rintro rfl
    rw [List.getElem?_eq_getElem (List.idxOf_lt_length_iff.mpr hx), List.getElem_idxOf]
  · intro h
    obtain ⟨hi, rfl⟩ := List.getElem?_eq_some_iff.mp h
    exact (hnd.idxOf_getElem i hi).symm

section
variable {γ : Type} {look : α → Option γ} {F : α → γ → β} {xs : List α}

/-- Elements that all have a value have it at their place. -/
theorem Arena.get?_ofList_idxOf (hlive : ∀ x ∈ xs, ∃ c, look x = some c) {x : α} {c : γ}
    (hx : x ∈ xs) (hc : look x = some c) :
    (Arena.ofList (xs.filterMap fun x => (look x).map (F x))).get? (xs.idxOf x) = some (F x c) := by
  rw [Arena.get?_ofList, getElem?_filterMap_of_some,
    List.getElem?_eq_getElem (List.idxOf_lt_length_iff.mpr hx), List.getElem_idxOf,
    Option.bind_some, hc]
  · rfl
  · intro y hy
    obtain ⟨c, hc⟩ := hlive y hy
    rw [hc]
    exact ⟨_, rfl⟩

theorem Arena.of_get?_ofList (hnd : xs.Nodup) (hlive : ∀ x ∈ xs, ∃ c, look x = some c) {i : Nat}
    {y : β} (h : (Arena.ofList (xs.filterMap fun x => (look x).map (F x))).get? i = some y) :
    ∃ x c, x ∈ xs ∧ xs.idxOf x = i ∧ look x = some c ∧ y = F x c := by
  rw [Arena.get?_ofList, getElem?_filterMap_of_some, Option.bind_eq_some_iff] at h
  · obtain ⟨x, hxi, hxy⟩ := h
    obtain ⟨c, hc, rfl⟩ := Option.map_eq_some_iff.mp hxy
    have hx := List.mem_of_getElem? hxi
    exact ⟨x, c, hx, ((idxOf_eq_iff hnd hx i).mpr hxi).symm, hc, rfl⟩
  · intro z hz
    obtain ⟨c, hc⟩ := hlive z hz
    rw [hc]
    exact ⟨_, rfl⟩

end

/-- Changing the value of one element is to change the function. -/
theorem modify_filterMap {f g : α → Option β} {xs : List α} (hnd : xs.Nodup)
    (hf : ∀ x ∈ xs, ∃ y, f x = some y) {x : α} (hx : x ∈ xs) {u : β → β}
    (hg : ∀ z ∈ xs, g z = (f z).map (if z = x then u else id)) :
    (xs.filterMap f).modify (xs.idxOf x) u = xs.filterMap g := by
  have hlive : ∀ z ∈ xs, ∃ y, g z = some y := by
    intro z hz
    obtain ⟨y, hy⟩ := hf z hz
    rw [hg z hz, hy]
    exact ⟨_, rfl⟩
  apply List.ext_getElem?
  intro i
  rw [List.getElem?_modify, getElem?_filterMap_of_some hf, getElem?_filterMap_of_some hlive]
  cases hi : xs[i]? with
  | none => rfl
  | some z =>
    have hz := List.mem_of_getElem? hi
    rw [Option.bind_some, Option.bind_some, hg z hz]
    have hxz : xs.idxOf x = i ↔ z = x := by
      rw [eq_comm, idxOf_eq_iff hnd hx, hi, Option.some.injEq]
    obtain ⟨y, hy⟩ := hf z hz
    rw [hy]
    refine congrArg some (show (if xs.idxOf x = i then u y else y) = _ from ?_)
    by_cases hzx : z = x
    · rw [if_pos (hxz.mpr hzx), if_pos hzx]
    · rw [if_neg (fun h => hzx (hxz.mp h)), if_neg hzx]
      rfl

end

namespace Renaming

variable {κ : Type}

/-- A definition of a copy with some of its transitions. -/
def linkDefinition (ρ : Renaming) (root d : DefinitionId) (ts : List TransitionId)
    (x : Definition κ) : Definition κ :=
  { ρ.placeDefinition root d x with transitions := ts.map ρ.transition }

/-- A state of a copy that holds some transitions. -/
def linkState (ρ : Renaming) (g : Graph κ) (ts : List TransitionId) (s : StateId)
    (st : State κ) : State κ :=
  { ρ.placeState st with
    incoming := (ts.filter fun t => g.target? t = some s).map ρ.transition
    outgoing := (ts.filter fun t => g.source? t = some s).map ρ.transition }

def linkTransition (ρ : Renaming) (tr : Transition κ) : Transition κ :=
  { tr with
    owner := ρ.definition tr.owner
    source := ρ.state tr.source
    target := ρ.state tr.target }

end Renaming

namespace Graph

variable {κ : Type}

/-- Both ends of the transition lie within the definition. -/
def endsInside (g : Graph κ) (d : DefinitionId) (t : TransitionId) : Bool :=
  (g.transition? t).any fun tr =>
    (g.walkStates d).contains tr.source && (g.walkStates d).contains tr.target

/-- The transitions that a copy of the definition has. -/
def copiedTransitions (g : Graph κ) (d : DefinitionId) : List TransitionId :=
  (g.walkTransitions d).filter (g.endsInside d)

/-- Each node goes to its place in the walk. -/
def placement (g : Graph κ) (d : DefinitionId) : Renaming where
  definition e := ⟨(g.walkDefinitions d).idxOf e⟩
  state s := ⟨(g.walkStates d).idxOf s⟩
  transition t := ⟨(g.copiedTransitions d).idxOf t⟩

/-- The definitions as they are once their transitions are copied. -/
def linkedDefinitions (g : Graph κ) (d : DefinitionId)
    (ds : List DefinitionId) : List (Definition κ) :=
  ds.filterMap fun e => (g.definition? e).map fun x =>
    (g.placement d).linkDefinition d e (x.transitions.filter (g.endsInside d)) x

def unlinkedDefinitions (g : Graph κ) (d : DefinitionId)
    (ds : List DefinitionId) : List (Definition κ) :=
  ds.filterMap fun e => (g.definition? e).map ((g.placement d).placeDefinition d e)

def linkedStates (g : Graph κ) (d : DefinitionId) (ts : List TransitionId) : List (State κ) :=
  (g.walkStates d).filterMap fun s => (g.state? s).map ((g.placement d).linkState g ts s)

def linkedTransitions (g : Graph κ) (d : DefinitionId)
    (ts : List TransitionId) : List (Transition κ) :=
  ts.filterMap fun t => (g.transition? t).map (g.placement d).linkTransition

/-- The copy of a definition. -/
def copyOf (g : Graph κ) (d : DefinitionId) : Graph κ where
  definitions := .ofList (g.linkedDefinitions d (g.walkDefinitions d))
  states := .ofList (g.linkedStates d (g.copiedTransitions d))
  transitions := .ofList (g.linkedTransitions d (g.copiedTransitions d))
  root := ⟨0⟩

/-- A copy under way that has some definitions and some transitions. -/
def linking (g : Graph κ) (d : DefinitionId) (ds : List (Definition κ)) (ts : List TransitionId) :
    Copier (Graph κ) NodeRef where
  target :=
    { definitions := .ofList ds
      states := .ofList (g.linkedStates d ts)
      transitions := .ofList (g.linkedTransitions d ts)
      root := .detached }
  map := (ts.reverse.map NodeRef.transition ++ (g.nodesBelow g.definitions.size d).reverse).map
    fun k => (k, (g.placement d).node k)

variable {g : Graph κ} {d e : DefinitionId} {s : StateId} {t : TransitionId} {x : Definition κ}
  {st : State κ} {tr : Transition κ} {ds : List (Definition κ)} {ts : List TransitionId}
  {k : NodeRef}

/-- The definition copied becomes the root. -/
theorem placement_root (hd : ∃ x, g.definition? d = some x) :
    (g.placement d).definition d = ⟨0⟩ := by
  obtain ⟨x, hx⟩ := hd
  show (⟨(g.walkDefinitions d).idxOf d⟩ : DefinitionId) = _
  rw [walkDefinitions_cons hx, List.idxOf_cons_self]

theorem copiedTransitions_eq :
    g.copiedTransitions d = (g.walkDefinitions d).flatMap fun e =>
      (g.definition? e).elim [] fun x => x.transitions.filter (g.endsInside d) := by
  rw [copiedTransitions, walkTransitions_eq, List.filter_flatMap]
  refine List.flatMap_congr fun e _ => ?_
  cases g.definition? e <;> rfl

section
variable (h : g.Tied) (hd : ∃ x, g.definition? d = some x)
include h hd

theorem walkDefinitions_live (he : e ∈ g.walkDefinitions d) : ∃ x, g.definition? e = some x :=
  definition_live_of_within hd ((mem_walkDefinitions h hd).mp he)

theorem walkStates_live (hs : s ∈ g.walkStates d) : ∃ st, g.state? s = some st :=
  ((mem_walkStates h hd).mp hs).imp fun _ hst => hst.1

/-- The transitions of a copy are live, belong to a definition within and have both ends within. -/
theorem mem_copiedTransitions :
    t ∈ g.copiedTransitions d ↔ ∃ tr, g.transition? t = some tr ∧ tr.owner ∈ g.walkDefinitions d ∧
      tr.source ∈ g.walkStates d ∧ tr.target ∈ g.walkStates d := by
  rw [copiedTransitions_eq, List.mem_flatMap]
  constructor
  · rintro ⟨e, he, ht⟩
    obtain ⟨x, hx⟩ := walkDefinitions_live h hd he
    rw [hx, Option.elim_some, List.mem_filter] at ht
    obtain ⟨tr, htr, rfl⟩ := h.listed.transition_live hx ht.1
    have hends := ht.2
    rw [endsInside, htr, Option.any_some, Bool.and_eq_true, List.contains_iff_mem,
      List.contains_iff_mem] at hends
    exact ⟨tr, htr, he, hends⟩
  · rintro ⟨tr, htr, ho, hs, ht⟩
    obtain ⟨x, hx⟩ := walkDefinitions_live h hd ho
    refine ⟨tr.owner, ho, ?_⟩
    rw [hx, Option.elim_some, List.mem_filter]
    refine ⟨h.listed.transition_mem hx htr, ?_⟩
    rw [endsInside, htr, Option.any_some, Bool.and_eq_true, List.contains_iff_mem,
      List.contains_iff_mem]
    exact ⟨hs, ht⟩

theorem nodup_copiedTransitions : (g.copiedTransitions d).Nodup := by
  refine List.Nodup.filter _ ?_
  rw [walkTransitions_eq]
  refine List.nodup_flatMap.mpr ⟨fun e he => ?_, ?_⟩
  · obtain ⟨x, hx⟩ := walkDefinitions_live h hd he
    rw [hx]
    exact h.listed.nodup_transitions hx
  · refine List.Pairwise.imp_of_mem ?_ (nodup_walkDefinitions h hd)
    intro e f he hf hne t hte htf
    obtain ⟨x, hx⟩ := walkDefinitions_live h hd he
    obtain ⟨y, hy⟩ := walkDefinitions_live h hd hf
    simp only [hx, hy, Option.elim_some] at hte htf
    exact hne (h.listed.transitions.owner_unique (transitionsOf?_of hx)
      (transitionsOf?_of hy) hte htf)

/-- The walk numbers its nodes in order. -/
theorem aligned_placement :
    Aligned (g.placement d) 0 0 (g.nodesBelow g.definitions.size d) := by
  have hdefs := nodup_walkDefinitions h hd
  have hstates := nodup_walkStates h hd
  have hsuffix (ks ls : List NodeRef) (hsplit : g.nodesBelow g.definitions.size d = ks ++ ls) :
      Aligned (g.placement d) (ks.filterMap (·.definition?)).length
        (ks.filterMap (·.state?)).length ls := by
    induction ls generalizing ks with
    | nil => trivial
    | cons k ls ih =>
      have hrest := ih (ks ++ [k]) (by rw [hsplit, List.append_assoc]; rfl)
      simp only [List.filterMap_append, List.length_append] at hrest
      cases k with
      | definition e =>
        refine ⟨?_, hrest⟩
        have hw : g.walkDefinitions d =
            ks.filterMap (·.definition?) ++ e :: ls.filterMap (·.definition?) := by
          rw [walkDefinitions, hsplit, List.filterMap_append]
          rfl
        rw [hw] at hdefs
        show (⟨(g.walkDefinitions d).idxOf e⟩ : DefinitionId) = _
        rw [hw, List.idxOf_append_of_notMem, List.idxOf_cons_self, Nat.add_zero]
        exact fun hm => (List.nodup_append.mp hdefs).2.2 e hm e List.mem_cons_self rfl
      | state s =>
        refine ⟨?_, hrest⟩
        have hw : g.walkStates d = ks.filterMap (·.state?) ++ s :: ls.filterMap (·.state?) := by
          rw [walkStates_eq, hsplit, List.filterMap_append]
          rfl
        rw [hw] at hstates
        show (⟨(g.walkStates d).idxOf s⟩ : StateId) = _
        rw [hw, List.idxOf_append_of_notMem, List.idxOf_cons_self, Nat.add_zero]
        exact fun hm => (List.nodup_append.mp hstates).2.2 s hm s List.mem_cons_self rfl
      | transition t =>
        have hm : .transition t ∈ g.nodesBelow g.definitions.size d := by
          rw [hsplit]
          exact List.mem_append_right _ List.mem_cons_self
        exact absurd hm transition_not_mem_nodesBelow
  exact hsuffix [] _ rfl

end

/-! ## What a copy under way knows -/

theorem get?_linking_definition :
    (g.linking d ds ts).get? (.definition e) =
    if e ∈ g.walkDefinitions d then some (.definition ((g.placement d).definition e))
      else none := by
  rw [Copier.get?, linking, Copier.lookup_map]
  have hmem : (.definition e ∈ ts.reverse.map NodeRef.transition ++
      (g.nodesBelow g.definitions.size d).reverse) ↔ e ∈ g.walkDefinitions d := by
    simp only [List.mem_append, List.mem_map, List.mem_reverse, reduceCtorEq,
      and_false, exists_false, false_or, walkDefinitions, List.mem_filterMap]
    constructor
    · intro hk
      exact ⟨_, hk, rfl⟩
    · rintro ⟨k, hk, he⟩
      cases k <;> cases he
      exact hk
  simp only [hmem]
  rfl

theorem get?_linking_state : (g.linking d ds ts).get? (.state s) =
    if s ∈ g.walkStates d then some (.state ((g.placement d).state s)) else none := by
  rw [Copier.get?, linking, Copier.lookup_map]
  have hmem : (.state s ∈ ts.reverse.map NodeRef.transition ++
      (g.nodesBelow g.definitions.size d).reverse) ↔ s ∈ g.walkStates d := by
    simp only [List.mem_append, List.mem_map, List.mem_reverse, reduceCtorEq,
      and_false, exists_false, false_or, walkStates_eq, List.mem_filterMap]
    constructor
    · intro hk
      exact ⟨_, hk, rfl⟩
    · rintro ⟨k, hk, he⟩
      cases k <;> cases he
      exact hk
  simp only [hmem]
  rfl

theorem get?_linking_transition : (g.linking d ds ts).get? (.transition t) =
    if t ∈ ts then some (.transition ((g.placement d).transition t)) else none := by
  rw [Copier.get?, linking, Copier.lookup_map]
  have hmem : (.transition t ∈ ts.reverse.map NodeRef.transition ++
      (g.nodesBelow g.definitions.size d).reverse) ↔ t ∈ ts := by
    simp [transition_not_mem_nodesBelow]
  simp only [hmem]
  rfl

theorem endsCopied_linking : endsCopied g (g.linking d ds ts) t = g.endsInside d t := by
  have hcontains (s : StateId) :
      (g.linking d ds ts).contains (.state s) = (g.walkStates d).contains s := by
    rw [Copier.contains, get?_linking_state, Bool.eq_iff_iff, List.contains_iff_mem]
    split <;> simp [*]
  simp only [endsCopied, endsInside, hcontains]

/-! ## One transition -/

section
variable (h : g.Tied) (hd : ∃ x, g.definition? d = some x)
include h hd

/-- Listing a transition at one of its ends. -/
theorem modify_walkStates
    (hs : s ∈ g.walkStates d) (u : State κ → State κ) (F F' : StateId → State κ → State κ)
    (hF : ∀ q st, g.state? q = some st → F' q st = if q = s then u (F q st) else F q st) :
    (Arena.ofList ((g.walkStates d).filterMap fun q => (g.state? q).map (F q))).modify
        ((g.placement d).state s).index u =
      Arena.ofList ((g.walkStates d).filterMap fun q => (g.state? q).map (F' q)) := by
  rw [Arena.modify_ofList]
  congr 1
  refine modify_filterMap (nodup_walkStates h hd) (fun q hq => ?_) hs (fun q hq => ?_)
  · obtain ⟨st, hst⟩ := walkStates_live h hd hq
    exact ⟨F q st, by rw [hst]; rfl⟩
  · obtain ⟨st, hst⟩ := walkStates_live h hd hq
    rw [hst]
    refine congrArg some ?_
    rw [hF q st hst]
    split <;> rfl

/-- A copied transition is listed at the copies of its ends. -/
theorem list_at_ends (hs : tr.source ∈ g.walkStates d) (ht : tr.target ∈ g.walkStates d)
    (htr : g.transition? t = some tr) :
    ((Arena.ofList (g.linkedStates d ts)).modify ((g.placement d).state tr.source).index fun y =>
        { y with outgoing := y.outgoing ++ [(g.placement d).transition t] }).modify
      ((g.placement d).state tr.target).index (fun y =>
        { y with incoming := y.incoming ++ [(g.placement d).transition t] }) =
      Arena.ofList (g.linkedStates d (ts ++ [t])) := by
  have hsrc := source?_of htr
  have htgt := target?_of htr
  rw [linkedStates, modify_walkStates h hd hs _ _ fun q st =>
    { (g.placement d).linkState g ts q st with
      outgoing := ((ts ++ [t]).filter fun u => g.source? u = some q).map
        (g.placement d).transition }]
  · rw [linkedStates]
    refine modify_walkStates h hd ht _ _ _ fun q st hq => ?_
    rw [List.filter_append]
    by_cases hqt : q = tr.target
    · subst hqt
      simp [Renaming.linkState, htgt, List.filter_append]
    · have hne : ¬ tr.target = q := fun he => hqt he.symm
      simp [Renaming.linkState, htgt, hqt, hne, List.filter_append]
  · intro q st hq
    by_cases hqs : q = tr.source
    · subst hqs
      simp [Renaming.linkState, hsrc, List.filter_append]
    · have hne : ¬ tr.source = q := fun he => hqs he.symm
      simp [Renaming.linkState, hsrc, hqs, hne, List.filter_append]

omit h hd in
theorem length_linkedTransitions (hts : ∀ u ∈ ts, ∃ ur, g.transition? u = some ur) :
    (g.linkedTransitions d ts).length = ts.length := by
  refine length_filterMap_of_some fun u hu => ?_
  obtain ⟨ur, hur⟩ := hts u hu
  rw [hur]
  exact ⟨_, rfl⟩

omit h hd in
/-- A clone of a transition that is moved to the copies of its owner and its ends is the next
copy. -/
theorem push_linkedTransitions (hts : ∀ u ∈ ts, ∃ ur, g.transition? u = some ur)
    (htr : g.transition? t = some tr) (hρ : (g.placement d).transition t = ⟨ts.length⟩) :
    ((Arena.ofList (g.linkedTransitions d ts)).push tr).modify ((g.placement d).transition t).index
      (fun y =>
        { y with
          owner := (g.placement d).definition tr.owner
          source := (g.placement d).state tr.source
          target := (g.placement d).state tr.target }) =
            .ofList (g.linkedTransitions d (ts ++ [t])) := by
  have hlast : g.linkedTransitions d (ts ++ [t]) =
      g.linkedTransitions d ts ++ [(g.placement d).linkTransition tr] := by
    rw [linkedTransitions, List.filterMap_append, List.filterMap_cons, htr]
    rfl
  have hpush := Arena.modify_push (.ofList (g.linkedTransitions d ts)) tr fun y =>
    { y with
      owner := (g.placement d).definition tr.owner
      source := (g.placement d).state tr.source
      target := (g.placement d).state tr.target }
  rw [Arena.size_ofList, length_linkedTransitions hts] at hpush
  rw [hlast, ← Arena.push_ofList, hρ]
  exact hpush

omit h hd in
/-- A transition whose owner and ends have copies is moved to them and listed there. -/
theorem deepenTransition_known {c : Copier (Graph κ) NodeRef} {n : Nat} {t : TransitionId}
    {owner : DefinitionId} {source target : StateId} (htr : c.target.transition? t = some tr)
    (howner : c.get? (.definition tr.owner) = some (.definition owner))
    (hsource : c.get? (.state tr.source) = some (.state source))
    (htarget : c.get? (.state tr.target) = some (.state target)) :
    deepenTransition (Copier.copyWithin copyRule g n) t c = ((), { c with
      target :=
        ((c.target.modifyTransition t fun y => { y with owner, source, target }).modifyState source
        fun y => { y with outgoing := y.outgoing ++ [t] }).modifyState target
        fun y => { y with incoming := y.incoming ++ [t] } }) := by
  rw [deepenTransition, Copier.get_bind, htr]
  dsimp only
  rw [Copier.bind_of (Copier.copyWithin_known howner), Copier.get_bind, hsource, htarget]
  rfl

theorem copy_transition (ds : List (Definition κ)) (hts : ∀ u ∈ ts, ∃ ur, g.transition? u = some ur)
    (htr : g.transition? t = some tr) (ho : tr.owner ∈ g.walkDefinitions d)
    (hs : tr.source ∈ g.walkStates d) (ht : tr.target ∈ g.walkStates d) (hnew : t ∉ ts)
    (hρ : (g.placement d).transition t = ⟨ts.length⟩) :
    Copier.copy copyRule g (.transition t) (g.linking d ds ts) =
      (some (.transition ((g.placement d).transition t)), g.linking d ds (ts ++ [t])) := by
  have hnext : (g.linking d ds ts).target.nextTransition = (g.placement d).transition t := by
    rw [hρ, ← length_linkedTransitions hts, ← Arena.size_ofList]
    rfl
  obtain ⟨n, hn⟩ : ∃ n, copyRule.size g = n + 1 := by
    have hlt := transition?_lt htr
    refine ⟨g.definitions.size + g.states.size + g.transitions.size - 1, ?_⟩
    show g.definitions.size + g.states.size + g.transitions.size = _
    omega
  let c₁ := (g.linking d ds ts).record (.transition t) (.transition ((g.placement d).transition t))
    { (g.linking d ds ts).target with
      transitions := (g.linking d ds ts).target.transitions.push tr }
  have hclone : copyRule.clone? g (.transition t) (g.linking d ds ts).target =
      some (.transition ((g.placement d).transition t), c₁.target) := by
    show cloneNode g (.transition t) _ = _
    rw [cloneNode, htr, ← hnext]
    rfl
  have hfresh : (g.linking d ds ts).get? (.transition t) = none := by
    rw [get?_linking_transition, if_neg hnew]
  have hknown {k : NodeRef} (hk : k ≠ .transition t) : c₁.get? k = (g.linking d ds ts).get? k := by
    show List.lookup k ((.transition t, _) :: _) = _
    rw [List.lookup_cons, beq_eq_false_iff_ne.mpr hk]
    rfl
  have hget : c₁.target.transition? ((g.placement d).transition t) = some tr := by
    rw [← hnext]
    show ((g.linking d ds ts).target.transitions.push tr).get?
      (g.linking d ds ts).target.transitions.size = _
    rw [Arena.get?_push, if_pos rfl]
  have howner : c₁.get? (.definition tr.owner) =
      some (.definition ((g.placement d).definition tr.owner)) := by
    rw [hknown (by simp), get?_linking_definition, if_pos ho]
  have hsource : c₁.get? (.state tr.source) = some (.state ((g.placement d).state tr.source)) := by
    rw [hknown (by simp), get?_linking_state, if_pos hs]
  have htarget : c₁.get? (.state tr.target) = some (.state ((g.placement d).state tr.target)) := by
    rw [hknown (by simp), get?_linking_state, if_pos ht]
  rw [Copier.copy, hn, Copier.copyWithin_new hfresh hclone]
  congr 1
  show (deepenTransition (Copier.copyWithin copyRule g n) ((g.placement d).transition t) c₁).2 = _
  rw [deepenTransition_known hget howner hsource htarget]
  have hmap : (ts ++ [t]).reverse.map NodeRef.transition ++
      (g.nodesBelow g.definitions.size d).reverse = .transition t ::
        (ts.reverse.map NodeRef.transition ++ (g.nodesBelow g.definitions.size d).reverse) := by
    rw [List.reverse_append, List.map_append]
    rfl
  rw [linking, ← list_at_ends h hd hs ht htr, ← push_linkedTransitions hts htr hρ, hmap]
  rfl

/-! ## All transitions -/

/-- The transitions that a copy has from some definitions. -/
def innerTransitions (g : Graph κ) (d : DefinitionId)
    (es : List DefinitionId) : List TransitionId :=
  es.flatMap fun e => (g.definition? e).elim [] fun x => x.transitions.filter (g.endsInside d)

/-- Transitions are copied in order, each under the next handle. -/
theorem copy_transitions (ds : List (Definition κ)) (ts us rest : List TransitionId)
    (hsplit : g.copiedTransitions d = ts ++ us ++ rest) :
    (us.filterMapM fun t => do
      pure ((← Copier.copy copyRule g (.transition t)).bind (·.transition?)) :
      GraphCopying κ (List TransitionId)) (g.linking d ds ts) =
      (us.map (g.placement d).transition, g.linking d ds (ts ++ us)) := by
  induction us generalizing ts with
  | nil =>
    rw [List.append_nil]
    rfl
  | cons t us ih =>
    have hnd := nodup_copiedTransitions h hd
    have hmem {u : TransitionId} (hu : u ∈ ts ++ t :: us ++ rest) := by
      rw [← hsplit] at hu
      exact (mem_copiedTransitions h hd).mp hu
    obtain ⟨tr, htr, ho, hs, ht⟩ := hmem (u := t) (by simp)
    have hnew : t ∉ ts := by
      rw [hsplit, List.append_assoc] at hnd
      exact fun hm => (List.nodup_append.mp hnd).2.2 t hm t List.mem_cons_self rfl
    have hρ : (g.placement d).transition t = ⟨ts.length⟩ := by
      show (⟨(g.copiedTransitions d).idxOf t⟩ : TransitionId) = _
      rw [hsplit, List.append_assoc, List.idxOf_append_of_notMem hnew, List.cons_append,
        List.idxOf_cons_self, Nat.add_zero]
    have hcopy := copy_transition h hd ds (fun u hu => by
      obtain ⟨ur, hur, -⟩ := hmem (u := u) (by simp [hu])
      exact ⟨ur, hur⟩) htr ho hs ht hnew hρ
    have hrest := ih (ts ++ [t]) (by rw [hsplit]; simp)
    have hone : (do pure ((← Copier.copy copyRule g (.transition t)).bind (·.transition?)) :
        GraphCopying κ (Option TransitionId)) (g.linking d ds ts) =
        (some ((g.placement d).transition t), g.linking d ds (ts ++ [t])) := by
      rw [Copier.bind_of hcopy]
      rfl
    rw [List.filterMapM_cons]
    refine (Copier.bind_of hone).trans ((Copier.bind_of hrest).trans ?_)
    rw [List.append_assoc]
    rfl

omit h hd in
theorem length_linkedDefinitions {es : List DefinitionId}
    (hes : ∀ e ∈ es, ∃ x, g.definition? e = some x) :
    (g.linkedDefinitions d es).length = es.length := by
  refine length_filterMap_of_some fun e he => ?_
  obtain ⟨x, hx⟩ := hes e he
  rw [hx]
  exact ⟨_, rfl⟩

omit h hd in
theorem length_unlinkedDefinitions {es : List DefinitionId}
    (hes : ∀ e ∈ es, ∃ x, g.definition? e = some x) :
    (g.unlinkedDefinitions d es).length = es.length := by
  refine length_filterMap_of_some fun e he => ?_
  obtain ⟨x, hx⟩ := hes e he
  rw [hx]
  exact ⟨_, rfl⟩

omit h hd in
theorem unlinkedDefinitions_cons (hx : g.definition? e = some x) (rest : List DefinitionId) :
    g.unlinkedDefinitions d (e :: rest) =
      (g.placement d).placeDefinition d e x :: g.unlinkedDefinitions d rest := by
  rw [unlinkedDefinitions, List.filterMap_cons, hx]
  rfl

omit h hd in
theorem innerTransitions_concat (hx : g.definition? e = some x) (es : List DefinitionId) :
    g.innerTransitions d (es ++ [e]) =
      g.innerTransitions d es ++ x.transitions.filter (g.endsInside d) := by
  rw [innerTransitions, List.flatMap_append, List.flatMap_cons, hx]
  simp [innerTransitions]

omit h hd in
/-- A definition that receives its transitions joins those that have theirs. -/
theorem modify_unlinkedDefinitions {es : List DefinitionId}
    (hes : ∀ e ∈ es, ∃ x, g.definition? e = some x) (hx : g.definition? e = some x)
    (rest : List DefinitionId) :
    (Arena.ofList (g.linkedDefinitions d es ++ g.unlinkedDefinitions d (e :: rest))).modify
      es.length
      (fun y =>
        { y with transitions := (x.transitions.filter (g.endsInside d)).map (g.placement
          d).transition }) =
      .ofList (g.linkedDefinitions d (es ++ [e]) ++ g.unlinkedDefinitions d rest) := by
  have hlinked : g.linkedDefinitions d (es ++ [e]) = g.linkedDefinitions d es ++
      [(g.placement d).linkDefinition d e (x.transitions.filter (g.endsInside d)) x] := by
    rw [linkedDefinitions, List.filterMap_append, List.filterMap_cons, hx]
    rfl
  have hmodify := Arena.modify_append (.ofList (g.linkedDefinitions d es))
    ((g.placement d).placeDefinition d e x) (g.unlinkedDefinitions d rest) fun y =>
      { y with transitions := (x.transitions.filter
        (g.endsInside d)).map (g.placement d).transition }
  rw [Arena.size_ofList, length_linkedDefinitions hes, Arena.ofList, Arena.append_append,
    Arena.append_append] at hmodify
  rw [unlinkedDefinitions_cons hx, hlinked, List.append_assoc]
  exact hmodify

/-- The copies of the transitions of one definition. -/
theorem linkTransitions_eq (es rest : List DefinitionId)
    (hsplit : g.walkDefinitions d = es ++ e :: rest) :
    linkTransitions g ⟨es.length⟩
      (g.linking d (g.linkedDefinitions d es ++ g.unlinkedDefinitions d (e :: rest))
        (g.innerTransitions d es)) =
      ((), g.linking d (g.linkedDefinitions d (es ++ [e]) ++ g.unlinkedDefinitions d rest)
        (g.innerTransitions d (es ++ [e]))) := by
  have hlive {f : DefinitionId} (hf : f ∈ es ++ e :: rest) : ∃ x, g.definition? f = some x :=
    walkDefinitions_live h hd (hsplit ▸ hf)
  obtain ⟨x, hx⟩ := hlive (f := e) (by simp)
  have hes : ∀ f ∈ es, ∃ y, g.definition? f = some y :=
    fun f hf => hlive (List.mem_append_left _ hf)
  let c := g.linking d (g.linkedDefinitions d es ++ g.unlinkedDefinitions d (e :: rest))
    (g.innerTransitions d es)
  have hget : c.target.definition? ⟨es.length⟩ = some ((g.placement d).placeDefinition d e x) := by
    show (Arena.ofList _).get? es.length = _
    rw [Arena.get?_ofList, unlinkedDefinitions_cons hx, ← length_linkedDefinitions hes,
      List.getElem?_append_right (Nat.le_refl _), Nat.sub_self]
    rfl
  have hcopies :=
    copy_transitions h hd (g.linkedDefinitions d es ++ g.unlinkedDefinitions d (e :: rest))
    (g.innerTransitions d es) (x.transitions.filter (g.endsInside d))
    (g.innerTransitions d rest) (by
      rw [copiedTransitions_eq, hsplit, List.flatMap_append, List.flatMap_cons, hx,
        List.append_assoc]
      rfl)
  have hinside : ((g.placement d).placeDefinition d e x).transitions.filter (endsCopied g c) =
      x.transitions.filter (g.endsInside d) :=
    List.filter_congr fun t _ => endsCopied_linking
  rw [linkTransitions, Copier.get_bind, hget]
  dsimp only
  rw [hinside, Copier.bind_of hcopies, innerTransitions_concat hx]
  exact congrArg (fun a => ((), (⟨⟨a, _, _, _⟩, _⟩ : Copier (Graph κ) NodeRef)))
    (modify_unlinkedDefinitions hes hx rest)

/-- All transitions of a copy, definition by definition. -/
theorem linkTransitions_all (es rest : List DefinitionId)
    (hsplit : g.walkDefinitions d = es ++ rest) (entries : List (Nat × Definition κ))
    (hentries : entries.map (·.1) = List.range' es.length rest.length) :
    (forIn entries PUnit.unit fun p _ => do
      linkTransitions g ⟨p.1⟩
      pure (ForInStep.yield PUnit.unit) : GraphCopying κ PUnit)
      (g.linking d (g.linkedDefinitions d es ++ g.unlinkedDefinitions d rest)
        (g.innerTransitions d es)) =
      (PUnit.unit, g.linking d (g.linkedDefinitions d (g.walkDefinitions d))
        (g.copiedTransitions d)) := by
  induction rest generalizing es entries with
  | nil =>
    obtain rfl : entries = [] := List.map_eq_nil_iff.mp hentries
    rw [List.append_nil] at hsplit
    rw [← hsplit, copiedTransitions_eq]
    show (PUnit.unit, g.linking d (_ ++ []) _) = _
    rw [List.append_nil]
    rfl
  | cons e rest ih =>
    cases entries with
    | nil => cases hentries
    | cons p entries =>
      rw [List.map_cons, List.length_cons, List.range'_succ, List.cons.injEq] at hentries
      have hfirst := linkTransitions_eq h hd es rest hsplit
      rw [← hentries.1] at hfirst
      rw [List.forIn_cons]
      have hone : (do
          linkTransitions g ⟨p.1⟩
          pure (ForInStep.yield PUnit.unit) : GraphCopying κ (ForInStep PUnit))
          (g.linking d (g.linkedDefinitions d es ++ g.unlinkedDefinitions d (e :: rest))
            (g.innerTransitions d es)) = _ :=
        Copier.bind_of hfirst
      refine (Copier.bind_of hone).trans ?_
      exact ih (es ++ [e]) (by rw [hsplit, List.append_assoc]; rfl) entries
        (by rw [hentries.2, List.length_append]; rfl)

/-! ## The whole copy -/

/-- The definitions and states of a copy, before its transitions. -/
theorem copy_nodes :
    Copier.copy copyRule g (.definition d) ⟨empty, []⟩ =
      (some (.definition ((g.placement d).definition d)),
        g.linking d (g.unlinkedDefinitions d (g.walkDefinitions d)) []) := by
  obtain ⟨x, hx⟩ := hd
  have hready : g.Ready (g.placement d) ⟨empty, []⟩ (g.nodesBelow g.definitions.size d) := by
    refine ⟨fun _ _ => rfl, nodup_nodesBelow h ⟨x, hx⟩ (Nat.le_add_right _ _), fun e he => ?_,
      fun s hs => ?_, aligned_placement h ⟨x, hx⟩⟩
    · exact definition_live_of_within ⟨x, hx⟩
        ((definition_mem_nodesBelow h ⟨x, hx⟩ (Nat.le_add_right _ _)).mp he)
    · exact ((state_mem_nodesBelow h ⟨x, hx⟩ (Nat.le_add_right _ _)).mp hs).imp fun _ hst => hst.1
  have hsize : copyRule.size g = g.definitions.size + g.states.size + g.transitions.size := rfl
  rw [Copier.copy, (copiesDefinition h (copyRule.size g)).1 hx (Nat.le_refl _)
    (Nat.le_add_right _ _) (by omega) (fun q _ => by rw [if_pos rfl]; rfl) hready]
  have hdefinitions : g.placedDefinitions (g.placement d) d (g.nodesBelow g.definitions.size d) =
      g.unlinkedDefinitions d (g.walkDefinitions d) := by
    rw [unlinkedDefinitions, walkDefinitions, List.filterMap_filterMap]
    rfl
  have hstates : g.placedStates (g.placement d) (g.nodesBelow g.definitions.size d) =
      g.linkedStates d [] := by
    rw [linkedStates, walkStates_eq, List.filterMap_filterMap]
    rfl
  rw [grow, hdefinitions, hstates, List.append_nil]
  rfl

theorem copyTree_eq :
    copyTree g d ⟨empty, []⟩ = (some ⟨0⟩,
      g.linking d (g.linkedDefinitions d (g.walkDefinitions d)) (g.copiedTransitions d)) := by
  have hlength := length_unlinkedDefinitions (d := d) fun e he => walkDefinitions_live h hd he
  have hlink := linkTransitions_all h hd [] (g.walkDefinitions d) rfl
    (Arena.ofList (g.unlinkedDefinitions d (g.walkDefinitions d))).entries (by
      rw [Arena.entries_ofList, hlength]
      rfl)
  rw [copyTree, Copier.bind_of (copy_nodes h hd)]
  refine (Copier.bind_of rfl).trans ((Copier.bind_of hlink).trans ?_)
  rw [placement_root hd]
  rfl

/-- Copying a live definition succeeds, and what comes out is the copy in closed form. -/
theorem copyDefinition_eq :
    g.copyDefinition d = .ok (g.copyOf d,
      ⟨(g.linking d (g.linkedDefinitions d (g.walkDefinitions d))
        (g.copiedTransitions d)).map⟩) := by
  obtain ⟨x, hx⟩ := hd
  rw [copyDefinition, definition_ok_iff.mpr hx]
  show Except.ok (({ (copyTree g d ⟨empty, []⟩).2.target with
    root := (copyTree g d ⟨empty, []⟩).1.getD (copyTree g d ⟨empty, []⟩).2.target.root } : Graph κ),
    (⟨(copyTree g d ⟨empty, []⟩).2.map⟩ : GraphCopy)) = _
  rw [copyTree_eq h ⟨x, hx⟩]
  rfl

end

end Graph
end Statechart
