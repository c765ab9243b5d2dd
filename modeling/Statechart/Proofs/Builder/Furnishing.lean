import Statechart.Proofs.Graph.Binding

/-!
# Furnishing a definition

Before anything is nested or linked a blueprint gives its definition states: those that it declares,
those that it only names, and the ends of its transitions that are not found around. No step of this
fails, and no other definition gains anything.
-/

namespace Statechart

/-- The names that a blueprint gives to states, or to ends of its transitions. -/
def Blueprint.declared {κ : Type} (b : Blueprint κ) : List String :=
  b.states.map (·.name) ++ (b.initial.toList ++ b.final.toList ++ b.composites.map (·.1)) ++
    b.transitions.flatMap fun p => [p.source, p.target]

namespace Graph

variable {κ : Type} {g g' g'' : Graph κ} {d e : DefinitionId} {s : StateId} {x : Definition κ}
  {st : State κ} {name : String} {names names' : List String}

/-- The second graph is the first with more states in the definition, of these names at most. -/
structure Furnishes (g : Graph κ) (d : DefinitionId) (names : List String)
    (g' : Graph κ) : Prop where
  tied : g'.Tied
  widens : Widens (· = d) (fun _ => False) (fun _ => False) g g'
  transitions : g'.transitions = g.transitions
  size : g'.definitions.size = g.definitions.size
  nested : ∀ {s e}, g'.nestedIn s = some e → g.nestedIn s = some e
  named : ∀ {name}, (g'.stateNamed d name).isSome → (g.stateNamed d name).isSome ∨ name ∈ names

/-- The names at the ends of the plan stand for states. -/
def Bound (g : Graph κ) (d : DefinitionId) (p : TransitionPlan κ) : Prop :=
  ∀ name ∈ [p.source, p.target], ∃ s, g.Binds name d s

section
variable {p : TransitionPlan κ}

theorem Bound.ends (h : g.Bound d p) : ∃ s s', g.Binds p.source d s ∧ g.Binds p.target d s' := by
  obtain ⟨s, hs⟩ := h p.source (List.mem_cons_self ..)
  obtain ⟨s', hs'⟩ := h p.target (List.mem_cons_of_mem _ (List.mem_cons_self ..))
  exact ⟨s, s', hs, hs'⟩

theorem Bound.widens {S T N : DefinitionId → Prop} (h : g.Bound d p) (hw : Widens S T N g g')
    (hg : g.Tied) (hg' : g'.Tied) : g'.Bound d p := by
  intro name hname
  obtain ⟨s, hs⟩ := h name hname
  exact hw.bound hg hg' hs

end

namespace Furnishes

theorem refl (hg : g.Tied) : g.Furnishes d [] g := ⟨hg, .refl g, rfl, rfl, id, .inl⟩

theorem trans (h : g.Furnishes d names g') (h' : g'.Furnishes d names' g'') :
    g.Furnishes d (names ++ names') g'' where
  tied := h'.tied
  widens := h.widens.trans h'.widens
  transitions := h'.transitions.trans h.transitions
  size := h'.size.trans h.size
  nested hs := h.nested (h'.nested hs)
  named {name} hs := by
    rcases h'.named hs with hs | hmem
    · exact (h.named hs).imp_right (List.mem_append_left names')
    · exact .inr (List.mem_append_right names hmem)

theorem mono (h : g.Furnishes d names g') (hnames : names ⊆ names') : g.Furnishes d names' g' :=
  { h with named := fun hs => (h.named hs).imp_right (hnames ·) }

theorem live (h : g.Furnishes d names g') (he : (g.definition? e).isSome) :
    (g'.definition? e).isSome :=
  h.widens.isSome_definition? he

theorem state_live (h : g.Furnishes d names g')
    (hs : (g.state? s).isSome) : (g'.state? s).isSome := by
  obtain ⟨st, hst⟩ := Option.isSome_iff_exists.mp hs
  obtain ⟨st', hst', -⟩ := h.widens.state hst
  rw [hst']
  rfl

theorem isSome_stateNamed (h : g.Furnishes d names g') (hg : g.Tied)
    (hs : (g.stateNamed e name).isSome) : (g'.stateNamed e name).isSome := by
  obtain ⟨s, hs⟩ := Option.isSome_iff_exists.mp hs
  rw [h.widens.stateNamed_of hg h.tied hs]
  rfl

end Furnishes

/-- A change of behaviors or marks alone. -/
theorem SameTies.furnishes (h : SameTies g g') (hg : g.Tied) (hg' : g'.Tied)
    (ht : g'.transitions = g.transitions) : g.Furnishes d [] g' where
  tied := hg'
  widens := h.widens ht
  transitions := ht
  size := h.size
  nested {s e} hs :=
    (h.symm.widens (S := fun _ => True) (T := fun _ => True) (N := fun _ => True)
    ht.symm).nestedIn hs
  named {name} hs := by
    obtain ⟨s, hs⟩ := Option.isSome_iff_exists.mp hs
    have hback := h.symm.widens (S := fun _ => True) (T := fun _ => True)
      (N := fun _ => True) ht.symm
    rw [hback.stateNamed_of hg' hg hs]
    exact .inl rfl

end Graph

namespace Editor

variable {κ α : Type} {g g' : Graph κ} {d : DefinitionId} {s : StateId} {x : Definition κ}
  {st : State κ} {name : String} {names : List String}

theorem Growing.tied_of_ok {y : Editor κ α} {a : α} (hy : Growing y) (hg : g.Tied)
    (h : y g = .ok a g') : g'.Tied := by
  have htied := (hy g hg).1
  rwa [h] at htied

theorem get_bind (f : Graph κ → Editor κ α) : (get >>= f) g = f g g := rfl

/-- Steps that succeed and furnish a definition do so one after the other. -/
theorem furnishes_forM {f : α → Editor κ Unit} {N : α → List String} {I : Graph κ → Prop}
    {P : α → Graph κ → Prop}
    (hI : ∀ {g g' : Graph κ} {ns : List String}, I g → g.Furnishes d ns g' → I g')
    (hP : ∀ {a : α} {g g' : Graph κ} {ns : List String}, g.Tied → P a g →
      g.Furnishes d ns g' → P a g')
    (hstep : ∀ {g : Graph κ}, g.Tied → I g → ∀ a, ∃ g', f a g = .ok () g' ∧
      g.Furnishes d (N a) g' ∧ P a g')
    (hg : g.Tied) (hi : I g) (as : List α) :
    ∃ g', as.forM f g = .ok () g' ∧ g.Furnishes d (as.flatMap N) g' ∧ ∀ a ∈ as, P a g' := by
  induction as generalizing g with
  | nil => exact ⟨g, rfl, .refl hg, nofun⟩
  | cons a as ih =>
    obtain ⟨g₁, hfirst, hfurnish, hp⟩ := hstep hg hi a
    obtain ⟨g₂, hrest, hfurnish', hps⟩ := ih hfurnish.tied (hI hi hfurnish)
    refine ⟨g₂, (forM_cons_of_ok hfirst).trans hrest, ?_, fun a' ha' => ?_⟩
    · rw [List.flatMap_cons]
      exact hfurnish.trans hfurnish'
    · rcases List.mem_cons.mp ha' with rfl | ha'
      · exact hP hfurnish.tied hp hfurnish'
      · exact hps a' ha'

/-! ## Single steps -/

section
variable (hg : g.Tied)
include hg

theorem addState_ok (hd : (g.definition? d).isSome) (spec : StateSpec κ)
    (hnone : g.stateNamed d spec.name = none) :
    ∃ g', addState d spec g = .ok g.nextState g' ∧ g.Furnishes d [spec.name] g' ∧
      g'.stateNamed d spec.name = some g.nextState := by
  obtain ⟨x, hx⟩ := Option.isSome_iff_exists.mp hd
  have hfresh (s : StateId) (st : State κ) (hst : g.state? s = some st) (howner : st.owner = d) :
      st.name ≠ spec.name :=
    Graph.stateNamed_none hg.listed hx hnone hst howner
  have hg' : (g.insertState d spec).Tied := hg.insertState hx hfresh
  have hnew : (g.insertState d spec).state? g.nextState = some (Graph.newState d spec) := by
    rw [Graph.state?_insertState, if_pos rfl]
  have hwidens : Graph.Widens (· = d) (fun _ => False) (fun _ => False) g (g.insertState d spec) :=
    Graph.widens_insertState (S := (· = d)) rfl spec
  refine ⟨g.insertState d spec, ?_, ⟨hg', hwidens, rfl, Arena.size_modify .., ?_, ?_⟩, ?_⟩
  · rw [addState, Graph.definition_ok_iff.mpr hx, hnone]
    rfl
  · intro s e hs
    obtain ⟨st, hst, hsub⟩ := Graph.nestedIn_eq_some.mp hs
    rw [Graph.state?_insertState] at hst
    split at hst
    · cases hst
      cases hsub
    · exact Graph.nestedIn_eq_some.mpr ⟨st, hst, hsub⟩
  · intro name hs
    obtain ⟨s, hs⟩ := Option.isSome_iff_exists.mp hs
    obtain ⟨st, hst, howner, hname⟩ := (Graph.stateNamed_eq_some hg').mp hs
    rw [Graph.state?_insertState] at hst
    split at hst
    · cases hst
      exact .inr (List.mem_singleton.mpr hname.symm)
    · rw [(Graph.stateNamed_eq_some hg).mpr ⟨st, hst, howner, hname⟩]
      exact .inl rfl
  · exact (Graph.stateNamed_eq_some hg').mpr ⟨_, hnew, rfl, rfl⟩

theorem setStateBehavior_ok (hs : (g.state? s).isSome) (a : Action) (b : Behavior κ) :
    ∃ g', setStateBehavior s a b g = .ok () g' ∧ g.Furnishes d [] g' := by
  obtain ⟨st, hst⟩ := Option.isSome_iff_exists.mp hs
  have hok : setStateBehavior s a b g = .ok () (g.modifyState s (·.setBehavior a b)) := by
    rw [setStateBehavior, Graph.state_ok_iff.mpr hst]
  have hties (st : State κ) : (st.setBehavior a b).ties = st.ties := by cases a <;> rfl
  have htied := (growing_setStateBehavior s a b).tied_of_ok hg hok
  exact ⟨_, hok, (Graph.SameTies.modifyState _ hties).furnishes hg htied rfl⟩

theorem setFallback_ok (hd : (g.definition? d).isSome) (a : Action) (b : Behavior κ) :
    ∃ g', setFallback d a b g = .ok () g' ∧ g.Furnishes d [] g' := by
  obtain ⟨x, hx⟩ := Option.isSome_iff_exists.mp hd
  have hok : setFallback d a b g = .ok () (g.modifyDefinition d fun x =>
      { x with fallback := fun a' => if a' = a then b else x.fallback a' }) := by
    rw [setFallback, Graph.definition_ok_iff.mpr hx]
  have htied := (growing_setFallback d a b).tied_of_ok hg hok
  have hsame := Graph.SameTies.modifyDefinition (g := g) (d := d)
    (fun x => { x with fallback := fun a' => if a' = a then b else x.fallback a' }) fun _ => rfl
  exact ⟨_, hok, hsame.furnishes hg htied rfl⟩

theorem setMark_ok (m : Mark) (hst : g.state? s = some st) (howner : st.owner = d) :
    ∃ g', setMark m d (some s) g = .ok () g' ∧ g.Furnishes d [] g' := by
  obtain ⟨x, hx⟩ := hg.placed.owner hst
  rw [howner] at hx
  have hcheck : checkOwner g d (some s) = .ok () := by
    rw [checkOwner, Graph.state_ok_iff.mpr hst]
    exact if_pos howner
  -- A mark that is there names a live state, so it can be read.
  have hmarked : ∃ y, (x.marked m).mapM g.state = .ok y := by
    cases hm : x.marked m with
    | none => exact ⟨none, rfl⟩
    | some q =>
      obtain ⟨qt, hqt, -⟩ := hg.marked.marked hx hm
      refine ⟨some qt, ?_⟩
      show some <$> g.state q = _
      rw [Graph.state_ok_iff.mpr hqt]
      rfl
  obtain ⟨y, hy⟩ := hmarked
  have hok : setMark m d (some s) g = .ok () (g.moveMark d x (some s) m) := by
    rw [setMark, hcheck, Graph.definition_ok_iff.mpr hx]
    dsimp only
    rw [hy]
  have htied := (growing_setMark m d (some s)).tied_of_ok hg hok
  refine ⟨_, hok, Graph.sameTies_moveMark.furnishes hg htied ?_⟩
  rw [Graph.moveMark]
  cases x.marked m <;> rfl

theorem localState_ok (hd : (g.definition? d).isSome) (name : String) :
    ∃ s g', localState d name g = .ok s g' ∧ g.Furnishes d [name] g' ∧
      g'.stateNamed d name = some s := by
  rw [localState, get_bind]
  cases hs : g.stateNamed d name with
  | some s => exact ⟨s, g, rfl, (Graph.Furnishes.refl hg).mono nofun, hs⟩
  | none =>
    obtain ⟨g', hok, hfurnish, hnamed⟩ := addState_ok hg hd { name } hs
    exact ⟨_, g', hok, hfurnish, hnamed⟩

theorem setStateBehaviors_ok (hs : (g.state? s).isSome) (bs : List (Action × Behavior κ)) :
    ∃ g', (bs.forM fun b => if b.2.isAbsent then
      pure () else setStateBehavior s b.1 b.2 : Editor κ Unit) g =
      .ok () g' ∧ g.Furnishes d [] g' := by
  have hstep {g : Graph κ} (hg : g.Tied) (hs : (g.state? s).isSome) (b : Action × Behavior κ) :
      ∃ g', (if b.2.isAbsent then pure () else setStateBehavior s b.1 b.2 : Editor κ Unit)
        g = .ok () g' ∧ g.Furnishes d [] g' ∧ True := by
    by_cases habsent : b.2.isAbsent = true
    · exact ⟨g, by rw [if_pos habsent]; rfl, .refl hg, trivial⟩
    · obtain ⟨g', hok, hfurnish⟩ := setStateBehavior_ok (d := d) hg hs b.1 b.2
      exact ⟨g', by rw [if_neg habsent]; exact hok, hfurnish, trivial⟩
  obtain ⟨g', hok, hfurnish, -⟩ :=
    furnishes_forM (P := fun _ _ => True) (fun hs h => h.state_live hs)
    (fun _ _ _ => trivial) hstep hg hs bs
  refine ⟨g', hok, hfurnish.mono ?_⟩
  simp

theorem declareState_ok (hd : (g.definition? d).isSome) (spec : StateSpec κ) :
    ∃ g', declareState d spec g = .ok () g' ∧ g.Furnishes d [spec.name] g' := by
  rw [declareState, get_bind]
  cases hs : g.stateNamed d spec.name with
  | some s =>
    obtain ⟨st, hst, -⟩ := (Graph.stateNamed_eq_some hg).mp hs
    have hlive : (g.state? s).isSome := by rw [hst]; rfl
    obtain ⟨g', hok, hfurnish⟩ := setStateBehaviors_ok (d := d) hg hlive
      [(.entry, spec.entry), (.exit, spec.exit), (.doActivity, spec.doActivity)]
    exact ⟨g', hok, hfurnish.mono nofun⟩
  | none =>
    obtain ⟨g', hok, hfurnish, -⟩ := addState_ok hg hd spec hs
    exact ⟨g', bind_of_ok hok, hfurnish⟩

theorem markNamed_ok (m : Mark) (hd : (g.definition? d).isSome) (o : Option String) :
    ∃ g', markNamed m d o g = .ok () g' ∧ g.Furnishes d o.toList g' := by
  cases o with
  | none => exact ⟨g, rfl, .refl hg⟩
  | some name =>
    obtain ⟨s, g₁, hok, hfurnish, hnamed⟩ := localState_ok hg hd name
    obtain ⟨st, hst, howner, -⟩ := (Graph.stateNamed_eq_some hfurnish.tied).mp hnamed
    obtain ⟨g₂, hok', hfurnish'⟩ := setMark_ok hfurnish.tied m hst howner
    exact ⟨g₂, (bind_of_ok hok).trans hok', hfurnish.trans hfurnish'⟩

/-- An end of a transition that is not found is added. -/
theorem declareEnd_ok (hd : (g.definition? d).isSome) (name : String) :
    ∃ g', (do
        if ((← get).resolveName d name).isNone then
          let _ ← addState d { name } : Editor κ Unit) g = .ok () g' ∧
      g.Furnishes d [name] g' ∧ ∃ s, g'.Binds name d s := by
  rw [get_bind]
  cases hresolved : g.resolveName d name with
  | some s =>
    exact ⟨g, rfl, (Graph.Furnishes.refl hg).mono nofun, s,
      (Graph.resolveName_eq_some hg.nested).mp hresolved⟩
  | none =>
    have hnone : g.stateNamed d name = none := by
      rw [Graph.resolveName_eq hg.nested, Option.or_eq_none_iff] at hresolved
      exact hresolved.1
    obtain ⟨g', hok, hfurnish, hnamed⟩ := addState_ok hg hd { name } hnone
    exact ⟨g', bind_of_ok hok, hfurnish, _, .here hnamed⟩

end

theorem declareEnds_ok (hg : g.Tied) (hd : (g.definition? d).isSome) (p : TransitionPlan κ) :
    ∃ g', declareEnds d p g = .ok () g' ∧ g.Furnishes d [p.source, p.target] g' ∧ g'.Bound d p :=
  furnishes_forM (N := fun name => [name]) (I := fun g => (g.definition? d).isSome)
    (P := fun name g => ∃ s, g.Binds name d s) (fun hd h => h.live hd)
    (fun hg hs h => hs.elim fun _ hs => h.widens.bound hg h.tied hs)
      (fun hg hd name => declareEnd_ok hg hd name) hg hd
    [p.source, p.target]

/-! ## All steps -/

/-- What is done to a definition before anything is nested in it. -/
def furnish (d : DefinitionId) (b : Blueprint κ) : Editor κ Unit := do
  b.states.forM (declareState d)
  (b.initial.toList ++ b.final.toList ++ b.composites.map (·.1)).forM fun name => do
    let _ ← localState d name
  b.transitions.forM (declareEnds d)
  markNamed .start d b.initial
  markNamed .final d b.final
  b.fallbacks.forM fun f => setFallback d f.1 f.2

theorem install_eq (d : DefinitionId) (b : Blueprint κ) : install d b = (do
    furnish d b
    installNested d b.composites
    b.transitions.forM (installTransition d)) := by
  cases b
  simp only [install, furnish, bind_assoc]

/-- A definition can be furnished. Then the states that are to be composite are there, and the ends
of transitions are found. -/
theorem furnish_ok (hg : g.Tied) (hd : (g.definition? d).isSome) (b : Blueprint κ) :
    ∃ g', furnish d b g = .ok () g' ∧ g.Furnishes d b.declared g' ∧
      (∀ name ∈ b.composites.map (·.1), (g'.stateNamed d name).isSome) ∧
      ∀ p ∈ b.transitions, g'.Bound d p := by
  have hlive {g g' : Graph κ} {ns : List String} (hd : (g.definition? d).isSome)
      (h : g.Furnishes d ns g') :
      (g'.definition? d).isSome := h.live hd
  obtain ⟨g₁, hdeclare, h₁, -⟩ := furnishes_forM (P := fun _ _ => True) hlive (fun _ _ _ => trivial)
    (fun hg hd spec => (declareState_ok hg hd spec).imp fun _ h => ⟨h.1, h.2, trivial⟩)
      hg hd b.states
  have hlocals {g : Graph κ} (hg : g.Tied) (hd : (g.definition? d).isSome) (name : String) :
      ∃ g', (do let _ ← localState d name : Editor κ Unit) g = .ok () g' ∧ g.Furnishes d [name] g' ∧
        (g'.stateNamed d name).isSome := by
    obtain ⟨s, g', hok, hfurnish, hnamed⟩ := localState_ok hg hd name
    exact ⟨g', bind_of_ok hok, hfurnish, by rw [hnamed]; rfl⟩
  obtain ⟨g₂, hlocal, h₂, hnamed⟩ :=
    furnishes_forM (P := fun name g => (g.stateNamed d name).isSome) hlive
    (fun hg hs h => h.isSome_stateNamed hg hs) hlocals h₁.tied (hlive hd h₁)
    (b.initial.toList ++ b.final.toList ++ b.composites.map (·.1))
  have hd₂ := hlive (hlive hd h₁) h₂
  obtain ⟨g₃, hends, h₃, hbound⟩ := furnishes_forM
    (P := fun (p : TransitionPlan κ) g => g.Bound d p) hlive
      (fun hg hs h => hs.widens h.widens hg h.tied)
    (fun hg hd p => declareEnds_ok hg hd p) h₂.tied hd₂ b.transitions
  have hd₃ := hlive hd₂ h₃
  obtain ⟨g₄, hstart, h₄⟩ := markNamed_ok h₃.tied .start hd₃ b.initial
  obtain ⟨g₅, hfinal, h₅⟩ := markNamed_ok h₄.tied .final (hlive hd₃ h₄) b.final
  obtain ⟨g₆, hfallbacks, h₆, -⟩ := furnishes_forM (N := fun _ => []) (P := fun _ _ => True) hlive
    (fun _ _ _ => trivial) (fun hg hd (f : Action × Behavior κ) =>
      (setFallback_ok hg hd f.1 f.2).imp fun _ h =>
        ⟨h.1, h.2, trivial⟩) h₅.tied (hlive (hlive hd₃ h₄) h₅) b.fallbacks
  have hlater := (h₄.trans h₅).trans h₆
  refine ⟨g₆, ?_, (((h₁.trans h₂).trans h₃).trans hlater).mono fun name hname => ?_,
    fun name hname => ?_, fun p hp => (hbound p hp).widens hlater.widens h₃.tied hlater.tied⟩
  · rw [furnish, bind_of_ok hdeclare, bind_of_ok hlocal, bind_of_ok hends, bind_of_ok hstart,
      bind_of_ok hfinal, hfallbacks]
  · simp only [Blueprint.declared, List.mem_append, List.mem_map, List.mem_flatMap,
      List.mem_singleton, List.not_mem_nil, and_false, exists_false, or_false] at hname ⊢
    grind
  · exact (h₃.trans hlater).isSome_stateNamed h₂.tied (hnamed name (List.mem_append_right _ hname))

end Editor

end Statechart
