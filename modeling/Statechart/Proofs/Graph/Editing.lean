import Statechart.Graph.Change
import Statechart.Proofs.Graph.Growth
import Statechart.Proofs.Graph.Marks
import Statechart.Proofs.Graph.Removal

/-!
# Edits keep the ties

Every edit leaves a tied graph tied, also when it fails midway. The edits that remove nothing let
the graph grow: definitions stay live, and a new transition has a live owner.
-/

namespace Statechart

namespace Graph

variable {κ : Type} {g g' g'' : Graph κ} {d : DefinitionId} {s : StateId} {t : TransitionId}
  {x y : Definition κ} {st st' : State κ} {tr : Transition κ}

/-- No definition goes or comes back, and what is new among the transitions has a live owner. -/
structure Grows (g g' : Graph κ) : Prop where
  definitions : g.definitions.size ≤ g'.definitions.size
  transitions : g.transitions.size ≤ g'.transitions.size
  live : ∀ {d x}, g.definition? d = some x → ∃ y, g'.definition? d = some y
  dead : ∀ {d : DefinitionId}, d.index < g.definitions.size → g.definition? d = none →
    g'.definition? d = none
  old : ∀ {t : TransitionId} {tr : Transition κ}, t.index < g.transitions.size →
    g'.transition? t = some tr → ∃ tr₀, g.transition? t = some tr₀ ∧ tr₀.owner = tr.owner
  fresh : ∀ {t : TransitionId} {tr : Transition κ}, g.transitions.size ≤ t.index →
    g'.transition? t = some tr → ∃ x, g'.definition? tr.owner = some x

namespace Grows

theorem refl (g : Graph κ) : Grows g g where
  definitions := Nat.le_refl _
  transitions := Nat.le_refl _
  live hx := ⟨_, hx⟩
  dead _ hd := hd
  old _ ht := ⟨_, ht, rfl⟩
  fresh hlt ht := absurd (transition?_lt ht) (Nat.not_lt.mpr hlt)

theorem trans (h : Grows g g') (h' : Grows g' g'') : Grows g g'' where
  definitions := Nat.le_trans h.definitions h'.definitions
  transitions := Nat.le_trans h.transitions h'.transitions
  live hx := by
    obtain ⟨y, hy⟩ := h.live hx
    exact h'.live hy
  dead hlt hd := h'.dead (Nat.lt_of_lt_of_le hlt h.definitions) (h.dead hlt hd)
  old hlt ht := by
    obtain ⟨tr₁, htr₁, ho₁⟩ := h'.old (Nat.lt_of_lt_of_le hlt h.transitions) ht
    obtain ⟨tr₀, htr₀, ho₀⟩ := h.old hlt htr₁
    exact ⟨tr₀, htr₀, ho₀.trans ho₁⟩
  fresh {t tr} hle ht := by
    by_cases hlt : t.index < g'.transitions.size
    · obtain ⟨tr₁, htr₁, ho₁⟩ := h'.old hlt ht
      obtain ⟨x, hx⟩ := h.fresh hle htr₁
      exact ho₁ ▸ h'.live hx
    · exact h'.fresh (Nat.not_lt.mp hlt) ht

end Grows

theorem SameTies.grows (h : SameTies g g') : Grows g g' where
  definitions := Nat.le_of_eq h.size.symm
  transitions := Nat.le_of_eq h.transitions.symm
  live hx := by
    obtain ⟨y, hy, -⟩ := h.symm.definition_of hx
    exact ⟨y, hy⟩
  dead {d} _ hd := by
    cases hy : g'.definition? d with
    | none => rfl
    | some y =>
      obtain ⟨x, hx, -⟩ := h.definition_of hy
      rw [hd] at hx
      cases hx
  old _ ht := by
    obtain ⟨tr, htr, ho, -⟩ := h.transition_of ht
    exact ⟨tr, htr, ho⟩
  fresh hle ht := by
    have hlt := transition?_lt ht
    rw [h.transitions] at hlt
    omega

namespace Tied

theorem modifyDefinition_grows (h : g.Tied) {f : Definition κ → Definition κ}
    (hf : ∀ x, (f x).ties = x.ties) (hm : ∀ x m, (f x).marked m = x.marked m) :
    (g.modifyDefinition d f).Tied ∧ g.Grows (g.modifyDefinition d f) :=
  ⟨h.modifyDefinition hf hm, (SameTies.modifyDefinition f hf).grows⟩

theorem modifyState_grows (h : g.Tied) {f : State κ → State κ} (hf : ∀ st, (f st).ties = st.ties)
    (hk : ∀ st, (f st).kind = st.kind) (hn : ∀ st, (f st).neighbours = st.neighbours) :
    (g.modifyState s f).Tied ∧ g.Grows (g.modifyState s f) :=
  ⟨h.modifyState hf hk hn, (SameTies.modifyState f hf).grows⟩

theorem modifyTransition_grows (h : g.Tied) {f : Transition κ → Transition κ}
    (hf : ∀ tr, (f tr).ties = tr.ties) :
    (g.modifyTransition t f).Tied ∧ g.Grows (g.modifyTransition t f) :=
  ⟨h.modifyTransition hf, (SameTies.modifyTransition f hf).grows⟩

end Tied

theorem grows_insertState {spec : StateSpec κ} : Grows g (g.insertState d spec) where
  definitions := Nat.le_of_eq (Arena.size_modify ..).symm
  transitions := Nat.le_refl _
  live hx := by
    obtain ⟨y, hy, -⟩ := definition?_insertState_of hx
    exact ⟨y, hy⟩
  dead _ hd := by rw [definition?_insertState, hd]; rfl
  old _ ht := ⟨_, ht, rfl⟩
  fresh hle ht := absurd (transition?_lt ht) (Nat.not_lt.mpr hle)

theorem grows_insertTransition {spec : TransitionSpec κ} (hd : g.definition? d = some x) :
    Grows g (g.insertTransition d spec) where
  definitions := Nat.le_of_eq (Arena.size_modify ..).symm
  transitions := Nat.le_of_lt (Nat.lt_of_lt_of_eq (Nat.lt_succ_self _) (Arena.size_push ..).symm)
  live hx := by
    obtain ⟨y, hy, -⟩ := definition?_insertTransition_of hx
    exact ⟨y, hy⟩
  dead _ hd := by rw [definition?_insertTransition, hd]; rfl
  old hlt ht := by
    rw [transition?_insertTransition, if_neg] at ht
    · exact ⟨_, ht, rfl⟩
    · rintro rfl
      exact Nat.lt_irrefl _ hlt
  fresh hle ht := by
    rw [transition?_insertTransition] at ht
    split at ht
    · obtain rfl := Option.some.inj ht
      obtain ⟨y, hy, -⟩ := definition?_insertTransition_of hd
      exact ⟨y, hy⟩
    · exact absurd (transition?_lt ht) (Nat.not_lt.mpr hle)

theorem grows_insertSubmachine {name : String} : Grows g (g.insertSubmachine s name) where
  definitions := Nat.le_of_lt (Nat.lt_of_lt_of_eq (Nat.lt_succ_self _) (Arena.size_push ..).symm)
  transitions := Nat.le_refl _
  live hx := ⟨_, definition?_insertSubmachine_of hx⟩
  dead hlt hd := by
    rw [definition?_insertSubmachine, if_neg, hd]
    rintro rfl
    exact Nat.lt_irrefl _ hlt
  old _ ht := ⟨_, ht, rfl⟩
  fresh hle ht := absurd (transition?_lt ht) (Nat.not_lt.mpr hle)

theorem stateNamed_none {name : String} (h : g.Listed) (hd : g.definition? d = some x)
    (hn : g.stateNamed d name = none) (hs : g.state? s = some st) (ho : st.owner = d) :
    st.name ≠ name := by
  intro hname
  rw [stateNamed, hd, Option.bind_some, List.find?_eq_none] at hn
  have hm : s ∈ x.states := h.state_mem (ho ▸ hd) hs
  exact hn s hm (by rw [hs, Option.any_some]; exact beq_iff_eq.mpr hname)

theorem transitionNamed_none {name : String} (h : g.Listed) (hd : g.definition? d = some x)
    (hn : g.transitionNamed d name = none) (ht : g.transition? t = some tr) (ho : tr.owner = d) :
    tr.name ≠ name := by
  intro hname
  rw [transitionNamed, hd, Option.bind_some, List.find?_eq_none] at hn
  have hm : t ∈ x.transitions := h.transition_mem (ho ▸ hd) ht
  exact hn t hm (by rw [ht, Option.any_some]; exact beq_iff_eq.mpr hname)

end Graph

namespace Editor

variable {κ α β : Type} {g : Graph κ} {d : DefinitionId} {s : StateId}

/-- The graph that an edit leaves, whether it fails or not. -/
def left : EStateM.Result GraphError (Graph κ) α → Graph κ
  | .ok _ g => g
  | .error _ g => g

/-- An edit that keeps ties and removes nothing. -/
def Growing (x : Editor κ α) : Prop :=
  ∀ g : Graph κ, g.Tied → (left (x g)).Tied ∧ g.Grows (left (x g))

namespace Growing

/-- What fails or reads leaves the graph as it is. -/
theorem of_left_eq {x : Editor κ α} (h : ∀ g, left (x g) = g) : Growing x := by
  intro g hg
  rw [h g]
  exact ⟨hg, .refl g⟩

theorem pure (a : α) : Growing (pure a : Editor κ α) := of_left_eq fun _ => rfl

theorem get : Growing (get : Editor κ (Graph κ)) := of_left_eq fun _ => rfl

theorem throw (e : GraphError) : Growing (throw e : Editor κ α) := of_left_eq fun _ => rfl

theorem query (f : Graph κ → Except GraphError α) : Growing (query f) := by
  refine of_left_eq fun g => ?_
  unfold Editor.query
  cases f g <;> rfl

theorem bind {x : Editor κ α} {f : α → Editor κ β} (hx : Growing x) (hf : ∀ a, Growing (f a)) :
    Growing (x >>= f) := by
  intro g hg
  obtain ⟨ht, hgr⟩ := hx g hg
  show (left (EStateM.bind x f g)).Tied ∧ _
  rw [show (x >>= f) g = EStateM.bind x f g from rfl, EStateM.bind]
  cases hr : x g with
  | ok a g₁ =>
    rw [hr] at ht hgr
    obtain ⟨ht', hgr'⟩ := hf a g₁ ht
    exact ⟨ht', hgr.trans hgr'⟩
  | error e g₁ =>
    rw [hr] at ht hgr
    exact ⟨ht, hgr⟩

theorem forM {f : α → Editor κ Unit} (hf : ∀ a, Growing (f a))
    (as : List α) : Growing (as.forM f) := by
  induction as with
  | nil => exact pure ()
  | cons a as ih => exact bind (hf a) fun _ => ih

end Growing

/-! ## Basic edits -/

theorem growing_addState (d : DefinitionId) (spec : StateSpec κ) : Growing (addState d spec) := by
  intro g hg
  unfold addState
  cases hd : g.definition d with
  | error e => exact ⟨hg, .refl g⟩
  | ok x =>
    dsimp only
    split
    · exact ⟨hg, .refl g⟩
    · rename_i hn
      have hd' := Graph.definition_ok_iff.mp hd
      rw [Option.isSome_iff_ne_none, ne_eq, not_not] at hn
      exact ⟨hg.insertState hd' fun s st hs ho => Graph.stateNamed_none hg.listed hd' hn hs ho,
        Graph.grows_insertState⟩

theorem checkEndpoint_ok {chain : List DefinitionId} {u : Unit}
    (h : checkEndpoint g d chain s = .ok u) : ∃ st, g.state? s = some st ∧ st.owner ∈ chain := by
  unfold checkEndpoint at h
  cases hs : g.state s with
  | error e => rw [hs] at h; cases h
  | ok st =>
    rw [hs] at h
    refine ⟨st, Graph.state_ok_iff.mp hs, ?_⟩
    by_cases hm : st.owner ∈ chain
    · exact hm
    · simp only [bind, Except.bind, if_neg hm] at h
      cases h

theorem growing_addTransition (d : DefinitionId) (spec : TransitionSpec κ) :
    Growing (addTransition d spec) := by
  intro g hg
  unfold addTransition
  cases hd : g.definition d with
  | error e => exact ⟨hg, .refl g⟩
  | ok x =>
    dsimp only
    split
    · exact ⟨hg, .refl g⟩
    · rename_i hn
      have hd' := Graph.definition_ok_iff.mp hd
      rw [Option.isSome_iff_ne_none, ne_eq, not_not] at hn
      cases hs : checkEndpoint g d (g.definitionChain d) spec.source with
      | error e => exact ⟨hg, .refl g⟩
      | ok u =>
        cases ht : checkEndpoint g d (g.definitionChain d) spec.target with
        | error e => exact ⟨hg, .refl g⟩
        | ok v =>
          obtain ⟨st, hst, hso⟩ := checkEndpoint_ok hs
          obtain ⟨st', hst', hto⟩ := checkEndpoint_ok ht
          exact ⟨hg.insertTransition hd'
            (fun t tr htr ho => Graph.transitionNamed_none hg.listed hd' hn htr ho)
            hst (Graph.mem_definitionChain_within hso) hst' (Graph.mem_definitionChain_within hto),
            Graph.grows_insertTransition hd'⟩

theorem growing_attachSubmachine (s : StateId) (name : String) :
    Growing (attachSubmachine s name : Editor κ _) := by
  intro g hg
  unfold attachSubmachine
  cases hs : g.state s with
  | error e => exact ⟨hg, .refl g⟩
  | ok st =>
    dsimp only
    cases hsub : st.submachine with
    | some d => exact ⟨hg, .refl g⟩
    | none =>
      exact ⟨hg.insertSubmachine (Graph.state_ok_iff.mp hs) hsub, Graph.grows_insertSubmachine⟩

theorem checkOwner_ok {o : Option StateId} {u : Unit} (h : checkOwner g d o = .ok u) :
    ∀ s, o = some s → ∃ st, g.state? s = some st ∧ st.owner = d := by
  rintro s rfl
  rw [checkOwner] at h
  cases hs : g.state s with
  | error e => rw [hs] at h; cases h
  | ok st =>
    rw [hs] at h
    refine ⟨st, Graph.state_ok_iff.mp hs, ?_⟩
    by_cases ho : st.owner = d
    · exact ho
    · simp only [bind, Except.bind, if_neg ho] at h
      cases h

theorem growing_setMark (m : Mark) (d : DefinitionId) (o : Option StateId) :
    Growing (setMark m d o : Editor κ Unit) := by
  intro g hg
  unfold setMark
  cases ho : checkOwner g d o with
  | error e => exact ⟨hg, .refl g⟩
  | ok u =>
    cases hd : g.definition d with
    | error e => exact ⟨hg, .refl g⟩
    | ok x =>
      dsimp only
      cases (x.marked m).mapM g.state with
      | error e => exact ⟨hg, .refl g⟩
      | ok _ =>
        exact ⟨hg.moveMark (Graph.definition_ok_iff.mp hd) (checkOwner_ok ho),
          Graph.sameTies_moveMark.grows⟩

theorem growing_setFallback (d : DefinitionId) (a : Action) (b : Behavior κ) :
    Growing (setFallback d a b) := by
  intro g hg
  unfold setFallback
  cases g.definition d with
  | error e => exact ⟨hg, .refl g⟩
  | ok x =>
    exact hg.modifyDefinition_grows (fun _ => rfl) (fun _ m => by cases m <;> rfl)

theorem growing_setStateBehavior (s : StateId) (a : Action) (b : Behavior κ) :
    Growing (setStateBehavior s a b) := by
  intro g hg
  unfold setStateBehavior
  cases g.state s with
  | error e => exact ⟨hg, .refl g⟩
  | ok st =>
    have hties (st : State κ) : (st.setBehavior a b).ties = st.ties := by cases a <;> rfl
    have hkind (st : State κ) : (st.setBehavior a b).kind = st.kind := by cases a <;> rfl
    have hneighbours (st : State κ) : (st.setBehavior a b).neighbours =
      st.neighbours := by cases a <;> rfl
    exact hg.modifyState_grows hties hkind hneighbours

theorem growing_setGuard (t : TransitionId) (b : Behavior κ) : Growing (setGuard t b) := by
  intro g hg
  unfold setGuard
  cases g.transition t with
  | error e => exact ⟨hg, .refl g⟩
  | ok tr =>
    exact hg.modifyTransition_grows fun _ => rfl

theorem growing_setEffect (t : TransitionId) (b : Behavior κ) : Growing (setEffect t b) := by
  intro g hg
  unfold setEffect
  cases g.transition t with
  | error e => exact ⟨hg, .refl g⟩
  | ok tr =>
    exact hg.modifyTransition_grows fun _ => rfl

/-! ## Blueprints -/

theorem growing_declareState (d : DefinitionId) (spec : StateSpec κ) :
    Growing (declareState d spec) := by
  refine .bind .get fun g => ?_
  cases g.stateNamed d spec.name with
  | none => exact .bind (growing_addState d spec) fun _ => .pure ()
  | some s =>
    refine .forM (fun ⟨a, b⟩ => ?_) _
    dsimp only
    split
    · exact .pure ()
    · exact growing_setStateBehavior s _ _

theorem growing_localState (d : DefinitionId) (name : String) :
    Growing (localState d name : Editor κ StateId) := by
  refine .bind .get fun g => ?_
  cases g.stateNamed d name with
  | none => exact growing_addState d _
  | some s => exact .pure s

theorem growing_declareEnds (d : DefinitionId) (p : TransitionPlan κ) :
    Growing (declareEnds d p) := by
  refine .forM (fun name => .bind .get fun g => ?_) _
  split
  · exact .bind (growing_addState d _) fun _ => .pure ()
  · exact .pure ()

theorem growing_installTransition (d : DefinitionId) (p : TransitionPlan κ) :
    Growing (installTransition d p) := by
  refine .bind .get fun g => ?_
  cases g.resolveName d p.source with
  | none => exact .throw _
  | some source =>
    cases g.resolveName d p.target with
    | none => exact .throw _
    | some target => exact .bind (growing_addTransition d _) fun _ => .pure ()

theorem growing_markNamed (m : Mark) (d : DefinitionId) (o : Option String) :
    Growing (markNamed m d o : Editor κ Unit) := by
  cases o with
  | none => exact .pure ()
  | some name => exact .bind (growing_localState d name) fun s => growing_setMark m d (some s)

mutual

theorem growing_install (d : DefinitionId) : (b : Blueprint κ) → Growing (install d b)
  | ⟨_, initial, final, states, composites, transitions, fallbacks⟩ => by
    rw [install]
    refine .bind (.forM (growing_declareState d) _) fun _ => ?_
    refine .bind (.forM (fun name => .bind (growing_localState d name) fun _ => .pure ()) _)
      fun _ => ?_
    refine .bind (.forM (growing_declareEnds d) _) fun _ => ?_
    refine .bind (growing_markNamed .start d initial) fun _ => ?_
    refine .bind (growing_markNamed .final d final) fun _ => ?_
    refine .bind (.forM (fun ⟨a, b⟩ => growing_setFallback d a b) _) fun _ => ?_
    refine .bind (growing_installNested d composites) fun _ => ?_
    exact .forM (growing_installTransition d) _

theorem growing_installNested (d : DefinitionId) :
    (bs : List (String × Blueprint κ)) → Growing (installNested d bs)
  | [] => by
    rw [installNested]
    exact .pure ()
  | (state, inner) :: rest => by
    rw [installNested]
    refine .bind (growing_localState d state) fun s => ?_
    refine .bind (growing_attachSubmachine s inner.name) fun nested => ?_
    exact .bind (growing_install nested inner) fun _ => growing_installNested d rest

end

theorem growing_extend (d : DefinitionId) (b : Blueprint κ) : Growing (extend d b) :=
  .bind (.query _) fun _ => growing_install d b

end Editor
end Statechart
