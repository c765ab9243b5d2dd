import Mathlib.Data.List.Infix
import Statechart.Path

/-!
# Names in a path

Joining names and splitting the path again gives the names back if and only if the first is not
empty, none holds the separator, and none but the last ends in a colon. A colon at the end would be
taken for the beginning of the separator that follows it; one at the beginning is safe, since
splitting goes from the left.
-/

namespace Statechart.Path

/-- Splitting the path of the names gives the names. -/
structure Legible (names : List String) : Prop where
  first : names.head? ≠ some ""
  inside : ∀ n ∈ names, ¬ [':', ':'] <:+: n.toList
  ends : ∀ n ∈ names.dropLast, ¬ [':'] <:+ n.toList

instance (names : List String) : Decidable (Legible names) :=
  decidable_of_iff (names.head? ≠ some "" ∧ (∀ n ∈ names, ¬ [':', ':'] <:+: n.toList) ∧
      ∀ n ∈ names.dropLast, ¬ [':'] <:+ n.toList)
    ⟨fun ⟨first, inside, ends⟩ => ⟨first, inside, ends⟩, fun h => ⟨h.first, h.inside, h.ends⟩⟩

/-- The separator does not occur in the name, nor does it begin where the name ends. -/
structure Plain (name : String) : Prop where
  nonempty : name ≠ ""
  inside : ¬ [':', ':'] <:+: name.toList
  last : ¬ [':'] <:+ name.toList

theorem segments_cons {c : Char} {cs : List Char} (h : ¬ [':', ':'] <+: c :: cs) :
    segments (c :: cs) = match segments cs with
      | [] => [[c]]
      | s :: more => (c :: s) :: more := by
  refine segments.eq_3 c cs ?_
  rintro rest rfl rfl
  exact h ⟨rest, rfl⟩

theorem segments_ne_nil (cs : List Char) : segments cs ≠ [] := by
  fun_cases segments cs <;> simp

/-- The segments with the separators between them are the text. -/
theorem eq_of_segments {cs s : List Char} {more : List (List Char)} (h : segments cs = s :: more) :
    cs = s ++ more.flatMap fun m => ':' :: ':' :: m := by
  induction cs using segments.induct generalizing s more with
  | case1 =>
    obtain ⟨rfl, rfl⟩ := List.cons.inj h
    rfl
  | case2 rest ih =>
    obtain ⟨rfl, rfl⟩ := List.cons.inj h
    cases hrest : segments rest with
    | nil => exact absurd hrest (segments_ne_nil rest)
    | cons s' more' =>
      have htext := ih hrest
      simp [← htext]
  | case3 c rest hno hnil ih => exact absurd hnil (segments_ne_nil rest)
  | case4 c rest hno s' more' hrest ih =>
    rw [segments.eq_3 c rest hno, hrest] at h
    obtain ⟨rfl, rfl⟩ := List.cons.inj h
    rw [ih hrest, List.cons_append]

/-- A segment does not begin with a colon where a colon in front of it would make a separator. -/
theorem not_colon_of_segments {c : Char} {rest s : List Char} {more : List (List Char)}
    (hno : ∀ tail, c = ':' → rest = ':' :: tail → False) (hrest : segments rest = s :: more) :
    ¬ [':', ':'] <+: c :: s := by
  intro hprefix
  obtain ⟨rfl, hnext⟩ := List.cons_prefix_cons.mp hprefix
  obtain ⟨tail, rfl⟩ := hnext
  exact hno _ rfl (eq_of_segments hrest)

/-- Of the segments of a text none holds the separator and none but the last ends in a colon. -/
theorem legible_segments (cs : List Char) : (∀ s ∈ segments cs, ¬ [':', ':'] <:+: s) ∧
    ∀ s ∈ (segments cs).dropLast, ¬ [':'] <:+ s := by
  induction cs using segments.induct with
  | case1 => simp [segments]
  | case2 rest ih =>
    rw [segments, List.dropLast_cons_of_ne_nil (segments_ne_nil rest)]
    exact ⟨List.forall_mem_cons.mpr ⟨by simp, ih.1⟩, List.forall_mem_cons.mpr ⟨by simp, ih.2⟩⟩
  | case3 c rest hno hnil ih => exact absurd hnil (segments_ne_nil rest)
  | case4 c rest hno s more hrest ih =>
    rw [segments.eq_3 c rest hno, hrest]
    rw [hrest] at ih
    have hcolon := not_colon_of_segments hno hrest
    obtain ⟨hs, hmore⟩ := List.forall_mem_cons.mp ih.1
    refine ⟨List.forall_mem_cons.mpr ⟨fun hin => ?_, hmore⟩, ?_⟩
    · rcases List.infix_cons_iff.mp hin with hprefix | hin
      · exact hcolon hprefix
      · exact hs hin
    cases more with
    | nil => simp
    | cons s' more =>
      obtain ⟨hends, hmore⟩ := List.forall_mem_cons.mp ih.2
      refine List.forall_mem_cons.mpr ⟨fun hsuffix => ?_, hmore⟩
      rcases List.suffix_cons_iff.mp hsuffix with hwhole | hsuffix
      · -- The segment is the colon alone, and the separator that follows it begins a step too late.
        obtain ⟨rfl, rfl⟩ := List.cons.inj hwhole
        exact hno _ rfl (eq_of_segments hrest)
      · exact hends hsuffix

/-- A list without the separator is one segment. -/
theorem segments_eq_single {cs : List Char} (h : ¬ [':', ':'] <:+: cs) : segments cs = [cs] := by
  induction cs with
  | nil => rfl
  | cons c cs ih =>
    have hrest := ih fun hin => h (List.infix_cons hin)
    rw [segments_cons fun hin => h hin.isInfix, hrest]

/-- The first segment ends where a separator follows it. -/
theorem segments_first {cs : List Char} (h : ¬ [':', ':'] <:+: cs) (hlast : ¬ [':'] <:+ cs)
    (rest : List Char) : segments (cs ++ ':' :: ':' :: rest) = cs :: segments rest := by
  induction cs with
  | nil => rfl
  | cons c cs ih =>
    have hrest := ih (fun hin => h (List.infix_cons hin)) fun hin =>
      hlast (hin.trans (List.suffix_cons c cs))
    have hfirst : ¬ [':', ':'] <+: c :: (cs ++ ':' :: ':' :: rest) := by
      intro hprefix
      obtain ⟨rfl, hnext⟩ := List.cons_prefix_cons.mp hprefix
      cases cs with
      | nil => exact hlast List.suffix_rfl
      | cons c' cs =>
        obtain ⟨rfl, -⟩ := List.cons_prefix_cons.mp hnext
        exact h ⟨[], cs, rfl⟩
    rw [List.cons_append, segments_cons hfirst, hrest]

/-! ## Joining -/

theorem toList_join {base : String} (h : base ≠ "") (name : String) :
    (join base name).toList = base.toList ++ ':' :: ':' :: name.toList := by
  rw [join, if_neg (by rw [String.isEmpty_iff]; exact h), String.toList_append,
    String.toList_append, List.append_assoc]
  rfl

theorem join_ne_empty {base : String} (h : base ≠ "") (name : String) : join base name ≠ "" := by
  intro hempty
  have htext := toList_join h name
  rw [hempty] at htext
  cases hbase : base.toList with
  | nil => exact h (String.toList_eq_nil_iff.mp hbase)
  | cons c cs =>
    rw [hbase] at htext
    cases htext

theorem foldl_join_ne_empty (names : List String) {base : String} (h : base ≠ "") :
    names.foldl join base ≠ "" := by
  induction names generalizing base with
  | nil => exact h
  | cons n names ih => exact ih (join_ne_empty h n)

theorem toList_foldl_join (names : List String) {base : String} (h : base ≠ "") :
    (names.foldl join base).toList = base.toList ++ names.flatMap fun n =>
      ':' :: ':' :: n.toList := by
  induction names generalizing base with
  | nil => simp
  | cons n names ih =>
    rw [List.foldl_cons, ih (join_ne_empty h n), toList_join h, List.flatMap_cons,
      List.append_assoc]

/-- The path begins with the first name. -/
theorem ofNames_cons (name : String) (names : List String) :
    ofNames (name :: names) = names.foldl join name :=
  rfl

theorem ofNames_concat (names : List String) (n : String) :
    ofNames (names ++ [n]) = join (ofNames names) n := by
  rw [ofNames, ofNames, List.foldl_append, List.foldl_cons, List.foldl_nil]

/-- An empty name in front leaves no trace in the path. -/
theorem length_ofNames_lt {names : List String} (h : names ≠ []) :
    (ofNames names).toList.length < (names.flatMap fun n => ':' :: ':' :: n.toList).length := by
  induction names with
  | nil => exact absurd rfl h
  | cons n names ih =>
    rw [ofNames_cons]
    by_cases hn : n = ""
    · subst hn
      cases names with
      | nil => simp
      | cons m names =>
        have hrest := ih (List.cons_ne_nil m names)
        rw [List.flatMap_cons, List.length_append]
        exact Nat.lt_of_lt_of_le hrest (Nat.le_add_left ..)
    · rw [toList_foldl_join names hn, List.flatMap_cons, List.length_append,
        List.length_append, List.length_cons, List.length_cons]
      omega

/-! ## Splitting what was joined -/

theorem segments_names {name : String} {names : List String}
    (hinside : ∀ n ∈ name :: names, ¬ [':', ':'] <:+: n.toList)
    (hends : ∀ n ∈ (name :: names).dropLast, ¬ [':'] <:+ n.toList) :
    segments (name.toList ++ names.flatMap fun n => ':' :: ':' :: n.toList) =
      (name :: names).map (·.toList) := by
  induction names generalizing name with
  | nil =>
    rw [List.flatMap_nil, List.append_nil]
    exact segments_eq_single (hinside name List.mem_cons_self)
  | cons n names ih =>
    rw [List.dropLast_cons_cons] at hends
    have hrest := ih (fun m hm => hinside m (List.mem_cons_of_mem _ hm)) fun m hm =>
      hends m (List.mem_cons_of_mem _ hm)
    have hfirst := segments_first (hinside name List.mem_cons_self) (hends name List.mem_cons_self)
    rw [List.flatMap_cons, List.cons_append, List.cons_append, hfirst, hrest]
    rfl

theorem split_of_ne_empty {path : String} (h : path ≠ "") :
    split path = (segments path.toList).map String.ofList := by
  rw [split, if_neg]
  rw [String.isEmpty_iff]
  exact h

/-- Legible names are found again in their path. -/
theorem Legible.split_ofNames {names : List String} (h : Legible names) :
    split (ofNames names) = names := by
  cases names with
  | nil => rfl
  | cons n names =>
    have hn : n ≠ "" := fun hn => h.first (congrArg some hn)
    rw [ofNames_cons, split_of_ne_empty (foldl_join_ne_empty names hn), toList_foldl_join names hn,
      segments_names h.inside h.ends, List.map_map]
    simp

/-- No other names are. -/
theorem legible_of_split {names : List String}
    (h : split (ofNames names) = names) : Legible names := by
  cases names with
  | nil => exact ⟨nofun, nofun, nofun⟩
  | cons n names =>
  have hpath : ofNames (n :: names) ≠ "" := by
    intro hempty
    rw [hempty] at h
    cases h
  rw [split_of_ne_empty hpath] at h
  have hsegments : segments (ofNames (n :: names)).toList = (n :: names).map (·.toList) := by
    simpa [List.map_map, Function.comp_def] using congrArg (List.map String.toList) h
  obtain ⟨hinside, hends⟩ := legible_segments (ofNames (n :: names)).toList
  rw [hsegments] at hinside hends
  rw [← List.map_dropLast] at hends
  refine ⟨fun hfirst => ?_, fun m hm => hinside _ (List.mem_map_of_mem hm),
    fun m hm => hends _ (List.mem_map_of_mem hm)⟩
  -- With nothing in front the path would be shorter than what its segments come to.
  obtain rfl : n = "" := Option.some.inj hfirst
  have htext : (ofNames ("" :: names)).toList = names.flatMap fun n => ':' :: ':' :: n.toList := by
    simpa [List.flatMap_map] using eq_of_segments hsegments
  cases names with
  | nil => exact hpath rfl
  | cons m names =>
    have hlength := length_ofNames_lt (List.cons_ne_nil m names)
    rw [show ofNames ("" :: m :: names) = ofNames (m :: names) from rfl] at htext
    rw [htext] at hlength
    exact Nat.lt_irrefl _ hlength

theorem split_ofNames_eq_iff {names : List String} :
    split (ofNames names) = names ↔ Legible names :=
  ⟨legible_of_split, Legible.split_ofNames⟩

/-- Names that are joined from the left come back from their path if and only if the first is not
empty, none holds the separator, and none but the last ends in a colon. -/
theorem names_come_back_iff (first : String) (rest : List String) :
    split ((first :: rest).foldl join "") = first :: rest ↔
      first ≠ "" ∧ (∀ n ∈ first :: rest, ¬ [':', ':'] <:+: n.toList) ∧
        ∀ n ∈ (first :: rest).dropLast, ¬ [':'] <:+ n.toList := by
  constructor
  · intro h
    obtain ⟨hfirst, hinside, hends⟩ := legible_of_split h
    exact ⟨fun hempty => hfirst (congrArg some hempty), hinside, hends⟩
  · rintro ⟨hfirst, hinside, hends⟩
    exact Legible.split_ofNames ⟨fun hempty => hfirst (Option.some.inj hempty), hinside, hends⟩

/-- A colon goes over to the name that follows. -/
example : split (["a:", "b"].foldl join "") = ["a", ":b"] := by decide +kernel

/-- The names of a path are not one empty name, for the empty path has none. -/
theorem split_ne_singleton_empty (path : String) : split path ≠ [""] := by
  intro h
  by_cases hempty : path = ""
  · rw [hempty] at h
    cases h
  rw [split_of_ne_empty hempty] at h
  obtain ⟨s, hs, hname⟩ := List.map_eq_singleton_iff.mp h
  have htext : path.toList = s := by simpa using eq_of_segments hs
  rw [String.ofList_eq_empty_iff.mp hname] at htext
  exact hempty (String.toList_eq_nil_iff.mp htext)

/-- A path that does not begin with an empty name is the path of the names that it is split into. -/
theorem ofNames_split {path : String} (h : (split path).head? ≠ some "") :
    ofNames (split path) = path := by
  by_cases hempty : path = ""
  · rw [hempty]
    rfl
  cases hsegments : segments path.toList with
  | nil => exact absurd hsegments (segments_ne_nil _)
  | cons s more =>
    have hsplit : split path = String.ofList s :: more.map String.ofList := by
      rw [split_of_ne_empty hempty, hsegments, List.map_cons]
    rw [hsplit] at h ⊢
    have hfirst : String.ofList s ≠ "" := fun hs => h (congrArg some hs)
    apply String.toList_injective
    rw [ofNames_cons, toList_foldl_join _ hfirst, eq_of_segments hsegments, List.flatMap_map]
    simp

end Statechart.Path
