import Mathlib.Data.List.Nodup

/-!
# Rosters

A graph keeps four kinds of lists whose elements name the list that they are in: the states and the
transitions of a definition, and the transitions into and out of a state. The facts about such lists
are the same for all four.
-/

namespace Statechart

variable {α β : Type}

/-- The list of an owner holds exactly the elements that name the owner, each once. An element may
name an owner that has no list. -/
structure Roster (owner? : α → Option β) (list? : β → Option (List α)) : Prop where
  mem : ∀ {a : α} {b : β} {l : List α}, owner? a = some b → list? b = some l → a ∈ l
  owner : ∀ {a : α} {b : β} {l : List α}, list? b = some l → a ∈ l → owner? a = some b
  nodup : ∀ {b : β} {l : List α}, list? b = some l → l.Nodup

namespace Roster

variable {owner? : α → Option β} {list? : β → Option (List α)} {a : α} {b : β}

/-- Lists without elements, and nothing that names them. -/
theorem of_empty (h : ∀ b l, list? b = some l → l = []) :
    Roster (fun _ => none) list? := by
  constructor
  · intro a b l ha; cases ha
  · intro a b l hl ha
    rw [h b l hl] at ha
    cases ha
  · intro b l hl
    rw [h b l hl]
    exact List.nodup_nil

theorem mem_iff (h : Roster owner? list?) {l : List α} (hl : list? b = some l) :
    a ∈ l ↔ owner? a = some b :=
  ⟨h.owner hl, fun ha => h.mem ha hl⟩

/-- A list that holds an element belongs to the owner that the element names. -/
theorem owner_unique (h : Roster owner? list?) {b' : β} {l l' : List α} (hl : list? b = some l)
    (hl' : list? b' = some l') (ha : a ∈ l) (ha' : a ∈ l') : b = b' :=
  Option.some.inj ((h.owner hl ha).symm.trans (h.owner hl' ha'))

/-- An element goes from all lists if it goes from that of its owner. -/
theorem filter_ne [DecidableEq α] [DecidableEq β] (h : Roster owner? list?) (ha : owner? a = some b)
    {b' : β} {l : List α} (hl : list? b' = some l) :
    (if b' = b then l.filter (· != a) else l) = l.filter (· != a) := by
  split
  · rfl
  · rename_i hne
    refine (List.filter_eq_self.mpr fun x hx => bne_iff_ne.mpr ?_).symm
    rintro rfl
    have ho := h.owner hl hx
    rw [ha] at ho
    exact hne (Option.some.inj ho).symm

/-- A new element goes to the end of the list of its owner. -/
theorem insert [DecidableEq α] [DecidableEq β] (h : Roster owner? list?) (ha : owner? a = none)
    (b : β) :
    Roster (fun x => if x = a then some b else owner? x)
      (fun y => (list? y).map fun l => if y = b then l ++ [a] else l) := by
  have hfresh {x : α} {y : β} {l : List α} (hl : list? y = some l) (hx : x ∈ l) : x ≠ a := by
    rintro rfl
    have hy := h.owner hl hx
    rw [ha] at hy
    cases hy
  constructor
  · intro x y l hx hl
    obtain ⟨l₀, hl₀, rfl⟩ := Option.map_eq_some_iff.mp hl
    by_cases hxa : x = a
    · rw [if_pos hxa] at hx
      rw [if_pos (Option.some.inj hx).symm, hxa]
      exact List.mem_append_right _ (List.mem_singleton_self a)
    · rw [if_neg hxa] at hx
      have hm := h.mem hx hl₀
      split
      · exact List.mem_append_left _ hm
      · exact hm
  · intro x y l hl hx
    obtain ⟨l₀, hl₀, rfl⟩ := Option.map_eq_some_iff.mp hl
    by_cases hm : x ∈ l₀
    · rw [if_neg (hfresh hl₀ hm)]
      exact h.owner hl₀ hm
    · split at hx
      · rcases List.mem_append.mp hx with hold | hnew
        · exact absurd hold hm
        · rw [if_pos (List.mem_singleton.mp hnew)]
          exact congrArg some ‹y = b›.symm
      · exact absurd hx hm
  · intro y l hl
    obtain ⟨l₀, hl₀, rfl⟩ := Option.map_eq_some_iff.mp hl
    split
    · refine List.nodup_append.mpr ⟨h.nodup hl₀, by simp, ?_⟩
      intro x hx z hz
      rw [List.mem_singleton.mp hz]
      exact hfresh hl₀ hx
    · exact h.nodup hl₀

/-- A new owner that nothing names begins with an empty list. -/
theorem open_list [DecidableEq β] (h : Roster owner? list?) (hb : ∀ x, owner? x ≠ some b) :
    Roster owner? (fun y => if y = b then some [] else list? y) := by
  constructor
  · intro x y l hx hl
    split at hl
    · subst y
      exact absurd hx (hb x)
    · exact h.mem hx hl
  · intro x y l hl hx
    split at hl
    · obtain rfl := Option.some.inj hl
      cases hx
    · exact h.owner hl hx
  · intro y l hl
    split at hl
    · obtain rfl := Option.some.inj hl
      exact List.nodup_nil
    · exact h.nodup hl

/-- Elements go from the lists as they go altogether; owners may go with their lists. -/
theorem restrict (h : Roster owner? list?) (keep : α → Bool) (stays : β → Bool) :
    Roster (fun x => if keep x then owner? x else none)
      (fun y => if stays y then (list? y).map (·.filter keep) else none) := by
  constructor
  · intro x y l hx hl
    split at hl
    · obtain ⟨l₀, hl₀, rfl⟩ := Option.map_eq_some_iff.mp hl
      split at hx
      · exact List.mem_filter.mpr ⟨h.mem hx hl₀, ‹_›⟩
      · cases hx
    · cases hl
  · intro x y l hl hx
    split at hl
    · obtain ⟨l₀, hl₀, rfl⟩ := Option.map_eq_some_iff.mp hl
      obtain ⟨hm, hk⟩ := List.mem_filter.mp hx
      rw [if_pos hk]
      exact h.owner hl₀ hm
    · cases hl
  · intro y l hl
    split at hl
    · obtain ⟨l₀, hl₀, rfl⟩ := Option.map_eq_some_iff.mp hl
      exact (h.nodup hl₀).filter _
    · cases hl

/-- Lists that hold the images of what names their holders. -/
theorem of_image {α' β' : Type} {owner?' : α' → Option β'} {list?' : β' → Option (List α')}
    {f : α → α'} {φ : β → β'} {A : α → Prop} {B : β → Prop} (hf : ∀ {x y}, A x → f x = f y → x = y)
    (hφ : ∀ {x y}, B x → φ x = φ y → x = y)
    (howner : ∀ {a' b'}, owner?' a' = some b' ↔
      ∃ a b, A a ∧ f a = a' ∧ owner? a = some b ∧ φ b = b')
    (hlist : ∀ {b' l'}, list?' b' = some l' → ∃ (b : β) (l : List α),
      B b ∧ φ b = b' ∧ l' = l.map f ∧
      l.Nodup ∧ ∀ a, a ∈ l ↔ A a ∧ owner? a = some b) : Roster owner?' list?' := by
  constructor
  · intro a' b' l' ha hl
    obtain ⟨a, b, hA, rfl, hab, rfl⟩ := howner.mp ha
    obtain ⟨c, l, hB, hcb, rfl, -, hmem⟩ := hlist hl
    obtain rfl := hφ hB hcb
    exact List.mem_map_of_mem ((hmem a).mpr ⟨hA, hab⟩)
  · intro a' b' l' hl ha
    obtain ⟨b, l, -, rfl, rfl, -, hmem⟩ := hlist hl
    obtain ⟨a, hal, rfl⟩ := List.mem_map.mp ha
    obtain ⟨hA, hab⟩ := (hmem a).mp hal
    exact howner.mpr ⟨a, b, hA, rfl, hab, rfl⟩
  · intro b' l' hl
    obtain ⟨b, l, -, -, rfl, hnd, hmem⟩ := hlist hl
    exact hnd.map_on fun x hx _ _ heq => hf ((hmem x).mp hx).1 heq

end Roster
end Statechart
