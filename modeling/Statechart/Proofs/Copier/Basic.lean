import Statechart.Copier.Basic

/-!
# Copies under way

What a copier knows after a clone is put into it, and the two ways in which a node is copied: it is
known already, or a clone of it is put in and deepened.
-/

namespace Statechart.Copier

variable {S K α β : Type} {rule : CopyRule S K} {source : S} {n : Nat} {k k' : K}
  {c c' : Copier S K}

theorem bind_of {x : Copying S K α} {f : α → Copying S K β} {a : α} (h : x c = (a, c')) :
    (x >>= f) c = f a c' := by
  show f (x c).1 (x c).2 = _
  rw [h]

theorem get_bind {f : Copier S K → Copying S K β} : (get >>= f) c = f c c := rfl

theorem map_of {x : Copying S K α} {f : α → β} {a : α}
    (h : x c = (a, c')) : (f <$> x) c = (f a, c') := by
  show (f (x c).1, (x c).2) = _
  rw [h]

variable [DecidableEq K]

theorem lookup_map (f : K → K) (ks : List K) :
    (ks.map fun k => (k, f k)).lookup k = if k ∈ ks then some (f k) else none := by
  induction ks with
  | nil => rfl
  | cons l ks ih =>
    rw [List.map_cons, List.lookup_cons, ih]
    by_cases hk : k = l
    · subst hk
      simp
    · rw [beq_eq_false_iff_ne.mpr hk]
      simp [hk]

theorem get?_record {l copied : K} {target : S} :
    (c.record k copied target).get? l = if l = k then some copied else c.get? l := by
  rw [get?, record, List.lookup_cons]
  by_cases h : l = k
  · rw [if_pos h, beq_iff_eq.mpr h]
  · rw [if_neg h, beq_eq_false_iff_ne.mpr h]
    rfl

theorem copyWithin_known (h : c.get? k = some k') :
    copyWithin rule source n k c = (some k', c) := by
  cases n with
  | zero =>
    rw [copyWithin]
    exact congrArg (·, c) h
  | succ n =>
    rw [copyWithin]
    rw [get_bind, h]
    rfl

theorem copyWithin_new {copied : K} {target : S} (h : c.get? k = none)
    (hclone : rule.clone? source k c.target = some (copied, target)) :
    copyWithin rule source (n + 1) k c =
      (some copied,
        (rule.deepen source (copyWithin rule source n) copied (c.record k copied target)).2) := by
  rw [copyWithin, get_bind, h]
  dsimp only
  rw [hclone]
  rfl

theorem copyWithin_missing (h : c.get? k = none) (hclone : rule.clone? source k c.target = none) :
    copyWithin rule source n k c = (none, c) := by
  cases n with
  | zero =>
    rw [copyWithin]
    exact congrArg (·, c) h
  | succ n =>
    rw [copyWithin, get_bind, h]
    dsimp only
    rw [hclone]
    rfl

end Statechart.Copier
