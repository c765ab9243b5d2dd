import Mathlib.Data.List.Basic
import Statechart.Json.Decode
import Statechart.Proofs.Json.Text

/-!
# Trees read back

The tree that a value is written as gives the value back if the value's objects list their names in
order and there is room for as many levels of arrays and objects as it has; with less room it gives
nothing.
-/

namespace Statechart.Json

open Json.Tree

namespace Value

variable {v : Value} {xs : List Value} {fs : List (String × Value)} {n : Nat}

/-- Every object of a value lists its names in order, each of them once. -/
inductive Ordered : Value → Prop
  | null : Ordered .null
  | bool {b : Bool} : Ordered (.bool b)
  | number {n : Number} : Ordered (.number n)
  | string {s : String} : Ordered (.string s)
  | array {xs : List Value} : (∀ x ∈ xs, Ordered x) → Ordered (.array xs)
  | object {fs : List (String × Value)} : (fs.map (·.1)).Pairwise (· < ·) →
      (∀ f ∈ fs, Ordered f.2) → Ordered (.object fs)

theorem Ordered.items (h : (Value.array xs).Ordered) : ∀ x ∈ xs, x.Ordered := by
  cases h with
  | array h => exact h

mutual

/-- The number of levels of arrays and objects. -/
def depth : Value → Nat
  | .array xs => depthItems xs + 1
  | .object fs => depthFields fs + 1
  | _ => 0

def depthItems : List Value → Nat
  | [] => 0
  | x :: xs => max (depth x) (depthItems xs)

def depthFields : List (String × Value) → Nat
  | [] => 0
  | f :: fs => max (depth f.2) (depthFields fs)

end

@[simp] theorem depth_nat : (nat n).depth = 0 := rfl

@[simp] theorem depth_string {s : String} : (string s).depth = 0 := rfl

@[simp] theorem depth_ofOption_string {o : Option String} : (ofOption string o).depth = 0 := by
  cases o <;> rfl

theorem depthItems_le : depthItems xs ≤ n ↔ ∀ x ∈ xs, x.depth ≤ n := by
  induction xs with
  | nil => simp [depthItems]
  | cons x xs ih => rw [depthItems, Nat.max_le, ih, List.forall_mem_cons]

theorem depthFields_le : depthFields fs ≤ n ↔ ∀ f ∈ fs, f.2.depth ≤ n := by
  induction fs with
  | nil => simp [depthFields]
  | cons f fs ih => rw [depthFields, Nat.max_le, ih, List.forall_mem_cons]

@[simp] theorem depth_array_le : (array xs).depth ≤ n + 1 ↔ ∀ x ∈ xs, x.depth ≤ n := by
  rw [depth, Nat.add_le_add_iff_right, depthItems_le]

@[simp] theorem depth_object_le : (object fs).depth ≤ n + 1 ↔ ∀ f ∈ fs, f.2.depth ≤ n := by
  rw [depth, Nat.add_le_add_iff_right, depthFields_le]

end Value

namespace Tree

/-- A list is read if each of its items is. -/
theorem mapM_of_forall {α β γ : Type} {f : α → Option β} {g : γ → α} {b : γ → β} {p : γ → Prop}
    [DecidablePred p] {cs : List γ} (h : ∀ c ∈ cs, f (g c) = if p c then some (b c) else none) :
    (cs.map g).mapM f = if ∀ c ∈ cs, p c then some (cs.map b) else none := by
  induction cs with
  | nil => rfl
  | cons c cs ih =>
    obtain ⟨hc, hcs⟩ := List.forall_mem_cons.mp h
    rw [List.map_cons, List.mapM_cons, hc, ih hcs]
    by_cases hp : p c
    · by_cases hall : ∀ d ∈ cs, p d
      · rw [if_pos hp, if_pos hall, if_pos (List.forall_mem_cons.mpr ⟨hp, hall⟩)]
        rfl
      · rw [if_pos hp, if_neg hall, if_neg fun h => hall (List.forall_mem_cons.mp h).2]
        rfl
    · rw [if_neg hp, if_neg fun h => hp (List.forall_mem_cons.mp h).1]
      rfl

theorem toValues_eq (room : Nat) (ts : List Tree) : toValues room ts = ts.mapM (toValue room) := by
  induction ts with
  | nil => rfl
  | cons t ts ih => rw [toValues, List.mapM_cons, ih]; rfl

/-- A name after all others comes last. -/
theorem insert_last {name : String} {v : Value} {fs : Fields} (h : ∀ f ∈ fs, f.1 < name) :
    fs.insert name v = fs ++ [(name, v)] := by
  induction fs with
  | nil => rfl
  | cons f fs ih =>
    obtain ⟨hf, hfs⟩ := List.forall_mem_cons.mp h
    have hne : name ≠ f.1 := by
      rintro rfl
      exact String.lt_irrefl _ hf
    rw [Fields.insert, if_neg hne, if_neg (String.lt_asymm hf), ih hfs, List.cons_append]

theorem toFields_ofFields {room : Nat} {fs : List (String × Value)} (done : List (String × Value))
    (h : ∀ f ∈ fs, toValue room (ofValue f.2) = if f.2.depth ≤ room then some f.2 else none)
    (hnames : ((done ++ fs).map (·.1)).Pairwise (· < ·)) :
    toFields room (ofFields fs) done = if Value.depthFields fs ≤ room then
      some (done ++ fs) else none := by
  induction fs generalizing done with
  | nil => simp [ofFields, toFields, Value.depthFields]
  | cons f fs ih =>
    obtain ⟨hf, hfs⟩ := List.forall_mem_cons.mp h
    have hlast : ∀ d ∈ done, d.1 < f.1 := by
      intro d hd
      rw [List.map_append, List.pairwise_append] at hnames
      exact hnames.2.2 _ (List.mem_map_of_mem hd) _ (List.mem_map_of_mem List.mem_cons_self)
    -- the field read next goes behind those that are done, as its name comes after theirs
    have happend : done ++ f :: fs = (done ++ [f]) ++ fs := by simp
    rw [happend] at hnames ⊢
    rw [ofFields, toFields, hf, Value.depthFields]
    by_cases hdepth : f.2.depth ≤ room
    · rw [if_pos hdepth, Option.bind_eq_bind, Option.bind_some,
        Option.bind_eq_bind, Option.bind_some, insert_last hlast, ih _ hfs hnames]
      simp only [Nat.max_le, hdepth, true_and]
    · rw [if_neg hdepth, if_neg fun h => hdepth (Nat.max_le.mp h).1]
      rfl

theorem toValue_ofValue {v : Value} (h : v.Ordered) (room : Nat) :
    toValue room (ofValue v) = if v.depth ≤ room then some v else none := by
  induction h generalizing room with
  | null => rfl
  | bool => rfl
  | number => rfl
  | string => rfl
  | @array xs _ ih =>
    cases room with
    | zero => rfl
    | succ room =>
      rw [ofValue, toValue, toValues_eq, ofValues_eq, mapM_of_forall fun x hx => ih x hx room]
      simp only [Value.depth_array_le, List.map_id']
      split <;> rfl
  | @object fs hnames _ ih =>
    cases room with
    | zero => rfl
    | succ room =>
      rw [ofValue, toValue, toFields_ofFields [] (fun f hf => ih f hf room) hnames, List.nil_append,
        Value.depth]
      simp only [Nat.add_le_add_iff_right]
      split <;> rfl

end Tree

theorem Value.parse_compact_eq {v : Value} (h : v.Legible) (h' : v.Ordered) :
    Value.parse v.compact = if v.depth ≤ maxDepth then some v else none := by
  rw [Value.parse, Value.parse_compact h, Option.bind_some, toValue_ofValue h']

namespace Decode

variable {α : Type} {d : Decoder α} {v : Value} {a : α}

/-- A value that is written out is read as a thing if there is room for the value. -/
def Inverts (d : Decoder α) (v : Value) (a : α) : Prop :=
  ∀ room, d room (Tree.ofValue v) = if v.depth ≤ room then some a else none

/-- Reading goes on behind a part that there is room for. -/
theorem Inverts.bind {β : Type} (h : Inverts d v a) (room : Nat) (f : α → Option β) :
    (d room (Tree.ofValue v)).bind f = if v.depth ≤ room then f a else none := by
  rw [h]
  split <;> rfl

theorem Inverts.of_scalar (hdepth : v.depth = 0)
    (h : ∀ room, d room (Tree.ofValue v) = some a) : Inverts d v a := by
  intro room
  rw [h, if_pos (by omega)]

theorem inverts_value (h : v.Ordered) : Inverts value v v := toValue_ofValue h

theorem inverts_string (s : String) : Inverts string (.string s) s := fun _ => rfl

theorem inverts_nat {n bits : Nat} (h : n < Nat.pow 2 bits) : Inverts (nat bits) (.nat n) n := by
  intro room
  show (if 0 ≤ (n : Int) ∧ (n : Int).toNat < Nat.pow 2 bits then some (n : Int).toNat
    else none) = some n
  rw [Int.toNat_natCast, if_pos ⟨Int.natCast_nonneg n, h⟩]

theorem inverts_list_map {xs : List α} {f : α → Value} {b : α → α}
    (h : ∀ x ∈ xs, Inverts d (f x) (b x)) : Inverts (list d) (.array (xs.map f)) (xs.map b) := by
  intro room
  cases room with
  | zero => rfl
  | succ room =>
    rw [Tree.ofValue, ofValues_eq, List.map_map, list]
    rw [mapM_of_forall (g := Tree.ofValue ∘ f) (p := fun x => (f x).depth ≤ room)
      fun x hx => h x hx room]
    simp only [Value.depth_array_le, List.forall_mem_map]

theorem inverts_list {xs : List α} {f : α → Value} (h : ∀ x ∈ xs, Inverts d (f x) x) :
    Inverts (list d) (.array (xs.map f)) xs := by
  have hlist := inverts_list_map (b := id) h
  rwa [List.map_id] at hlist

theorem inverts_none : Inverts (nullable d) .null none := fun _ => rfl

/-- Null is what stands for no value, so it cannot be told from none. -/
theorem inverts_some (h : Inverts d v a) (hnull : v ≠ .null) : Inverts (nullable d) v (some a) := by
  intro room
  have hread : nullable d room (Tree.ofValue v) = (d room (Tree.ofValue v)).map some := by
    cases v with
    | null => exact absurd rfl hnull
    | _ => rfl
  rw [hread, h]
  split <;> rfl

theorem inverts_ofOption {f : α → Value} {o : Option α}
    (h : ∀ a ∈ o, Inverts d (f a) a ∧ f a ≠ .null) : Inverts (nullable d) (.ofOption f o) o := by
  cases o with
  | none => exact inverts_none
  | some a => exact inverts_some (h a rfl).1 (h a rfl).2

theorem filter_name {fs : List (String × Value)} {f : String × Value} (h : (fs.map (·.1)).Nodup)
    (hf : f ∈ fs) : fs.filter (fun m => m.1 == f.1) = [f] := by
  induction fs with
  | nil => exact absurd hf List.not_mem_nil
  | cons m fs ih =>
    rw [List.map_cons, List.nodup_cons] at h
    obtain rfl | hf := List.mem_cons.mp hf
    · have hothers : fs.filter (fun m => m.1 == f.1) = [] := by
        refine List.filter_eq_nil_iff.mpr fun m hm => ?_
        rw [beq_iff_eq]
        exact fun hname => h.1 (hname ▸ List.mem_map_of_mem hm)
      rw [List.filter_cons_of_pos (by simp), hothers]
    · rw [List.filter_cons_of_neg, ih h.2 hf]
      rw [beq_iff_eq]
      exact fun hname => h.1 (hname ▸ List.mem_map_of_mem hf)

/-- The fields of a record that is written with its names. -/
theorem record_ofValue {names : List String} {fs : List (String × Value)}
    (hfs : fs.map (·.1) = names) (hnames : names.Nodup) (room : Nat) :
    record names (room + 1) (Tree.ofValue (.object fs)) =
      some (room, fs.map fun f => .present (Tree.ofValue f.2)) := by
  subst hfs
  have hmember : ∀ f ∈ fs, member? f.1 (ofFields fs) = if True then
      some (.present (Tree.ofValue f.2)) else none := by
    intro f hf
    have hfilter : (ofFields fs).filter (fun m => m.1 == some f.1) =
        [(some f.1, Tree.ofValue f.2)] := by
      rw [ofFields_eq, List.filter_map]
      exact congrArg (List.map _) (filter_name hnames hf)
    rw [member?, hfilter, if_pos trivial]
  have hsome : (ofFields fs).any (fun m => m.1.isNone) = false := by
    rw [ofFields_eq, List.any_map]
    exact List.any_eq_false.mpr fun _ _ => by simp
  rw [Tree.ofValue, record, hsome, mapM_of_forall hmember, if_pos fun _ _ => trivial]
  rfl

end Decode
end Statechart.Json
