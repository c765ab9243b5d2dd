/-!
# Arenas

An arena hands out its places in order and never twice: an erased place stays empty. Each operation
is described by what it does to `get?`.
-/

namespace Statechart

structure Arena (α : Type) where
  slots : Array (Option α)
  deriving Inhabited

namespace Arena

variable {α : Type}

def empty : Arena α := ⟨#[]⟩

/-- The number of places handed out. -/
def size (a : Arena α) : Nat := a.slots.size

def get? (a : Arena α) (i : Nat) : Option α := a.slots[i]?.join

def push (a : Arena α) (x : α) : Arena α := ⟨a.slots.push (some x)⟩

def erase (a : Arena α) (i : Nat) : Arena α := ⟨a.slots.setIfInBounds i none⟩

/-- Changes the element at a place, if there is one. -/
def modify (a : Arena α) (i : Nat) (f : α → α) : Arena α := ⟨a.slots.modify i (Option.map f)⟩

/-- The elements with their places, in order. -/
def entries (a : Arena α) : List (Nat × α) :=
  (List.range a.size).filterMap fun i => (a.get? i).map (i, ·)

@[simp] theorem size_push (a : Arena α) (x : α) : (a.push x).size = a.size + 1 := by
  simp [size, push]

@[simp] theorem size_erase (a : Arena α) (i : Nat) : (a.erase i).size = a.size := by
  simp [size, erase]

@[simp] theorem size_modify (a : Arena α) (i : Nat) (f : α → α) : (a.modify i f).size = a.size := by
  simp [size, modify]

theorem get?_push (a : Arena α) (x : α) (i : Nat) :
    (a.push x).get? i = if i = a.size then some x else a.get? i := by
  simp only [get?, push, size, Array.getElem?_push]
  split <;> simp_all

theorem get?_erase (a : Arena α) (i j : Nat) :
    (a.erase i).get? j = if j = i then none else a.get? j := by
  simp only [get?, erase, Array.getElem?_setIfInBounds]
  split
  · subst_vars; split <;> simp_all
  · rw [if_neg (by omega)]

theorem get?_modify (a : Arena α) (i j : Nat) (f : α → α) :
    (a.modify i f).get? j = if j = i then (a.get? i).map f else a.get? j := by
  simp only [get?, modify, Array.getElem?_modify]
  by_cases h : i = j
  · subst h
    simp only [if_true]
    cases h : a.slots[i]? with
    | none => simp
    | some o => cases o <;> simp
  · rw [if_neg h, if_neg (by omega)]

theorem lt_size_of_get? {a : Arena α} {i : Nat} {x : α} (h : a.get? i = some x) : i < a.size := by
  by_cases hi : i < a.slots.size
  · exact hi
  · simp [get?, Array.getElem?_eq_none (Nat.le_of_not_lt hi)] at h

end Arena
end Statechart
