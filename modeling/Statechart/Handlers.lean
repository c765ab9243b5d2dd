/-!
# Tables of handlers

A context answers to names. Each name has the key of the body that answers for it; inserting a name
anew takes the place of its body.
-/

namespace Statechart

structure HandlerTable (κ : Type) where
  entries : List (String × κ)
  deriving Inhabited

namespace HandlerTable

variable {κ : Type}

/-- The table of a context that answers to nothing. -/
def empty : HandlerTable κ := ⟨[]⟩

def get? (t : HandlerTable κ) (name : String) : Option κ := t.entries.lookup name

def respondsTo (t : HandlerTable κ) (name : String) : Bool := (t.get? name).isSome

def erase (t : HandlerTable κ) (name : String) : HandlerTable κ :=
  ⟨t.entries.filter (·.1 != name)⟩

def insert (t : HandlerTable κ) (name : String) (body : κ) : HandlerTable κ :=
  ⟨(name, body) :: (t.erase name).entries⟩

theorem get?_erase (t : HandlerTable κ) (name other : String) :
    (t.erase name).get? other = if other = name then none else t.get? other := by
  obtain ⟨entries⟩ := t
  simp only [get?, erase]
  induction entries with
  | nil => simp
  | cons e rest ih =>
    obtain ⟨n, body⟩ := e
    have hb (x y : String) (h : x ≠ y) : (x == y) = false := by simp [h]
    by_cases h : n = name
    · subst h
      by_cases ho : other = n
      · subst ho; simpa using ih
      · simpa [List.lookup_cons, hb _ _ ho, ho] using ih
    · by_cases ho : other = n
      · subst ho; simp [h]
      · simpa [List.lookup_cons, hb _ _ ho, h] using ih

theorem get?_insert (t : HandlerTable κ) (name other : String) (body : κ) :
    (t.insert name body).get? other = if other = name then some body else t.get? other := by
  have herase := t.get?_erase name other
  by_cases h : other = name
  · subst h; simp [get?, insert]
  · have hb : (other == name) = false := by simp [h]
    simpa [get?, insert, List.lookup_cons, hb, h] using herase

end HandlerTable
end Statechart
