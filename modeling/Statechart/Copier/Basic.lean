/-!
# Copying linked nodes

A copy clones a node, notes the new key for the old one, and only then follows the node's
references, so a reference back meets the copy under way. Every node is cloned at most once however
often it is asked for.
-/

namespace Statechart

/-- A copy under way: the store that receives the nodes and the new key of each copied one. -/
structure Copier (S K : Type) where
  target : S
  map : List (K × K) := []

/-- Work on a copy under way. -/
abbrev Copying (S K α : Type) := StateM (Copier S K) α

/-- How the nodes of a store are copied. -/
structure CopyRule (S K : Type) where
  /-- The number of nodes that a store has had. -/
  size : S → Nat
  /-- Clones a node of the first store into the second, references and all. -/
  clone? : (source : S) → K → (target : S) → Option (K × S)
  /-- Turns the references of a clone to copies, copying what it refers to. -/
  deepen : (source : S) → (copy : K → Copying S K (Option K)) → K → Copying S K Unit

namespace Copier

variable {S K : Type} [DecidableEq K]

def get? (c : Copier S K) (k : K) : Option K := c.map.lookup k

def contains (c : Copier S K) (k : K) : Bool := (c.get? k).isSome

/-- Puts a clone into the copy. -/
def record (c : Copier S K) (k copied : K) (target : S) : Copier S K :=
  ⟨target, (k, copied) :: c.map⟩

/-- The copy of a node, made if need be. References are followed at most `n` deep. -/
def copyWithin (rule : CopyRule S K) (source : S) : Nat → K → Copying S K (Option K)
  | 0, k => do pure ((← get).get? k)
  | n + 1, k => do
    let c ← get
    match c.get? k with
    | some copied => pure (some copied)
    | none =>
      match rule.clone? source k c.target with
      | none => pure none
      | some (copied, target) =>
        set (c.record k copied target)
        rule.deepen source (copyWithin rule source n) copied
        pure (some copied)

/-- A reference chain through nodes not yet copied is no longer than the store. -/
def copy (rule : CopyRule S K) (source : S) (k : K) : Copying S K (Option K) :=
  copyWithin rule source (rule.size source) k

def copyOpt (rule : CopyRule S K) (source : S) : Option K → Copying S K (Option K)
  | none => pure none
  | some k => copy rule source k

/-- The copies of the nodes there are, in order. -/
def copyAll (rule : CopyRule S K) (source : S) (ks : List K) : Copying S K (List K) :=
  ks.filterMapM (copy rule source)

end Copier
end Statechart
