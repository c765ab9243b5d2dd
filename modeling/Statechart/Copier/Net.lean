import Statechart.Copier.Basic

/-!
# Labelled nets

Nodes with a label and edges to nodes, which need not be there.
-/

namespace Statechart

structure Net where
  nodes : List (String × List Nat)
  deriving DecidableEq, Repr, Inhabited

namespace Net

def node? (n : Net) (k : Nat) : Option (String × List Nat) := n.nodes[k]?

def add (n : Net) (node : String × List Nat) : Net := ⟨n.nodes ++ [node]⟩

def setEdges (n : Net) (k : Nat) (edges : List Nat) : Net :=
  ⟨n.nodes.modify k fun node => (node.1, edges)⟩

/-- A clone keeps its label; its edges become those to the copies of the nodes there are. -/
def copyRule : CopyRule Net Nat where
  size n := n.nodes.length
  clone? source k target := (source.node? k).map fun node => (target.nodes.length, target.add node)
  deepen _ copy k := do
    let edges := ((← get).target.node? k).map (·.2)
    let copied ← (edges.getD []).filterMapM copy
    modify fun c => { c with target := c.target.setEdges k copied }

end Net
end Statechart
