import SchemaTables.Yaml.Node

/-! The graph of a document. Its nodes are numbered, the parts of a node before the node itself, and an
alias is the number of the node that it means. The graph changes while values are made of it: a
mapping takes over the entries of those that it merges, and the key `=` becomes a text wherever else
its node stands. -/
namespace SchemaTables.Yaml

inductive Form where
  | scalar (text : String)
  | sequence (items : List Nat)
  | mapping (entries : List (Nat × Nat))
deriving Repr

structure Cell where
  tag : Tag
  form : Form
deriving Repr

abbrev Graph := Array Cell

/-- A graph under construction, and the numbers of the anchors whose nodes are complete. -/
structure Numbering where
  graph : Graph
  anchors : List (String × Nat)

namespace Numbering

def add (anchor : Option String) (cell : Cell) (numbering : Numbering) : Nat × Numbering :=
  let number := numbering.graph.size
  (number, ⟨numbering.graph.push cell,
    (anchor.map fun name => (name, number)).toList ++ numbering.anchors⟩)

mutual

/-- Numbers a node. An alias inside the node that it means gets no number. -/
def node (numbering : Numbering) : Node → Option (Nat × Numbering)
  | .aliasOf anchor => (numbering.anchors.lookup anchor).map (·, numbering)
  | .scalar anchor tag text => some (numbering.add anchor ⟨tag, .scalar text⟩)
  | .sequence anchor tag items => do
    let (items, numbering) ← nodes numbering items
    return numbering.add anchor ⟨tag, .sequence items⟩
  | .mapping anchor tag entries => do
    let (entries, numbering) ← pairs numbering entries
    return numbering.add anchor ⟨tag, .mapping entries⟩

def nodes (numbering : Numbering) : List Node → Option (List Nat × Numbering)
  | [] => some ([], numbering)
  | item :: rest => do
    let (first, numbering) ← node numbering item
    let (others, numbering) ← nodes numbering rest
    return (first :: others, numbering)

def pairs (numbering : Numbering) : List (Node × Node) → Option (List (Nat × Nat) × Numbering)
  | [] => some ([], numbering)
  | (key, value) :: rest => do
    let (key, numbering) ← node numbering key
    let (value, numbering) ← node numbering value
    let (others, numbering) ← pairs numbering rest
    return ((key, value) :: others, numbering)

end

end Numbering

/-- The graph of a node that does not contain itself. The node has the last number. -/
def Node.graph? (node : Node) : Option Graph :=
  (Numbering.node ⟨#[], []⟩ node).map fun numbered => numbered.2.graph

namespace Graph

def cell (graph : Graph) (number : Nat) : Cell := graph.getD number ⟨.str, .scalar ""⟩

def tag (graph : Graph) (number : Nat) : Tag := (graph.cell number).tag

def form (graph : Graph) (number : Nat) : Form := (graph.cell number).form

def replace (graph : Graph) (number : Nat) (cell : Cell) : Graph := graph.setIfInBounds number cell

/-- The key `=` stands for a text where it is a key. -/
def asKey (graph : Graph) (key : Nat) : Graph :=
  if graph.tag key = .value then graph.replace key ⟨.str, graph.form key⟩ else graph

def wrongNode : Fault := .malformed .wrongNode

def entries (graph : Graph) (number : Nat) : Except Fault (List (Nat × Nat)) :=
  match graph.form number with
  | .mapping entries => .ok entries
  | _ => .error wrongNode

/-- What a mapping inherits and what is its own, as far as it has been gone through. -/
structure Merging where
  inherited : List (Nat × Nat)
  own : List (Nat × Nat)
  graph : Graph

/-- Goes through the mappings of a merge key. Of several the last comes first, so that the earlier
ones win; `flat` makes the entries of a mapping its own. -/
def merged (flat : Nat → Graph → Except Fault Graph) (value : Nat) (graph : Graph) :
    Except Fault (List (Nat × Nat) × Graph) :=
  match graph.form value with
  | .scalar _ => .error wrongNode
  | .mapping _ => do
    let graph ← flat value graph
    return (← graph.entries value, graph)
  | .sequence items =>
    items.foldlM (fun (found, graph) item => do
      let graph ← flat item graph
      return ((← graph.entries item) ++ found, graph)) ([], graph)

/-- Makes the entries that a mapping inherits through its merge keys its own, in front of the others.
A mapping has a higher number than those it merges. -/
def flatten : (fuel : Nat) → (number : Nat) → Graph → Except Fault Graph
  | 0, _, graph => .ok graph
  | fuel + 1, number, graph => do
    let merging ← (← graph.entries number).foldlM (fun (merging : Merging) (key, value) => do
      if merging.graph.tag key = .merge then
        let (more, graph) ← merged (flatten fuel) value merging.graph
        return { merging with inherited := merging.inherited ++ more, graph := graph }
      else
        let graph := merging.graph.asKey key
        return { merging with own := (key, value) :: merging.own, graph := graph }) ⟨[], [], graph⟩
    return merging.graph.replace number
      ⟨merging.graph.tag number, .mapping (merging.inherited ++ merging.own.reverse)⟩

/-- The text of a node that stands for a scalar: a mapping may give it under the key `=`. -/
def scalarText (graph : Graph) : (fuel : Nat) → (number : Nat) → Except Fault String
  | 0, _ => .error wrongNode
  | fuel + 1, number =>
    match graph.form number with
    | .scalar text => .ok text
    | .sequence _ => .error wrongNode
    | .mapping entries =>
      match entries.find? fun entry => graph.tag entry.1 = .value with
      | some entry => scalarText graph fuel entry.2
      | none => .error wrongNode

end Graph
end SchemaTables.Yaml
