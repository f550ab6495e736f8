import SchemaTables.Yaml.Implicit
import SchemaTables.Yaml.Tree

/-! Nodes with their tags. Anchors and aliases are kept, so that equal nodes are equal graphs. -/
namespace SchemaTables.Yaml

inductive Node where
  | aliasOf (anchor : String)
  | scalar (anchor : Option String) (tag : Tag) (text : String)
  | sequence (anchor : Option String) (tag : Tag) (items : List Node)
  | mapping (anchor : Option String) (tag : Tag) (entries : List (Node × Node))
deriving Repr

namespace TagMark

def scalarTag (dialect : Dialect) (text : String) : TagMark → Tag
  | plain | nonSpecific => Implicit.tag dialect text
  | byKind => .str
  | explicit tag => .ofText tag

def collectionTag (kind : Tag) : TagMark → Tag
  | plain | nonSpecific | byKind => kind
  | explicit tag => .ofText tag

end TagMark

namespace Tree

mutual

/-- The node of a tree, with plain scalars typed as in a dialect. -/
def resolve (dialect : Dialect) : Tree → Node
  | aliasOf anchor => .aliasOf anchor
  | scalar anchor mark text => .scalar anchor (mark.scalarTag dialect text) text
  | sequence anchor mark items =>
    .sequence anchor (mark.collectionTag .seq) (resolveItems dialect items)
  | mapping anchor mark entries =>
    .mapping anchor (mark.collectionTag .map) (resolveEntries dialect entries)

def resolveItems (dialect : Dialect) : List Tree → List Node
  | [] => []
  | item :: rest => resolve dialect item :: resolveItems dialect rest

def resolveEntries (dialect : Dialect) : List (Tree × Tree) → List (Node × Node)
  | [] => []
  | (key, value) :: rest =>
    (resolve dialect key, resolve dialect value) :: resolveEntries dialect rest

end

end Tree

/-- The node that a text states, if it states one. -/
def compose (dialect : Dialect) (text : List Char) : Except Fault (Option Node) :=
  (Tree.ofText text).map (·.map (·.resolve dialect))

end SchemaTables.Yaml
