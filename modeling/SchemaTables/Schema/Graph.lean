import SchemaTables.Schema.Entry

/-! Schemas as a graph. The nodes are found by their places (of any type), so that shared and cyclic
schemas are as plain as trees; a catalog names some of the nodes. -/
namespace SchemaTables

inductive Slot (α : Type) where
  | node (place : α)
  | reference (text : String)
deriving DecidableEq, Repr

inductive Content (α : Type) where
  | scalar (kind : ScalarKind)
  | array (items : Option (Slot α))
  | object (properties : List (String × Slot α))
  | composed (alternatives : List (Slot α))
deriving DecidableEq, Repr

structure Node (α : Type) where
  head : Head
  content : Content α
deriving Repr

structure Catalog (α : Type) where
  names : List (String × Slot α)
  nodes : List (α × Node α)
deriving Repr

namespace Slot

def map {α β : Type} (f : α → β) : Slot α → Slot β
  | node place => node (f place)
  | reference text => reference text

end Slot

namespace Content
variable {α β : Type}

def kind : Content α → Kind
  | scalar kind => .scalar kind
  | array _ => .array
  | object _ => .object
  | composed _ => .composed

def properties : Content α → List (String × Slot α)
  | object properties => properties
  | _ => []

def items : Content α → Option (Slot α)
  | array items => items
  | _ => none

def alternatives : Content α → List (Slot α)
  | composed alternatives => alternatives
  | _ => []

/-- All the slots of a schema in their order. -/
def slots : Content α → List (Slot α)
  | scalar _ => []
  | array items => items.toList
  | object properties => properties.map (·.2)
  | composed alternatives => alternatives

/-- A schema with parts to show has a table of its own. -/
def isCompound : Content α → Bool
  | object properties => !properties.isEmpty
  | composed alternatives => !alternatives.isEmpty
  | _ => false

def map (f : α → β) : Content α → Content β
  | scalar kind => scalar kind
  | array items => array (items.map (Slot.map f))
  | object properties => object (properties.map fun p => (p.1, p.2.map f))
  | composed alternatives => composed (alternatives.map (Slot.map f))

end Content

namespace Catalog
variable {α : Type} [BEq α]

def node? (catalog : Catalog α) (place : α) : Option (Node α) := catalog.nodes.lookup place

def slotCount (catalog : Catalog α) : Nat :=
  (catalog.nodes.flatMap fun node => node.2.content.slots).length

/-- The places met by a depth-first walk over `pending`, in pre-order and without those in `met`. -/
def walk (catalog : Catalog α) :
    (fuel : Nat) → (pending : List (Slot α)) → (met : List α) → List α
  | 0, _, met => met
  | _ + 1, [], met => met
  | fuel + 1, .reference _ :: pending, met => walk catalog fuel pending met
  | fuel + 1, .node place :: pending, met =>
    if met.contains place then walk catalog fuel pending met
    else match catalog.node? place with
      | none => walk catalog fuel pending met
      | some node => walk catalog fuel (node.content.slots ++ pending) (met ++ [place])

/-- The places reachable from the names, each once, in depth-first pre-order. Every step takes one
slot off, and a place adds its slots only once, so the fuel is enough. -/
def reachable (catalog : Catalog α) : List α :=
  catalog.walk (catalog.names.length + catalog.slotCount + 1) (catalog.names.map (·.2)) []

/-- The catalog with its reachable places numbered in the order of the walk. -/
def numbered (catalog : Catalog α) : Catalog Nat :=
  let places := catalog.reachable
  { names := catalog.names.map fun name => (name.1, name.2.map places.idxOf)
    nodes := (places.filterMap catalog.node?).zipIdx.map fun (node, number) =>
      (number, ⟨node.head, node.content.map places.idxOf⟩) }

end Catalog

namespace Entry

/-- The slot that holds an entry. -/
def slot : Entry → Slot Place
  | reference text => .reference text
  | target name => .node (.registered name)
  | scalar site _ _ | array site _ _ | object site _ _ | composed site _ _ => .node site.place

mutual

/-- The nodes of a schema and of the schemas inline in it. -/
def nodes : Entry → List (Place × Node Place)
  | reference _ => []
  | target _ => []
  | scalar site head kind => [(site.place, ⟨head, .scalar kind⟩)]
  | array site head items => (site.place, ⟨head, .array (items.map slot)⟩) :: itemNodes items
  | object site head properties =>
    (site.place, ⟨head, .object (properties.map fun p => (p.1, p.2.slot))⟩) :: propertyNodes properties
  | composed site head alternatives =>
    (site.place, ⟨head, .composed (alternatives.map slot)⟩) :: alternativeNodes alternatives

def itemNodes : Option Entry → List (Place × Node Place)
  | none => []
  | some entry => nodes entry

def propertyNodes : List (String × Entry) → List (Place × Node Place)
  | [] => []
  | (_, entry) :: rest => nodes entry ++ propertyNodes rest

def alternativeNodes : List Entry → List (Place × Node Place)
  | [] => []
  | entry :: rest => nodes entry ++ alternativeNodes rest

end

end Entry

namespace Registry

def nodes (registry : Registry) : List (Place × Node Place) := registry.flatMap fun e => e.2.nodes

/-- Everything registered under its own name. -/
def catalog (registry : Registry) : Catalog Place :=
  ⟨registry.map fun e => (e.1, e.2.slot), registry.nodes⟩

/-- The registered schemas without the aliases. -/
def schemas (registry : Registry) : Registry := registry.filter fun e => !e.2.isReference

end Registry
end SchemaTables
