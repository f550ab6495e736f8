import SchemaTables.Schema.Graph

/-! The type that a field or an alternative shows, and the table that it links to. Arrays show the type
of their items in brackets and link to the schema at their end. -/
namespace SchemaTables

def Node.plainLabel {α : Type} (node : Node α) : String :=
  match node.head.title with
  | some title => if title.isEmpty then node.content.kind.name else title
  | none => node.content.kind.name

def listLabel (label : String) : String := "List<" ++ label ++ ">"

namespace Catalog
variable {α : Type} [BEq α]

/-- Where a chain of arrays ends: how many arrays were passed, and what stands there. -/
inductive Element (α : Type) where
  | reference (depth : Nat) (text : String)
  | untyped (depth : Nat)
  | schema (depth : Nat) (node : Node α)

/-- Follows the items of arrays for at most `fuel` schemas. -/
def follow (catalog : Catalog α) : (fuel depth : Nat) → Slot α → Element α
  | 0, depth, _ => .untyped depth
  | _ + 1, depth, .reference text => .reference depth text
  | fuel + 1, depth, .node place =>
    match catalog.node? place with
    | none => .untyped depth
    | some node =>
      match node.content with
      | .array none => .untyped depth
      | .array (some items) => follow catalog fuel (depth + 1) items
      | _ => .schema depth node

/-- A chain of arrays that does not lead back to itself passes each schema once at most. -/
def element (catalog : Catalog α) (slot : Slot α) : Element α :=
  catalog.follow (catalog.nodes.length + 1) 0 slot

def Element.label : Element α → String
  | .reference depth text => depth.repeat listLabel text
  | .untyped depth => depth.repeat listLabel "List"
  | .schema depth node => depth.repeat listLabel node.plainLabel

def Element.target? : Element α → Option (Node α)
  | .schema _ node => if node.content.isCompound then some node else none
  | _ => none

def label (catalog : Catalog α) (slot : Slot α) : String := (catalog.element slot).label

/-- The identifier of the table that a slot links to. -/
def linkedId? (catalog : Catalog α) (slot : Slot α) : Option String :=
  (catalog.element slot).target?.map (·.head.id)

/-- The schema that stands in a slot itself. -/
def direct? (catalog : Catalog α) : Slot α → Option (Node α)
  | .node place => catalog.node? place
  | .reference _ => none

end Catalog
end SchemaTables
