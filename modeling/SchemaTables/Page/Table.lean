import SchemaTables.Page.Walk
import SchemaTables.Page.Label
import SchemaTables.Text.Case

/-! Tables as data: what a reader sees of a schema, before any markup. -/
namespace SchemaTables

/-- The content of a type cell. -/
structure TypeCell where
  label : String
  link : Option String
  enumeration : Option String
deriving DecidableEq, Repr

/-- A row of an object table, which is named and may be required, or of a table of alternatives. The
description is absent where descriptions are hidden. -/
structure Row where
  field : Option (String × Bool)
  type : TypeCell
  description : Option String
deriving DecidableEq, Repr

structure Table where
  template : Template
  id : String
  caption : String
  showsDescriptions : Bool
  description : Option String
  rows : List Row
deriving DecidableEq, Repr

namespace Table

def nonempty (text : Option String) : Option String := text.filter fun t => !t.isEmpty

/-- An object is captioned by its title, a list of alternatives by its title or else its identifier. -/
def captionOf (template : Template) (head : Head) : String :=
  match template with
  | .object => head.title.getD "None"
  | .composed => (nonempty head.title).getD head.id ++ " (one of)"

variable {α : Type} [BEq α]

def typeCell (catalog : Catalog α) (slot : Slot α) : TypeCell :=
  ⟨catalog.label slot, catalog.linkedId? slot,
    nonempty ((catalog.direct? slot).bind (·.head.enumLabel))⟩

def slotDescription (catalog : Catalog α) (slot : Slot α) : String :=
  ((catalog.direct? slot).bind (·.head.description)).getD ""

def row (catalog : Catalog α) (descriptions : Bool) (field : Option (String × Bool))
    (slot : Slot α) : Row :=
  ⟨field, typeCell catalog slot,
    if descriptions then some (slotDescription catalog slot) else none⟩

def rowsOf (catalog : Catalog α) (descriptions : Bool) (template : Template) (node : Node α) :
    List Row :=
  match template with
  | .object =>
    let required := node.head.required.map Case.uncapitalize
    node.content.properties.map fun (name, slot) =>
      row catalog descriptions (some (name, required.contains name)) slot
  | .composed => node.content.alternatives.map (row catalog descriptions none)

/-- The table of a schema in one of the two forms. -/
def ofNode (catalog : Catalog α) (descriptions : Bool) (template : Template) (node : Node α) :
    Table where
  template := template
  id := node.head.id
  caption := captionOf template node.head
  showsDescriptions := descriptions
  description := if descriptions then nonempty node.head.description else none
  rows := rowsOf catalog descriptions template node

end Table

/-- The tables that a walk asked for. -/
def Walk.tables {α : Type} [BEq α] (catalog : Catalog α) (descriptions : Bool) (walk : Walk α) :
    List Table :=
  walk.calls.map fun call => Table.ofNode catalog descriptions call.template call.node

end SchemaTables
