import SchemaTables.Schema.Kind
import SchemaTables.Value.Basic

/-! Schema definitions as a document states them, with references still in their textual form. -/
namespace SchemaTables

/-- What a definition says about itself, apart from its shape and its parts. -/
structure Details where
  id : Option String
  title : Option String
  description : Option String
  members : List Value
  required : List String
deriving Repr, Inhabited

/-- Nothing stated. -/
def Details.bare : Details := ⟨none, none, none, [], []⟩

/-- A definition keeps all the parts that the document gave it; which of them are live is decided by
its kind. -/
inductive Definition where
  | reference (text : String)
  | schema (kind : Kind) (details : Details) (items : Option Definition)
      (properties : List (String × Definition)) (oneOf : List Definition)
deriving Repr, Inhabited

/-- The definitions of a document in document order; their names are distinct. -/
abbrev Definitions := List (String × Definition)

namespace Definition

def isReference : Definition → Bool
  | reference _ => true
  | schema .. => false

/-- The identifier of a definition: its own if it has one, else the path to it. -/
def idOr (path : String) : Definition → String
  | schema _ details _ _ _ =>
    match details.id with
    | some id => if id.isEmpty then path else id
    | none => path
  | reference _ => path

end Definition
end SchemaTables
