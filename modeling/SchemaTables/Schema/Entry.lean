import SchemaTables.Schema.Definition

/-! Schemas being resolved. An entry is a tree of inline schemas whose leaves may point elsewhere: as
a textual reference before resolution, as a target (the registered schema of that name) after it.
Each schema keeps the place where the document states it, which is its identity. -/
namespace SchemaTables

inductive Step where
  | items
  | property (name : String)
  | alternative (index : Nat)
deriving DecidableEq, Repr

/-- Where the outermost schema of a place stands: in the registry, or by itself. -/
inductive Root where
  | registered (name : String)
  | loose (name : String)
deriving DecidableEq, Repr

structure Place where
  root : Root
  steps : List Step
deriving DecidableEq, Repr

namespace Place

def registered (name : String) : Place := ⟨.registered name, []⟩

def loose (name : String) : Place := ⟨.loose name, []⟩

def child (place : Place) (step : Step) : Place := ⟨place.root, place.steps ++ [step]⟩

end Place

/-- What a schema shows. `enumeration` holds the kept member texts once an enumeration is titled. -/
structure Head where
  id : String
  title : Option String
  description : Option String
  members : List Value
  required : List String
  enumeration : Option (List String)
deriving Repr, Inhabited

namespace Head

def enumValues (head : Head) : List String := head.enumeration.getD []

def enumLabel (head : Head) : Option String := head.enumeration.map (", ".intercalate ·)

end Head

/-- A schema's place, and whether resolution has taken the schema up. -/
structure Site where
  place : Place
  settled : Bool
deriving DecidableEq, Repr

inductive Entry where
  | reference (text : String)
  | target (name : String)
  | scalar (site : Site) (head : Head) (kind : ScalarKind)
  | array (site : Site) (head : Head) (items : Option Entry)
  | object (site : Site) (head : Head) (properties : List (String × Entry))
  | composed (site : Site) (head : Head) (alternatives : List Entry)
deriving Repr

instance : Inhabited Entry := ⟨.reference ""⟩

/-- The registered schemas and aliases by name, in document order. -/
abbrev Registry := List (String × Entry)

namespace Entry

def isReference : Entry → Bool
  | reference _ => true
  | _ => false

def site? : Entry → Option Site
  | reference _ | target _ => none
  | scalar site _ _ | array site _ _ | object site _ _ | composed site _ _ => some site

def head? : Entry → Option Head
  | reference _ | target _ => none
  | scalar _ head _ | array _ head _ | object _ head _ | composed _ head _ => some head

end Entry

namespace Definition

def head (id : String) (details : Details) : Head :=
  ⟨id, details.title, details.description, details.members, details.required, none⟩

mutual

/-- The entry of a definition standing at `place`, with the identifier `id`. A child without an
identifier of its own is identified by the path that leads to it. -/
def build (place : Place) (id : String) : Definition → Entry
  | reference text => .reference text
  | schema kind details items properties oneOf =>
    match kind with
    | .scalar kind => .scalar ⟨place, false⟩ (head id details) kind
    | .array => .array ⟨place, false⟩ (head id details) (buildItems place id items)
    | .object => .object ⟨place, false⟩ (head id details) (buildProperties place id properties)
    | .composed => .composed ⟨place, false⟩ (head id details) (buildAlternatives place id 0 oneOf)

def buildItems (place : Place) (id : String) : Option Definition → Option Entry
  | none => none
  | some child => some (build (place.child .items) (child.idOr (id ++ "/items")) child)

def buildProperties (place : Place) (id : String) : List (String × Definition) → List (String × Entry)
  | [] => []
  | (name, child) :: rest =>
    (name, build (place.child (.property name)) (child.idOr (id ++ "/" ++ name)) child) ::
      buildProperties place id rest

def buildAlternatives (place : Place) (id : String) (index : Nat) : List Definition → List Entry
  | [] => []
  | child :: rest =>
    build (place.child (.alternative index)) (child.idOr (id ++ "/oneOf/" ++ toString index)) child ::
      buildAlternatives place id (index + 1) rest

end

end Definition

/-- One fresh entry per definition; a schema without an identifier is identified by its name. -/
def Entry.ofDefinitions (place : String → Place) (definitions : Definitions) :
    List (String × Entry) :=
  definitions.map fun d => (d.1, d.2.build (place d.1) (d.2.idOr d.1))

def Registry.ofDefinitions (definitions : Definitions) : Registry :=
  Entry.ofDefinitions .registered definitions

end SchemaTables
