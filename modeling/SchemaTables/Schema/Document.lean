import SchemaTables.Schema.Definition
import SchemaTables.Schema.Keyed
import SchemaTables.Value.Display

/-! Reading schema definitions from a parsed document. The parts of a schema are checked in a fixed
order, and the first violation is reported with its location. An integer that cannot be written out
ends the reading where its text is asked for. -/
namespace SchemaTables

/-- What can be wrong with the schemas of a document. All but `untold` are told of the document. -/
inductive DocumentFault where
  | schemaNotMapping (location : String)
  | referenceNotText (location : String)
  | unsupportedType (type : String)
  | propertiesNotMapping (location : String)
  | notList (location : String)
  | componentsNotMapping
  | schemasNotMapping
  | untold
deriving DecidableEq, Repr

namespace DocumentFault

def message : DocumentFault → String
  | schemaNotMapping location => "Schema " ++ location ++ " must be a mapping."
  | referenceNotText location => "Schema " ++ location ++ " has a non-string $ref."
  | unsupportedType type => "Unsupported schema type: " ++ type
  | propertiesNotMapping location => "Schema " ++ location ++ " properties must be a mapping."
  | notList location => location ++ " must be a list."
  | componentsNotMapping => "components must be a mapping."
  | schemasNotMapping => "components.schemas must be a mapping."
  | untold => Value.untoldMessage

end DocumentFault

namespace Document

/-- The entries of a mapping. -/
abbrev Fields := List (Value × Value)

def hasField (name : String) (fields : Fields) : Bool := (Value.field? name fields).isSome

/-- The type a schema declares: a text, or the first text of a list that is not `null`. -/
def declaredType? (fields : Fields) : Option String :=
  match Value.field "type" fields with
  | .text type => some type
  | .list types => types.findSome? fun
    | .text type => if type = "null" then none else some type
    | _ => none
  | _ => none

/-- Composition wins over a declared type, and a declared type over the parts that are there. -/
def kindOf (fields : Fields) : Except DocumentFault Kind :=
  if ["oneOf", "anyOf", "allOf"].any (hasField · fields) then .ok .composed
  else match declaredType? fields with
    | some type =>
      match Kind.ofName? type with
      | some kind => .ok kind
      | none => .error (.unsupportedType type)
    | none =>
      if hasField "properties" fields then .ok .object
      else if hasField "items" fields then .ok .array
      else if hasField "enum" fields then .ok (.scalar .string)
      else .ok .object

def text (value : Value) : Except DocumentFault String :=
  if value.isTold then .ok value.display else .error .untold

def texts : List Value → Except DocumentFault (List String)
  | [] => .ok []
  | value :: rest => do
    let first ← text value
    return first :: (← texts rest)

/-- The text of a field that is there and not null. -/
def fieldText (name : String) (fields : Fields) : Except DocumentFault (Option String) :=
  match Value.field name fields with
  | .null => .ok none
  | value => (text value).map some

/-- A null counts as an empty list. -/
def sequence (value : Value) (location : String) : Except DocumentFault (List Value) :=
  match value with
  | .null => .ok []
  | value =>
    match value.sequence? with
    | some items => .ok items
    | none => .error (.notList location)

/-- The names that a schema requires. -/
def required (fields : Fields) (location : String) : Except DocumentFault (List String) := do
  texts (← sequence (Value.field "required" fields) location)

/-- What a schema says about itself in single texts. -/
def details (fields : Fields) : Except DocumentFault Details := do
  return {
    id := ← fieldText "$id" fields
    title := ← fieldText "title" fields
    description := ← fieldText "description" fields
    members := []
    required := [] }

mutual

/-- The definition that `node` states at `location`. -/
def readSchema : (node : Value) → (location : String) → Except DocumentFault Definition
  | .map fields, location =>
    match Value.field "$ref" fields with
    | .text text => .ok (.reference text)
    | .null => do
      let kind ← kindOf fields
      let items ← if kind = .array then readItems fields location else .ok none
      let details ← details fields
      let members ← sequence (Value.field "enum" fields) (location ++ ".enum")
      let properties ← readProperties fields location
      let oneOf ← readOneOf fields location
      let required ← required fields location
      return .schema kind { details with members, required } items (Keyed.distinct properties) oneOf
    | _ => .error (.referenceNotText location)
  | _, location => .error (.schemaNotMapping location)

/-- The items of an array, where they are there and not null. -/
def readItems : Fields → (location : String) → Except DocumentFault (Option Definition)
  | [], _ => .ok none
  | (key, node) :: rest, location =>
    if key.sameKey (.text "items") then
      match node with
      | .null => .ok none
      | node => (readSchema node (location ++ ".items")).map some
    else readItems rest location

def readProperties : Fields → (location : String) →
    Except DocumentFault (List (String × Definition))
  | [], _ => .ok []
  | (key, node) :: rest, location =>
    if key.sameKey (.text "properties") then
      match node with
      | .null => .ok []
      | .map fields => readFields fields location
      | _ => .error (.propertiesNotMapping location)
    else readProperties rest location

def readFields : Fields → (location : String) → Except DocumentFault (List (String × Definition))
  | [], _ => .ok []
  | (key, node) :: rest, location => do
    let name ← text key
    let first ← readSchema node (location ++ "." ++ name)
    return (name, first) :: (← readFields rest location)

def readOneOf : Fields → (location : String) → Except DocumentFault (List Definition)
  | [], _ => .ok []
  | (key, node) :: rest, location =>
    if key.sameKey (.text "oneOf") then
      match node with
      | .null => .ok []
      | .list nodes => readAlternatives nodes location 0
      | .pair first second => do
        return [← readSchema first (location ++ ".oneOf[0]"),
          ← readSchema second (location ++ ".oneOf[1]")]
      | .bytes bytes =>
        if bytes.isEmpty then .ok [] else .error (.schemaNotMapping (location ++ ".oneOf[0]"))
      | _ => .error (.notList (location ++ ".oneOf"))
    else readOneOf rest location

def readAlternatives : List Value → (location : String) → (index : Nat) →
    Except DocumentFault (List Definition)
  | [], _, _ => .ok []
  | node :: rest, location, index => do
    let first ← readSchema node (location ++ ".oneOf[" ++ toString index ++ "]")
    return first :: (← readAlternatives rest location (index + 1))

end

def readNamed : Fields → Except DocumentFault Definitions
  | [] => .ok []
  | (key, node) :: rest => do
    let name ← text key
    let first ← readSchema node name
    return (name, first) :: (← readNamed rest)

/-- The entries of a mapping; anything empty counts as a mapping without entries. -/
def mapping (value : Value) (fault : DocumentFault) : Except DocumentFault Fields :=
  if value.isEmptyLike then .ok []
  else match value with
    | .map fields => .ok fields
    | _ => .error fault

/-- The schema definitions of a document in document order. -/
def definitions (document : Fields) : Except DocumentFault Definitions := do
  let components ← mapping (Value.field "components" document) .componentsNotMapping
  let schemas ← mapping (Value.field "schemas" components) .schemasNotMapping
  return Keyed.distinct (← readNamed schemas)

end Document
end SchemaTables
