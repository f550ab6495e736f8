/-! The shapes a schema can have. -/
namespace SchemaTables

inductive ScalarKind where
  | string
  | boolean
  | integer
  | number
deriving DecidableEq, Repr

inductive Kind where
  | scalar (kind : ScalarKind)
  | array
  | object
  | composed
deriving DecidableEq, Repr

namespace Kind

def all : List Kind :=
  [scalar .string, scalar .boolean, scalar .integer, scalar .number, array, object, composed]

def name : Kind → String
  | scalar .string => "string"
  | scalar .boolean => "boolean"
  | scalar .integer => "integer"
  | scalar .number => "number"
  | array => "array"
  | object => "object"
  | composed => "composed"

def ofName? (text : String) : Option Kind := all.find? fun kind => kind.name == text

theorem mem_all (kind : Kind) : kind ∈ all := by
  cases kind with
  | scalar kind => cases kind <;> simp [all]
  | array => simp [all]
  | object => simp [all]
  | composed => simp [all]

theorem ofName?_name (kind : Kind) : ofName? kind.name = some kind := by
  cases kind with
  | scalar kind => cases kind <;> rfl
  | array => rfl
  | object => rfl
  | composed => rfl

end Kind
end SchemaTables
