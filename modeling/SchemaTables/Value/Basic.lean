import SchemaTables.Decimal.Double
import SchemaTables.Value.Calendar

/-! Parsed document values. Mappings keep their entries in order of first insertion; the members of a
set stand in the order in which the set goes through them. -/
namespace SchemaTables

inductive Value where
  | null
  | bool (value : Bool)
  | int (value : Int)
  | float (value : Double)
  | text (value : String)
  | date (value : Date)
  | moment (value : Moment)
  | bytes (value : List UInt8)
  | list (items : List Value)
  | pair (first second : Value)
  | map (entries : List (Value × Value))
  | set (members : List Value)
deriving Repr, Inhabited

namespace Value

/-- The number that a truth value, an integer or a floating-point number stands for, if it is a
whole one. -/
def wholeNumber? : Value → Option Int
  | bool value => some (if value then 1 else 0)
  | int value => some value
  | float value => value.toInt?
  | _ => none

/-- Whether two keys denote the same entry of a mapping. Numbers of all types are compared by value;
collections are no keys. -/
def sameKey (a b : Value) : Bool :=
  match a.wholeNumber?, b.wholeNumber? with
  | some m, some n => m == n
  | some _, none => false
  | none, some _ => false
  | none, none =>
    match a, b with
    | null, null => true
    | float x, float y => x == y
    | text s, text t => s == t
    | date c, date d => c == d
    | moment m, moment n => m.agrees n
    | bytes s, bytes t => s == t
    | _, _ => false

/-- Binds `key`; a key that is there already keeps its place and its spelling. -/
def insert (key value : Value) : List (Value × Value) → List (Value × Value)
  | [] => [(key, value)]
  | (k, v) :: rest =>
    if k.sameKey key then (k, value) :: rest else (k, v) :: insert key value rest

def addMember (member : Value) (members : List Value) : List Value :=
  if members.any (·.sameKey member) then members else members ++ [member]

/-- The value of the entry named by a text. -/
def field? (name : String) (entries : List (Value × Value)) : Option Value :=
  (entries.find? fun entry => entry.1.sameKey (text name)).map (·.2)

/-- An entry that is there and not null. -/
def field (name : String) (entries : List (Value × Value)) : Value :=
  (field? name entries).getD null

/-- Empty collections and texts, zeros, false and null. -/
def isEmptyLike : Value → Bool
  | null => true
  | bool value => !value
  | int value => value == 0
  | float (.finite _ m _) => m == 0
  | text value => value.isEmpty
  | bytes value => value.isEmpty
  | list items => items.isEmpty
  | map entries => entries.isEmpty
  | set members => members.isEmpty
  | _ => false

/-- The items of a list, a pair or a byte string. Texts, sets and mappings are no sequences. -/
def sequence? : Value → Option (List Value)
  | list items => some items
  | pair first second => some [first, second]
  | bytes value => some (value.map fun b => int b.toNat)
  | _ => none

end Value
end SchemaTables
