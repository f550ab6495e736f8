import SchemaTables.Schema.Linking
import SchemaTables.Value.Display

/-! Enumerations whose members cannot all be written out. Such a string has no title, and a resolution
ends where it would give it one. -/
namespace SchemaTables

/-- What a resolution stops at: a reference, or an enumeration. -/
inductive Stop where
  | reference
  | enumeration
deriving DecidableEq, Repr

namespace Definition

/-- A string with a member that cannot be written out. -/
def isUntold : Definition → Bool
  | schema (.scalar .string) details _ _ _ => !details.members.all Value.isTold
  | _ => false

mutual

/-- What the visit to a definition stops at, if anything. Its parts come in the order of the visit. -/
def stop? (registry : Registry) : Definition → Option Stop
  | reference text => (Entry.check registry text).map fun _ => .reference
  | schema kind details items properties oneOf =>
    match kind with
    | .scalar .string => if details.members.all Value.isTold then none else some .enumeration
    | .scalar _ => none
    | .array => stopItems? registry items
    | .object => stopProperties? registry properties
    | .composed => stopAlternatives? registry oneOf

def stopItems? (registry : Registry) : Option Definition → Option Stop
  | none => none
  | some child => stop? registry child

def stopProperties? (registry : Registry) : List (String × Definition) → Option Stop
  | [] => none
  | (_, child) :: rest => (stop? registry child).or (stopProperties? registry rest)

def stopAlternatives? (registry : Registry) : List Definition → Option Stop
  | [] => none
  | child :: rest => (stop? registry child).or (stopAlternatives? registry rest)

end

mutual

/-- A definition with references that lead nowhere in place of the untold enumerations, so that a
visit stops there and not behind them. -/
def barred : Definition → Definition
  | reference text => reference text
  | schema kind details items properties oneOf =>
    if isUntold (schema kind details none [] []) then reference ""
    else schema kind details (barredItems items) (barredProperties properties) (barredAll oneOf)

def barredItems : Option Definition → Option Definition
  | none => none
  | some child => some (barred child)

def barredProperties : List (String × Definition) → List (String × Definition)
  | [] => []
  | (name, child) :: rest => (name, barred child) :: barredProperties rest

def barredAll : List Definition → List Definition
  | [] => []
  | child :: rest => barred child :: barredAll rest

end

end Definition

namespace Definitions

/-- What the resolution of a document stops at. -/
def stop? (definitions : Definitions) : Option Stop :=
  definitions.findSome? fun named => named.2.stop? (Registry.ofDefinitions definitions).titled

def barred (definitions : Definitions) : Definitions :=
  definitions.map fun named => (named.1, named.2.barred)

end Definitions
end SchemaTables
